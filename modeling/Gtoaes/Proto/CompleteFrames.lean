import Gtoaes.Lib.Machine
import Gtoaes.Proto.KVProtocol
import Gtoaes.Proto.NonKVText

/-!
Which frames the encoders print as a whole. The buffer they print to has room for ids and
cameras' names of a few characters, but these are as long as a camera gives them; and
coordinates, rates and widths become `int`s whatever their value.
-/

namespace Gtoaes

open Lib

namespace Lib

/-- A double whose conversion to `int` is defined: towards zero it is an `int`. -/
def Double.Converts : Double → Prop
  | .fin q => IsInt (if 0 ≤ q then ⌊q⌋ else ⌈q⌉)
  | _ => False

/-- A finite double between two numbers. -/
def Double.Between (lo hi : ℚ) : Double → Prop
  | .fin q => lo < q ∧ q < hi
  | _ => False

theorem Double.converts_iff (x : Double) : x.Converts ↔ x.Between (-2147483649) 2147483648 := by
  cases x with
  | fin q =>
      show IsInt (if 0 ≤ q then ⌊q⌋ else ⌈q⌉) ↔ -2147483649 < q ∧ q < 2147483648
      by_cases hq : 0 ≤ q
      · have hfloor : 0 ≤ ⌊q⌋ := Int.floor_nonneg.mpr hq
        have hhigh : ⌊q⌋ < 2147483648 ↔ q < 2147483648 := by exact_mod_cast Int.floor_lt
        rw [if_pos hq, IsInt, ← hhigh]
        constructor
        · exact fun h => ⟨by linarith, by omega⟩
        · exact fun h => ⟨by omega, by omega⟩
      · have hceil : ⌈q⌉ ≤ 0 := Int.ceil_nonpos.mpr (le_of_not_ge hq)
        have hlow : -2147483648 ≤ ⌈q⌉ ↔ -2147483649 < q := by
          rw [Int.le_ceil_iff]
          norm_num
        rw [if_neg hq, IsInt, ← hlow]
        constructor
        · exact fun h => ⟨by omega, by linarith⟩
        · exact fun h => ⟨by omega, by omega⟩
  | inf neg => exact Iff.rfl
  | nan => exact Iff.rfl

end Lib

/-- The doubles that an encoder converts. -/
def NonKVBody.converted : NonKVBody → List Double
  | .slew ra dec => [ra.scale 10000, dec.scale 10000]
  | .trackVelocity ra dec =>
      [(ra.scale 1000).sub (.fin (mkRat (-1) 2)), (dec.scale 1000).sub (.fin (mkRat (-1) 2))]
  | .fwhm _ _ value => [(value.scale 1000).sub (.fin (mkRat (-1) 2))]
  | _ => []

/-- A frame that is printed as a whole, to the five digits of its serial number, `%` and
the newline, from conversions that are defined. -/
structure NonKVFrame.Complete (stamp : Time → Stamp) (f : NonKVFrame) : Prop where
  whole : f.text stamp = f.command ++ f.trailer stamp
  closed : ∃ front, f.text stamp = front ++ zeroPad 5 f.serno ++ "%\n".toList ∧
    (zeroPad 5 f.serno).length = 5
  converts : ∀ x ∈ f.body.converted, x.Converts

/-- Coordinates and rates of which an `int` can hold what they are counted in: a ten
thousandth of a degree, or a thousandth. -/
def NonKVBody.InRange : NonKVBody → Prop
  | .slew ra dec =>
      ra.Between (-214748.3649) 214748.3648 ∧ dec.Between (-214748.3649) 214748.3648
  | .trackVelocity ra dec =>
      ra.Between (-2147483.6495) 2147483.6475 ∧ dec.Between (-2147483.6495) 2147483.6475
  | .fwhm _ _ value => value.Between (-2147483.6495) 2147483.6475
  | _ => True

/-- The encoders of one system, called in any order. -/
def encoder : Machine NonKVProtocol (NonKVBody × Time) NonKVFrame where
  step p call :=
    ((NonKVProtocol.encode call.1 p call.2).2, [(NonKVProtocol.encode call.1 p call.2).1])

def NonKVProtocol.start (gid uid : Text) : Config NonKVProtocol NonKVFrame where
  state := { gid := gid, uid := uid }
  hist := []

namespace NonKVBody

theorem converts_tenThousandths (x : Double) :
    (x.scale 10000).Converts ↔ x.Between (-214748.3649) 214748.3648 := by
  rw [Double.converts_iff]
  cases x with
  | fin q =>
      show -2147483649 < q * 10000 ∧ q * 10000 < 2147483648 ↔
        -214748.3649 < q ∧ q < 214748.3648
      constructor
      · rintro ⟨hlo, hhi⟩
        constructor <;> linarith
      · rintro ⟨hlo, hhi⟩
        constructor <;> linarith
  | inf neg => exact Iff.rfl
  | nan => exact Iff.rfl

theorem converts_thousandths (x : Double) :
    ((x.scale 1000).sub (.fin (mkRat (-1) 2))).Converts ↔
      x.Between (-2147483.6495) 2147483.6475 := by
  rw [Double.converts_iff]
  have hhalf : mkRat (-1) 2 = -(1 / 2) := by norm_num [Rat.mkRat_eq_div]
  cases x with
  | fin q =>
      show -2147483649 < q * 1000 - mkRat (-1) 2 ∧ q * 1000 - mkRat (-1) 2 < 2147483648 ↔
        -2147483.6495 < q ∧ q < 2147483.6475
      rw [hhalf]
      constructor
      · rintro ⟨hlo, hhi⟩
        constructor <;> linarith
      · rintro ⟨hlo, hhi⟩
        constructor <;> linarith
  | inf neg => exact Iff.rfl
  | nan => exact Iff.rfl

theorem converts_iff (body : NonKVBody) : (∀ x ∈ body.converted, x.Converts) ↔ body.InRange := by
  cases body with
  | slew ra dec =>
      rw [converted, InRange, List.forall_mem_cons, List.forall_mem_singleton,
        converts_tenThousandths, converts_tenThousandths]
  | trackVelocity ra dec =>
      rw [converted, InRange, List.forall_mem_cons, List.forall_mem_singleton,
        converts_thousandths, converts_thousandths]
  | fwhm cid tmobs value =>
      rw [converted, InRange, List.forall_mem_singleton, converts_thousandths]
  | _ => exact iff_of_true (fun x hx => by cases hx) trivial

end NonKVBody

namespace NonKVProtocol

/-- What a frame needs to be complete: values in range, and ids and command of at most 69
characters together. -/
def PrintsWhole (gid uid : Text) (body : NonKVBody) : Prop :=
  body.InRange ∧ gid.length + uid.length + body.width ≤ 69

/-- The ids are those of the system, and the next number is a serial number. -/
structure Issues (gid uid : Text) (p : NonKVProtocol) : Prop where
  gid : p.gid = gid
  uid : p.uid = uid
  serno : 1 ≤ p.serno ∧ p.serno ≤ 99999

variable {gid uid : Text} {p : NonKVProtocol}

theorem Issues.encode (h : p.Issues gid uid) (body : NonKVBody) (utc : Time) :
    (encode body p utc).2.Issues gid uid where
  gid := h.gid
  uid := h.uid
  serno := by
    obtain ⟨-, -, hlow, hhigh⟩ := h
    show 1 ≤ (if p.serno + 1 = 100000 then 1 else p.serno + 1) ∧
      (if p.serno + 1 = 100000 then 1 else p.serno + 1) ≤ 99999
    split <;> omega

/-- A frame that is printed as a whole ends with its number. -/
theorem closed_of_whole {stamp : Time → Stamp} {f : NonKVFrame}
    (hserno : 1 ≤ f.serno ∧ f.serno ≤ 99999) (h : f.text stamp = f.command ++ f.trailer stamp) :
    ∃ front, f.text stamp = front ++ zeroPad 5 f.serno ++ "%\n".toList ∧
      (zeroPad 5 f.serno).length = 5 := by
  refine ⟨f.command ++ ('%' :: (stamp f.utc).date ++ '%' :: (stamp f.utc).time ++ ['%']), ?_,
    length_serial hserno⟩
  rw [h, NonKVFrame.trailer]
  simp only [List.append_assoc, List.cons_append, List.nil_append]

theorem Issues.complete_iff (h : p.Issues gid uid) (stamp : Time → Stamp) (body : NonKVBody)
    (utc : Time) : (NonKVProtocol.encode body p utc).1.Complete stamp ↔ PrintsWhole gid uid body := by
  obtain ⟨rfl, rfl, hserno⟩ := h
  have hwhole := NonKVFrame.text_eq_iff (f := (NonKVProtocol.encode body p utc).1) stamp hserno
  constructor
  · intro hcomplete
    exact ⟨body.converts_iff.mp hcomplete.converts, hwhole.mp hcomplete.whole⟩
  · rintro ⟨hrange, hfits⟩
    have htext := hwhole.mpr hfits
    exact ⟨htext, closed_of_whole hserno htext, body.converts_iff.mpr hrange⟩

theorem complete_exec_iff (stamp : Time → Stamp) {c : Config NonKVProtocol NonKVFrame}
    (h : c.state.Issues gid uid) (calls : List (NonKVBody × Time)) :
    (∀ f ∈ (encoder.exec c calls).hist, f.Complete stamp) ↔
      (∀ f ∈ c.hist, f.Complete stamp) ∧ ∀ call ∈ calls, PrintsWhole gid uid call.1 := by
  induction calls generalizing c with
  | nil => exact ⟨fun hall => ⟨hall, fun call hcall => by cases hcall⟩, And.left⟩
  | cons call calls ih =>
      obtain ⟨body, utc⟩ := call
      have hstep : (encoder.next c (body, utc)).state.Issues gid uid := h.encode body utc
      have hhist : (encoder.next c (body, utc)).hist =
          c.hist ++ [(NonKVProtocol.encode body c.state utc).1] := rfl
      show (∀ f ∈ (encoder.exec (encoder.next c (body, utc)) calls).hist, f.Complete stamp) ↔ _
      rw [ih hstep, hhist, List.forall_mem_append, List.forall_mem_singleton,
        h.complete_iff stamp body utc, List.forall_mem_cons, and_assoc]

end NonKVProtocol

/-- Of the frames that the encoders of a system build all are complete if and only if each
call prints as a whole. -/
theorem complete_iff_printsWhole (stamp : Time → Stamp) (gid uid : Text)
    (calls : List (NonKVBody × Time)) :
    (∀ f ∈ (encoder.exec (NonKVProtocol.start gid uid) calls).hist, f.Complete stamp) ↔
      ∀ call ∈ calls, NonKVProtocol.PrintsWhole gid uid call.1 := by
  have hserno : (1 : ℤ) ≤ 1 ∧ (1 : ℤ) ≤ 99999 := by decide
  have hstart : (NonKVProtocol.start gid uid).state.Issues gid uid := ⟨rfl, rfl, hserno⟩
  refine (NonKVProtocol.complete_exec_iff stamp hstart calls).trans (and_iff_right ?_)
  intro f hf
  cases hf

/-- A camera whose unit has a long name. -/
def longUnit : Text := "camera gid=002,uid=".toList ++ List.replicate 70 'u' ++ ",cid=061".toList

/-- The `park` of its system has no end. -/
theorem not_complete : ¬ ∀ (line : Text) (camera : KVCamera) (stamp : Time → Stamp)
    (calls : List (NonKVBody × Time)), resolve line = .ok (some (.camera camera)) →
    ∀ f ∈ (encoder.exec (NonKVProtocol.start camera.gid camera.uid) calls).hist,
      f.Complete stamp := by
  intro h
  have hres : resolve longUnit = .ok (some (.camera
      { gid := "002".toList, uid := List.replicate 70 'u', cid := "061".toList })) := by
    decide +kernel
  have hpark := h longUnit _ (fun _ => noon) [(.park, 0)] hres _ List.mem_cons_self
  have hlong := (NonKVFrame.text_eq_iff (fun _ => noon) (by decide)).mp hpark.whole
  exact absurd hlong (by decide)

end Gtoaes
