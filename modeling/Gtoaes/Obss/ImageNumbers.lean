import Gtoaes.Lib.CString
import Gtoaes.Lib.ReadBack
import Gtoaes.Obss.Changes
import Gtoaes.Obss.PlanTimes

/-!
The plan numbers that `TakeImage` makes up for images without one: the ids of the
system, the date, and a count that starts again where the day of the month is not the
one of the last image. The day alone does not tell two dates apart, but the number
holds the month and the year as well; so no number is used for two images.
-/

namespace Gtoaes

open Lib Lib.Handler

/-- Year, month and day, in the order of time. -/
def DateLE (a b : ℤ × ℤ × ℤ) : Prop :=
  a.1 < b.1 ∨ a.1 = b.1 ∧ (a.2.1 < b.2.1 ∨ a.2.1 = b.2.1 ∧ a.2.2 ≤ b.2.2)

theorem DateLE.trans {a b c : ℤ × ℤ × ℤ} (h : DateLE a b) (h' : DateLE b c) : DateLE a c := by
  unfold DateLE at *
  omega

theorem DateLE.antisymm {a b : ℤ × ℤ × ℤ} (h : DateLE a b) (h' : DateLE b a) : a = b := by
  unfold DateLE at *
  refine Prod.ext ?_ (Prod.ext ?_ ?_)
  · omega
  · omega
  · omega

theorem DateLE.refl (a : ℤ × ℤ × ℤ) : DateLE a a := .inr ⟨rfl, .inr ⟨rfl, le_rfl⟩⟩

/-- A date whose parts have two digits in a plan number. -/
structure InCentury (date : ℤ × ℤ × ℤ) : Prop where
  year : 2000 ≤ date.1 ∧ date.1 < 2100
  month : 1 ≤ date.2.1 ∧ date.2.1 ≤ 12
  day : 1 ≤ date.2.2 ∧ date.2.2 ≤ 31

/-- The plan number of the `n`-th image of a day. -/
def imageSn (gid uid : Text) (date : ℤ × ℤ × ℤ) (n : ℤ) : Text :=
  gid ++ uid ++ "_".toList ++ zeroPad 2 (date.1 - 2000) ++ zeroPad 2 date.2.1 ++
    zeroPad 2 date.2.2 ++ zeroPad 3 n

/-- A number tells which image it is for. -/
theorem imageSn_inj {gid uid : Text} {date date' : ℤ × ℤ × ℤ} (h : InCentury date)
    (h' : InCentury date') {n n' : ℤ} (heq : imageSn gid uid date n = imageSn gid uid date' n') :
    date = date' ∧ n = n' := by
  have hlen : ∀ {m : ℤ}, 0 ≤ m → m < 100 → (zeroPad 2 m).length = 2 := fun hm hlt =>
    length_zeroPad hm (by omega) (Nat.succ_pos 1)
  have hyear := h.year
  have hmonth := h.month
  have hday := h.day
  have hyear' := h'.year
  have hmonth' := h'.month
  have hday' := h'.day
  simp only [imageSn, List.append_assoc, List.append_cancel_left_eq] at heq
  obtain ⟨hy, heq⟩ := List.append_inj heq
    ((hlen (by omega) (by omega)).trans (hlen (by omega) (by omega)).symm)
  obtain ⟨hm, heq⟩ := List.append_inj heq
    ((hlen (by omega) (by omega)).trans (hlen (by omega) (by omega)).symm)
  obtain ⟨hd, hn⟩ := List.append_inj heq
    ((hlen (by omega) (by omega)).trans (hlen (by omega) (by omega)).symm)
  have hyears := zeroPad_injective 2 hy
  exact ⟨Prod.ext (by omega) (Prod.ext (zeroPad_injective 2 hm) (zeroPad_injective 2 hd)),
    zeroPad_injective 3 hn⟩

namespace Obss

/-- The plan numbers of the images that some outputs take. -/
def imageSns (acts : List Act) : List Text :=
  acts.filterMap fun act =>
    match act with
    | .camera _ (.appPlan m) => some m.planSn
    | _ => none

/-- Only an image without a number moves the count. -/
theorem fixesCount_step (ctx : Ctx) {ev : Event} (h : numbersImage ev = false) :
    Fixes imageCount (step ctx ev) := by
  intro s
  cases hplugs : ev.plugs with
  | true => exact (plugged_step ctx hplugs s).imageCount
  | false =>
      cases hunqueues : ev.unqueues with
      | true => exact imageCount_of_fixtures (fixtures_of_unqueues ctx hunqueues hplugs s)
      | false =>
          have hchanges := changes_step ctx hplugs hunqueues h (encodable_true s ev)
          exact imageCount_of_fixtures hchanges.fixtures

/-! ### Numbers that are made up -/

/-- Takes images under this number only. -/
def TakesOnly (sn : Text) : Act → Prop
  | .camera _ (.appPlan m) => m.planSn = sn
  | _ => True

theorem imageSns_takesOnly {sn : Text} {acts : List Act} (h : ∀ act ∈ acts, TakesOnly sn act) :
    ∀ x ∈ imageSns acts, x = sn := by
  intro x hx
  obtain ⟨act, hact, hsome⟩ := List.mem_filterMap.mp hx
  have honly := h act hact
  split at hsome
  · rw [← Option.some.inj hsome]
    exact honly
  · cases hsome

theorem emits_takesOnly_camera {sn : Text} {proto : KVMsg}
    (hproto : ∀ conn, TakesOnly sn (.camera conn proto)) (cid : Text) :
    Emits (TakesOnly sn) (write2camera proto cid) := by
  refine .emit fun s o ho => ?_
  have hcamera : ∀ l : List Conn, o ∈ (l.map fun conn => Act.camera conn proto) →
      TakesOnly sn o := by
    intro l hl
    obtain ⟨conn, -, rfl⟩ := List.mem_map.mp hl
    exact hproto conn
  split at ho
  · exact hcamera _ ho
  · split at ho
    · exact hcamera _ ho
    · cases ho

/-- The count of the next image, and the day it is in. -/
def nextCount (day : ℤ) (s : Obss) : ℤ := (if day ≠ s.oldDay then 0 else s.planSN) + 1

/-- An image without a number is turned away, or gets the next number. -/
theorem takeImage_cases (ctx : Ctx) (s : Obss) {proto : KVAppPlan} (h : proto.planSn = []) :
    takeImage ctx proto s = (s, []) ∨
      imageCount (takeImage ctx proto s).1 = (s.gid, s.uid, (ctx.posix.date ctx.now).2.2,
          nextCount (ctx.posix.date ctx.now).2.2 s) ∧
        ∀ x ∈ imageSns (takeImage ctx proto s).2, x = imageSn s.gid s.uid (ctx.posix.date ctx.now)
          (nextCount (ctx.posix.date ctx.now).2.2 s) := by
  unfold takeImage
  by_cases hunique : s.unique ctx = true
  · exact .inl (if_pos hunique)
  · rw [if_neg hunique]
    dsimp only
    rw [if_pos h]
    refine .inr ⟨rfl, imageSns_takesOnly ?_⟩
    refine Emits.cons (emits_takesOnly_camera (fun conn => ?_) _)
      (.cons (emits_takesOnly_camera (fun conn => ?_) _) .nil) _
    · exact if_pos h
    · exact trivial

/-! ### Over a run -/

/-- What the handler of an input emits. -/
def outputs (posix : PosixTime) (e : SoloStep) : List Act :=
  (step (e.1.ctx posix e.2) e.2.ev e.1.obss).2

/-- The steps that made up numbers, with the numbers they made. -/
def madeUp (posix : PosixTime) (hist : List SoloStep) : List (List Text) :=
  (hist.filter (numbersImage ·.2.ev)).map fun e => imageSns (outputs posix e)

theorem madeUp_append (posix : PosixTime) (hist : List SoloStep) (e : SoloStep) :
    madeUp posix (hist ++ [e]) = madeUp posix hist ++
      if numbersImage e.2.ev then [imageSns (outputs posix e)] else [] := by
  rw [madeUp, List.filter_append, List.map_append, List.filter_singleton, madeUp]
  cases numbersImage e.2.ev <;> rfl

/-- Where the last number was made on the date `last`: the numbers are those of dates up
to this one, and on this date counts up to the present one. -/
structure NumbersTrue (posix : PosixTime) (gid uid : Text) (last : ℤ × ℤ × ℤ)
    (c : Config Solo SoloStep) : Prop where
  ids : c.state.obss.gid = gid ∧ c.state.obss.uid = uid
  day : c.state.obss.oldDay = last.2.2
  past : ∀ sns ∈ madeUp posix c.hist, ∀ x ∈ sns, ∃ date n, InCentury date ∧
    x = imageSn gid uid date n ∧ DateLE date last ∧ (date = last → n ≤ c.state.obss.planSN)
  disjoint : (madeUp posix c.hist).Pairwise List.Disjoint

variable {posix : PosixTime} {gid uid : Text} {last : ℤ × ℤ × ℤ}
  {c : Config Solo SoloStep} {i : Input}

/-- A step that makes up no number, or is turned away. -/
theorem NumbersTrue.quiet (h : NumbersTrue posix gid uid last c)
    (hcount : imageCount ((solo posix).journal.next c i).state.obss = c.state.obss.imageCount)
    (hmade : numbersImage i.ev = true → imageSns (outputs posix (c.state, i)) = []) :
    NumbersTrue posix gid uid last ((solo posix).journal.next c i) := by
  simp only [imageCount, Prod.mk.injEq] at hcount
  obtain ⟨hgid, huid, hday, hsn⟩ := hcount
  refine ⟨⟨hgid.trans h.ids.1, huid.trans h.ids.2⟩, hday.trans h.day, ?_, ?_⟩
  all_goals rw [Machine.journal_next_hist, madeUp_append]
  · intro sns hsns x hx
    rw [hsn]
    rcases List.mem_append.mp hsns with hsns | hsns
    · exact h.past sns hsns x hx
    · split at hsns
      · rename_i hnumbers
        rw [List.mem_singleton.mp hsns, hmade hnumbers] at hx
        cases hx
      · cases hsns
  · refine List.pairwise_append.mpr ⟨h.disjoint, ?_, ?_⟩
    · split
      · exact List.pairwise_singleton _ _
      · exact .nil
    · intro sns hsns sns' hsns'
      split at hsns'
      · rename_i hnumbers
        rw [List.mem_singleton.mp hsns', hmade hnumbers]
        exact List.disjoint_nil_right sns
      · cases hsns'

/-- A step that makes up a number: another date, or a higher count. -/
theorem NumbersTrue.number (h : NumbersTrue posix gid uid last c) (hnumbers : numbersImage i.ev = true)
    (hle : DateLE last (posix.date i.now)) (hcentury : InCentury (posix.date i.now))
    (hcount : imageCount ((solo posix).journal.next c i).state.obss =
      (gid, uid, (posix.date i.now).2.2, nextCount (posix.date i.now).2.2 c.state.obss))
    (hmade : ∀ x ∈ imageSns (outputs posix (c.state, i)), x =
      imageSn gid uid (posix.date i.now) (nextCount (posix.date i.now).2.2 c.state.obss)) :
    NumbersTrue posix gid uid (posix.date i.now) ((solo posix).journal.next c i) := by
  simp only [imageCount, Prod.mk.injEq] at hcount
  obtain ⟨hgid, huid, hday, hsn⟩ := hcount
  -- on the same date the count has gone up
  have hless : ∀ n, (posix.date i.now = last → n ≤ c.state.obss.planSN) →
      posix.date i.now = last → n < nextCount (posix.date i.now).2.2 c.state.obss := by
    intro n hn hlast
    rw [nextCount, if_neg (by rw [h.day, hlast]; exact fun hne => hne rfl)]
    exact Int.lt_add_one_of_le (hn hlast)
  have hmem : ∀ sns, sns ∈ madeUp posix ((solo posix).journal.next c i).hist ↔
      sns ∈ madeUp posix c.hist ∨ sns = imageSns (outputs posix (c.state, i)) := by
    intro sns
    rw [Machine.journal_next_hist, madeUp_append, if_pos hnumbers, List.mem_append,
      List.mem_singleton]
  refine ⟨⟨hgid, huid⟩, hday, ?_, ?_⟩
  · intro sns hsns x hx
    rw [hsn]
    rcases (hmem sns).mp hsns with hsns | rfl
    · obtain ⟨date, n, hdate, rfl, hle', hn⟩ := h.past sns hsns x hx
      refine ⟨date, n, hdate, rfl, hle'.trans hle, fun heq => ?_⟩
      have hlast : posix.date i.now = last := (heq ▸ hle').antisymm hle
      exact (hless n (fun _ => hn (heq.trans hlast)) hlast).le
    · exact ⟨_, _, hcentury, hmade x hx, .refl _, fun _ => le_rfl⟩
  · rw [Machine.journal_next_hist, madeUp_append, if_pos hnumbers]
    refine List.pairwise_append.mpr ⟨h.disjoint, List.pairwise_singleton _ _, ?_⟩
    intro sns hsns sns' hsns' x hx hx'
    rw [List.mem_singleton.mp hsns'] at hx'
    obtain ⟨date, n, hdate, hsn', hle', hn⟩ := h.past sns hsns x hx
    obtain ⟨rfl, rfl⟩ := imageSn_inj hdate hcentury (hsn'.symm.trans (hmade x hx'))
    have hlast : posix.date i.now = last := hle'.antisymm hle
    exact absurd (hless _ (fun _ => hn hlast) hlast) (lt_irrefl _)

/-- Any step. -/
theorem NumbersTrue.next (h : NumbersTrue posix gid uid last c)
    (hle : DateLE last (posix.date i.now)) (hcentury : InCentury (posix.date i.now)) :
    ∃ last', (last' = last ∨ last' = posix.date i.now) ∧
      NumbersTrue posix gid uid last' ((solo posix).journal.next c i) := by
  cases hnumbers : numbersImage i.ev with
  | false =>
      exact ⟨last, .inl rfl, h.quiet (fixesCount_step (c.state.ctx posix i) hnumbers c.state.obss)
        fun htrue => by rw [hnumbers] at htrue; cases htrue⟩
  | true =>
      obtain ⟨now, unset, ev⟩ := i
      cases ev with
      | takeImage proto =>
          have hsn : proto.planSn = [] := by simpa [numbersImage] using hnumbers
          rcases takeImage_cases (c.state.ctx posix ⟨now, unset, .takeImage proto⟩) c.state.obss hsn
            with hskip | ⟨hcount, hmade⟩
          · refine ⟨last, .inl rfl, h.quiet ?_ fun _ => ?_⟩
            · exact congrArg (fun r => imageCount r.1) hskip
            · exact congrArg (fun r => imageSns r.2) hskip
          · rw [h.ids.1, h.ids.2] at hcount hmade
            exact ⟨_, .inr rfl, h.number hnumbers hle hcentury hcount hmade⟩
      | _ => cases hnumbers

/-- The dates of a clock that never goes back, from the date `last` on. -/
structure Forward (posix : PosixTime) (last : ℤ × ℤ × ℤ) (is : List Input) : Prop where
  century : ∀ i ∈ is, InCentury (posix.date i.now)
  after : ∀ i ∈ is, DateLE last (posix.date i.now)
  order : is.Pairwise fun i j => DateLE (posix.date i.now) (posix.date j.now)

theorem NumbersTrue.exec (is : List Input) {last : ℤ × ℤ × ℤ} {c : Config Solo SoloStep}
    (h : NumbersTrue posix gid uid last c) (hforward : Forward posix last is) :
    ∃ last', NumbersTrue posix gid uid last' ((solo posix).journal.exec c is) := by
  induction is generalizing c last with
  | nil => exact ⟨last, h⟩
  | cons i is ih =>
      obtain ⟨hcentury, hafter, horder⟩ := hforward
      rw [List.pairwise_cons] at horder
      obtain ⟨last', hlast', hnext⟩ := h.next (hafter i List.mem_cons_self)
        (hcentury i List.mem_cons_self)
      refine ih hnext ⟨fun j hj => hcentury j (List.mem_cons_of_mem _ hj), fun j hj => ?_, horder.2⟩
      rcases hlast' with rfl | rfl
      · exact hafter j (List.mem_cons_of_mem _ hj)
      · exact horder.1 j hj

end Obss

theorem numbersTrue_unwritten (posix : PosixTime) (gid uid : Text) (type : ObssType)
    (created : Time) :
    Obss.NumbersTrue posix gid uid (0, 0, 0) (Solo.unwritten gid uid type created) where
  ids := ⟨rfl, rfl⟩
  day := rfl
  past := by simp [Obss.madeUp, Solo.unwritten]
  disjoint := List.Pairwise.nil

/-- While the clock never goes back, a system makes up every number for one image only. -/
theorem imageNumbers_unique (posix : PosixTime) (gid uid : Text) (type : ObssType) (created : Time)
    (is : List Input) (hcentury : ∀ i ∈ is, InCentury (posix.date i.now))
    (horder : is.Pairwise fun i j => DateLE (posix.date i.now) (posix.date j.now)) :
    (Obss.madeUp posix ((solo posix).journal.exec
      (Solo.unwritten gid uid type created) is).hist).Pairwise List.Disjoint := by
  have hafter : ∀ i ∈ is, DateLE (0, 0, 0) (posix.date i.now) := by
    intro i hi
    have hyear := (hcentury i hi).year
    exact .inl (show (0 : ℤ) < (posix.date i.now).1 by omega)
  obtain ⟨last, hnumbers⟩ := (numbersTrue_unwritten posix gid uid type created).exec is
    ⟨hcentury, hafter, horder⟩
  exact hnumbers.disjoint

/-- A clock that shows the last day of a month, then the last day of March. -/
def PosixTime.monthEnds : PosixTime where
  toIsoExtendedString _ := []
  fromIsoExtendedString _ := none
  date t := if t < 19754 * 86400 then (2024, 1, 31) else (2024, 3, 31)

/-- Three images without a number, the last one two months after the others. -/
def imagesAtMonthEnds : List Input :=
  [Event.plain (.coupleCamera 1 "001".toList),
   { Event.plain (.takeImage {}) with now := 19753 * 86400 },
   { Event.plain (.takeImage {}) with now := 19753 * 86400 + 60 },
   { Event.plain (.takeImage {}) with now := 19813 * 86400 }]

theorem imageNumbers_unique_monthEnds :
    (Obss.madeUp .monthEnds ((solo .monthEnds).journal.exec
      (Solo.unwritten "001".toList "002".toList .gwac 0) imagesAtMonthEnds).hist).Pairwise
        List.Disjoint ∧
    Obss.madeUp .monthEnds ((solo .monthEnds).journal.exec
      (Solo.unwritten "001".toList "002".toList .gwac 0) imagesAtMonthEnds).hist =
        [["001002_240131001".toList], ["001002_240131002".toList],
          ["001002_240331003".toList]] := by
  refine ⟨imageNumbers_unique .monthEnds _ _ _ _ _ (fun i hi => ?_) (by
    unfold DateLE
    decide), by decide +kernel⟩
  have hdate : PosixTime.monthEnds.date i.now = (2024, 1, 31) ∨
      PosixTime.monthEnds.date i.now = (2024, 3, 31) := by
    unfold PosixTime.monthEnds
    dsimp only
    split
    · exact .inl rfl
    · exact .inr rfl
  rcases hdate with hdate | hdate
  · rw [hdate]
    exact ⟨by decide, by decide, by decide⟩
  · rw [hdate]
    exact ⟨by decide, by decide, by decide⟩

end Gtoaes
