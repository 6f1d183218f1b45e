import Gtoaes.Lib.ReadBack
import Gtoaes.Obss.Frame
import Gtoaes.Obss.Settling

/-!
A focus frame, as one system handles it: five reports, one for each camera of the
unit, whether or not the frame has its label. The cameras have different ids, so what
becomes of an entry is decided by the one report that finds it.
-/

namespace Gtoaes

open Lib Lib.Handler

namespace Obss

/-- The id of the camera that a label stands for. -/
def focusCid (unit : ℤ) (k : ℕ) : Text := zeroPad 3 (unit * 10 + 1 + k)

/-- The report for one label. -/
def labelReport (unit : ℤ) (pos : List ℤ) (k : ℕ) : Event :=
  .notifyFocus (focusCid unit k) (pos.getD k 0)

/-- The reports for some labels, one after the other. -/
def reportLabels (ctx : Ctx) (unit : ℤ) (pos : List ℤ) (ks : List ℕ) : Handler Obss Act :=
  all (ks.map fun k => step ctx (labelReport unit pos k))

/-- The entry is found by some of the labels. -/
def FoundBy (s : Obss) (unit : ℤ) (ks : List ℕ) (i : ℕ) : Prop :=
  ∃ k ∈ ks, s.camIndex (focusCid unit k) = some i

theorem labelReport_getElem? (ctx : Ctx) (unit : ℤ) (pos : List ℤ) (k : ℕ) (s : Obss) (i : ℕ) :
    (step ctx (labelReport unit pos k) s).1.camInfoVec[i]? =
      if s.camIndex (focusCid unit k) = some i then
        s.camInfoVec[i]?.map fun it => (focusReport (pos.getD k 0) it).1
      else s.camInfoVec[i]? := notifyFocus_getElem? ctx _ _ s i

variable {s s' : Obss} {unit : ℤ} {pos : List ℤ} {ks : List ℕ} {i k k' : ℕ}

theorem camIndex_congr (h : s'.core = s.core) (cid : Text) : s'.camIndex cid = s.camIndex cid := by
  have hindex : ∀ s : Obss, s.camIndex cid =
      s.core.cameras.findIdx? fun it => iequals it.info.cid cid := by
    intro s
    rw [camIndex, core, List.findIdx?_map]
    rfl
  rw [hindex, hindex, h]

theorem core_labelReport (ctx : Ctx) (unit : ℤ) (pos : List ℤ) (k : ℕ) (s : Obss) :
    (step ctx (labelReport unit pos k) s).1.core = s.core :=
  (quiet_step_core ctx (show (labelReport unit pos k).quiet = true from rfl) s).1

/-- An entry is found by one label only. -/
theorem label_unique (h : s.camIndex (focusCid unit k) = some i)
    (h' : s.camIndex (focusCid unit k') = some i) : k = k' := by
  obtain ⟨_, hcid, -⟩ := List.findIdx?_eq_some_iff_getElem.mp h
  obtain ⟨_, hcid', -⟩ := List.findIdx?_eq_some_iff_getElem.mp h'
  have hsame : iequals (focusCid unit k) (focusCid unit k') = true :=
    iequals_trans (by rw [iequals_comm]; exact hcid) hcid'
  have heq : unit * 10 + 1 + k = unit * 10 + 1 + k' := eq_of_iequals_zeroPad hsame
  omega

theorem foundBy_congr (h : s'.core = s.core) :
    s'.FoundBy unit ks i ↔ s.FoundBy unit ks i := by
  simp only [FoundBy, camIndex_congr h]

/-- The entries that no label finds stay. -/
theorem reportLabels_of_not_foundBy (ctx : Ctx) (h : ¬ s.FoundBy unit ks i) :
    (reportLabels ctx unit pos ks s).1.camInfoVec[i]? = s.camInfoVec[i]? := by
  induction ks generalizing s with
  | nil => rfl
  | cons k ks ih =>
      have hcore := core_labelReport ctx unit pos k s
      have hfirst : s.camIndex (focusCid unit k) ≠ some i :=
        fun heq => h ⟨k, List.mem_cons_self, heq⟩
      have hrest : ¬ (step ctx (labelReport unit pos k) s).1.FoundBy unit ks i := by
        rw [foundBy_congr hcore]
        rintro ⟨k', hk', heq⟩
        exact h ⟨k', List.mem_cons_of_mem k hk', heq⟩
      calc (reportLabels ctx unit pos (k :: ks) s).1.camInfoVec[i]? =
          (step ctx (labelReport unit pos k) s).1.camInfoVec[i]? := ih hrest
        _ = s.camInfoVec[i]? := by rw [labelReport_getElem?, if_neg hfirst]

/-- An entry takes in the report of the label that finds it. -/
theorem reportLabels_of_label (ctx : Ctx) (hnodup : ks.Nodup) (hk : k ∈ ks)
    (h : s.camIndex (focusCid unit k) = some i) :
    (reportLabels ctx unit pos ks s).1.camInfoVec[i]? =
      s.camInfoVec[i]?.map fun it => (focusReport (pos.getD k 0) it).1 := by
  induction ks generalizing s with
  | nil => cases hk
  | cons j ks ih =>
      have hcore := core_labelReport ctx unit pos j s
      obtain ⟨hj, hnodup⟩ := List.nodup_cons.mp hnodup
      obtain rfl | hk := List.mem_cons.mp hk
      · have hrest : ¬ (step ctx (labelReport unit pos k) s).1.FoundBy unit ks i := by
          rw [foundBy_congr hcore]
          rintro ⟨k', hk', heq⟩
          exact hj (label_unique h heq ▸ hk')
        refine (reportLabels_of_not_foundBy ctx hrest).trans ?_
        rw [labelReport_getElem?, if_pos h]
      · have hother : s.camIndex (focusCid unit j) ≠ some i :=
          fun heq => hj (label_unique h heq ▸ hk)
        refine (ih hnodup hk ((camIndex_congr hcore _).trans h)).trans ?_
        rw [labelReport_getElem?, if_neg hother]

/-- One report sends nothing but a word to the camera it is about. -/
theorem notifyFocus_sends (ctx : Ctx) {cid : Text} {pos : ℤ} {act : Act}
    (h : act ∈ (step ctx (.notifyFocus cid pos) s).2) :
    ∃ conn m it, act = .camera conn (.focus m) ∧ m.cid = cid ∧
      s.camInfoVec.find? (hasCid cid) = some it ∧ (focusReport pos it).2 = true := by
  rw [step, notifyFocus] at h
  cases hfind : s.camInfoVec.find? (hasCid cid) with
  | none =>
      rw [hfind] at h
      cases h
  | some it =>
      rw [hfind] at h
      simp only [all_cons, all_nil, skip_apply, emit_apply, updateCamera, update_apply,
        List.nil_append, List.append_nil] at h
      split at h
      · rename_i hsettled
        obtain ⟨conn, -, rfl⟩ := List.mem_map.mp h
        exact ⟨conn, _, it, rfl, rfl, rfl, hsettled⟩
      · cases h

/-- What is sent is a word to a camera that a label has found, and whose focuser has
settled. -/
theorem reportLabels_sends (ctx : Ctx) (hnodup : ks.Nodup) {act : Act}
    (h : act ∈ (reportLabels ctx unit pos ks s).2) :
    ∃ conn m k i it, act = .camera conn (.focus m) ∧ k ∈ ks ∧ m.cid = focusCid unit k ∧
      s.camIndex (focusCid unit k) = some i ∧ s.camInfoVec[i]? = some it ∧
      (focusReport (pos.getD k 0) it).2 = true := by
  induction ks generalizing s with
  | nil => cases h
  | cons j ks ih =>
      obtain ⟨hj, hnodup⟩ := List.nodup_cons.mp hnodup
      obtain h | h := List.mem_append.mp h
      · obtain ⟨conn, m, it, rfl, hcid, hfind, hsettled⟩ := notifyFocus_sends ctx h
        obtain ⟨i, hi, hit⟩ := camIndex_eq_some hfind
        exact ⟨conn, m, j, i, it, rfl, List.mem_cons_self, hcid, hi, hit, hsettled⟩
      · obtain ⟨conn, m, k, i, it, rfl, hk, hcid, hi, hit, hsettled⟩ := ih hnodup h
        have hcore := core_labelReport ctx unit pos j s
        have hi' : s.camIndex (focusCid unit k) = some i := (camIndex_congr hcore _).symm.trans hi
        have hother : s.camIndex (focusCid unit j) ≠ some i :=
          fun heq => hj (label_unique hi' heq ▸ hk)
        rw [labelReport_getElem?, if_neg hother] at hit
        exact ⟨conn, m, k, i, it, rfl, List.mem_cons_of_mem j hk, hcid, hi', hit, hsettled⟩

/-- A report leaves an entry as it was just if it repeats the position of a focuser that
has settled. -/
theorem focusReport_eq_self_iff {pos : ℤ} {it : CameraInfo} :
    (focusReport pos it).1 = it ↔ it.focPos = pos ∧ it.focState = 0 := by
  obtain ⟨hpos, heq⟩ | ⟨-, hstate, -, heq⟩ | ⟨-, hstate, -, heq⟩ | ⟨hpos, hstate, heq⟩ :=
    focusReport_cases pos it
  · rw [heq]
    refine iff_of_false (fun h => hpos ?_) fun h => hpos h.1.symm
    exact congrArg CameraInfo.focPos h
  · rw [heq]
    refine iff_of_false (fun h => hstate ?_) fun h => hstate h.2
    exact (congrArg CameraInfo.focState h).symm
  · rw [heq]
    refine iff_of_false (fun h => ?_) fun h => hstate h.2
    have hrep : it.rep + 1 = it.rep := congrArg CameraInfo.rep h
    omega
  · rw [heq]
    exact iff_of_true rfl ⟨hpos.symm, hstate⟩

/-- It has nothing to tell then. -/
theorem not_settles_of_eq_self {pos : ℤ} {it : CameraInfo} (h : it.focState = 0) :
    (focusReport pos it).2 = false := by
  obtain ⟨-, heq⟩ | ⟨-, hstate, -⟩ | ⟨-, -, -, heq⟩ | ⟨-, -, heq⟩ := focusReport_cases pos it
  · rw [heq]
  · exact absurd h hstate
  · rw [heq]
  · rw [heq]

end Obss

end Gtoaes
