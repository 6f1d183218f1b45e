import Gtoaes.Proto.PrintedLine

/-!
Printed messages come back, and are printed again as they were.

The classes of one type each are taken through one by one: the message that
`Resolve` makes of the items has the printed fields of the first and, in the
fields that were not printed, its defaults.
-/

namespace Gtoaes

open Lib

/-! ### What can be printed -/

/-- A text that may stand as a value in a line. -/
def PlainText (t : Text) : Prop :=
  (∀ c ∈ t, c ≠ ',' ∧ c ≠ '=' ∧ c ≠ '\n' ∧ c ≠ '\x00') ∧ trim t = t

/-- `x` is printed, read back as `y` and printed again with the same result. -/
def Rereads (x y : Double) : Prop := stod x.printed.text = .ok y ∧ y.printed.text = x.printed.text

/-- Of a number in a line, that reading and printing it again changes nothing. -/
def Value.Printable : Value → Prop
  | .text t => PlainText t
  | .int n => -2 ^ 31 ≤ n ∧ n < 2 ^ 31
  | .dbl x => ∃ y, stod x.text = .ok y ∧ y.printed.text = x.text

/-- The item is set, to a value of which that holds. -/
def Item.Printable (it : Item) : Prop := ∃ v, it.val = some v ∧ v.Printable

def KVMsg.Printable (m : KVMsg) : Prop := ∀ it ∈ m.base.items ++ m.ownItems, it.Printable

@[simp] theorem printable_joinText {key : String} {t : Text} :
    (joinText key t).Printable ↔ PlainText t := by
  simp [Item.Printable, joinText, Value.Printable]

@[simp] theorem printable_joinInt {key : String} {n : ℤ} :
    (joinInt key n).Printable ↔ -2 ^ 31 ≤ n ∧ n < 2 ^ 31 := by
  simp [Item.Printable, joinInt, Value.Printable]

@[simp] theorem printable_joinOptInt {key : String} {o : Option ℤ} :
    (joinOptInt key o).Printable ↔ ∃ n, o = some n ∧ -2 ^ 31 ≤ n ∧ n < 2 ^ 31 := by
  cases o <;> simp [Item.Printable, joinOptInt, Value.Printable]

@[simp] theorem printable_joinDbl {key : String} {o : Option Double} :
    (joinDbl key o).Printable ↔ ∃ x, o = some x ∧ ∃ y, Rereads x y := by
  cases o <;> simp [Item.Printable, joinDbl, Value.Printable, Rereads]

theorem clean_of_plainText {t : Text} (h : PlainText t) : Clean t := by
  refine ⟨fun c hc => ?_, fun c hc => ?_, h.2⟩
  · exact beq_false_of_ne (h.1 c hc).1
  · exact beq_false_of_ne (h.1 c hc).2.1

theorem clean_of_printable {it : Item} (h : it.Printable) (mem : Text → Value) :
    Clean (it.valueText mem) := by
  obtain ⟨v, hval, hv⟩ := h
  rw [Item.valueText, hval, Option.getD_some]
  cases v with
  | text t => exact clean_of_plainText hv
  | int n => exact clean_intText n
  | dbl x => exact clean_dblText x

/-! ### One class of messages -/

variable {mem : Text → Value}

/-- Read back into a fresh message, the items of `m` make one that prints the
same. -/
def ComesBack {α : Type} (mem : Text → Value) (keys : List (Key α)) (mk : α → KVMsg)
    (init m : α) : Prop :=
  ∃ m', ReadsBack mem keys (fun _ m => m) (mk m).ownItems init m' ∧
    (mk m').base.type = (mk init).base.type ∧
    ∀ mem', itemsText mem' (mk m').ownItems = itemsText mem (mk m).ownItems

section

variable {α : Type} {keys : List (Key α)} {other : KeyValPair → α → α} {items : List Item}
  {m m' : α} {key : String}

theorem ReadsBack.setInt {n : ℤ} {set : ℤ → α → α} (hn : -2 ^ 31 ≤ n ∧ n < 2 ^ 31)
    (hfind : keys.find? (fun k => iequals key.toList k.name) = some ⟨key.toList, .int set⟩)
    (hrest : ReadsBack mem keys other items (set n m) m') :
    ReadsBack mem keys other (joinInt key n :: items) m m' :=
  .int rfl hn hfind hrest

theorem ReadsBack.optInt {o : Option ℤ} {n : ℤ} {set : ℤ → α → α} (ho : o = some n)
    (hn : -2 ^ 31 ≤ n ∧ n < 2 ^ 31)
    (hfind : keys.find? (fun k => iequals key.toList k.name) = some ⟨key.toList, .int set⟩)
    (hrest : ReadsBack mem keys other items (set n m) m') :
    ReadsBack mem keys other (joinOptInt key o :: items) m m' := by
  subst ho
  exact .int rfl hn hfind hrest

theorem ReadsBack.rereads {o : Option Double} {x y : Double} {set : Double → α → α}
    (ho : o = some x) (h : Rereads x y)
    (hfind : keys.find? (fun k => iequals key.toList k.name) = some ⟨key.toList, .dbl set⟩)
    (hrest : ReadsBack mem keys other items (set y m) m') :
    ReadsBack mem keys other (joinDbl key o :: items) m m' := by
  subst ho
  exact .dbl h.1 hfind hrest

theorem ReadsBack.setText {t : Text} {set : Text → α → α} (hempty : t = [] → set [] m = m)
    (hfind : keys.find? (fun k => iequals key.toList k.name) = some ⟨key.toList, .text set⟩)
    (hrest : ReadsBack mem keys other items (set t m) m') :
    ReadsBack mem keys other (joinText key t :: items) m m' :=
  .text rfl hempty hfind hrest

end

@[simp] theorem itemsText_nil : itemsText mem [] = [] := rfl

@[simp] theorem itemsText_cons (it : Item) (items : List Item) :
    itemsText mem (it :: items) = it.text mem ++ ',' :: itemsText mem items := by
  simp [itemsText]

theorem itemsText_append (as bs : List Item) :
    itemsText mem (as ++ bs) = itemsText mem as ++ itemsText mem bs := by
  simp [itemsText]

@[simp] theorem text_joinText (key : String) (t : Text) :
    (joinText key t).text mem = key.toList ++ '=' :: t := rfl

@[simp] theorem text_joinInt (key : String) (n : ℤ) :
    (joinInt key n).text mem = key.toList ++ '=' :: intText n := rfl

@[simp] theorem text_joinOptInt (key : String) (n : ℤ) :
    (joinOptInt key (some n)).text mem = key.toList ++ '=' :: intText n := rfl

@[simp] theorem text_joinDbl (key : String) (x : Double) :
    (joinDbl key (some x)).text mem = key.toList ++ '=' :: x.printed.text := rfl

theorem itemsText_joinGiven (mem' : Text → Value) (key : String) (t : Text) :
    itemsText mem' (joinGiven key t) = itemsText mem (joinGiven key t) := by
  rw [joinGiven]
  split <;> rfl

theorem comesBack_checkPlan (m : KVCheckPlan) : ComesBack mem checkPlanKeys .checkPlan {} m := by
  refine ⟨{ planSn := m.planSn }, ?_, rfl, fun mem' => ?_⟩
  · have hread : ReadsBack mem checkPlanKeys (fun _ m => m) (joinGiven "plan_sn" m.planSn ++ [])
        {} { planSn := m.planSn } := .given (fun _ => rfl) rfl .nil
    rwa [List.append_nil] at hread
  · exact itemsText_joinGiven mem' _ _

theorem comesBack_removePlan (m : KVRemovePlan) :
    ComesBack mem removePlanKeys .removePlan {} m := by
  refine ⟨{ planSn := m.planSn }, ?_, rfl, fun mem' => ?_⟩
  · have hread : ReadsBack mem removePlanKeys (fun _ m => m) (joinGiven "plan_sn" m.planSn ++ [])
        {} { planSn := m.planSn } := .given (fun _ => rfl) rfl .nil
    rwa [List.append_nil] at hread
  · exact itemsText_joinGiven mem' _ _

theorem comesBack_plan (m : KVPlan) (h : ∀ it ∈ m.ownItems, it.Printable) :
    ComesBack mem planKeys .plan {} m := by
  obtain ⟨n, hstate, hn⟩ := printable_joinOptInt.mp (h (joinOptInt "state" m.state)
    (by simp [KVPlan.ownItems]))
  refine ⟨{ planSn := m.planSn, tmStart := m.tmStart, tmStop := m.tmStop, state := some n }, ?_,
    rfl, fun mem' => ?_⟩
  · simp only [KVMsg.ownItems, KVPlan.ownItems, List.append_assoc]
    exact .given (fun _ => rfl) rfl <| .given (fun _ => rfl) rfl <| .given (fun _ => rfl) rfl <|
      .optInt hstate hn rfl .nil
  · simp only [KVMsg.ownItems, KVPlan.ownItems, itemsText_append, hstate]
    rw [itemsText_joinGiven mem' "plan_sn", itemsText_joinGiven mem' "tm_start",
      itemsText_joinGiven mem' "tm_stop"]
    rfl

theorem comesBack_obss (m : KVOBSS) (h : ∀ it ∈ m.ownItems, it.Printable) :
    ComesBack mem obssKeys .obss {} m := by
  simp only [KVOBSS.ownItems, List.forall_mem_cons, printable_joinOptInt] at h
  obtain ⟨⟨state, hstate, hstate'⟩, ⟨mount, hmount, hmount'⟩, ⟨camera, hcamera, hcamera'⟩, -⟩ := h
  refine ⟨_, .optInt hstate hstate' rfl <| .optInt hmount hmount' rfl <|
    .optInt hcamera hcamera' rfl .nil, rfl, fun mem' => ?_⟩
  simp [KVMsg.ownItems, KVOBSS.ownItems, hstate, hmount, hcamera]

theorem comesBack_guide (m : KVGuide) (h : ∀ it ∈ m.ownItems, it.Printable) :
    ComesBack mem guideKeys .guide {} m := by
  by_cases hoff : m.ra ≠ 0 ∨ m.dec ≠ 0
  · have hitems : m.ownItems = [joinInt "result" m.result, joinInt "op" m.op,
        joinInt "ra" m.ra, joinInt "dec" m.dec] := by
      simp [KVGuide.ownItems, hoff]
    simp only [hitems, List.forall_mem_cons, printable_joinInt] at h
    obtain ⟨hresult, hop, hra, hdec, -⟩ := h
    refine ⟨{ result := m.result, op := m.op, ra := m.ra, dec := m.dec }, ?_, rfl, fun mem' => ?_⟩
    · rw [KVMsg.ownItems, hitems]
      exact .setInt hresult rfl <| .setInt hop rfl <| .setInt hra rfl <| .setInt hdec rfl .nil
    · simp [KVMsg.ownItems, KVGuide.ownItems, hoff]
  · have hitems : m.ownItems = [joinInt "result" m.result, joinInt "op" m.op] := by
      simp [KVGuide.ownItems, hoff]
    simp only [hitems, List.forall_mem_cons, printable_joinInt] at h
    obtain ⟨hresult, hop, -⟩ := h
    refine ⟨{ result := m.result, op := m.op }, ?_, rfl, fun mem' => ?_⟩
    · rw [KVMsg.ownItems, hitems]
      exact .setInt hresult rfl <| .setInt hop rfl .nil
    · simp [KVMsg.ownItems, KVGuide.ownItems, hoff]

theorem comesBack_trackVel (m : KVTrackVel) (h : ∀ it ∈ m.ownItems, it.Printable) :
    ComesBack mem trackvelKeys .trackVel {} m := by
  simp only [KVTrackVel.ownItems, List.forall_mem_cons, printable_joinDbl] at h
  obtain ⟨⟨ra, hra, ra', hra'⟩, ⟨dec, hdec, dec', hdec'⟩, -⟩ := h
  refine ⟨_, .rereads hra hra' rfl <| .rereads hdec hdec' rfl .nil, rfl, fun mem' => ?_⟩
  simp [KVMsg.ownItems, KVTrackVel.ownItems, hra, hdec, hra'.2, hdec'.2]

theorem comesBack_mount (m : KVMount) (h : ∀ it ∈ m.ownItems, it.Printable) :
    ComesBack mem mountKeys .mount {} m := by
  simp only [KVMount.ownItems, List.forall_mem_cons, printable_joinInt, printable_joinDbl] at h
  obtain ⟨hstate, herr, ⟨_, ⟨⟩, mjd, hmjd⟩, ⟨_, ⟨⟩, lst, hlst⟩, ⟨_, ⟨⟩, ra, hra⟩,
    ⟨_, ⟨⟩, dec, hdec⟩, ⟨_, ⟨⟩, ra2k, hra2k⟩, ⟨_, ⟨⟩, dec2k, hdec2k⟩, ⟨_, ⟨⟩, azi, hazi⟩,
    ⟨_, ⟨⟩, ele, hele⟩, -⟩ := h
  refine ⟨_, .setInt hstate rfl <| .setInt herr rfl <| .rereads rfl hmjd rfl <|
    .rereads rfl hlst rfl <| .rereads rfl hra rfl <| .rereads rfl hdec rfl <|
    .rereads rfl hra2k rfl <| .rereads rfl hdec2k rfl <| .rereads rfl hazi rfl <|
    .rereads rfl hele rfl .nil, rfl, fun mem' => ?_⟩
  simp [KVMsg.ownItems, KVMount.ownItems, hmjd.2, hlst.2, hra.2, hdec.2, hra2k.2, hdec2k.2,
    hazi.2, hele.2]

theorem comesBack_expose (m : KVExpose) (h : ∀ it ∈ m.ownItems, it.Printable) :
    ComesBack mem exposeKeys .expose {} m := by
  simp only [KVExpose.ownItems, List.forall_mem_cons, printable_joinInt, printable_joinOptInt] at h
  obtain ⟨⟨command, hcommand, hcommand'⟩, hfrmno, hloopno, -⟩ := h
  refine ⟨_, .optInt hcommand hcommand' rfl <| .setInt hfrmno rfl <| .setInt hloopno rfl .nil, rfl,
    fun mem' => ?_⟩
  simp [KVMsg.ownItems, KVExpose.ownItems, hcommand]

theorem comesBack_camSet (m : KVCamSet) (h : ∀ it ∈ m.ownItems, it.Printable) :
    ComesBack mem camsetKeys .camSet {} m := by
  by_cases hzero : m.opType = 0
  · simp only [KVCamSet.ownItems, hzero, if_true, List.append_nil, List.forall_mem_cons,
      printable_joinInt] at h
    refine ⟨{ opType := 0 }, ?_, rfl, fun mem' => ?_⟩
    · simp only [KVMsg.ownItems, KVCamSet.ownItems, hzero, if_true, List.append_nil]
      exact .setInt h.1 rfl .nil
    · simp [KVMsg.ownItems, KVCamSet.ownItems, hzero]
  · by_cases htwo : m.opType = 2
    · simp only [KVCamSet.ownItems, htwo, two_ne_zero, if_false, if_true, List.cons_append,
        List.nil_append, List.forall_mem_cons, printable_joinInt, printable_joinOptInt,
        printable_joinDbl] at h
      obtain ⟨hop, ⟨depth, hdepth, hdepth'⟩, ⟨adc, hadc, hadc'⟩, ⟨port, hport, hport'⟩,
        ⟨rate, hrate, hrate'⟩, ⟨ivs, hivs, hivs'⟩, ⟨igain, higain, higain'⟩, ⟨cool, hcool, hcool'⟩,
        ⟨pixel, hpixel, hpixel'⟩, -, -, -, ⟨vs, hvs, vs', hvs'⟩, ⟨gain, hgain, gain', hgain'⟩, -⟩ := h
      refine ⟨{ opType := 2, bitDepth := some depth, iADC := some adc, iReadPort := some port,
                iReadRate := some rate, iVSRate := some ivs, iGain := some igain,
                coolSet := some cool, bitPixel := some pixel, adc := m.adc, readPort := m.readPort,
                readRate := m.readRate, vsRate := some vs', gain := some gain' }, ?_, rfl,
        fun mem' => ?_⟩
      · simp only [KVMsg.ownItems, KVCamSet.ownItems, htwo, two_ne_zero, if_false, if_true]
        exact .setInt hop rfl <| .optInt hdepth hdepth' rfl <| .optInt hadc hadc' rfl <|
          .optInt hport hport' rfl <| .optInt hrate hrate' rfl <| .optInt hivs hivs' rfl <|
          .optInt higain higain' rfl <| .optInt hcool hcool' rfl <| .optInt hpixel hpixel' rfl <|
          .setText (fun _ => rfl) rfl <| .setText (fun _ => rfl) rfl <|
          .setText (fun _ => rfl) rfl <| .rereads hvs hvs' rfl <| .rereads hgain hgain' rfl .nil
      · simp [KVMsg.ownItems, KVCamSet.ownItems, htwo, hdepth, hadc, hport, hrate, hivs, higain,
          hcool, hpixel, hvs, hgain, hvs'.2, hgain'.2]
    · simp only [KVCamSet.ownItems, hzero, htwo, if_false, List.cons_append, List.nil_append,
        List.forall_mem_cons, printable_joinInt, printable_joinOptInt, printable_joinDbl] at h
      obtain ⟨hop, ⟨pixel, hpixel, hpixel'⟩, -, -, -, ⟨vs, hvs, vs', hvs'⟩,
        ⟨gain, hgain, gain', hgain'⟩, -⟩ := h
      refine ⟨{ opType := m.opType, bitPixel := some pixel, adc := m.adc, readPort := m.readPort,
                readRate := m.readRate, vsRate := some vs', gain := some gain' }, ?_, rfl,
        fun mem' => ?_⟩
      · simp only [KVMsg.ownItems, KVCamSet.ownItems, hzero, htwo, if_false]
        exact .setInt hop rfl <| .optInt hpixel hpixel' rfl <| .setText (fun _ => rfl) rfl <|
          .setText (fun _ => rfl) rfl <| .setText (fun _ => rfl) rfl <|
          .rereads hvs hvs' rfl <| .rereads hgain hgain' rfl .nil
      · simp [KVMsg.ownItems, KVCamSet.ownItems, hzero, htwo, hpixel, hvs, hgain, hvs'.2, hgain'.2]

theorem comesBack_camera (m : KVCamera) (h : ∀ it ∈ m.ownItems, it.Printable) :
    ComesBack mem cameraKeys .camera {} m := by
  simp only [KVCamera.ownItems, List.forall_mem_cons, printable_joinOptInt, printable_joinDbl] at h
  obtain ⟨⟨state, hstate, hstate'⟩, ⟨err, herr, herr'⟩, ⟨left, hleft, left', hleft'⟩,
    ⟨percent, hpercent, percent', hpercent'⟩, ⟨cool, hcool, hcool'⟩, -, -, ⟨disk, hdisk, hdisk'⟩, -,
    ⟨loop, hloop, hloop'⟩, ⟨frm, hfrm, hfrm'⟩, -⟩ := h
  refine ⟨_, .optInt hstate hstate' rfl <| .optInt herr herr' rfl <| .rereads hleft hleft' rfl <|
    .rereads hpercent hpercent' rfl <| .optInt hcool hcool' rfl <| .setText (fun _ => rfl) rfl <|
    .setText (fun _ => rfl) rfl <| .optInt hdisk hdisk' rfl <| .setText (fun _ => rfl) rfl <|
    .optInt hloop hloop' rfl <| .optInt hfrm hfrm' rfl <| .setText (fun _ => rfl) rfl .nil, rfl,
    fun mem' => ?_⟩
  simp [KVMsg.ownItems, KVCamera.ownItems, hstate, herr, hleft, hpercent, hcool, hdisk, hloop, hfrm,
    hleft'.2, hpercent'.2]

theorem comesBack_focus (m : KVFocus) (h : ∀ it ∈ m.ownItems, it.Printable) :
    ComesBack mem focusKeys .focus {} m := by
  by_cases hzero : m.opType = 0
  · simp only [KVFocus.ownItems, hzero, if_true, List.cons_append, List.nil_append,
      List.forall_mem_cons, printable_joinInt] at h
    obtain ⟨hop, hstate, hpos, htar, -⟩ := h
    refine ⟨{ opType := 0, state := m.state, pos := m.pos, posTar := m.posTar }, ?_, rfl,
      fun mem' => ?_⟩
    · simp only [KVMsg.ownItems, KVFocus.ownItems, hzero, if_true]
      exact .setInt hop rfl <| .setInt hstate rfl <| .setInt hpos rfl <| .setInt htar rfl .nil
    · simp [KVMsg.ownItems, KVFocus.ownItems, hzero]
  · by_cases hone : m.opType = 1
    · simp only [KVFocus.ownItems, hone, one_ne_zero, if_false, if_true, List.cons_append,
        List.nil_append, List.forall_mem_cons, printable_joinInt] at h
      obtain ⟨hop, hrel, -⟩ := h
      refine ⟨{ opType := 1, relPos := m.relPos }, ?_, rfl, fun mem' => ?_⟩
      · simp only [KVMsg.ownItems, KVFocus.ownItems, hone, one_ne_zero, if_false, if_true]
        exact .setInt hop rfl <| .setInt hrel rfl .nil
      · simp [KVMsg.ownItems, KVFocus.ownItems, hone]
    · simp only [KVFocus.ownItems, hzero, hone, if_false, List.append_nil, List.forall_mem_cons,
        printable_joinInt] at h
      refine ⟨{ opType := m.opType }, ?_, rfl, fun mem' => ?_⟩
      · simp only [KVMsg.ownItems, KVFocus.ownItems, hzero, hone, if_false, List.append_nil]
        exact .setInt h.1 rfl .nil
      · simp [KVMsg.ownItems, KVFocus.ownItems, hzero, hone]

theorem comesBack_fwhm (m : KVFWHM) (h : ∀ it ∈ m.ownItems, it.Printable) :
    ComesBack mem fwhmKeys .fwhm {} m := by
  simp only [KVFWHM.ownItems, List.forall_mem_cons, printable_joinDbl] at h
  obtain ⟨⟨value, hvalue, value', hvalue'⟩, -⟩ := h
  refine ⟨_, .rereads hvalue hvalue' rfl <| .setText (fun _ => rfl) rfl .nil, rfl, fun mem' => ?_⟩
  simp [KVMsg.ownItems, KVFWHM.ownItems, hvalue, hvalue'.2]

theorem comesBack_derot (m : KVDerot) (h : ∀ it ∈ m.ownItems, it.Printable) :
    ComesBack mem derotKeys .derot {} m := by
  by_cases hzero : m.opType = 0
  · simp only [KVDerot.ownItems, hzero, if_true, List.cons_append, List.nil_append,
      List.forall_mem_cons, printable_joinInt, printable_joinOptInt, printable_joinDbl] at h
    obtain ⟨hop, ⟨state, hstate, hstate'⟩, ⟨pos, hpos, pos', hpos'⟩, -⟩ := h
    refine ⟨{ opType := 0, state := some state, pos := some pos' }, ?_, rfl, fun mem' => ?_⟩
    · simp only [KVMsg.ownItems, KVDerot.ownItems, hzero, if_true]
      exact .setInt hop rfl <| .optInt hstate hstate' rfl <| .rereads hpos hpos' rfl .nil
    · simp [KVMsg.ownItems, KVDerot.ownItems, hzero, hstate, hpos, hpos'.2]
  · by_cases hone : m.opType = 1
    · simp only [KVDerot.ownItems, hone, one_ne_zero, if_false, if_true, List.cons_append,
        List.nil_append, List.forall_mem_cons, printable_joinInt, printable_joinDbl] at h
      obtain ⟨hop, hcommand, ⟨tar, htar, tar', htar'⟩, -⟩ := h
      refine ⟨{ opType := 1, command := m.command, posTar := some tar' }, ?_, rfl, fun mem' => ?_⟩
      · simp only [KVMsg.ownItems, KVDerot.ownItems, hone, one_ne_zero, if_false, if_true]
        exact .setInt hop rfl <| .setInt hcommand rfl <| .rereads htar htar' rfl .nil
      · simp [KVMsg.ownItems, KVDerot.ownItems, hone, htar, htar'.2]
    · simp only [KVDerot.ownItems, hzero, hone, if_false, List.append_nil, List.forall_mem_cons,
        printable_joinInt] at h
      refine ⟨{ opType := m.opType }, ?_, rfl, fun mem' => ?_⟩
      · simp only [KVMsg.ownItems, KVDerot.ownItems, hzero, hone, if_false, List.append_nil]
        exact .setInt h.1 rfl .nil
      · simp [KVMsg.ownItems, KVDerot.ownItems, hzero, hone]

theorem comesBack_dome (m : KVDome) (h : ∀ it ∈ m.ownItems, it.Printable) :
    ComesBack mem domeKeys .dome {} m := by
  by_cases hzero : m.opType = 0
  · simp only [KVDome.ownItems, hzero, if_true, List.cons_append, List.nil_append,
      List.forall_mem_cons, printable_joinInt, printable_joinOptInt, printable_joinDbl] at h
    obtain ⟨hop, ⟨state, hstate, hstate'⟩, ⟨azi, hazi, azi', hazi'⟩, ⟨ele, hele, ele', hele'⟩,
      ⟨aziObj, haziObj, aziObj', haziObj'⟩, ⟨eleObj, heleObj, eleObj', heleObj'⟩, -⟩ := h
    refine ⟨{ opType := 0, state := some state, azi := some azi', ele := some ele',
              aziObj := some aziObj', eleObj := some eleObj' }, ?_, rfl, fun mem' => ?_⟩
    · simp only [KVMsg.ownItems, KVDome.ownItems, hzero, if_true]
      exact .setInt hop rfl <| .optInt hstate hstate' rfl <| .rereads hazi hazi' rfl <|
        .rereads hele hele' rfl <| .rereads haziObj haziObj' rfl <|
        .rereads heleObj heleObj' rfl .nil
    · simp [KVMsg.ownItems, KVDome.ownItems, hzero, hstate, hazi, hele, haziObj, heleObj, hazi'.2,
        hele'.2, haziObj'.2, heleObj'.2]
  · by_cases hone : m.opType = 1
    · simp only [KVDome.ownItems, hone, one_ne_zero, if_false, if_true, List.cons_append,
        List.nil_append, List.forall_mem_cons, printable_joinInt, printable_joinDbl] at h
      obtain ⟨hop, hcommand, ⟨aziObj, haziObj, aziObj', haziObj'⟩,
        ⟨eleObj, heleObj, eleObj', heleObj'⟩, -⟩ := h
      refine ⟨{ opType := 1, command := m.command, aziObj := some aziObj',
                eleObj := some eleObj' }, ?_, rfl, fun mem' => ?_⟩
      · simp only [KVMsg.ownItems, KVDome.ownItems, hone, one_ne_zero, if_false, if_true]
        exact .setInt hop rfl <| .setInt hcommand rfl <| .rereads haziObj haziObj' rfl <|
          .rereads heleObj heleObj' rfl .nil
      · simp [KVMsg.ownItems, KVDome.ownItems, hone, haziObj, heleObj, haziObj'.2, heleObj'.2]
    · simp only [KVDome.ownItems, hzero, hone, if_false, List.cons_append, List.nil_append,
        List.forall_mem_cons, printable_joinInt, printable_joinDbl] at h
      obtain ⟨hop, ⟨aziObj, haziObj, aziObj', haziObj'⟩, ⟨eleObj, heleObj, eleObj', heleObj'⟩, -⟩ := h
      refine ⟨{ opType := m.opType, aziObj := some aziObj', eleObj := some eleObj' }, ?_, rfl,
        fun mem' => ?_⟩
      · simp only [KVMsg.ownItems, KVDome.ownItems, hzero, hone, if_false]
        exact .setInt hop rfl <| .rereads haziObj haziObj' rfl <| .rereads heleObj heleObj' rfl .nil
      · simp [KVMsg.ownItems, KVDome.ownItems, hzero, hone, haziObj, heleObj, haziObj'.2,
          heleObj'.2]

theorem comesBack_mirrCover (m : KVMirrCover) (h : ∀ it ∈ m.ownItems, it.Printable) :
    ComesBack mem mcoverKeys .mirrCover {} m := by
  by_cases hzero : m.opType = 0
  · simp only [KVMirrCover.ownItems, hzero, if_true, List.cons_append, List.nil_append,
      List.forall_mem_cons, printable_joinInt, printable_joinOptInt] at h
    obtain ⟨hop, ⟨state, hstate, hstate'⟩, -⟩ := h
    refine ⟨{ opType := 0, state := some state }, ?_, rfl, fun mem' => ?_⟩
    · simp only [KVMsg.ownItems, KVMirrCover.ownItems, hzero, if_true]
      exact .setInt hop rfl <| .optInt hstate hstate' rfl .nil
    · simp [KVMsg.ownItems, KVMirrCover.ownItems, hzero, hstate]
  · by_cases hone : m.opType = 1
    · simp only [KVMirrCover.ownItems, hone, one_ne_zero, if_false, if_true, List.cons_append,
        List.nil_append, List.forall_mem_cons, printable_joinInt] at h
      obtain ⟨hop, hcommand, -⟩ := h
      refine ⟨{ opType := 1, command := m.command }, ?_, rfl, fun mem' => ?_⟩
      · simp only [KVMsg.ownItems, KVMirrCover.ownItems, hone, one_ne_zero, if_false, if_true]
        exact .setInt hop rfl <| .setInt hcommand rfl .nil
      · simp [KVMsg.ownItems, KVMirrCover.ownItems, hone]
    · simp only [KVMirrCover.ownItems, hzero, hone, if_false, List.append_nil,
        List.forall_mem_cons, printable_joinInt] at h
      refine ⟨{ opType := m.opType }, ?_, rfl, fun mem' => ?_⟩
      · simp only [KVMsg.ownItems, KVMirrCover.ownItems, hzero, hone, if_false, List.append_nil]
        exact .setInt h.1 rfl .nil
      · simp [KVMsg.ownItems, KVMirrCover.ownItems, hzero, hone]

theorem comesBack_filter (m : KVFilter) (h : ∀ it ∈ m.ownItems, it.Printable) :
    ComesBack mem filterKeys .filter {} m := by
  simp only [KVFilter.ownItems, List.forall_mem_cons, printable_joinInt] at h
  obtain ⟨hop, -⟩ := h
  refine ⟨_, .setInt hop rfl <| .setText (fun _ => rfl) rfl .nil, rfl, fun mem' => ?_⟩
  simp [KVMsg.ownItems, KVFilter.ownItems]

/-! ### All of them -/

/-- The type word of a class that has only one, plans, slews and syncs left
out. -/
def KVMsg.soleType : KVMsg → Option Text
  | .appPlan _ => none
  | .checkPlan _ => some kvtypeChkplan
  | .removePlan _ => some kvtypeRmvplan
  | .plan _ => some kvtypePlan
  | .abort _ => some kvtypeAbort
  | .obss _ => some kvtypeObss
  | .slewto _ => none
  | .park _ => some kvtypePark
  | .guide _ => some kvtypeGuide
  | .home _ => some kvtypeHome
  | .sync _ => none
  | .track _ => some kvtypeTrack
  | .trackVel _ => some kvtypeTrackvel
  | .mount _ => some kvtypeMount
  | .expose _ => some kvtypeExpose
  | .camSet _ => some kvtypeCamset
  | .camera _ => some kvtypeCamera
  | .focus _ => some kvtypeFocus
  | .focusSync _ => some kvtypeFocusSync
  | .fwhm _ => some kvtypeFwhm
  | .derot _ => some kvtypeDerot
  | .dome _ => some kvtypeDome
  | .mirrCover _ => some kvtypeMcover
  | .filter _ => some kvtypeFilter

/-- The printed line resolves to a message of the type, which prints the same
line. -/
def Reprinted (mem : Text → Value) (m : KVMsg) : Prop :=
  ∃ m', resolve (m.toText mem) = .ok (some m') ∧ m'.base.type = m.base.type ∧
    ∀ mem', m'.toText mem' = m.toText mem

theorem KVMsg.base_assign (basis : KVBase) (m : KVMsg) :
    (m.assign basis).base = m.base.assign basis := by
  cases m <;> rfl

theorem KVMsg.ownItems_assign (basis : KVBase) (m : KVMsg) :
    (m.assign basis).ownItems = m.ownItems := by
  cases m <;> rfl

theorem itemsText_base (mem' : Text → Value) (m : KVBase) :
    itemsText mem' m.items = itemsText mem m.items := by
  have hgiven : m.items = joinGiven "utc" m.utc ++ joinGiven "gid" m.gid ++ joinGiven "uid" m.uid ++
      joinGiven "cid" m.cid := rfl
  rw [hgiven]
  simp only [itemsText_append]
  rw [itemsText_joinGiven mem' "utc", itemsText_joinGiven mem' "gid",
    itemsText_joinGiven mem' "uid", itemsText_joinGiven mem' "cid"]

/-- The type words are single words. -/
theorem type_word {r : Resolver} (hr : r ∈ resolvers) : Free (· == ' ') r.type ∧ r.type ≠ [] := by
  have hall : ∀ r ∈ resolvers, r.type.all (fun c => !(c == ' ')) = true ∧ r.type ≠ [] := by
    decide +kernel
  obtain ⟨hfree, hne⟩ := hall r hr
  refine ⟨fun c hc => ?_, hne⟩
  simpa using List.all_eq_true.mp hfree c hc

/-- A class comes back through the resolver of its type, whose place in the
table is `i`. -/
theorem reprinted_of_comesBack {α : Type} (i : ℕ) {r : Resolver} {keys : List (Key α)}
    {mk : α → KVMsg} {init m : α} (hr : resolvers[i]? = some r)
    (hrun : r.run (valuePairs mem (mk m).ownItems) =
      asMsg mk (resolveWith keys init (valuePairs mem (mk m).ownItems)))
    (hinit : (mk init).base.type = r.type) (hkeys : ∀ k ∈ keys, OwnKey k.name)
    (htype : (mk m).base.type = r.type) (hprint : (mk m).Printable)
    (h : ComesBack mem keys mk init m) : Reprinted mem (mk m) := by
  obtain ⟨m', hread, htype', htext⟩ := h
  have hmem : r ∈ resolvers := List.mem_of_getElem? hr
  have hreadable : (mk m).Readable mem := by
    refine ⟨?_, ?_, fun it hit => clean_of_printable (hprint it hit) mem, hread.own hkeys⟩
    · exact htype ▸ (type_word hmem).1
    · exact htype ▸ (type_word hmem).2
  refine ⟨(mk m').assign { (mk m).base with type := [] }, ?_, ?_, fun mem' => ?_⟩
  · rw [resolve_toText hreadable hmem htype, hrun, resolveWith, hread.runs]
    rfl
  · rw [KVMsg.base_assign, htype, ← hinit, ← htype']
    rfl
  · have hbase : ((mk m').assign { (mk m).base with type := [] }).base.items = (mk m).base.items := by
      rw [KVMsg.base_assign]
      rfl
    have hword : ((mk m').assign { (mk m).base with type := [] }).base.type = (mk m).base.type := by
      rw [KVMsg.base_assign, htype, ← hinit, ← htype']
      rfl
    have hbasis : itemsText mem' (mk m).base.items = itemsText mem (mk m).base.items :=
      itemsText_base mem' (mk m).base
    rw [KVMsg.toText, hbase, hword, KVMsg.ownItems_assign, itemsText_append, hbasis, htext,
      KVMsg.toText, itemsText_append]

/-- A class without items of its own comes back as it is made. -/
theorem reprinted_of_bare {α : Type} (i : ℕ) {r : Resolver} {mk : α → KVMsg} (init : α) {m : α}
    (hr : resolvers[i]? = some r)
    (hrun : r.run (valuePairs mem (mk m).ownItems) =
      asMsg mk (resolveWith [] init (valuePairs mem (mk m).ownItems)))
    (hinit : (mk init).base.type = r.type) (htype : (mk m).base.type = r.type)
    (hprint : (mk m).Printable) (hbare : ∀ m, (mk m).ownItems = []) : Reprinted mem (mk m) := by
  refine reprinted_of_comesBack i hr hrun hinit (fun _ hk => absurd hk List.not_mem_nil) htype
    hprint ⟨init, ?_, rfl, fun mem' => ?_⟩
  · rw [hbare]
    exact .nil
  · rw [hbare, hbare]
    rfl

/-- A message of a class with one type, all its printed fields set and fit to
be printed, is reprinted as it was. -/
theorem reprinted_of_printable (mem : Text → Value) {m : KVMsg}
    (htype : m.soleType = some m.base.type) (h : m.Printable) : Reprinted mem m := by
  have hown : ∀ it ∈ m.ownItems, it.Printable := fun it hit =>
    h it (List.mem_append_right _ hit)
  cases m with
  | appPlan m => cases htype
  | slewto m => cases htype
  | sync m => cases htype
  | abort m =>
      exact reprinted_of_bare 2 {} rfl rfl rfl (Option.some.inj htype).symm h (fun _ => rfl)
  | checkPlan m =>
      exact reprinted_of_comesBack 3 rfl rfl rfl (by decide +kernel) (Option.some.inj htype).symm h
        (comesBack_checkPlan m)
  | camera m =>
      exact reprinted_of_comesBack 4 rfl rfl rfl (by decide +kernel) (Option.some.inj htype).symm h
        (comesBack_camera m hown)
  | camSet m =>
      exact reprinted_of_comesBack 5 rfl rfl rfl (by decide +kernel) (Option.some.inj htype).symm h
        (comesBack_camSet m hown)
  | derot m =>
      exact reprinted_of_comesBack 6 rfl rfl rfl (by decide +kernel) (Option.some.inj htype).symm h
        (comesBack_derot m hown)
  | dome m =>
      exact reprinted_of_comesBack 7 rfl rfl rfl (by decide +kernel) (Option.some.inj htype).symm h
        (comesBack_dome m hown)
  | focus m =>
      exact reprinted_of_comesBack 8 rfl rfl rfl (by decide +kernel) (Option.some.inj htype).symm h
        (comesBack_focus m hown)
  | focusSync m =>
      exact reprinted_of_bare 9 {} rfl rfl rfl (Option.some.inj htype).symm h (fun _ => rfl)
  | fwhm m =>
      exact reprinted_of_comesBack 10 rfl rfl rfl (by decide +kernel) (Option.some.inj htype).symm h
        (comesBack_fwhm m hown)
  | filter m =>
      exact reprinted_of_comesBack 11 rfl rfl rfl (by decide +kernel) (Option.some.inj htype).symm h
        (comesBack_filter m hown)
  | mount m =>
      exact reprinted_of_comesBack 12 rfl rfl rfl (by decide +kernel) (Option.some.inj htype).symm h
        (comesBack_mount m hown)
  | mirrCover m =>
      exact reprinted_of_comesBack 13 rfl rfl rfl (by decide +kernel) (Option.some.inj htype).symm h
        (comesBack_mirrCover m hown)
  | plan m =>
      exact reprinted_of_comesBack 14 rfl rfl rfl (by decide +kernel) (Option.some.inj htype).symm h
        (comesBack_plan m hown)
  | park m =>
      exact reprinted_of_bare 15 {} rfl rfl rfl (Option.some.inj htype).symm h (fun _ => rfl)
  | track m =>
      exact reprinted_of_bare 19 {} rfl rfl rfl (Option.some.inj htype).symm h (fun _ => rfl)
  | trackVel m =>
      exact reprinted_of_comesBack 20 rfl rfl rfl (by decide +kernel) (Option.some.inj htype).symm h
        (comesBack_trackVel m hown)
  | expose m =>
      exact reprinted_of_comesBack 21 rfl rfl rfl (by decide +kernel) (Option.some.inj htype).symm h
        (comesBack_expose m hown)
  | guide m =>
      exact reprinted_of_comesBack 22 rfl rfl rfl (by decide +kernel) (Option.some.inj htype).symm h
        (comesBack_guide m hown)
  | home m =>
      exact reprinted_of_bare 23 {} rfl rfl rfl (Option.some.inj htype).symm h (fun _ => rfl)
  | obss m =>
      exact reprinted_of_comesBack 24 rfl rfl rfl (by decide +kernel) (Option.some.inj htype).symm h
        (comesBack_obss m hown)
  | removePlan m =>
      exact reprinted_of_comesBack 25 rfl rfl rfl (by decide +kernel) (Option.some.inj htype).symm h
        (comesBack_removePlan m)

/-- A tracking speed for unit 001. -/
def trackSpeed : KVTrackVel :=
  { gid := "001".toList, ra := some (.fin (mkRat 25 2)), dec := some (.fin (mkRat (-1) 4)) }

theorem printable_trackSpeed : (KVMsg.trackVel trackSpeed).Printable := by
  have hgid : PlainText "001".toList := by
    refine ⟨?_, by decide⟩
    simp
  have hra : Rereads (.fin (mkRat 25 2)) (.fin (mkRat 25 2)) := ⟨by decide +kernel, rfl⟩
  have hdec : Rereads (.fin (mkRat (-1) 4)) (.fin (mkRat (-1) 4)) := ⟨by decide +kernel, rfl⟩
  have hitems : (KVMsg.trackVel trackSpeed).base.items ++ (KVMsg.trackVel trackSpeed).ownItems =
      [joinText "gid" "001".toList, joinDbl "ra" trackSpeed.ra, joinDbl "dec" trackSpeed.dec] := by
    decide +kernel
  rw [KVMsg.Printable, hitems]
  simp only [List.forall_mem_cons, printable_joinText, printable_joinDbl]
  exact ⟨hgid, ⟨_, rfl, _, hra⟩, ⟨_, rfl, _, hdec⟩, by simp⟩

theorem reprinted_trackSpeed :
    (KVMsg.trackVel trackSpeed).soleType = some (KVMsg.trackVel trackSpeed).base.type ∧
      (KVMsg.trackVel trackSpeed).Printable ∧
      Reprinted (fun _ => .int 0) (.trackVel trackSpeed) :=
  ⟨rfl, printable_trackSpeed, reprinted_of_printable (fun _ => .int 0) rfl printable_trackSpeed⟩

end Gtoaes
