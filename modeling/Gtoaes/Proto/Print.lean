import Gtoaes.Lib.Ostream
import Gtoaes.Proto.KVMessage

/-!
`ToString` of the key/value messages.

A printed line is the type word, a blank and a list of items, each closed by a
comma. The items of a message are those of `KVBase::ToString`, then the ones of
its own class, in the order of the source.
-/

namespace Gtoaes

open Lib

/-- A value as it stands in a line. -/
inductive Value
  | text (t : Text)
  | int (n : ℤ)
  | dbl (x : Double)
  deriving DecidableEq

/-- What `join_kv` writes: `none` stands for a value read from unset memory. -/
structure Item where
  key : Text
  val : Option Value
  deriving DecidableEq

def joinText (key : String) (t : Text) : Item := ⟨key.toList, some (.text t)⟩

def joinInt (key : String) (n : ℤ) : Item := ⟨key.toList, some (.int n)⟩

def joinOptInt (key : String) (n : Option ℤ) : Item := ⟨key.toList, n.map .int⟩

def joinDbl (key : String) (x : Option Double) : Item :=
  ⟨key.toList, x.map fun x => .dbl x.printed⟩

/-- `if (t.size()) ss << join_kv(key, t)` -/
def joinGiven (key : String) (t : Text) : List Item := if t = [] then [] else [joinText key t]

/-- `KVBase::ToString`, behind the type. -/
def KVBase.items (m : KVBase) : List Item :=
  (if m.utc = [] then [] else [joinText "utc" m.utc]) ++
  (if m.gid = [] then [] else [joinText "gid" m.gid]) ++
  (if m.uid = [] then [] else [joinText "uid" m.uid]) ++
  (if m.cid = [] then [] else [joinText "cid" m.cid])

/-! ### The items of each class, behind those of the base -/

/-- The branches of `KVAppPlan::ToString`. -/
def KVAppPlan.targetItems (m : KVAppPlan) : List Item :=
  if m.coorsys = 0 then
    [joinDbl "ra" (some m.ra), joinDbl "dec" (some m.dec), joinDbl "epoch" (some m.epoch)]
  else if m.coorsys = 1 then [joinDbl "azi" (some m.azi), joinDbl "ele" (some m.ele)]
  else [joinText "tle1" m.tle1, joinText "tle2" m.tle2]

def KVAppPlan.ownItems (m : KVAppPlan) : List Item :=
  joinGiven "plan_sn" m.planSn ++ joinGiven "objid" m.objid ++ joinGiven "obstype" m.obstype ++
  [joinInt "coor_sys" m.coorsys] ++ m.targetItems ++
  [joinText "imgtype" m.imgtype] ++ joinGiven "filter" m.filter ++
  [joinDbl "exptime" (some m.exptime), joinDbl "delay" (some m.delay),
   joinInt "frmcnt" m.frmcnt, joinInt "loopcnt" m.loopcnt, joinInt "priority" m.priority] ++
  joinGiven "plan_beg" m.planBegin ++ joinGiven "plan_end" m.planEnd ++
  m.kvs.map fun kv => ⟨kv.keyword, some (.text kv.value)⟩

def KVCheckPlan.ownItems (m : KVCheckPlan) : List Item := joinGiven "plan_sn" m.planSn

def KVRemovePlan.ownItems (m : KVRemovePlan) : List Item := joinGiven "plan_sn" m.planSn

def KVPlan.ownItems (m : KVPlan) : List Item :=
  joinGiven "plan_sn" m.planSn ++ joinGiven "tm_start" m.tmStart ++ joinGiven "tm_stop" m.tmStop ++
  [joinOptInt "state" m.state]

def KVOBSS.ownItems (m : KVOBSS) : List Item :=
  [joinOptInt "state" m.state, joinOptInt "mount" m.mount, joinOptInt "camera" m.camera]

/-- The branches of `KVSlewto::ToString`. -/
def KVSlewto.targetItems (m : KVSlewto) : List Item :=
  if m.coorsys = coorsysEqua then
    [joinDbl "ra" m.ra, joinDbl "dec" m.dec, joinDbl "epoch" m.epoch]
  else if m.coorsys = coorsysAltaz then [joinDbl "azi" m.azi, joinDbl "ele" m.ele]
  else [joinText "tle1" m.tle1, joinText "tle2" m.tle2]

/-- `KVSlewto::ToString`, behind the type. -/
def KVSlewto.items (m : KVSlewto) : List Item :=
  m.toKVBase.items ++ [joinInt "coorsys" m.coorsys] ++ m.targetItems

def KVSlewto.ownItems (m : KVSlewto) : List Item := joinInt "coorsys" m.coorsys :: m.targetItems

def KVGuide.ownItems (m : KVGuide) : List Item :=
  [joinInt "result" m.result, joinInt "op" m.op] ++
  if m.ra ≠ 0 ∨ m.dec ≠ 0 then [joinInt "ra" m.ra, joinInt "dec" m.dec] else []

def KVSync.ownItems (m : KVSync) : List Item :=
  [joinDbl "ra" m.ra, joinDbl "dec" m.dec, joinDbl "epoch" m.epoch]

def KVTrackVel.ownItems (m : KVTrackVel) : List Item := [joinDbl "ra" m.ra, joinDbl "dec" m.dec]

def KVMount.ownItems (m : KVMount) : List Item :=
  [joinInt "state" m.state, joinInt "errcode" m.errcode,
   joinDbl "mjd" (some m.mjd), joinDbl "lst" (some m.lst),
   joinDbl "ra" (some m.ra), joinDbl "dec" (some m.dec),
   joinDbl "ra2k" (some m.ra2k), joinDbl "dec2k" (some m.dec2k),
   joinDbl "azi" (some m.azi), joinDbl "ele" (some m.ele)]

def KVExpose.ownItems (m : KVExpose) : List Item :=
  [joinOptInt "command" m.command, joinInt "frmno" m.frmno, joinInt "loopno" m.loopno]

/-- The gears are printed when they are to be modified, the values that go with
them in every answer but a query. -/
def KVCamSet.ownItems (m : KVCamSet) : List Item :=
  [joinInt "optype" m.opType] ++
  if m.opType = 0 then []
  else
    (if m.opType = 2 then
      [joinOptInt "bitDepth" m.bitDepth, joinOptInt "iADC" m.iADC,
       joinOptInt "iReadPort" m.iReadPort, joinOptInt "iReadRate" m.iReadRate,
       joinOptInt "iVSRate" m.iVSRate, joinOptInt "iGain" m.iGain, joinOptInt "coolSet" m.coolSet]
    else []) ++
    [joinOptInt "bitPixel" m.bitPixel, joinText "ADC" m.adc, joinText "readPort" m.readPort,
     joinText "readRate" m.readRate, joinDbl "vsRate" m.vsRate, joinDbl "gain" m.gain]

def KVCamera.ownItems (m : KVCamera) : List Item :=
  [joinOptInt "state" m.state, joinOptInt "errcode" m.errcode,
   joinDbl "left" m.left, joinDbl "percent" m.percent, joinOptInt "coolget" m.coolget,
   joinText "imgtype" m.imgtype, joinText "filter" m.filter, joinOptInt "freedisk" m.freedisk,
   joinText "plan_sn" m.planSn, joinOptInt "loopno" m.loopno, joinOptInt "frmno" m.frmno,
   joinText "filename" m.fileName]

def KVFocus.ownItems (m : KVFocus) : List Item :=
  [joinInt "optype" m.opType] ++
  if m.opType = 0 then
    [joinInt "state" m.state, joinInt "pos" m.pos, joinInt "posTar" m.posTar]
  else if m.opType = 1 then [joinInt "relpos" m.relPos]
  else []

def KVFWHM.ownItems (m : KVFWHM) : List Item :=
  [joinDbl "value" m.value, joinText "tmimg" m.tmimg]

def KVDerot.ownItems (m : KVDerot) : List Item :=
  [joinInt "optype" m.opType] ++
  if m.opType = 0 then [joinOptInt "state" m.state, joinDbl "pos" m.pos]
  else if m.opType = 1 then [joinInt "command" m.command, joinDbl "postar" m.posTar]
  else []

def KVDome.ownItems (m : KVDome) : List Item :=
  [joinInt "optype" m.opType] ++
  (if m.opType = 0 then [joinOptInt "state" m.state, joinDbl "azi" m.azi, joinDbl "ele" m.ele]
  else if m.opType = 1 then [joinInt "command" m.command]
  else []) ++
  [joinDbl "aziobj" m.aziObj, joinDbl "eleobj" m.eleObj]

def KVMirrCover.ownItems (m : KVMirrCover) : List Item :=
  [joinInt "optype" m.opType] ++
  if m.opType = 0 then [joinOptInt "state" m.state]
  else if m.opType = 1 then [joinInt "command" m.command]
  else []

def KVFilter.ownItems (m : KVFilter) : List Item :=
  [joinInt "optype" m.opType, joinText "name" m.name]

def KVMsg.ownItems : KVMsg → List Item
  | .appPlan m => m.ownItems
  | .checkPlan m => m.ownItems
  | .removePlan m => m.ownItems
  | .plan m => m.ownItems
  | .abort _ => []
  | .obss m => m.ownItems
  | .slewto m => m.ownItems
  | .park _ => []
  | .guide m => m.ownItems
  | .home _ => []
  | .sync m => m.ownItems
  | .track _ => []
  | .trackVel m => m.ownItems
  | .mount m => m.ownItems
  | .expose m => m.ownItems
  | .camSet m => m.ownItems
  | .camera m => m.ownItems
  | .focus m => m.ownItems
  | .focusSync _ => []
  | .fwhm m => m.ownItems
  | .derot m => m.ownItems
  | .dome m => m.ownItems
  | .mirrCover m => m.ownItems
  | .filter m => m.ownItems

/-! ### The line -/

def Value.toText : Value → Text
  | .text t => t
  | .int n => intText n
  | .dbl x => x.text

/-- The value of an item in the line. What stands for an unset one depends on
the memory it is read from. -/
def Item.valueText (mem : Text → Value) (it : Item) : Text := (it.val.getD (mem it.key)).toText

/-- An item up to the comma that closes it. -/
def Item.text (mem : Text → Value) (it : Item) : Text := it.key ++ '=' :: it.valueText mem

def itemsText (mem : Text → Value) (items : List Item) : Text :=
  (items.map (Item.text mem)).flatMap fun t => t ++ [',']

/-- `ToString`, without the newline at its end. -/
def KVMsg.toText (mem : Text → Value) (m : KVMsg) : Text :=
  m.base.type ++ ' ' :: itemsText mem (m.base.items ++ m.ownItems)

example : (KVMsg.guide { gid := "001".toList, op := 1, dec := -30 }).toText (fun _ => .int 0) =
    "guide gid=001,result=0,op=1,ra=0,dec=-30,".toList := by
  decide +kernel

end Gtoaes
