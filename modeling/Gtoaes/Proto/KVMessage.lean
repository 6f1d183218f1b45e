import Gtoaes.AstroDeviceDef
import Gtoaes.Lib.Numeral

/-!
The messages of the key/value protocol (`ProtoKVBase.h`, `ProtoKV.h`).

A field that its class's constructor leaves unset is an `Option`, `none` until
something assigns it. Fields with a default are of the plain type.
-/

namespace Gtoaes

open Lib

structure KeyValPair where
  keyword : Text
  value : Text
  deriving DecidableEq

structure KVBase where
  type : Text := []
  utc : Text := []
  gid : Text := []
  uid : Text := []
  cid : Text := []
  deriving DecidableEq

/-- `KVBase::operator=`: everything but the type. -/
def KVBase.assign (m basis : KVBase) : KVBase :=
  { m with utc := basis.utc, gid := basis.gid, uid := basis.uid, cid := basis.cid }

def kvtypeAppgwac : Text := "append_gwac".toList

def kvtypeAppplan : Text := "append_plan".toList

def kvtypeChkplan : Text := "check_plan".toList

def kvtypeRmvplan : Text := "remove_plan".toList

def kvtypePlan : Text := "plan".toList

def kvtypeAbort : Text := "abort".toList

def kvtypeObss : Text := "obss".toList

def kvtypeSlewto : Text := "slew".toList

def kvtypePark : Text := "park".toList

def kvtypeGuide : Text := "guide".toList

def kvtypeHome : Text := "home".toList

def kvtypeSync : Text := "sync".toList

def kvtypeTrack : Text := "track".toList

def kvtypeTrackvel : Text := "trackvel".toList

def kvtypeMount : Text := "mount".toList

def kvtypeTkimg : Text := "take_image".toList

def kvtypeExpose : Text := "expose".toList

def kvtypeCamset : Text := "camset".toList

def kvtypeCamera : Text := "camera".toList

def kvtypeFocus : Text := "focus".toList

def kvtypeFocusSync : Text := "focus_sync".toList

def kvtypeFwhm : Text := "fwhm".toList

def kvtypeDerot : Text := "derot".toList

def kvtypeDome : Text := "dome".toList

def kvtypeMcover : Text := "mcover".toList

def kvtypeFilter : Text := "filter".toList

/-- An observation plan. Its `coorsys` counts 0 equatorial, 1 horizontal,
anything else two-line elements. -/
structure KVAppPlan extends KVBase where
  type := kvtypeAppplan
  planSn : Text := []
  objid : Text := []
  obstype : Text := []
  coorsys : ℤ := 0
  ra : Double := .fin 0
  dec : Double := .fin 0
  epoch : Double := .fin 2000
  azi : Double := .fin 0
  ele : Double := .fin 0
  tle1 : Text := []
  tle2 : Text := []
  imgtype : Text := []
  filter : Text := []
  exptime : Double := .fin 0
  delay : Double := .fin 0
  frmcnt : ℤ := 1
  loopcnt : ℤ := 1
  priority : ℤ := 0
  planBegin : Text := []
  planEnd : Text := []
  kvs : List KeyValPair := []
  deriving DecidableEq

structure KVCheckPlan extends KVBase where
  type := kvtypeChkplan
  planSn : Text := []
  deriving DecidableEq

structure KVRemovePlan extends KVBase where
  type := kvtypeRmvplan
  planSn : Text := []
  deriving DecidableEq

/-- The status of a plan, as published to the clients. -/
structure KVPlan extends KVBase where
  type := kvtypePlan
  planSn : Text := []
  tmStart : Text := []
  tmStop : Text := []
  state : Option ℤ := none
  deriving DecidableEq

structure KVAbort extends KVBase where
  type := kvtypeAbort
  deriving DecidableEq

structure KVOBSS extends KVBase where
  type := kvtypeObss
  state : Option ℤ := none
  mount : Option ℤ := none
  camera : Option ℤ := none
  deriving DecidableEq

structure KVSlewto extends KVBase where
  type := kvtypeSlewto
  coorsys : ℤ := 0
  ra : Option Double := none
  dec : Option Double := none
  epoch : Option Double := none
  azi : Option Double := none
  ele : Option Double := none
  tle1 : Text := []
  tle2 : Text := []
  deriving DecidableEq

structure KVPark extends KVBase where
  type := kvtypePark
  deriving DecidableEq

structure KVGuide extends KVBase where
  type := kvtypeGuide
  result : ℤ := 0
  op : ℤ := 0
  ra : ℤ := 0
  dec : ℤ := 0
  deriving DecidableEq

structure KVHome extends KVBase where
  type := kvtypeHome
  deriving DecidableEq

structure KVSync extends KVBase where
  type := kvtypeSync
  ra : Option Double := none
  dec : Option Double := none
  epoch : Option Double := none
  deriving DecidableEq

structure KVTrack extends KVBase where
  type := kvtypeTrack
  deriving DecidableEq

structure KVTrackVel extends KVBase where
  type := kvtypeTrackvel
  ra : Option Double := none
  dec : Option Double := none
  deriving DecidableEq

/-- The target `objra`, `objdec` takes no part in the protocol. -/
structure KVMount extends KVBase where
  type := kvtypeMount
  state : ℤ := mountError
  errcode : ℤ := 1
  mjd : Double := .fin (-1)
  lst : Double := .fin (-1)
  ra : Double := .fin 1000
  dec : Double := .fin 1000
  ra2k : Double := .fin 1000
  dec2k : Double := .fin 1000
  azi : Double := .fin 1000
  ele : Double := .fin 1000
  objra : Double := .fin 1000
  objdec : Double := .fin 1000
  deriving DecidableEq

structure KVExpose extends KVBase where
  type := kvtypeExpose
  command : Option ℤ := none
  frmno : ℤ := 0
  loopno : ℤ := 1
  deriving DecidableEq

structure KVCamSet extends KVBase where
  type := kvtypeCamset
  opType : ℤ := -1
  bitDepth : Option ℤ := none
  iADC : Option ℤ := none
  iReadPort : Option ℤ := none
  iReadRate : Option ℤ := none
  iVSRate : Option ℤ := none
  iGain : Option ℤ := none
  coolSet : Option ℤ := none
  bitPixel : Option ℤ := none
  adc : Text := []
  readPort : Text := []
  readRate : Text := []
  vsRate : Option Double := none
  gain : Option Double := none
  deriving DecidableEq

structure KVCamera extends KVBase where
  type := kvtypeCamera
  state : Option ℤ := none
  errcode : Option ℤ := none
  left : Option Double := none
  percent : Option Double := none
  coolget : Option ℤ := none
  imgtype : Text := []
  filter : Text := []
  freedisk : Option ℤ := none
  planSn : Text := []
  loopno : Option ℤ := none
  frmno : Option ℤ := none
  fileName : Text := []
  deriving DecidableEq

structure KVFocus extends KVBase where
  type := kvtypeFocus
  opType : ℤ := 0
  state : ℤ := 0
  relPos : ℤ := 0
  pos : ℤ := 999999
  posTar : ℤ := 999999
  deriving DecidableEq

structure KVFocusSync extends KVBase where
  type := kvtypeFocusSync
  deriving DecidableEq

structure KVFWHM extends KVBase where
  type := kvtypeFwhm
  value : Option Double := none
  tmimg : Text := []
  deriving DecidableEq

structure KVDerot extends KVBase where
  type := kvtypeDerot
  opType : ℤ := -1
  command : ℤ := -1
  state : Option ℤ := none
  posTar : Option Double := none
  pos : Option Double := none
  deriving DecidableEq

structure KVDome extends KVBase where
  type := kvtypeDome
  opType : ℤ := -1
  command : ℤ := -1
  state : Option ℤ := none
  azi : Option Double := none
  ele : Option Double := none
  aziObj : Option Double := none
  eleObj : Option Double := none
  deriving DecidableEq

structure KVMirrCover extends KVBase where
  type := kvtypeMcover
  opType : ℤ := -1
  command : ℤ := -1
  state : Option ℤ := none
  deriving DecidableEq

structure KVFilter extends KVBase where
  type := kvtypeFilter
  opType : ℤ := -1
  name : Text := []
  deriving DecidableEq

/-- A `KVBasePtr`: the object behind it, by its class. A plan keeps its class
under each of the types `append_plan`, `append_gwac` and `take_image`. -/
inductive KVMsg
  | appPlan (m : KVAppPlan)
  | checkPlan (m : KVCheckPlan)
  | removePlan (m : KVRemovePlan)
  | plan (m : KVPlan)
  | abort (m : KVAbort)
  | obss (m : KVOBSS)
  | slewto (m : KVSlewto)
  | park (m : KVPark)
  | guide (m : KVGuide)
  | home (m : KVHome)
  | sync (m : KVSync)
  | track (m : KVTrack)
  | trackVel (m : KVTrackVel)
  | mount (m : KVMount)
  | expose (m : KVExpose)
  | camSet (m : KVCamSet)
  | camera (m : KVCamera)
  | focus (m : KVFocus)
  | focusSync (m : KVFocusSync)
  | fwhm (m : KVFWHM)
  | derot (m : KVDerot)
  | dome (m : KVDome)
  | mirrCover (m : KVMirrCover)
  | filter (m : KVFilter)
  deriving DecidableEq

/-- The object as its base class. -/
def KVMsg.base : KVMsg → KVBase
  | .appPlan m => m.toKVBase
  | .checkPlan m => m.toKVBase
  | .removePlan m => m.toKVBase
  | .plan m => m.toKVBase
  | .abort m => m.toKVBase
  | .obss m => m.toKVBase
  | .slewto m => m.toKVBase
  | .park m => m.toKVBase
  | .guide m => m.toKVBase
  | .home m => m.toKVBase
  | .sync m => m.toKVBase
  | .track m => m.toKVBase
  | .trackVel m => m.toKVBase
  | .mount m => m.toKVBase
  | .expose m => m.toKVBase
  | .camSet m => m.toKVBase
  | .camera m => m.toKVBase
  | .focus m => m.toKVBase
  | .focusSync m => m.toKVBase
  | .fwhm m => m.toKVBase
  | .derot m => m.toKVBase
  | .dome m => m.toKVBase
  | .mirrCover m => m.toKVBase
  | .filter m => m.toKVBase

/-- `*proto = basis`, through the base class. -/
def KVMsg.assign (basis : KVBase) : KVMsg → KVMsg
  | .appPlan m => .appPlan { m with toKVBase := m.toKVBase.assign basis }
  | .checkPlan m => .checkPlan { m with toKVBase := m.toKVBase.assign basis }
  | .removePlan m => .removePlan { m with toKVBase := m.toKVBase.assign basis }
  | .plan m => .plan { m with toKVBase := m.toKVBase.assign basis }
  | .abort m => .abort { m with toKVBase := m.toKVBase.assign basis }
  | .obss m => .obss { m with toKVBase := m.toKVBase.assign basis }
  | .slewto m => .slewto { m with toKVBase := m.toKVBase.assign basis }
  | .park m => .park { m with toKVBase := m.toKVBase.assign basis }
  | .guide m => .guide { m with toKVBase := m.toKVBase.assign basis }
  | .home m => .home { m with toKVBase := m.toKVBase.assign basis }
  | .sync m => .sync { m with toKVBase := m.toKVBase.assign basis }
  | .track m => .track { m with toKVBase := m.toKVBase.assign basis }
  | .trackVel m => .trackVel { m with toKVBase := m.toKVBase.assign basis }
  | .mount m => .mount { m with toKVBase := m.toKVBase.assign basis }
  | .expose m => .expose { m with toKVBase := m.toKVBase.assign basis }
  | .camSet m => .camSet { m with toKVBase := m.toKVBase.assign basis }
  | .camera m => .camera { m with toKVBase := m.toKVBase.assign basis }
  | .focus m => .focus { m with toKVBase := m.toKVBase.assign basis }
  | .focusSync m => .focusSync { m with toKVBase := m.toKVBase.assign basis }
  | .fwhm m => .fwhm { m with toKVBase := m.toKVBase.assign basis }
  | .derot m => .derot { m with toKVBase := m.toKVBase.assign basis }
  | .dome m => .dome { m with toKVBase := m.toKVBase.assign basis }
  | .mirrCover m => .mirrCover { m with toKVBase := m.toKVBase.assign basis }
  | .filter m => .filter { m with toKVBase := m.toKVBase.assign basis }

end Gtoaes
