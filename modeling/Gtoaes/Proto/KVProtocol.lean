import Gtoaes.Proto.KVMessage

/-!
`KVProtocol::Resolve`: from a received line to a message.

Each `resolve_*` function of the source walks the key/value pairs through an
if/else chain of keywords, and each one with a numeric keyword has the same two
`catch` branches. A chain is a list of `Key`s here and the walk is `assignAll`,
so that a function is its message, its keys and nothing else.

Both `catch` branches reset the message pointer and then pass
`proto->type.c_str()` to the log, which reads through the pointer just reset.
That access is the outcome `NullDeref`.
-/

namespace Gtoaes

open Lib

/-- The process died on an access through a null message pointer. -/
inductive NullDeref
  | nullDeref
  deriving DecidableEq

/-- How a branch of a keyword chain stores the value. -/
inductive Slot (α : Type)
  | text (set : Text → α → α)
  | int (set : ℤ → α → α)
  | dbl (set : Double → α → α)

structure Key (α : Type) where
  name : Text
  slot : Slot α

def Slot.assign {α : Type} : Slot α → Text → α → Except StdExn α
  | .text set, v, m => .ok (set v m)
  | .int set, v, m => (stoi v).map fun n => set n m
  | .dbl set, v, m => (stod v).map fun x => set x m

/-- The chain: the first key whose name the keyword equals, `other` where
there is none. -/
def assign {α : Type} (keys : List (Key α)) (other : KeyValPair → α → α) (kv : KeyValPair)
    (m : α) : Except StdExn α :=
  match keys.find? (fun k => iequals kv.keyword k.name) with
  | some k => k.slot.assign kv.value m
  | none => .ok (other kv m)

/-- The loop over all pairs; an exception leaves it. -/
def assignAll {α : Type} (keys : List (Key α)) (other : KeyValPair → α → α) :
    List KeyValPair → α → Except StdExn α
  | [], m => .ok m
  | kv :: kvs, m =>
      match assign keys other kv m with
      | .ok m => assignAll keys other kvs m
      | .error e => .error e

/-- The two `catch` branches: `proto.reset()`, then `proto->type` for the log. -/
def catchNumeric {α : Type} : Except StdExn α → Except NullDeref (Option α)
  | .ok m => .ok (some m)
  | .error _ => .error .nullDeref

/-- A `resolve_*` function whose chain drops unknown keywords. -/
def resolveWith {α : Type} (keys : List (Key α)) (init : α) (kvs : List KeyValPair) :
    Except NullDeref (Option α) :=
  catchNumeric (assignAll keys (fun _ m => m) kvs init)

def appendPlanKeys : List (Key KVAppPlan) :=
  [⟨"plan_sn".toList, .text fun v m => { m with planSn := v }⟩,
   ⟨"objid".toList, .text fun v m => { m with objid := v }⟩,
   ⟨"obstype".toList, .text fun v m => { m with obstype := v }⟩,
   ⟨"coor_sys".toList, .int fun v m => { m with coorsys := v }⟩,
   ⟨"ra".toList, .dbl fun v m => { m with ra := v }⟩,
   ⟨"dec".toList, .dbl fun v m => { m with dec := v }⟩,
   ⟨"ecoch".toList, .dbl fun v m => { m with epoch := v }⟩,
   ⟨"azi".toList, .dbl fun v m => { m with azi := v }⟩,
   ⟨"ele".toList, .dbl fun v m => { m with ele := v }⟩,
   ⟨"tle1".toList, .text fun v m => { m with tle1 := v }⟩,
   ⟨"tle2".toList, .text fun v m => { m with tle2 := v }⟩,
   ⟨"imgtype".toList, .text fun v m => { m with imgtype := v }⟩,
   ⟨"filter".toList, .text fun v m => { m with filter := v }⟩,
   ⟨"exptime".toList, .dbl fun v m => { m with exptime := v }⟩,
   ⟨"delay".toList, .dbl fun v m => { m with delay := v }⟩,
   ⟨"frmcnt".toList, .int fun v m => { m with frmcnt := v }⟩,
   ⟨"loopcnt".toList, .int fun v m => { m with loopcnt := v }⟩,
   ⟨"priority".toList, .int fun v m => { m with priority := v }⟩,
   ⟨"plan_beg".toList, .text fun v m => { m with planBegin := v }⟩,
   ⟨"plan_end".toList, .text fun v m => { m with planEnd := v }⟩]

/-- `fabs(exptime) < 1E-3` -/
def negligible (x : Double) : Bool := (Double.fin (mkRat 1 1000)).gt x.abs

/-- The defaults filled in after the loop. -/
def amendPlan (m : KVAppPlan) : KVAppPlan :=
  let imgtype :=
    if m.imgtype = [] then (if negligible m.exptime then "BIAS".toList else "OBJECT".toList)
    else m.imgtype
  let objid :=
    if m.objid = [] then
      if iequals imgtype "BIAS".toList then "bias".toList
      else if iequals imgtype "DARK".toList then "dark".toList
      else if iequals imgtype "FLAT".toList then "flat".toList
      else if iequals imgtype "FOCUS".toList then "focs".toList
      else "objt".toList
    else m.objid
  { m with imgtype := imgtype, objid := objid }

/-- The plan object before the loop over the pairs. -/
def newAppendPlan : KVAppPlan := { coorsys := coorsysEqua, epoch := .fin 2000 }

def resolveAppendPlan (kvs : List KeyValPair) : Except NullDeref (Option KVAppPlan) :=
  catchNumeric ((assignAll appendPlanKeys (fun kv m => { m with kvs := m.kvs ++ [kv] }) kvs
    newAppendPlan).map amendPlan)

def resolveAppendGwac (kvs : List KeyValPair) : Except NullDeref (Option KVAppPlan) :=
  (resolveAppendPlan kvs).map (·.map fun m => { m with type := kvtypeAppgwac })

def resolveTakeImage (kvs : List KeyValPair) : Except NullDeref (Option KVAppPlan) :=
  (resolveAppendPlan kvs).map (·.map fun m => { m with type := kvtypeTkimg })

def checkPlanKeys : List (Key KVCheckPlan) :=
  [⟨"plan_sn".toList, .text fun v m => { m with planSn := v }⟩]

def resolveCheckPlan := resolveWith checkPlanKeys {}

def removePlanKeys : List (Key KVRemovePlan) :=
  [⟨"plan_sn".toList, .text fun v m => { m with planSn := v }⟩]

def resolveRemovePlan := resolveWith removePlanKeys {}

def planKeys : List (Key KVPlan) :=
  [⟨"state".toList, .int fun v m => { m with state := some v }⟩,
   ⟨"plan_sn".toList, .text fun v m => { m with planSn := v }⟩,
   ⟨"tm_start".toList, .text fun v m => { m with tmStart := v }⟩,
   ⟨"tm_stop".toList, .text fun v m => { m with tmStop := v }⟩]

def resolvePlan := resolveWith planKeys {}

def resolveAbort (_kvs : List KeyValPair) : Except NullDeref (Option KVAbort) := .ok (some {})

def obssKeys : List (Key KVOBSS) :=
  [⟨"state".toList, .int fun v m => { m with state := some v }⟩,
   ⟨"mount".toList, .int fun v m => { m with mount := some v }⟩,
   ⟨"camera".toList, .int fun v m => { m with camera := some v }⟩]

def resolveObss := resolveWith obssKeys {}

def mountKeys : List (Key KVMount) :=
  [⟨"state".toList, .int fun v m => { m with state := v }⟩,
   ⟨"errcode".toList, .int fun v m => { m with errcode := v }⟩,
   ⟨"mjd".toList, .dbl fun v m => { m with mjd := v }⟩,
   ⟨"lst".toList, .dbl fun v m => { m with lst := v }⟩,
   ⟨"ra".toList, .dbl fun v m => { m with ra := v }⟩,
   ⟨"dec".toList, .dbl fun v m => { m with dec := v }⟩,
   ⟨"ra2k".toList, .dbl fun v m => { m with ra2k := v }⟩,
   ⟨"dec2k".toList, .dbl fun v m => { m with dec2k := v }⟩,
   ⟨"azi".toList, .dbl fun v m => { m with azi := v }⟩,
   ⟨"ele".toList, .dbl fun v m => { m with ele := v }⟩]

def resolveMount := resolveWith mountKeys {}

def cameraKeys : List (Key KVCamera) :=
  [⟨"state".toList, .int fun v m => { m with state := some v }⟩,
   ⟨"errcode".toList, .int fun v m => { m with errcode := some v }⟩,
   ⟨"left".toList, .dbl fun v m => { m with left := some v }⟩,
   ⟨"percent".toList, .dbl fun v m => { m with percent := some v }⟩,
   ⟨"freedisk".toList, .int fun v m => { m with freedisk := some v }⟩,
   ⟨"coolget".toList, .int fun v m => { m with coolget := some v }⟩,
   ⟨"loopno".toList, .int fun v m => { m with loopno := some v }⟩,
   ⟨"frmno".toList, .int fun v m => { m with frmno := some v }⟩,
   ⟨"imgtype".toList, .text fun v m => { m with imgtype := v }⟩,
   ⟨"filter".toList, .text fun v m => { m with filter := v }⟩,
   ⟨"filename".toList, .text fun v m => { m with fileName := v }⟩,
   ⟨"plan_sn".toList, .text fun v m => { m with planSn := v }⟩]

def resolveCamera := resolveWith cameraKeys {}

def resolveHome (_kvs : List KeyValPair) : Except NullDeref (Option KVHome) := .ok (some {})

def syncKeys : List (Key KVSync) :=
  [⟨"ra".toList, .dbl fun v m => { m with ra := some v }⟩,
   ⟨"dec".toList, .dbl fun v m => { m with dec := some v }⟩,
   ⟨"ecoch".toList, .dbl fun v m => { m with epoch := some v }⟩]

def resolveSync := resolveWith syncKeys { epoch := some (.fin 2000) }

def resolvePark (_kvs : List KeyValPair) : Except NullDeref (Option KVPark) := .ok (some {})

def slewtoKeys : List (Key KVSlewto) :=
  [⟨"coor_sys".toList, .int fun v m => { m with coorsys := v }⟩,
   ⟨"ra".toList, .dbl fun v m => { m with ra := some v }⟩,
   ⟨"dec".toList, .dbl fun v m => { m with dec := some v }⟩,
   ⟨"ecoch".toList, .dbl fun v m => { m with epoch := some v }⟩,
   ⟨"azi".toList, .dbl fun v m => { m with azi := some v }⟩,
   ⟨"ele".toList, .dbl fun v m => { m with ele := some v }⟩,
   ⟨"tle1".toList, .text fun v m => { m with tle1 := v }⟩,
   ⟨"tle2".toList, .text fun v m => { m with tle2 := v }⟩]

/-- The slew object before the loop over the pairs. -/
def newSlewto : KVSlewto := { coorsys := coorsysEqua, epoch := some (.fin 2000) }

def resolveSlewto := resolveWith slewtoKeys newSlewto

def guideKeys : List (Key KVGuide) :=
  [⟨"ra".toList, .int fun v m => { m with ra := v }⟩,
   ⟨"dec".toList, .int fun v m => { m with dec := v }⟩,
   ⟨"result".toList, .int fun v m => { m with result := v }⟩,
   ⟨"op".toList, .int fun v m => { m with op := v }⟩]

def resolveGuide := resolveWith guideKeys {}

def resolveTrack (_kvs : List KeyValPair) : Except NullDeref (Option KVTrack) := .ok (some {})

def trackvelKeys : List (Key KVTrackVel) :=
  [⟨"ra".toList, .dbl fun v m => { m with ra := some v }⟩,
   ⟨"dec".toList, .dbl fun v m => { m with dec := some v }⟩]

def resolveTrackvel := resolveWith trackvelKeys {}

def exposeKeys : List (Key KVExpose) :=
  [⟨"command".toList, .int fun v m => { m with command := some v }⟩,
   ⟨"frmno".toList, .int fun v m => { m with frmno := v }⟩,
   ⟨"loopno".toList, .int fun v m => { m with loopno := v }⟩]

def resolveExpose := resolveWith exposeKeys {}

def camsetKeys : List (Key KVCamSet) :=
  [⟨"optype".toList, .int fun v m => { m with opType := v }⟩,
   ⟨"bitDepth".toList, .int fun v m => { m with bitDepth := some v }⟩,
   ⟨"iADC".toList, .int fun v m => { m with iADC := some v }⟩,
   ⟨"iReadPort".toList, .int fun v m => { m with iReadPort := some v }⟩,
   ⟨"iReadRate".toList, .int fun v m => { m with iReadRate := some v }⟩,
   ⟨"iVSRate".toList, .int fun v m => { m with iVSRate := some v }⟩,
   ⟨"iGain".toList, .int fun v m => { m with iGain := some v }⟩,
   ⟨"coolSet".toList, .int fun v m => { m with coolSet := some v }⟩,
   ⟨"bitPixel".toList, .int fun v m => { m with bitPixel := some v }⟩,
   ⟨"ADC".toList, .text fun v m => { m with adc := v }⟩,
   ⟨"readPort".toList, .text fun v m => { m with readPort := v }⟩,
   ⟨"readRate".toList, .text fun v m => { m with readRate := v }⟩,
   ⟨"vsRate".toList, .dbl fun v m => { m with vsRate := some v }⟩,
   ⟨"gain".toList, .dbl fun v m => { m with gain := some v }⟩]

def resolveCamset := resolveWith camsetKeys {}

def focusKeys : List (Key KVFocus) :=
  [⟨"optype".toList, .int fun v m => { m with opType := v }⟩,
   ⟨"state".toList, .int fun v m => { m with state := v }⟩,
   ⟨"relpos".toList, .int fun v m => { m with relPos := v }⟩,
   ⟨"pos".toList, .int fun v m => { m with pos := v }⟩,
   ⟨"posTar".toList, .int fun v m => { m with posTar := v }⟩]

def resolveFocus := resolveWith focusKeys {}

def resolveFocusSync (_kvs : List KeyValPair) : Except NullDeref (Option KVFocusSync) :=
  .ok (some {})

def fwhmKeys : List (Key KVFWHM) :=
  [⟨"value".toList, .dbl fun v m => { m with value := some v }⟩,
   ⟨"tmimg".toList, .text fun v m => { m with tmimg := v }⟩]

def resolveFwhm := resolveWith fwhmKeys {}

def derotKeys : List (Key KVDerot) :=
  [⟨"optype".toList, .int fun v m => { m with opType := v }⟩,
   ⟨"command".toList, .int fun v m => { m with command := v }⟩,
   ⟨"state".toList, .int fun v m => { m with state := some v }⟩,
   ⟨"postar".toList, .dbl fun v m => { m with posTar := some v }⟩,
   ⟨"pos".toList, .dbl fun v m => { m with pos := some v }⟩]

def resolveDerot := resolveWith derotKeys {}

def domeKeys : List (Key KVDome) :=
  [⟨"optype".toList, .int fun v m => { m with opType := v }⟩,
   ⟨"command".toList, .int fun v m => { m with command := v }⟩,
   ⟨"state".toList, .int fun v m => { m with state := some v }⟩,
   ⟨"azi".toList, .dbl fun v m => { m with azi := some v }⟩,
   ⟨"ele".toList, .dbl fun v m => { m with ele := some v }⟩,
   ⟨"aziobj".toList, .dbl fun v m => { m with aziObj := some v }⟩,
   ⟨"eleobj".toList, .dbl fun v m => { m with eleObj := some v }⟩]

def resolveDome := resolveWith domeKeys {}

def mcoverKeys : List (Key KVMirrCover) :=
  [⟨"optype".toList, .int fun v m => { m with opType := v }⟩,
   ⟨"command".toList, .int fun v m => { m with command := v }⟩,
   ⟨"state".toList, .int fun v m => { m with state := some v }⟩]

def resolveMcover := resolveWith mcoverKeys {}

def filterKeys : List (Key KVFilter) :=
  [⟨"optype".toList, .int fun v m => { m with opType := v }⟩,
   ⟨"name".toList, .text fun v m => { m with name := v }⟩]

def resolveFilter := resolveWith filterKeys {}

/-- `resolve_kv` on one item: keyword and value of `keyword=value`. -/
def resolveKv (kv : Text) : Option KeyValPair :=
  match split (· == '=') kv with
  | [k, v] =>
      let keyword := trim k
      let value := trim v
      if keyword = [] ∨ value = [] then none else some ⟨keyword, value⟩
  | _ => none

/-- Where one pair goes: the base fields are set aside, later ones winning. -/
def sortKv (acc : List KeyValPair × KVBase) (kv : KeyValPair) : List KeyValPair × KVBase :=
  let (kvs, basis) := acc
  if iequals kv.keyword "utc".toList then (kvs, { basis with utc := kv.value })
  else if iequals kv.keyword "gid".toList then (kvs, { basis with gid := kv.value })
  else if iequals kv.keyword "uid".toList then (kvs, { basis with uid := kv.value })
  else if iequals kv.keyword "cid".toList then (kvs, { basis with cid := kv.value })
  else (kvs ++ [kv], basis)

/-- `resolve_kv` on the item list: the pairs left to the type, and the base. -/
def resolveKvs (str : Text) : List KeyValPair × KVBase :=
  ((split (· == ',') str).filterMap resolveKv).foldl sortKv ([], {})

/-- A received line cut into its type word and what follows. -/
def lineType (rcvd : Text) : Text := (rcvd.dropWhile (· == ' ')).takeWhile (· != ' ')

def lineItems (rcvd : Text) : Text :=
  ((rcvd.dropWhile (· == ' ')).dropWhile (· != ' ')).dropWhile (· == ' ')

/-- The pairs of a line and its base fields; nothing is parsed where nothing
follows the type. -/
def linePairs (rcvd : Text) : List KeyValPair × KVBase :=
  if lineItems rcvd = [] then ([], {}) else resolveKvs (lineItems rcvd)

def asMsg {α : Type} (mk : α → KVMsg) (r : Except NullDeref (Option α)) :
    Except NullDeref (Option KVMsg) :=
  r.map (·.map mk)

/-- The dispatch on the type word, by its first letter as the source has it. -/
def dispatch (ch : Char) (type : Text) (kvs : List KeyValPair) :
    Except NullDeref (Option KVMsg) :=
  if ch = 'a' then do
    let proto ←
      if iequals type kvtypeAppplan then asMsg .appPlan (resolveAppendPlan kvs) else .ok none
    if iequals type kvtypeAppgwac then asMsg .appPlan (resolveAppendGwac kvs)
    else if iequals type kvtypeAbort then asMsg .abort (resolveAbort kvs)
    else .ok proto
  else if ch = 'c' then
    if iequals type kvtypeChkplan then asMsg .checkPlan (resolveCheckPlan kvs)
    else if iequals type kvtypeCamera then asMsg .camera (resolveCamera kvs)
    else if iequals type kvtypeCamset then asMsg .camSet (resolveCamset kvs)
    else .ok none
  else if ch = 'd' then
    if iequals type kvtypeDerot then asMsg .derot (resolveDerot kvs)
    else if iequals type kvtypeDome then asMsg .dome (resolveDome kvs)
    else .ok none
  else if ch = 'f' then
    if iequals type kvtypeFocus then asMsg .focus (resolveFocus kvs)
    else if iequals type kvtypeFocusSync then asMsg .focusSync (resolveFocusSync kvs)
    else if iequals type kvtypeFwhm then asMsg .fwhm (resolveFwhm kvs)
    else if iequals type kvtypeFilter then asMsg .filter (resolveFilter kvs)
    else .ok none
  else if ch = 'm' then
    if iequals type kvtypeMount then asMsg .mount (resolveMount kvs)
    else if iequals type kvtypeMcover then asMsg .mirrCover (resolveMcover kvs)
    else .ok none
  else if ch = 'p' then
    if iequals type kvtypePlan then asMsg .plan (resolvePlan kvs)
    else if iequals type kvtypePark then asMsg .park (resolvePark kvs)
    else .ok none
  else if ch = 's' then
    if iequals type kvtypeSlewto then asMsg .slewto (resolveSlewto kvs)
    else if iequals type kvtypeSync then asMsg .sync (resolveSync kvs)
    else .ok none
  else if ch = 't' then
    if iequals type kvtypeTkimg then asMsg .appPlan (resolveTakeImage kvs)
    else if iequals type kvtypeTrack then asMsg .track (resolveTrack kvs)
    else if iequals type kvtypeTrackvel then asMsg .trackVel (resolveTrackvel kvs)
    else .ok none
  else if iequals type kvtypeExpose then asMsg .expose (resolveExpose kvs)
  else if iequals type kvtypeGuide then asMsg .guide (resolveGuide kvs)
  else if iequals type kvtypeHome then asMsg .home (resolveHome kvs)
  else if iequals type kvtypeObss then asMsg .obss (resolveObss kvs)
  else if iequals type kvtypeRmvplan then asMsg .removePlan (resolveRemovePlan kvs)
  else .ok none

/-- `KVProtocol::Resolve`. -/
def resolve (rcvd : Text) : Except NullDeref (Option KVMsg) :=
  let ch := ((rcvd.dropWhile (· == ' ')).headD '\x00').toLower
  let (kvs, basis) := linePairs rcvd
  (dispatch ch (lineType rcvd) kvs).map (·.map (·.assign basis))

example : resolve "abort gid=001, uid = 002".toList =
    .ok (some (.abort { gid := "001".toList, uid := "002".toList })) := by
  decide +kernel

end Gtoaes
