import Gtoaes.Astro.Dates
import Gtoaes.Lib.Machine
import Gtoaes.Lib.CString
import Gtoaes.Lib.Ostream
import Gtoaes.Lib.ReadBack
import Mathlib.Data.List.Chain

/-!
The log. `GLog` writes to a stream, or to a file for each day, which it opens with the
first line of the day. It knows that the day has changed by the day of the month alone:
that is enough as long as no four weeks pass between two lines.
-/

namespace Gtoaes

open Lib

/-- `std::tm`, with the year and the month counted as usual. -/
structure LocalTime where
  year : ℤ
  month : ℤ
  mday : ℤ
  hour : ℤ
  min : ℤ
  sec : ℤ
  deriving DecidableEq

def LocalTime.date (t : LocalTime) : ℤ × ℤ × ℤ := (t.year, t.month, t.mday)

inductive LogType
  | normal | warn | fault
  deriving DecidableEq

/-- `LOG_TYPE_STR` -/
def LogType.str : LogType → Text
  | .normal => []
  | .warn => "WARN: ".toList
  | .fault => "ERROR: ".toList

/-- A call of `Write`, in any of its three forms: the time and whether a file can be made
in the directory at that moment, the arguments, and what the format and its arguments
print as. -/
structure LogCall where
  tm : LocalTime
  writable : Bool
  place : Option Text := none
  type : LogType := .normal
  text : Text
  deriving DecidableEq

/-- The line of a call. -/
def LogCall.line (c : LogCall) : Text :=
  zeroPad 2 c.tm.hour ++ ':' :: zeroPad 2 c.tm.min ++ ':' :: zeroPad 2 c.tm.sec ++ " >> ".toList ++
    c.type.str ++ (c.place.elim [] fun place => place ++ ", ".toList) ++ c.text ++ ['\n']

/-- What stands in a log. -/
inductive LogLine
  | header
  | continued
  | entry (text : Text)
  deriving DecidableEq

def LogLine.text : LogLine → Text
  | .header => List.replicate 79 '-' ++ ['\n']
  | .continued => List.replicate 69 '>' ++ " continue\n".toList
  | .entry text => text

def LogLine.entry? : LogLine → Option Text
  | .entry text => some text
  | _ => none

/-- `fd_` -/
inductive LogFd
  | closed
  | stream
  | file (path : Text)
  deriving DecidableEq

/-- A log, with what it has written to its stream and what stands in files. -/
structure GLog where
  dirName : Text
  filePrefix : Text
  fd : LogFd
  dayOld : ℤ := 0
  stream : List LogLine := []
  files : Text → List LogLine

namespace GLog

/-- `GLog(out)` -/
def ofStream (files : Text → List LogLine) : GLog where
  dirName := []
  filePrefix := []
  fd := .stream
  files := files

/-- `GLog(dirName, filePrefix)`, where null pointers give the same as empty texts. -/
def create (cwd dirName filePrefix : Text) (files : Text → List LogLine) : GLog where
  dirName :=
    let dir := if dirName = [] then cwd else dirName
    if dir.getLast? ≠ some '/' ∧ dir.getLast? ≠ some '\\' then dir ++ ['/'] else dir
  filePrefix := if filePrefix = [] then "gLog".toList else filePrefix
  fd := .closed
  files := files

/-- `MAXPATHLEN` -/
def maxPathLen : ℕ := 4096

/-- The path of the log of a day. -/
def logPath (g : GLog) (t : LocalTime) : Text :=
  snprintf maxPathLen (g.dirName ++ g.filePrefix ++ '_' :: intText t.year ++ zeroPad 2 t.month ++
    zeroPad 2 t.mday ++ ".log".toList)

/-- A line is printed to `fd_`. -/
def print (l : LogLine) (g : GLog) : GLog :=
  match g.fd with
  | .closed => g
  | .stream => { g with stream := g.stream ++ [l] }
  | .file path => { g with files := Function.update g.files path (g.files path ++ [l]) }

/-- The log of another day is closed. -/
def changeDay (t : LocalTime) (g : GLog) : GLog :=
  if g.dayOld ≠ t.mday then { g.print .continued with dayOld := t.mday, fd := .closed } else g

/-- A log is opened where none is. -/
def openFile (t : LocalTime) (writable : Bool) (g : GLog) : GLog :=
  if g.fd = .closed ∧ writable then { g with fd := .file (g.logPath t) }.print .header else g

/-- `valid_file` -/
def validFile (t : LocalTime) (writable : Bool) (g : GLog) : GLog :=
  if g.fd = .stream then g else (g.changeDay t).openFile t writable

/-- `Write`: the line is printed where there is something to print it to. -/
def write (c : LogCall) (g : GLog) : GLog × List LogCall :=
  let g := g.validFile c.tm c.writable
  if g.fd = .closed then (g, []) else (g.print (.entry c.line), [c])

end GLog

/-- A log over the calls of `Write`, with those that printed their line. -/
def glog : Machine GLog LogCall LogCall where
  step g c := g.write c

/-! ### Dates -/

/-- The same day of a later month is four weeks later at least. -/
theorem MarchDay.IsDate.later {p q : MarchDay} {iy im iy' im' id : ℤ} (hp : p.IsDate iy im id)
    (hq : q.IsDate iy' im' id) (hlt : 12 * iy + im < 12 * iy' + im') :
    p.julianDay + 28 ≤ q.julianDay := by
  obtain ⟨k, hk, hpMonth, hpDay, -⟩ := hp.exists_index
  obtain ⟨l, hl, hqMonth, hqDay, -⟩ := hq.exists_index
  rw [p.julianDay_eq, q.julianDay_eq, hpDay, hqDay]
  rcases eq_or_ne p.marchYear q.marchYear with heq | hne
  · rw [heq]
    simp only [monthStart]
    omega
  · have hyear : p.marchYear + 1 ≤ q.marchYear := by omega
    have hfirst : firstDay p.marchYear + 365 ≤ firstDay q.marchYear := by
      rw [firstDay, firstDay]
      omega
    simp only [monthStart]
    omega

namespace LocalTime

def calDate (t : LocalTime) : CalDate ℚ := ⟨t.year, t.month, t.mday, 0⟩

/-- A date of the calendar. -/
structure Valid (t : LocalTime) : Prop where
  date : t.calDate.checkUTC = 0
  from1858 : t.calDate.From 1858 11 17
  year : IsInt t.year

/-- Less than four weeks lie between two dates. -/
def Soon (a b : LocalTime) : Prop :=
  |a.calDate.modifiedJulianDay - b.calDate.modifiedJulianDay| < 28

variable {a b : LocalTime}

theorem Valid.month_mem (h : a.Valid) : 1 ≤ a.month ∧ a.month ≤ 12 :=
  (CalDate.checkUTC_eq_zero_iff.mp h.date).2.1

/-- Within four weeks, the day of the month tells the day. -/
theorem date_eq_of_mday (ha : a.Valid) (hb : b.Valid) (hsoon : a.Soon b)
    (hmday : a.mday = b.mday) : a.date = b.date := by
  obtain ⟨p, hp, -, hpDay⟩ := CalDate.exists_day ha.date ha.from1858
  obtain ⟨q, hq, -, hqDay⟩ := CalDate.exists_day hb.date hb.from1858
  have hdays : |p.julianDay - q.julianDay| < 28 := by
    have hdiff : a.calDate.modifiedJulianDay - b.calDate.modifiedJulianDay =
        ((p.julianDay - q.julianDay : ℤ) : ℚ) := by
      rw [show a.calDate.modifiedJulianDay = _ from hpDay 0,
        show b.calDate.modifiedJulianDay = _ from hqDay 0]
      push_cast
      ring
    rw [Soon, hdiff] at hsoon
    exact_mod_cast hsoon
  rw [abs_lt] at hdays
  have hp' : p.IsDate a.year a.month b.mday := hmday ▸ hp
  have hq' : q.IsDate b.year b.month b.mday := hq
  have hmonths : 12 * a.year + a.month = 12 * b.year + b.month := by
    rcases lt_trichotomy (12 * a.year + a.month) (12 * b.year + b.month) with hlt | heq | hgt
    · have hlater := hp'.later hq' hlt
      omega
    · exact heq
    · have hlater := hq'.later hp' hgt
      omega
  obtain ⟨haLow, haHigh⟩ := ha.month_mem
  obtain ⟨hbLow, hbHigh⟩ := hb.month_mem
  simp only [date, Prod.mk.injEq]
  omega

end LocalTime

/-! ### Paths -/

namespace GLog

variable {g : GLog} {t u : LocalTime}

/-- A name that leaves room for a date. -/
def Fits (g : GLog) : Prop := g.dirName.length + g.filePrefix.length ≤ 4075

theorem logPath_of_date (h : t.date = u.date) : g.logPath t = g.logPath u := by
  simp only [LocalTime.date, Prod.mk.injEq] at h
  rw [logPath, logPath, h.1, h.2.1, h.2.2]

/-- The lines of calls in a file. -/
def entries (g : GLog) (path : Text) : List Text := (g.files path).filterMap LogLine.entry?

theorem print_names (l : LogLine) (g : GLog) :
    (g.print l).dirName = g.dirName ∧ (g.print l).filePrefix = g.filePrefix ∧
      (g.print l).fd = g.fd ∧ (g.print l).dayOld = g.dayOld := by
  rw [print]
  split
  · exact ⟨rfl, rfl, rfl, rfl⟩
  · exact ⟨rfl, rfl, rfl, rfl⟩
  · exact ⟨rfl, rfl, rfl, rfl⟩

/-- Only calls count. -/
theorem entries_print_of_none {l : LogLine} (hl : l.entry? = none) (g : GLog) :
    (g.print l).entries = g.entries := by
  funext path
  rw [print]
  cases g.fd with
  | closed => rfl
  | stream => rfl
  | file p =>
      simp only [entries, Function.update_apply]
      split
      · next h => simp [h, hl]
      · rfl

theorem entries_print_entry {p : Text} (hfd : g.fd = .file p) (text path : Text) :
    (g.print (.entry text)).entries path = g.entries path ++ if p = path then [text] else [] := by
  simp only [print, hfd, entries, Function.update_apply]
  by_cases hp : p = path
  · rw [if_pos hp, if_pos hp.symm, hp, List.filterMap_append]
    rfl
  · rw [if_neg hp, if_neg fun h => hp h.symm, List.append_nil]

theorem logPath_congr {h : GLog} (hdir : h.dirName = g.dirName)
    (hstart : h.filePrefix = g.filePrefix) : h.logPath t = g.logPath t := by
  rw [logPath, logPath, hdir, hstart]

/-- What `valid_file` leaves: the log of the day, or none. -/
structure Opened (g : GLog) (t : LocalTime) (writable : Bool) (h : GLog) : Prop where
  dirName : h.dirName = g.dirName
  filePrefix : h.filePrefix = g.filePrefix
  dayOld : h.dayOld = t.mday
  entries : h.entries = g.entries
  fd : h.fd = .closed ∧ writable = false ∨ h.fd = .file (g.logPath t) ∨
    h.fd = g.fd ∧ g.fd ≠ .closed ∧ g.dayOld = t.mday

theorem changeDay_cases (t : LocalTime) (g : GLog) :
    (g.changeDay t).dirName = g.dirName ∧ (g.changeDay t).filePrefix = g.filePrefix ∧
      (g.changeDay t).dayOld = t.mday ∧ (g.changeDay t).entries = g.entries ∧
      ((g.changeDay t).fd = .closed ∨ (g.changeDay t).fd = g.fd ∧ g.dayOld = t.mday) := by
  rw [changeDay]
  split
  · obtain ⟨hdir, hstart, -, -⟩ := g.print_names .continued
    exact ⟨hdir, hstart, rfl, entries_print_of_none rfl g, .inl rfl⟩
  · next hday => exact ⟨rfl, rfl, not_not.mp hday, rfl, .inr ⟨rfl, not_not.mp hday⟩⟩

theorem validFile_opened (t : LocalTime) (writable : Bool) (hstream : g.fd ≠ .stream) :
    g.Opened t writable (g.validFile t writable) := by
  obtain ⟨hdir, hstart, hday, hentries, hfd⟩ := g.changeDay_cases t
  rw [validFile, if_neg hstream, openFile]
  split
  · obtain ⟨hdir', hstart', hfd', hday'⟩ :=
      { g.changeDay t with fd := .file ((g.changeDay t).logPath t) }.print_names .header
    refine ⟨hdir'.trans hdir, hstart'.trans hstart, hday'.trans hday,
      (entries_print_of_none rfl _).trans hentries, .inr (.inl (hfd'.trans ?_))⟩
    rw [logPath_congr hdir hstart]
  · next hopen =>
    refine ⟨hdir, hstart, hday, hentries, ?_⟩
    by_cases hclosed : (g.changeDay t).fd = .closed
    · exact .inl ⟨hclosed, Bool.eq_false_iff.mpr fun h => hopen ⟨hclosed, h⟩⟩
    · obtain ⟨hsame, hmday⟩ := hfd.resolve_left hclosed
      exact .inr (.inr ⟨hsame, hsame ▸ hclosed, hmday⟩)

/-! ### Runs -/

/-- Where the lines of a run stand: the call before this one was `last`, and every line
printed since `g` stands in the file of its day. -/
structure Filed (g : GLog) (last : Option LogCall) (c : Config GLog LogCall) : Prop where
  dirName : c.state.dirName = g.dirName
  filePrefix : c.state.filePrefix = g.filePrefix
  dayOld : c.state.dayOld = last.elim 0 (·.tm.mday)
  fd : c.state.fd = .closed ∨ ∃ l, last = some l ∧ c.state.fd = .file (g.logPath l.tm)
  entries : ∀ path, c.state.entries path =
    g.entries path ++ (c.hist.filter fun x => g.logPath x.tm = path).map LogCall.line

/-- A call prints its line to the file of its day, if there is one or can be. -/
theorem Filed.next {last : Option LogCall} {c : Config GLog LogCall} (h : g.Filed last c)
    {x : LogCall} (hx : x.tm.Valid) (hlast : ∀ l ∈ last, l.tm.Valid ∧ l.tm.Soon x.tm) :
    g.Filed (some x) (glog.next c x) ∧ ((glog.next c x).hist = c.hist ++ [x] ∨
      (glog.next c x).hist = c.hist ∧ x.writable = false) := by
  have hstream : c.state.fd ≠ .stream := by
    rcases h.fd with hfd | ⟨l, -, hfd⟩
    · exact hfd ▸ LogFd.noConfusion
    · exact hfd ▸ LogFd.noConfusion
  have hopen := validFile_opened x.tm x.writable hstream
  have hpath : ∀ t, c.state.logPath t = g.logPath t := fun _ => logPath_congr h.dirName h.filePrefix
  have hfd : (c.state.validFile x.tm x.writable).fd = .closed ∧ x.writable = false ∨
      (c.state.validFile x.tm x.writable).fd = .file (g.logPath x.tm) := by
    rcases hopen.fd with hclosed | hfile | ⟨hsame, hne, hmday⟩
    · exact .inl hclosed
    · exact .inr (hfile.trans (congrArg _ (hpath _)))
    · -- the file that is open is that of the last call, whose day is this one
      obtain ⟨l, hl, hfile⟩ := h.fd.resolve_left hne
      obtain ⟨hvalid, hsoon⟩ := hlast l hl
      rw [h.dayOld, hl] at hmday
      have hdate := LocalTime.date_eq_of_mday hvalid hx hsoon hmday
      exact .inr (hsame.trans (hfile.trans (congrArg _ (logPath_of_date hdate))))
  have hdir := hopen.dirName.trans h.dirName
  have hstart := hopen.filePrefix.trans h.filePrefix
  have hstep : glog.next c x = { state := (c.state.write x).1, hist := c.hist ++ (c.state.write x).2 } :=
    rfl
  rcases hfd with ⟨hclosed, hwritable⟩ | hfile
  · have hwrite : c.state.write x = (c.state.validFile x.tm x.writable, []) := if_pos hclosed
    rw [hstep, hwrite, List.append_nil]
    refine ⟨⟨hdir, hstart, hopen.dayOld, .inl hclosed, fun path => ?_⟩, .inr ⟨rfl, hwritable⟩⟩
    rw [hopen.entries]
    exact h.entries path
  · have hne : (c.state.validFile x.tm x.writable).fd ≠ .closed := by
      rw [hfile]
      exact LogFd.noConfusion
    have hwrite : c.state.write x =
        ((c.state.validFile x.tm x.writable).print (.entry x.line), [x]) := if_neg hne
    obtain ⟨hdir', hstart', hfd', hday'⟩ :=
      (c.state.validFile x.tm x.writable).print_names (.entry x.line)
    rw [hstep, hwrite]
    refine ⟨⟨hdir'.trans hdir, hstart'.trans hstart, hday'.trans hopen.dayOld,
      .inr ⟨x, rfl, hfd'.trans hfile⟩, fun path => ?_⟩, .inl rfl⟩
    rw [entries_print_entry hfile, hopen.entries, h.entries, List.filter_append, List.map_append,
      List.append_assoc]
    congr 2
    by_cases hp : g.logPath x.tm = path
    · simp [hp]
    · simp [hp]

theorem Filed.exec {calls : List LogCall} {last : Option LogCall} {c : Config GLog LogCall}
    (h : g.Filed last c) (hvalid : ∀ x ∈ last.toList ++ calls, x.tm.Valid)
    (hsoon : (last.toList ++ calls).IsChain fun x y => x.tm.Soon y.tm) :
    ∃ printed, (glog.exec c calls).hist = c.hist ++ printed ∧ printed.Sublist calls ∧
      (calls.filter (·.writable)).Sublist printed ∧
      ∃ last', g.Filed last' (glog.exec c calls) := by
  induction calls generalizing last c with
  | nil => exact ⟨[], (List.append_nil _).symm, List.Sublist.slnil, List.Sublist.slnil, last, h⟩
  | cons x calls ih =>
      have hx : x.tm.Valid := hvalid x (by simp)
      have hlast : ∀ l ∈ last, l.tm.Valid ∧ l.tm.Soon x.tm := by
        rintro l ⟨⟩
        exact ⟨hvalid l (by simp), (List.isChain_cons_cons.mp hsoon).1⟩
      obtain ⟨hfiled, hhist⟩ := h.next hx hlast
      obtain ⟨printed, heq, hsub, hall, hend⟩ :=
        ih hfiled (fun y hy => hvalid y (List.mem_append_right _ hy)) hsoon.right_of_append
      have hexec : glog.exec c (x :: calls) = glog.exec (glog.next c x) calls := rfl
      rcases hhist with hprinted | ⟨hskipped, hwritable⟩
      · refine ⟨x :: printed, ?_, hsub.cons_cons x, ?_, hend⟩
        · rw [hexec, heq, hprinted, List.append_assoc, List.singleton_append]
        · rw [List.filter_cons]
          split
          · exact hall.cons_cons x
          · exact hall.cons x
      · refine ⟨printed, ?_, hsub.cons x, ?_, hend⟩
        · rw [hexec, heq, hskipped]
        · rwa [List.filter_cons_of_neg (by simp [hwritable])]

/-- A call without a file and two that are equal before midnight, and one after. -/
def midnight : List LogCall :=
  [{ tm := ⟨2021, 1, 31, 23, 59, 58⟩, writable := false, text := "lost".toList },
    { tm := ⟨2021, 1, 31, 23, 59, 59⟩, writable := true, type := .warn, text := "old".toList },
    { tm := ⟨2021, 1, 31, 23, 59, 59⟩, writable := true, type := .warn, text := "old".toList },
    { tm := ⟨2021, 2, 1, 0, 0, 0⟩, writable := true, text := "new".toList }]

end GLog

end Gtoaes
