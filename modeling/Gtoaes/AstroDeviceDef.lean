import Mathlib.Data.Int.Notation

/-!
The numeric codes of `AstroDeviceDef.h` that the handlers compare or send. They
are integers and not enumerations, since every one of them is compared with a
number a remote peer has sent.
-/

namespace Gtoaes

/-- Terminal devices, by the port their connection came in on. -/
inductive PeerType
  | client | mountGWAC | mountGFT | cameraGWAC | cameraGFT | focus | dataproc | last
  deriving DecidableEq

/-- Coordinate systems `COORSYS_*`. -/
def coorsysAltaz : ℤ := 0

def coorsysEqua : ℤ := 1

inductive CoorSystem
  | equatorial | horizontal | orbit
  deriving DecidableEq

/-- The two ways of counting coordinate systems: that of the comments in the
message classes and of the copy of a plan, and that of `COORSYS_*`. -/
inductive Numbering
  | comments | enum
  deriving DecidableEq

def Numbering.system : Numbering → ℤ → CoorSystem
  | .comments, n => if n = 0 then .equatorial else if n = 1 then .horizontal else .orbit
  | .enum, n =>
      if n = coorsysEqua then .equatorial else if n = coorsysAltaz then .horizontal else .orbit

/-- Mount states `MOUNT_*`. -/
def mountMin : ℤ := -1

def mountError : ℤ := 0

def mountFreeze : ℤ := 1

def mountHomed : ℤ := 3

def mountParking : ℤ := 4

def mountParked : ℤ := 5

def mountSlewing : ℤ := 6

def mountTracking : ℤ := 7

def mountGuiding : ℤ := 8

def mountMax : ℤ := 9

/-- Exposure commands `EXP_*`. -/
def expStart : ℤ := 0

def expStop : ℤ := 1

/-- Camera states `CAMCTL_*`. -/
def camctlError : ℤ := 0

def camctlIdle : ℤ := 1

def camctlExposing : ℤ := 2

def camctlWaitFlat : ℤ := 6

/-- Plan states `OBSPLAN_*`. -/
def obsplanCataloged : ℤ := 1

def obsplanRunning : ℤ := 4

def obsplanOver : ℤ := 5

def obsplanInterrupted : ℤ := 6

end Gtoaes
