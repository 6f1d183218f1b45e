import Gtoaes.Proto.NumericFields
import Gtoaes.Proto.RoundTrip
import Gtoaes.Proto.Acknowledge
import Gtoaes.Obss.PlanOver
import Gtoaes.Obss.ExposureStart
import Gtoaes.Obss.Retry
import Gtoaes.Obss.Pointing
import Gtoaes.Obss.SlewTarget
import Gtoaes.Obss.Counters
import Gtoaes.Obss.MessageLoop
import Gtoaes.Net.Receive
import Gtoaes.Net.Sending
import Gtoaes.Net.Framing
import Gtoaes.Control.PlanEnds
import Gtoaes.Obss.SerialNumbers
import Gtoaes.Obss.PlanStatus
import Gtoaes.Obss.CameraIds
import Gtoaes.Control.Release
import Gtoaes.Control.CameraLines
import Gtoaes.Control.Registration
import Gtoaes.Astro.NewSite
import Gtoaes.Astro.MoonInstant
import Gtoaes.Control.Reports
import Gtoaes.Proto.ReportFrames
import Gtoaes.Obss.Leaving
import Gtoaes.Obss.RetryLog
import Gtoaes.Obss.Settling
import Gtoaes.Control.FocusFrames
import Gtoaes.Obss.FocusOrigin
import Gtoaes.Control.StatusFrames
import Gtoaes.Obss.MountDesc
import Gtoaes.Net.Backlog
import Gtoaes.Proto.CompleteFrames
import Gtoaes.Obss.PlanTimes
import Gtoaes.Obss.Deadline
import Gtoaes.Lib.PropertyTree
import Gtoaes.Lib.Translator
import Gtoaes.Parameter
import Gtoaes.Astro.LeapSeconds
import Gtoaes.Astro.Sexagesimal
import Gtoaes.AMath.LinearSystem
import Gtoaes.AMath.Singular
import Gtoaes.AMath.Determinant
import Gtoaes.Proto.Spelling
import Gtoaes.AMath.KSelect
import Gtoaes.AMath.Lagrange
import Gtoaes.AMath.Spline
import Gtoaes.Astro.FieldBuffer
import Gtoaes.Obss.Readers
import Gtoaes.Control.ClientStream
import Gtoaes.Control.Broadcast
import Gtoaes.Control.Isolation
import Gtoaes.Obss.ImageNumbers
import Gtoaes.Control.Dispatch
import Gtoaes.Astro.Kepler
import Gtoaes.Astro.Frames
import Gtoaes.AMath.Polar
import Gtoaes.AMath.Fit
import Gtoaes.Astro.Twilight
import Gtoaes.GLog
import Gtoaes.Astro.AtomicTime
import Gtoaes.MessageQueue
import Gtoaes.AMath.Erf
import Gtoaes.AMath.SphereRange
