import Navisim.Lib.Interleaving
import Navisim.RealTime.Threads
import Navisim.RealTime.Deadlock
import Navisim.RealTime.Transfer
import Navisim.RealTime.Amplitude
import Navisim.Nav.RoundTrip
import Navisim.Rtcm.Rebroadcast
import Navisim.Signal.Worker
import Navisim.Signal.Tracking
import Navisim.Loop.Allocate
import Navisim.Loop.Fresh
import Navisim.Loop.Generate
import Navisim.Loop.Blocks
import Navisim.Loop.Window
import Navisim.Loop.Stream
import Navisim.Lib.Advance
import Navisim.Gps.Calendar
import Navisim.Gps.Dates
import Navisim.Rinex.CutOff
import Navisim.Rinex.File
import Navisim.Rinex.Lines
import Navisim.Rinex.Read
import Navisim.Rinex.Table
import Navisim.Loop.Sets
import Navisim.Lib.Framing
import Navisim.Rtcm.Crc
import Navisim.Rtcm.Receive
import Navisim.Rtcm.Cuts
import Navisim.Lib.Store
import Navisim.Loop.Calls
import Navisim.Loop.Capacity
import Navisim.Rtcm.Handed
import Navisim.Rtcm.History
import Navisim.Lib.Delay
import Navisim.Pipeline.File
import Navisim.Pipeline.Workers
import Navisim.Lib.Handover
import Navisim.Pipeline.Exclusion
import Navisim.Pipeline.Concurrent
import Navisim.Nav.Parameters
import Navisim.Loop.Broadcast
import Navisim.Loop.StartUp
import Navisim.Lib.Text
import Navisim.Motion.Readers
import Navisim.Motion.Lines
import Navisim.Motion.Point
import Navisim.Motion.Track
import Navisim.Lib.Assignment
import Navisim.Loop.RealTime
import Navisim.Loop.Reads
import Navisim.Nav.Health
import Navisim.Rtcm.Bounds
import Navisim.Rtcm.Deframe
import Navisim.Lib.Division
import Navisim.Rtcm.Parity
import Navisim.Rtcm.Effect
import Navisim.Rtcm.Filled
import Navisim.Nav.TowCount
import Navisim.Loop.TowCounts
import Navisim.Nav.Renewal
import Navisim.Rinex.Rebroadcast
import Navisim.Settings.Current
import Navisim.Lib.TextLines
import Navisim.Motion.Leading
import Navisim.Lib.Tokens
import Navisim.Motion.Sentences
import Navisim.Pipeline.Transmit
import Navisim.Lib.Settle
import Navisim.Motion.Geodetic
import Navisim.Lib.RealMath
import Navisim.Lib.Newton
import Navisim.Gps.Kepler
import Navisim.Settings.Statements
import Navisim.Gps.Steps
import Navisim.Lib.Gold
import Navisim.Signal.GoldCode
import Navisim.Loop.Separation
import Navisim.RealTime.RingFifo
import Navisim.RealTime.Chain
import Navisim.Lib.Syndrome
import Navisim.Nav.Distance
import Navisim.Lib.Space
import Navisim.Motion.Horizon
import Navisim.Lib.Angle
import Navisim.Gps.Orbit
import Navisim.Lib.Perturbed
import Navisim.Gps.Nominal
import Navisim.Gps.Nearby
import Navisim.Gps.Sight
import Navisim.Motion.Inverse
import Navisim.Gps.Ionosphere
import Navisim.Gps.Pseudorange
import Navisim.Gps.Exact
import Navisim.Loop.Measured
import Navisim.Loop.Nominal
import Navisim.Lib.Detection
import Navisim.Rtcm.Damage
import Navisim.Lib.Rotation
import Navisim.Signal.Carrier
import Navisim.Loop.Waveform
import Navisim.Rtcm.Plausible
