import ChronyRs.L2Auth.AddrfiltNodes
import ChronyRs.L2Auth.Md5Stream
import ChronyRs.L2Auth.SivCmac
import ChronyRs.L3Nts.Negotiate
import ChronyRs.L3Nts.Refusal
import ChronyRs.L4Cmd.Masks
import ChronyRs.L4Server.Signd
import ChronyRs.L5Daemon.Civil
import ChronyRs.L5Daemon.EraSplit
import ChronyRs.L5Sources.Intersection
import ChronyRs.L5Sources.SampleFilter
import ChronyRs.L5Sources.SampleRegister
import ChronyRs.L5Sources.Selection
import ChronyRs.Bugs.Amplification
import ChronyRs.Bugs.AuthEfOverrun
import ChronyRs.Bugs.BodyOffset
import ChronyRs.Bugs.ClockUsec
import ChronyRs.Bugs.DeafClient
import ChronyRs.Bugs.Downgrade
import ChronyRs.Bugs.DriftReset
import ChronyRs.Bugs.DroppedNak
import ChronyRs.Bugs.EraStraddle
import ChronyRs.Bugs.FarTransmit
import ChronyRs.Bugs.FloodValve
import ChronyRs.Bugs.FrozenClock
import ChronyRs.Bugs.HelperReplies
import ChronyRs.Bugs.LatinWords
import ChronyRs.Bugs.LiteralGlob
import ChronyRs.Bugs.LongControl
import ChronyRs.Bugs.MacAsField
import ChronyRs.Bugs.OneShotTimers
import ChronyRs.Bugs.OpenCommands
import ChronyRs.Bugs.OpenFallback
import ChronyRs.Bugs.OriginCheck
import ChronyRs.Bugs.PlainRequest
import ChronyRs.Bugs.RefusedExchange
import ChronyRs.Bugs.RejectedResponse
import ChronyRs.Bugs.ReplyLoop
import ChronyRs.Bugs.RxOverrun
import ChronyRs.Bugs.SelfRemoval
import ChronyRs.Bugs.ServerCookies
import ChronyRs.Bugs.SharedNibble
import ChronyRs.Bugs.ShortMonths
import ChronyRs.Bugs.StaleSelection
import ChronyRs.Bugs.TrackingLeap
import ChronyRs.Bugs.UncheckedContext
import ChronyRs.Bugs.VacatedEntry
import ChronyRs.Bugs.WrappedSeconds
