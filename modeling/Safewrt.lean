import Safewrt.Lib.Run
import Safewrt.Lib.Http
import Safewrt.Dns.Bounds
import Safewrt.Dns.Probe
import Safewrt.Dns.Offsets
import Safewrt.Lifeline.Headers
import Safewrt.Lifeline.ForwardLoop
import Safewrt.Lifeline.AttemptDns
import Safewrt.Lifeline.Descriptors
import Safewrt.Lifeline.Main
import Safewrt.Lifeline.Leaks
import Safewrt.Lifeline.Helo
import Safewrt.Lifeline1.Remote
import Safewrt.Lifeline1.Timerless
import Safewrt.Lifeline1.Polls
import Safewrt.Sentry.Sweeps
import Safewrt.Sentry.Neighbours
import Safewrt.Sentry.Panic
import Safewrt.Sentry.Visit
import Safewrt.Sentry.TimeControl
import Safewrt.Sentry.ValidTime
import Safewrt.Genesis.Wireless
import Safewrt.Router.Identity
import Safewrt.Genesis.Main
import Safewrt.Safeloader.Leak
import Safewrt.Safeloader.Lines
import Safewrt.Safeloader.ConvertAny
import Safewrt.Safeloader.Paths
import Safewrt.Safeloader.Header
import Safewrt.PatchCmdline.Patch
