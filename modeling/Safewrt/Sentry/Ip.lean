/-
  The client's MAC address (hatch/src/services/sentry/src/sentry/ip.rs): a look into the
  neighbour table that `ip n` prints.
-/
import Safewrt.Lib.Text

namespace Safewrt.Sentry

open Safewrt.Lib

/-- `get_mac_impl`: the fifth word of the first line of at least six that starts with `ip`. -/
def getMacImpl (ip output : Text) : Option Text :=
  (lines output).findSome? fun line =>
    let cols := splitWhitespace line
    if cols.length < 6 then none
    else if cols.head? = some ip then cols[4]? else none

/-- `ip_to_mac`; `output` is what `ip n` printed, where it ran and printed UTF-8. -/
def ipToMac (output : Option Text) (ip : Text) : Option Text :=
  output.bind fun output => getMacImpl ip output

example : getMacImpl "192.168.8.2".toList
    ("192.168.8.1 dev enp0s20u1 lladdr DE:AD:BE:EF:00:11 REACHABLE\n" ++
      "192.168.8.2 dev enp0s20u2 lladdr DE:AD:BE:EF:00:22 REACHABLE").toList =
    some "DE:AD:BE:EF:00:22".toList := by decide +kernel

end Safewrt.Sentry
