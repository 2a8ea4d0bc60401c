import NagiosPlugins.Common

/-!
# Messages

`state_text` of `lib/messages.c`.
-/

namespace NagiosPlugins

open Libc

/-- `state_text`. -/
def stateText : Nagstatus → CString
  | .ok => ascii "OK"
  | .warning => ascii "WARNING"
  | .critical => ascii "CRITICAL"
  | .dependent => ascii "DEPENDENT"
  | .unknown => ascii "UNKNOWN"

end NagiosPlugins
