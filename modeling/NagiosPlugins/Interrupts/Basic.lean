import NagiosPlugins.Common
import NagiosPlugins.Libc.Stdlib

/-!
# Interrupts per CPU

`proc_interrupts_get_nintr_per_cpu` of `lib/interrupts.c`. A pointer into a line is what stands
from there to the end of the string; it is `none` behind the terminating NUL.
-/

namespace NagiosPlugins

open Libc

/-- The loop over the CPUs for one line, from `p` on: the counters are added to `vintr`. -/
def addColumns : Option CString → List UInt64 → Except Stop (List UInt64)
  | _, [] => .ok []
  | none, _ :: _ => .error .outOfBounds
  | some [], v :: vintr => do return v :: (← addColumns (some []) vintr)
  | some (c :: s), v :: vintr =>
    if c = '\n' then do return v :: (← addColumns (some (c :: s)) vintr)
    else do
      let (value, endptr) := strtoulEnd s
      return (v + value) :: (← addColumns endptr.tail? vintr)

/-- What one line does to `vintr`. -/
def addInterruptLine (vintr : List UInt64) (line : CString) : Except Stop (List UInt64) :=
  match strchr line ':' with
  | none => .ok vintr
  | some p => addColumns (some p) vintr

/-- The counters of the CPUs that are online, `none` for NULL; `content` is what the file holds,
unless it cannot be opened. -/
def procInterruptsGetNintrPerCpu (content : Option (List UInt8)) (ncpus : ℕ) :
    Except Stop (Option (List UInt64)) :=
  match content with
  | none => .ok none
  | some content => do
    -- the memory for the counters is zero, and the first line is skipped
    return some (← (getlines content).tail.foldlM addInterruptLine (List.replicate ncpus 0))

end NagiosPlugins
