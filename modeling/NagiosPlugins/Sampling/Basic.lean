import NagiosPlugins.Data.TwoSlots
import NagiosPlugins.Interrupts.Basic

/-!
# Context switches and interrupts per second

`get_ctxtdelta` of `plugins/check_cswch.c`, and `get_intrdelta` and the output loop of
`plugins/check_intr.c`. The plugin sleeps once before each turn of the loop: what it reads in turn
`i` is what the system shows after `i` delays.
-/

namespace NagiosPlugins

/-- `x / y` for `unsigned long long`. -/
def divideLong (x y : UInt64) : Except Stop UInt64 :=
  if y = 0 then .error .undefined else .ok (x / y)

/-- The two samples, and the difference that is returned. -/
structure Sampling where
  samples : TwoSlots UInt64
  delta : UInt64

/-- The body of the loop, with the next reading. -/
def samplingStep (reading : Except Stop UInt64) (delay : UInt32) (s : Sampling) :
    Except Stop Sampling := do
  let samples := s.samples.push (← reading)
  return ⟨samples, ← divideLong (samples.latest - samples.other) delay.toUInt64⟩

/-- `get_ctxtdelta`; `slot` is what `nctxt[1]` holds at first. -/
def getCtxtdelta (slot : UInt64) (cpuStatsGetCswch : ℕ → Except Stop UInt64)
    (count delay : UInt32) : Except Stop UInt64 := do
  let first ← cpuStatsGetCswch 0
  let s ← (List.range' 1 (count.toNat - 1)).foldlM
    (fun s i => samplingStep (cpuStatsGetCswch i) delay s) ⟨.start slot first, first⟩
  return s.delta

/-! ### Interrupts -/

/-- The file with the interrupts, unless it cannot be opened, and the CPUs that are online. -/
structure InterruptFile where
  content : Option (List UInt8)
  online : UInt32

/-- `*ncpus` and the counters, after `proc_interrupts_get_nintr_per_cpu` has been called. -/
def nintrPerCpu (file : InterruptFile) (ncpus : UInt32) :
    Except Stop (UInt32 × Option (List UInt64)) := do
  let vintr ← procInterruptsGetNintrPerCpu file.content file.online.toNat
  return (if file.content.isSome then file.online else ncpus, vintr)

/-- `ncpus0`, `ncpus1` and `vintr` of `main`. -/
structure IntrVectors where
  ncpus0 : UInt32
  ncpus1 : UInt32
  vintr0 : Option (List UInt64)
  vintr1 : Option (List UInt64)
  deriving DecidableEq, Repr

/-- How `main` initialises them. -/
def IntrVectors.null : IntrVectors := ⟨0, 0, none, none⟩

/-- `(*vintr)[0]` and `*ncpus0` are set. -/
def IntrVectors.set0 (file : InterruptFile) (v : IntrVectors) : Except Stop IntrVectors := do
  let (ncpus0, vintr0) ← nintrPerCpu file v.ncpus0
  return { v with ncpus0, vintr0 }

def IntrVectors.set1 (file : InterruptFile) (v : IntrVectors) : Except Stop IntrVectors := do
  let (ncpus1, vintr1) ← nintrPerCpu file v.ncpus1
  return { v with ncpus1, vintr1 }

section Interrupts

variable (cpuStatsGetIntr : ℕ → Except Stop UInt64) (files : ℕ → InterruptFile)

/-- Turn `i` of the loop; `count - 2` and `count - 1` wrap around. -/
def intrStep (count delay : UInt32) (s : Sampling × IntrVectors) (i : ℕ) :
    Except Stop (Sampling × IntrVectors) := do
  let sampling ← samplingStep (cpuStatsGetIntr i) delay s.1
  if count - 2 = UInt32.ofNat i then return (sampling, ← s.2.set0 (files i))
  else if count - 1 = UInt32.ofNat i then return (sampling, ← s.2.set1 (files i))
  else return (sampling, s.2)

/-- `get_intrdelta`: what it returns, and the variables of `main`. -/
def getIntrdelta (slot : UInt64) (v : IntrVectors) (count delay : UInt32) :
    Except Stop (UInt64 × IntrVectors) := do
  let first ← cpuStatsGetIntr 0
  let v ← if count ≤ 2 then v.set0 (files 0) else .ok v
  let (s, v) ← (List.range' 1 (count.toNat - 1)).foldlM (intrStep cpuStatsGetIntr files count delay)
    (⟨.start slot first, first⟩, v)
  return (s.delta, v)

end Interrupts

/-- `vintr[i]`. -/
def readVector (vintr : Option (List UInt64)) (i : ℕ) : Except Stop UInt64 :=
  match vintr with
  | none => .error .undefined
  | some vintr =>
    match vintr[i]? with
    | none => .error .outOfBounds
    | some n => .ok n

/-- The numbers that the output loop prints. -/
def printIntr (count delay : UInt32) (v : IntrVectors) : Except Stop (List UInt64) :=
  (List.range (min v.ncpus0 v.ncpus1).toNat).mapM fun i =>
    if count > 1 then do
      divideLong ((← readVector v.vintr1 i) - (← readVector v.vintr0 i)) delay.toUInt64
    else readVector v.vintr0 i

end NagiosPlugins
