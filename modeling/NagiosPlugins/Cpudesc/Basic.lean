import NagiosPlugins.Procparser.Linelookup

/-!
# The lines that describe a CPU

The loop of `cpu_desc_read` in `lib/cpudesc.c`. The keys are tried one after the other, and no line
has two of them.
-/

namespace NagiosPlugins

open Libc

/-- The texts of a `struct cpu_desc` that are looked up. -/
inductive CpuDescField where
  | vendor
  | family
  | model
  | modelname
  | mhz
  | flags
  deriving DecidableEq, Repr

/-- The texts; `none` is NULL. -/
abbrev CpuDescTexts := CpuDescField → Option CString

/-- The keys, in the order in which they are tried. -/
def cpuDescAttempts : List (CString × CpuDescField) := [
  (ascii "vendor", .vendor),
  (ascii "vendor_id", .vendor),
  (ascii "family", .family),
  (ascii "cpu family", .family),
  (ascii "model", .model),
  (ascii "model name", .modelname),
  (ascii "cpu MHz", .mhz),
  (ascii "flags", .flags)]

/-- The body of the loop of `cpu_desc_read`. -/
def cpuDescLine (attempts : List (CString × CpuDescField)) (cpudesc : CpuDescTexts)
    (line : CString) : Except Stop CpuDescTexts :=
  match attempts with
  | [] => .ok cpudesc
  | (pattern, field) :: attempts => do
    match ← linelookup line pattern with
    | some value => return Function.update cpudesc field (some value)
    | none => cpuDescLine attempts cpudesc line

/-- The loop of `cpu_desc_read` over the lines of `/proc/cpuinfo`. -/
def cpuDescLines (attempts : List (CString × CpuDescField)) (content : List UInt8)
    (cpudesc : CpuDescTexts) : Except Stop CpuDescTexts :=
  (getlines content).foldlM (cpuDescLine attempts) cpudesc

/-! ### One key at most -/

/-- Of these keys a line has one at most. -/
def AtMostOne (attempts : List (CString × CpuDescField)) (line : CString) : Prop :=
  ∀ p ∈ attempts, ∀ q ∈ attempts, linelookup line p.1 ≠ .ok none →
    linelookup line q.1 ≠ .ok none → p = q

/-- No key has a colon or a blank at its end, and all are different. -/
lemma cpuDescAttempts_plain :
    (∀ p ∈ cpuDescAttempts, (':' : UInt8) ∉ p.1 ∧ ∀ c ∈ p.1.getLast?, isspace c = false) ∧
      ∀ p ∈ cpuDescAttempts, ∀ q ∈ cpuDescAttempts, p.1 = q.1 → p = q := by
  decide +kernel

lemma atMostOne_cpuDescAttempts (line : CString) : AtMostOne cpuDescAttempts line := by
  obtain ⟨hplain, hinj⟩ := cpuDescAttempts_plain
  intro p hp q hq hpline hqline
  obtain ⟨k, rfl⟩ := exists_render_of_ne_none hpline
  obtain ⟨k', hk'⟩ := exists_render_of_ne_none hqline
  obtain ⟨hpcolon, hplast⟩ := hplain p hp
  obtain ⟨hqcolon, hqlast⟩ := hplain q hq
  exact hinj p hp q hq (pattern_eq_of_render_eq hk' hpcolon hqcolon hplast hqlast)

/-- Attempts of which one succeeds at most can be made in any order. -/
lemma cpuDescLine_perm {attempts attempts' : List (CString × CpuDescField)}
    (hperm : attempts.Perm attempts') {line : CString} (hone : AtMostOne attempts line)
    (cpudesc : CpuDescTexts) :
    cpuDescLine attempts cpudesc line = cpuDescLine attempts' cpudesc line := by
  induction hperm with
  | nil => rfl
  | cons p _ ih =>
    rw [cpuDescLine, cpuDescLine, ih]
    intro q hq r hr
    exact hone q (List.mem_cons_of_mem _ hq) r (List.mem_cons_of_mem _ hr)
  | swap p q attempts =>
    by_cases hp : linelookup line p.1 = .ok none
    · simp [cpuDescLine, hp]
    · by_cases hq : linelookup line q.1 = .ok none
      · simp [cpuDescLine, hq]
      · rw [hone p (by simp) q (by simp) hp hq]
  | trans hperm _ ih ih' =>
    rw [ih hone, ih']
    intro p hp q hq
    exact hone p (hperm.mem_iff.2 hp) q (hperm.mem_iff.2 hq)

/-- The order of the attempts makes no difference for a line. -/
structure OrderIrrelevant (line : CString) : Prop where
  atMostOne : AtMostOne cpuDescAttempts line
  perm : ∀ attempts, attempts.Perm cpuDescAttempts → ∀ cpudesc,
    cpuDescLine attempts cpudesc line = cpuDescLine cpuDescAttempts cpudesc line

lemma orderIrrelevant (line : CString) : OrderIrrelevant line where
  atMostOne := atMostOne_cpuDescAttempts line
  perm _ hperm cpudesc :=
    (cpuDescLine_perm hperm.symm (atMostOne_cpuDescAttempts line) cpudesc).symm

/-- Nor does it for a file. -/
theorem cpuDescLines_perm {attempts : List (CString × CpuDescField)}
    (hperm : attempts.Perm cpuDescAttempts) (content : List UInt8) (cpudesc : CpuDescTexts) :
    cpuDescLines attempts content cpudesc = cpuDescLines cpuDescAttempts content cpudesc := by
  have hstep : cpuDescLine attempts = cpuDescLine cpuDescAttempts := by
    funext cpudesc line
    exact (orderIrrelevant line).perm attempts hperm cpudesc
  rw [cpuDescLines, cpuDescLines, hstep]

/-- A key is looked up exactly, whatever the order of the attempts is, if and only if the last
character of the line is not part of its value, or is all of it behind a blank. -/
theorem lookupExact_iff {line : CString} (hzero : (0 : UInt8) ∉ line) (pattern : CString) :
    LookupExact line pattern ∧ OrderIrrelevant line ↔
      ∀ k : KeyValue, line = k.render pattern → k.Trimmed := by
  rw [← lookupExact_iff_trimmed hzero pattern]
  exact and_iff_left (orderIrrelevant line)

theorem lookupExact_iff_flags :
    LookupExact (ascii "flags : fpu\n") (ascii "flags") ∧ OrderIrrelevant (ascii "flags : fpu\n") ↔
      ∀ k : KeyValue, ascii "flags : fpu\n" = k.render (ascii "flags") → k.Trimmed :=
  lookupExact_iff (by decide +kernel) (ascii "flags")

/-- The value `fpu` without a newline behind it. -/
def fpuValue : KeyValue where
  gap := ascii " "
  lead := ascii " "
  value := ascii "fpu"
  trail := []
  gap_blank := by decide +kernel
  lead_blank := by decide +kernel
  trail_blank := by decide +kernel
  value_ne := by decide +kernel
  head_value := by decide +kernel
  last_value := by decide +kernel

/-- The last letter of it is lost. -/
theorem fpu_not_lookupExact : ¬ LookupExact (ascii "flags : fpu") (ascii "flags") := by
  intro h
  have hvalue := h.value fpuValue (by decide +kernel)
  have hrun : linelookup (ascii "flags : fpu") (ascii "flags") = .ok (some (ascii "fp")) := by
    decide +kernel
  rw [hrun] at hvalue
  exact absurd hvalue (by decide +kernel)

end NagiosPlugins
