import Mathlib.Data.List.DropRight
import NagiosPlugins.Cpu.Stat
import NagiosPlugins.Data.Except
import NagiosPlugins.Data.Latch
import NagiosPlugins.Data.Lists

/-!
# The lines of `/proc/stat` and their entries

Nothing is written outside the entries. A line with a label that is not the one of a CPU can be
counted for an entry all the same: `cpu-1` goes where the line of all CPUs goes.
-/

namespace NagiosPlugins

open Libc

/-! ### The loop -/

/-- The entry for which a line is counted. -/
def lineEntry (line : CString) : Option ℕ :=
  if isTotalLine line then some 0
  else if hasPrefix line (ascii "cpu") then some (lineCpunum line + 1).toNat
  else none

/-- The name that it gives the entry. -/
def lineName (line : CString) : CString :=
  if isTotalLine line then ascii "cpu" else ascii "cpu" ++ decimal (lineCpunum line).toNat

/-- The fields that it sets. -/
def lineValues (line : CString) : List Jiff :=
  if isTotalLine line then
    sscanfJiffs ([.literal 'c', .literal 'p', .literal 'u', .white] ++ jiffFormat) line
  else sscanfJiffs jiffFormat (lineEndptr line)

/-- The entries after a line. -/
def placeLine (cputime : List CpuTime) (line : CString) : List CpuTime :=
  match lineEntry line with
  | none => cputime
  | some i =>
    cputime.modify i fun t => { t.assign (lineValues line) with cpuname := some (lineName line) }

/-- There is an entry for the line, if it needs one. -/
def Accepted (lines : UInt32) (line : CString) : Prop := ∀ i ∈ lineEntry line, i < lines.toNat

instance (lines : UInt32) (line : CString) : Decidable (Accepted lines line) :=
  inferInstanceAs (Decidable (∀ i ∈ lineEntry line, i < lines.toNat))

lemma length_placeLine (cputime : List CpuTime) (line : CString) :
    (placeLine cputime line).length = cputime.length := by
  rw [placeLine]
  split
  · rfl
  · exact List.length_modify ..

lemma length_foldl_placeLine (read : List CString) (cputime : List CpuTime) :
    (read.foldl placeLine cputime).length = cputime.length := by
  induction read generalizing cputime with
  | nil => rfl
  | cons line read ih => rw [List.foldl_cons, ih, length_placeLine]

lemma fillEntry_eq {cputime : List CpuTime} {i : ℕ} (hi : i < cputime.length) (name : CString)
    (values : List Jiff) :
    fillEntry cputime i name values
      = .ok (cputime.modify i fun t => { t.assign values with cpuname := some name }) := if_pos hi

/-- A line goes to its entry, or the run ends with an error. -/
lemma statStep_eq {lines : UInt32} {cputime : List CpuTime} (hlen : cputime.length = lines.toNat)
    (hpos : 1 ≤ lines) (line : CString) :
    (Accepted lines line ∧ statStep lines cputime line = .ok (placeLine cputime line)) ∨
      (¬ Accepted lines line ∧
        ∃ message, statStep lines cputime line = .error (.pluginError .unknown message)) := by
  have hpos' : 0 < lines.toNat := UInt32.le_iff_toNat_le.1 hpos
  by_cases htotal : isTotalLine line
  · left
    have hentry : lineEntry line = some 0 := if_pos htotal
    refine ⟨by simpa [Accepted, hentry] using hpos', ?_⟩
    rw [statStep, if_pos htotal, fillEntry_eq (hlen ▸ hpos'), placeLine, hentry]
    simp only [lineName, lineValues, if_pos htotal]
  by_cases hcpu : hasPrefix line (ascii "cpu")
  · have hentry : lineEntry line = some (lineCpunum line + 1).toNat := by
      rw [lineEntry, if_neg htotal, if_pos hcpu]
    have hguard : lines ≤ lineCpunum line + 1 ↔ ¬ Accepted lines line := by
      rw [UInt32.le_iff_toNat_le, Accepted, hentry]
      simp
    rw [statStep, if_neg htotal, if_pos hcpu]
    by_cases haccepted : Accepted lines line
    · left
      have hindex : (lineCpunum line + 1).toNat < cputime.length :=
        hlen ▸ haccepted _ hentry
      refine ⟨haccepted, ?_⟩
      simp only [if_neg (mt hguard.1 (not_not.2 haccepted)), fillEntry_eq hindex, placeLine, hentry,
        lineName, lineValues, if_neg htotal]
    · right
      simp only [if_pos (hguard.2 haccepted)]
      exact ⟨haccepted, _, rfl⟩
  · left
    have hentry : lineEntry line = none := by rw [lineEntry, if_neg htotal, if_neg hcpu]
    refine ⟨by simp [Accepted, hentry], ?_⟩
    rw [statStep, if_neg htotal, if_neg hcpu, placeLine, hentry]

/-- The lines that are read: only those up to the first one of all CPUs, if there is no entry for
the others. -/
def statRead (lines : UInt32) : List CString → List CString
  | [] => []
  | line :: rest =>
    if isTotalLine line ∧ lines = 1 then [line] else line :: statRead lines rest

lemma mem_of_mem_statRead {lines : UInt32} {ls : List CString} {line : CString}
    (h : line ∈ statRead lines ls) : line ∈ ls := by
  induction ls with
  | nil => exact h
  | cons line' rest ih =>
    rw [statRead] at h
    split_ifs at h
    · exact List.mem_cons.2 (.inl (List.mem_singleton.1 h))
    · exact List.mem_cons.2 ((List.mem_cons.1 h).imp_right ih)

lemma cpuStatLoop_eq (lines : UInt32) (ls : List CString) (cputime : List CpuTime) (found : Bool) :
    cpuStatLoop lines ls cputime found
      = (statRead lines ls).foldlM (statStep lines) cputime >>= fun cputime =>
        .ok (cputime, found || (statRead lines ls).any isTotalLine) := by
  induction ls generalizing cputime found with
  | nil => simp [cpuStatLoop, statRead, pure, Except.pure]
  | cons line rest ih =>
    rw [cpuStatLoop, statRead]
    split_ifs with hbreak
    · simp [pure, Except.pure]
    · simp only [ih, List.foldlM_cons, bind_assoc, List.any_cons, Bool.or_assoc]

lemma foldlM_statStep {lines : UInt32} (hpos : 1 ≤ lines) (read : List CString)
    {cputime : List CpuTime} (hlen : cputime.length = lines.toNat) :
    ((∀ line ∈ read, Accepted lines line) ∧
      read.foldlM (statStep lines) cputime = .ok (read.foldl placeLine cputime)) ∨
    ((¬ ∀ line ∈ read, Accepted lines line) ∧
      ∃ message, read.foldlM (statStep lines) cputime
        = .error (.pluginError .unknown message)) := by
  induction read generalizing cputime with
  | nil => exact .inl ⟨by simp, rfl⟩
  | cons line read ih =>
    rw [List.foldlM_cons, List.foldl_cons, List.forall_mem_cons]
    rcases statStep_eq hlen hpos line with ⟨haccepted, hstep⟩ | ⟨hrefused, message, hstep⟩
    · rw [hstep, Except.ok_bind]
      rcases ih ((length_placeLine cputime line).trans hlen) with ⟨hall, hrun⟩ | ⟨hnot, hrun⟩
      · exact .inl ⟨⟨haccepted, hall⟩, hrun⟩
      · exact .inr ⟨fun h => hnot h.2, hrun⟩
    · exact .inr ⟨fun h => hrefused h.1, message, by rw [hstep, Except.error_bind]⟩

/-- The function returns if the lines have entries and the one of all CPUs is there. -/
def StatReturns (lines : UInt32) (read : List CString) : Prop :=
  (∀ line ∈ read, Accepted lines line) ∧ read.any isTotalLine

/-- What the function returns, and that it stops with an error otherwise. -/
theorem cpuStatsGetTime_cases (procpath : String) (content : List UInt8) {lines : UInt32}
    (hpos : 1 ≤ lines) :
    (StatReturns lines (statRead lines (getlines content)) ∧
      cpuStatsGetTime procpath (some content) lines
        = .ok ((statRead lines (getlines content)).foldl placeLine
            (List.replicate lines.toNat CpuTime.zero))) ∨
    (¬ StatReturns lines (statRead lines (getlines content)) ∧
      ∃ message, cpuStatsGetTime procpath (some content) lines
        = .error (.pluginError .unknown message)) := by
  have hlen : (List.replicate lines.toNat CpuTime.zero).length = lines.toNat :=
    List.length_replicate
  rw [cpuStatsGetTime, cpuStatLoop_eq]
  rcases foldlM_statStep hpos (statRead lines (getlines content)) hlen with
    ⟨hall, hrun⟩ | ⟨hnot, message, hrun⟩
  · rw [hrun, Except.ok_bind, Bool.false_or]
    cases hany : (statRead lines (getlines content)).any isTotalLine with
    | true => exact .inl ⟨⟨hall, hany⟩, rfl⟩
    | false =>
      refine .inr ⟨fun h => ?_, _, rfl⟩
      rw [StatReturns, hany] at h
      exact Bool.false_ne_true h.2
  · exact .inr ⟨fun h => hnot h.1, message, by rw [hrun]; rfl⟩

/-! ### The fields -/

/-- The field that the conversion number `k` sets. -/
def CpuTime.field (t : CpuTime) : Fin 10 → Jiff
  | 0 => t.user
  | 1 => t.nice
  | 2 => t.system
  | 3 => t.idle
  | 4 => t.iowait
  | 5 => t.irq
  | 6 => t.softirq
  | 7 => t.steal
  | 8 => t.guest
  | 9 => t.guestn

lemma CpuTime.field_assign (t : CpuTime) (values : List Jiff) (k : Fin 10) :
    (t.assign values).field k = values[k.val]?.getD (t.field k) := by
  fin_cases k <;> rfl

lemma CpuTime.field_zero (k : Fin 10) : CpuTime.zero.field k = 0 := by
  fin_cases k <;> rfl

/-- What a line writes to a field of an entry. -/
def writtenField (i : ℕ) (k : Fin 10) (line : CString) : Option Jiff :=
  if lineEntry line = some i then (lineValues line)[k.val]? else none

/-- A field of an entry. -/
def fieldAt (cputime : List CpuTime) (i : ℕ) (k : Fin 10) : Option Jiff :=
  cputime[i]?.map fun t => t.field k

lemma fieldAt_placeLine (cputime : List CpuTime) (line : CString) (i : ℕ) (k : Fin 10) :
    fieldAt (placeLine cputime line) i k
      = (fieldAt cputime i k).map fun v => (writtenField i k line).getD v := by
  rw [placeLine, fieldAt, fieldAt, writtenField, Option.map_map]
  cases hentry : lineEntry line with
  | none => rfl
  | some j =>
    rw [List.getElem?_modify]
    cases cputime[i]? with
    | none => rfl
    | some t =>
      by_cases hij : j = i
      · simp only [hij, if_true, Option.map_eq_map, Option.map_some]
        exact congrArg some (CpuTime.field_assign t (lineValues line) k)
      · simp [hij]

/-- The last line that writes a field tells what it holds in the end. -/
lemma fieldAt_foldl_placeLine (read : List CString) (cputime : List CpuTime) (i : ℕ) (k : Fin 10) :
    fieldAt (read.foldl placeLine cputime) i k
      = (fieldAt cputime i k).map fun v => (Latch.last? (writtenField i k) read).getD v := by
  induction read generalizing cputime with
  | nil => simp
  | cons line read ih =>
    rw [List.foldl_cons, ih, fieldAt_placeLine, Option.map_map]
    congr 1
    funext v
    rw [Latch.getD_last?_cons]
    rfl

/-! ### Labels -/

/-- The characters in front of the first blank. -/
def lineLabel (line : CString) : CString := line.takeWhile (!isspace ·)

/-- The numbers behind them. -/
def labelFields (line : CString) : List Jiff :=
  sscanfJiffs jiffFormat (line.dropWhile (!isspace ·))

/-- Is it the line of the entry? -/
def isOwnLine : ℕ → CString → Bool
  | 0, line => isTotalLine line
  | n + 1, line => lineLabel line == ascii "cpu" ++ decimal n

lemma scan_integer_dropWhile (base : ℕ) (long : Bool) (format : List Directive) (s : CString) :
    scan (.integer base long :: format) (s.dropWhile isspace)
      = scan (.integer base long :: format) s := by
  rw [scan, scan, List.dropWhile_idempotent]

lemma lineValues_total {line : CString} (h : isTotalLine line) :
    lineValues line = labelFields line := by
  obtain ⟨rest, rfl⟩ := hasPrefix_iff.1 h
  have hdrop : (ascii "cpu " ++ rest).dropWhile (!isspace ·) = (' ' : UInt8) :: rest := rfl
  have hscan : scan ([.literal 'c', .literal 'p', .literal 'u', .white] ++ jiffFormat)
      (ascii "cpu " ++ rest) = scan jiffFormat (((' ' : UInt8) :: rest).dropWhile isspace) := rfl
  rw [lineValues, if_pos h, labelFields, hdrop, sscanfJiffs, sscanfJiffs, sscanf, sscanf, hscan,
    jiffFormat, scan_integer_dropWhile]

/-- A label ends in front of a blank. -/
lemma behindLabel_not_digit (line : CString) :
    ∀ c ∈ (line.dropWhile (!isspace ·)).head?, isdigit c = false := by
  have hspace : ∀ c, isspace c = true → isdigit c = false := by decide +kernel
  intro c hc
  have hhead := List.of_mem_head?_dropWhile hc
  exact hspace c (by simpa using hhead)

section Own

variable {n : ℕ} {line : CString} (hlabel : lineLabel line = ascii "cpu" ++ decimal n)
include hlabel

/-- The line of a CPU, taken apart. -/
lemma own_eq : line = ascii "cpu" ++ (decimal n ++ line.dropWhile (!isspace ·)) := by
  calc line = lineLabel line ++ line.dropWhile (!isspace ·) :=
        (List.takeWhile_append_dropWhile ..).symm
    _ = _ := by rw [hlabel, List.append_assoc]

lemma own_not_total : isTotalLine line = false := by
  rw [Bool.eq_false_iff]
  intro htotal
  obtain ⟨t, ht⟩ := hasPrefix_iff.1 htotal
  rw [own_eq hlabel] at ht
  obtain ⟨d, ds, hds⟩ := List.exists_cons_of_ne_nil (decimal_ne_nil n)
  have hd : isdigit d := isdigit_of_mem_decimal n d (by simp [hds])
  rw [hds] at ht
  have hblank : (' ' : UInt8) = d := by
    have hfourth := congrArg (fun s : CString => s[3]?) ht
    simpa [ascii] using hfourth
  rw [← hblank] at hd
  revert hd
  decide

lemma own_lineEndptr (hn : n < 2 ^ 63) :
    lineCpunum line = UInt32.ofNat n ∧ lineEndptr line = line.dropWhile (!isspace ·) := by
  have hdrop : line.drop 3 = [] ++ (decimal n ++ line.dropWhile (!isspace ·)) := by
    conv_lhs => rw [own_eq hlabel]
    rfl
  have hblanks : ∀ c ∈ ([] : CString), isspace c := by simp
  have hnumber := natOfDigits_decimal n
  have hdigits := isdigit_of_mem_decimal n
  have hbehind := behindLabel_not_digit line
  rw [lineCpunum, lineEndptr, hdrop,
    strtol_digits hblanks hdigits (decimal_ne_nil n) hbehind (by omega),
    strtoulEnd_digits hblanks hdigits (decimal_ne_nil n) hbehind (by omega), hnumber,
    toUnsigned_natCast]
  exact ⟨UInt64.toUInt32_ofNat' n, rfl⟩

lemma own_lineEntry (hn : n + 1 < 2 ^ 32) : lineEntry line = some (n + 1) := by
  have hcpu : hasPrefix line (ascii "cpu") := by
    rw [own_eq hlabel]
    exact hasPrefix_append _ _
  have hnot : ¬ isTotalLine line := by simp [own_not_total hlabel]
  have hnext : UInt32.ofNat n + 1 = UInt32.ofNat (n + 1) := (UInt32.ofNat_add n 1).symm
  rw [lineEntry, if_neg hnot, if_pos hcpu, (own_lineEndptr hlabel (by omega)).1, hnext,
    UInt32.toNat_ofNat_of_lt' hn]

lemma own_lineValues (hn : n < 2 ^ 63) : lineValues line = labelFields line := by
  have hnot : ¬ isTotalLine line := by simp [own_not_total hlabel]
  rw [lineValues, if_neg hnot, (own_lineEndptr hlabel hn).2, labelFields]

end Own

/-- The line of an entry is counted for it, and sets the fields behind its label. -/
lemma isOwnLine_spec {i : ℕ} {line : CString} (h : isOwnLine i line) (hi : i < 2 ^ 32) :
    lineEntry line = some i ∧ lineValues line = labelFields line := by
  cases i with
  | zero => exact ⟨if_pos h, lineValues_total h⟩
  | succ n =>
    have hlabel : lineLabel line = ascii "cpu" ++ decimal n := beq_iff_eq.1 h
    exact ⟨own_lineEntry hlabel hi, own_lineValues hlabel (by omega)⟩

end NagiosPlugins
