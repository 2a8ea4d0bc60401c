import NagiosPlugins.Cpu.Slots
import NagiosPlugins.Libc.Hex

/-!
# The table of the kernel

`/proc/stat` as the kernel writes it: a line for all CPUs together, one for every CPU that is
online, and lines about other things. What is read back are the numbers of the table.
-/

namespace NagiosPlugins

open Libc

/-- The numbers of a line, each behind a blank. -/
def numbersText (ticks : List Jiff) : CString :=
  ticks.flatMap fun t => (' ' : UInt8) :: decimal t.toNat

/-- The numbers of all CPUs together and of each one that is online, and the other lines. -/
structure StatTable where
  total : List Jiff
  cpus : List (ℕ × List Jiff)
  others : List CString
  distinct : (cpus.map Prod.fst).Nodup
  numbered : ∀ cpu ∈ cpus, cpu.1 + 1 < 2 ^ 32
  others_label : ∀ line ∈ others, ¬ ascii "cpu" <+: line
  others_text : ∀ line ∈ others, ∀ c ∈ line, c ≠ '\n' ∧ c ≠ 0

namespace StatTable

def totalLine (ticks : List Jiff) : CString := ascii "cpu " ++ numbersText ticks

def cpuLine (cpu : ℕ × List Jiff) : CString := ascii "cpu" ++ decimal cpu.1 ++ numbersText cpu.2

def textLines (table : StatTable) : List CString :=
  totalLine table.total :: (table.cpus.map cpuLine ++ table.others)

def render (table : StatTable) : List UInt8 :=
  table.textLines.flatMap (· ++ [('\n' : UInt8)])

/-- The entry with the numbers of a line, and zeros for those that the kernel does not have. -/
def entryOf (name : CString) (ticks : List Jiff) : CpuTime :=
  { CpuTime.zero.assign ticks with cpuname := some name }

/-- What is known of all CPUs together, and behind that of each CPU. -/
def entry (table : StatTable) : ℕ → CpuTime
  | 0 => entryOf (ascii "cpu") table.total
  | n + 1 =>
    match table.cpus.find? (·.1 = n) with
    | none => CpuTime.zero
    | some cpu => entryOf (ascii "cpu" ++ decimal n) cpu.2

end StatTable

/-! ### The numbers of a line -/

/-- A blank or the newline follows. -/
lemma isspace_numbersText_head (ticks : List Jiff) :
    ∀ c ∈ (numbersText ticks ++ [('\n' : UInt8)]).head?, isspace c = true := by
  intro c hc
  cases ticks with
  | nil =>
    obtain rfl : ('\n' : UInt8) = c := Option.some.inj hc
    decide
  | cons t ticks =>
    obtain rfl : (' ' : UInt8) = c := Option.some.inj hc
    decide

/-- As many numbers are assigned as the format has places for. -/
lemma scan_numbersText (n : ℕ) (ticks : List Jiff) :
    (scan (List.replicate n [Directive.white, .integer 10 true]).flatten
      (numbersText ticks ++ [('\n' : UInt8)])).args = (ticks.take n).map Arg.unsignedLong := by
  induction n generalizing ticks with
  | zero => simp [scan]
  | succ n ih =>
    rw [List.replicate_succ, List.flatten_cons, List.cons_append, List.singleton_append,
      scan_white_integer]
    cases ticks with
    | nil => rfl
    | cons t ticks =>
      have hline : numbersText (t :: ticks) ++ [('\n' : UInt8)]
          = [(' ' : UInt8)] ++ (decimal t.toNat ++ (numbersText ticks ++ [('\n' : UInt8)])) := by
        simp [numbersText]
      have hdigits : ∀ c ∈ decimal t.toNat, isBaseDigit 10 c = true :=
        fun c hc => isBaseDigit_of_isdigit (isdigit_of_mem_decimal _ c hc)
      have hbehind : ∀ c ∈ (numbersText ticks ++ [('\n' : UInt8)]).head?, Delimits c :=
        fun c hc => delimits_of_isspace c (isspace_numbersText_head ticks c hc)
      have hvalue : integerArg true (natOfDigits 10 (decimal t.toNat)) = .unsignedLong t := by
        have hlt : ¬ t.toNat ≥ 2 ^ 64 := Nat.not_le.2 t.toNat_lt
        rw [natOfDigits_decimal, integerArg, if_pos rfl, scannedValue, if_neg hlt,
          UInt64.ofNat_toNat]
      rw [hline, scan_integer true (by decide +kernel) hdigits (decimal_ne_nil _) hbehind, hvalue]
      simp only [ih, List.take_succ_cons, List.map_cons]

lemma sscanfJiffs_numbersText (ticks : List Jiff) :
    sscanfJiffs jiffFormat (numbersText ticks ++ [('\n' : UInt8)]) = ticks.take 10 := by
  have hfirst : scan jiffFormat (numbersText ticks ++ [('\n' : UInt8)])
      = scan (List.replicate 10 [Directive.white, .integer 10 true]).flatten
          (numbersText ticks ++ [('\n' : UInt8)]) := by
    rw [List.replicate_succ, List.flatten_cons, List.cons_append, List.singleton_append]
    exact (scan_integer_dropWhile ..).symm
  rw [sscanfJiffs, sscanf, hfirst, scan_numbersText, List.filterMap_map]
  exact List.filterMap_some

/-- Numbers for which the format has no place are not assigned. -/
lemma CpuTime.assign_take (t : CpuTime) (ticks : List Jiff) :
    t.assign (ticks.take 10) = t.assign ticks := by
  simp [CpuTime.assign]

/-! ### Reading the table -/

/-- What a line does to the entry for which it is counted. -/
def enterLine (t : CpuTime) (line : CString) : CpuTime :=
  { t.assign (lineValues line) with cpuname := some (lineName line) }

/-- Only the lines that are counted for an entry matter for it. -/
lemma getElem?_foldl_placeLine (read : List CString) (cputime : List CpuTime) (i : ℕ) :
    (read.foldl placeLine cputime)[i]?
      = cputime[i]?.map fun t => (read.filter (lineEntry · = some i)).foldl enterLine t := by
  induction read generalizing cputime with
  | nil => simp
  | cons line read ih =>
    rw [List.foldl_cons, ih, placeLine, List.filter_cons]
    cases hentry : lineEntry line with
    | none => simp
    | some j =>
      rw [List.getElem?_modify]
      by_cases hij : j = i
      · simp only [hij, if_true, decide_true, List.foldl_cons]
        cases cputime[i]? with
        | none => rfl
        | some t => rfl
      · simp [hij]

namespace StatTable

variable {table : StatTable}

lemma numbersText_ne (ticks : List Jiff) : ∀ c ∈ numbersText ticks, c ≠ '\n' ∧ c ≠ 0 := by
  intro c hc
  obtain ⟨t, -, hc⟩ := List.mem_flatMap.1 hc
  rcases List.mem_cons.1 hc with rfl | hc
  · decide
  · have hdigit := isdigit_of_mem_decimal _ c hc
    constructor <;> rintro rfl <;> revert hdigit <;> decide

lemma getlines_render (table : StatTable) :
    getlines table.render = table.textLines.map (· ++ [('\n' : UInt8)]) := by
  apply getlines_flatMap
  intro line hline
  rcases List.mem_cons.1 hline with rfl | hline
  · intro c hc
    rcases List.mem_append.1 hc with hc | hc
    · exact (by decide +kernel : ∀ c ∈ ascii "cpu ", c ≠ '\n' ∧ c ≠ 0) c hc
    · exact numbersText_ne _ c hc
  rcases List.mem_append.1 hline with hline | hline
  · obtain ⟨cpu, -, rfl⟩ := List.mem_map.1 hline
    intro c hc
    rcases List.mem_append.1 hc with hc | hc
    · rcases List.mem_append.1 hc with hc | hc
      · exact (by decide +kernel : ∀ c ∈ ascii "cpu", c ≠ '\n' ∧ c ≠ 0) c hc
      · have hdigit := isdigit_of_mem_decimal _ c hc
        constructor <;> rintro rfl <;> revert hdigit <;> decide
    · exact numbersText_ne _ c hc
  · exact table.others_text line hline

/-- The line of all CPUs together. -/
lemma totalLine_spec (ticks : List Jiff) :
    isTotalLine (totalLine ticks ++ [('\n' : UInt8)]) = true ∧
      lineValues (totalLine ticks ++ [('\n' : UInt8)]) = ticks.take 10 := by
  have htotal : isTotalLine (totalLine ticks ++ [('\n' : UInt8)]) = true := by
    rw [totalLine, List.append_assoc]
    exact hasPrefix_append _ _
  refine ⟨htotal, ?_⟩
  have hbehind : (totalLine ticks ++ [('\n' : UInt8)]).dropWhile (!isspace ·)
      = (' ' : UInt8) :: (numbersText ticks ++ [('\n' : UInt8)]) := by
    rw [totalLine, List.append_assoc]
    rfl
  have hskip : sscanfJiffs jiffFormat ((' ' : UInt8) :: (numbersText ticks ++ [('\n' : UInt8)]))
      = sscanfJiffs jiffFormat (numbersText ticks ++ [('\n' : UInt8)]) := by
    have hblank : isspace ' ' = true := rfl
    rw [sscanfJiffs, sscanfJiffs, sscanf, sscanf, jiffFormat, ← scan_integer_dropWhile,
      List.dropWhile_cons_of_pos hblank, scan_integer_dropWhile]
  rw [lineValues_total htotal, labelFields, hbehind, hskip, sscanfJiffs_numbersText]

/-- The line of a CPU. -/
lemma cpuLine_spec {cpu : ℕ × List Jiff} (hcpu : cpu.1 + 1 < 2 ^ 32) :
    isTotalLine (cpuLine cpu ++ [('\n' : UInt8)]) = false ∧
      lineEntry (cpuLine cpu ++ [('\n' : UInt8)]) = some (cpu.1 + 1) ∧
      lineName (cpuLine cpu ++ [('\n' : UInt8)]) = ascii "cpu" ++ decimal cpu.1 ∧
      lineValues (cpuLine cpu ++ [('\n' : UInt8)]) = cpu.2.take 10 := by
  have hname : ∀ c ∈ ascii "cpu" ++ decimal cpu.1, (!isspace c) = true := by
    intro c hc
    rcases List.mem_append.1 hc with hc | hc
    · exact (by decide +kernel : ∀ c ∈ ascii "cpu", (!isspace c) = true) c hc
    · simp [(isdigit_ne c (isdigit_of_mem_decimal _ c hc)).2.2.2.1]
  have hend : ∀ c ∈ (numbersText cpu.2 ++ [('\n' : UInt8)]).head?, (!isspace c) = false := by
    intro c hc
    simp [isspace_numbersText_head _ c hc]
  have hline : cpuLine cpu ++ [('\n' : UInt8)]
      = (ascii "cpu" ++ decimal cpu.1) ++ (numbersText cpu.2 ++ [('\n' : UInt8)]) := by
    rw [cpuLine, List.append_assoc]
  obtain ⟨htake, hdrop⟩ := takeWhile_digits_append hname hend
  have hlabel : lineLabel (cpuLine cpu ++ [('\n' : UInt8)]) = ascii "cpu" ++ decimal cpu.1 := by
    rw [hline, lineLabel, htake]
  have htotal := own_not_total hlabel
  have hnot : ¬ isTotalLine (cpuLine cpu ++ [('\n' : UInt8)]) := by simp [htotal]
  have hnumber : cpu.1 < 2 ^ 32 := by omega
  refine ⟨htotal, own_lineEntry hlabel hcpu, ?_, ?_⟩
  · rw [lineName, if_neg hnot, (own_lineEndptr hlabel (by omega)).1,
      UInt32.toNat_ofNat_of_lt' hnumber]
  · rw [own_lineValues hlabel (by omega), labelFields, hline, hdrop, sscanfJiffs_numbersText]

/-- The other lines. -/
lemma otherLine_spec {line : CString} (h : ¬ ascii "cpu" <+: line) :
    isTotalLine (line ++ [('\n' : UInt8)]) = false ∧
      lineEntry (line ++ [('\n' : UInt8)]) = none := by
  have hcpu : hasPrefix (line ++ [('\n' : UInt8)]) (ascii "cpu") = false :=
    hasPrefix_newline (by decide) h
  have htotal : isTotalLine (line ++ [('\n' : UInt8)]) = false := by
    refine hasPrefix_newline (by decide) fun hprefix => h ?_
    exact (List.prefix_append (ascii "cpu") (ascii " ")).trans hprefix
  refine ⟨htotal, ?_⟩
  rw [lineEntry, if_neg (by simp [htotal]), if_neg (by simp [hcpu])]

/-- There is an entry for every CPU that is read about. -/
def Fits (table : StatTable) (lines : UInt32) : Prop :=
  1 ≤ lines ∧ (lines = 1 ∨ ∀ cpu ∈ table.cpus, cpu.1 + 1 < lines.toNat)

/-- The lines that are read. -/
lemma statRead_render (table : StatTable) (lines : UInt32) :
    statRead lines (getlines table.render)
      = (totalLine table.total ++ [('\n' : UInt8)]) ::
          if lines = 1 then [] else
            (table.cpus.map cpuLine ++ table.others).map (· ++ [('\n' : UInt8)]) := by
  have hrest : ∀ rest : List CString, (∀ line ∈ rest, isTotalLine line = false) →
      statRead lines rest = rest := by
    intro rest hrest
    induction rest with
    | nil => rfl
    | cons line rest ih =>
      obtain ⟨hline, hrest⟩ := List.forall_mem_cons.1 hrest
      rw [statRead, if_neg (by simp [hline]), ih hrest]
  have hlabels : ∀ line ∈ (table.cpus.map cpuLine ++ table.others).map (· ++ [('\n' : UInt8)]),
      isTotalLine line = false := by
    intro line hline
    obtain ⟨line, hmem, rfl⟩ := List.mem_map.1 hline
    rcases List.mem_append.1 hmem with hmem | hmem
    · obtain ⟨cpu, hcpu, rfl⟩ := List.mem_map.1 hmem
      exact (cpuLine_spec (table.numbered cpu hcpu)).1
    · exact (otherLine_spec (table.others_label line hmem)).1
  rw [getlines_render, textLines, List.map_cons, statRead]
  split_ifs with hbreak hlines hlines
  · rfl
  · exact absurd hbreak.2 hlines
  · exact absurd ⟨(totalLine_spec table.total).1, hlines⟩ hbreak
  · rw [hrest _ hlabels]

/-- Only the line of a CPU is counted for its entry. -/
lemma filter_cpuLines (i : ℕ) :
    ((table.cpus.map cpuLine ++ table.others).map (· ++ [('\n' : UInt8)])).filter
        (lineEntry · = some i)
      = (table.cpus.filter (·.1 + 1 = i)).map fun cpu => cpuLine cpu ++ [('\n' : UInt8)] := by
  have hothers :
      (table.others.map (· ++ [('\n' : UInt8)])).filter (lineEntry · = some i) = [] := by
    rw [List.filter_eq_nil_iff]
    intro line hline
    obtain ⟨line, hmem, rfl⟩ := List.mem_map.1 hline
    simp [(otherLine_spec (table.others_label line hmem)).2]
  rw [List.map_append, List.filter_append, hothers, List.append_nil, List.map_map,
    List.filter_map]
  congr 1
  apply List.filter_congr
  intro cpu hcpu
  simp [(cpuLine_spec (table.numbered cpu hcpu)).2.1]

lemma filter_number {cpus : List (ℕ × List Jiff)} (h : (cpus.map Prod.fst).Nodup) (n : ℕ) :
    cpus.filter (·.1 = n) = (cpus.find? (·.1 = n)).toList := by
  induction cpus with
  | nil => rfl
  | cons cpu cpus ih =>
    obtain ⟨hcpu, hcpus⟩ := List.nodup_cons.1 h
    by_cases hn : cpu.1 = n
    · have hnone : cpus.filter (·.1 = n) = [] := by
        rw [List.filter_eq_nil_iff]
        intro other hother
        have hne : other.1 ≠ n := by
          rintro heq
          exact hcpu (hn ▸ heq ▸ List.mem_map_of_mem hother)
        simp [hne]
      rw [List.filter_cons_of_pos (by simp [hn]), List.find?_cons_of_pos (by simp [hn]), hnone]
      rfl
    · rw [List.filter_cons_of_neg (by simp [hn]), List.find?_cons_of_neg (by simp [hn]), ih hcpus]

/-- A line puts its numbers into an entry that is still empty. -/
lemma enterLine_zero {line name : CString} {ticks : List Jiff} (hname : lineName line = name)
    (hvalues : lineValues line = ticks.take 10) :
    enterLine CpuTime.zero line = entryOf name ticks := by
  rw [enterLine, hname, hvalues, CpuTime.assign_take, entryOf]

/-- What the lines that are read leave in an entry. -/
lemma entry_statRead {lines : UInt32} {i : ℕ} (hi : i < lines.toNat) :
    ((statRead lines (getlines table.render)).filter (lineEntry · = some i)).foldl enterLine
      CpuTime.zero = table.entry i := by
  obtain ⟨htotal, hvalues⟩ := totalLine_spec table.total
  have hentry : lineEntry (totalLine table.total ++ [('\n' : UInt8)]) = some 0 := if_pos htotal
  have hname : lineName (totalLine table.total ++ [('\n' : UInt8)]) = ascii "cpu" := if_pos htotal
  have hothers : (if lines = 1 then [] else
      (table.cpus.map cpuLine ++ table.others).map (· ++ [('\n' : UInt8)])).filter
        (lineEntry · = some i)
      = (table.cpus.filter (·.1 + 1 = i)).map fun cpu => cpuLine cpu ++ [('\n' : UInt8)] := by
    split_ifs with hone
    · obtain rfl : i = 0 := by
        rw [hone] at hi
        exact Nat.lt_one_iff.1 hi
      simp
    · exact filter_cpuLines i
  rw [statRead_render, List.filter_cons, hothers, hentry]
  cases i with
  | zero =>
    have hnone : table.cpus.filter (·.1 + 1 = 0) = [] := by simp
    rw [hnone, if_pos (by simp)]
    exact enterLine_zero hname hvalues
  | succ n =>
    have hsucc : table.cpus.filter (·.1 + 1 = n + 1) = (table.cpus.find? (·.1 = n)).toList := by
      rw [← filter_number table.distinct]
      simp
    rw [hsucc, if_neg (by simp), entry]
    cases hfind : table.cpus.find? (·.1 = n) with
    | none => rfl
    | some cpu =>
      have hnumber : cpu.1 = n := by simpa using List.find?_some hfind
      obtain ⟨-, -, hname, hvalues⟩ :=
        cpuLine_spec (table.numbered cpu (List.mem_of_find?_eq_some hfind))
      exact enterLine_zero (hnumber ▸ hname) hvalues

/-- The lines have entries, and the one of all CPUs is there. -/
lemma statReturns_iff {lines : UInt32} (hlines : 1 ≤ lines) :
    StatReturns lines (statRead lines (getlines table.render)) ↔ table.Fits lines := by
  have hpos : 0 < lines.toNat := UInt32.le_iff_toNat_le.1 hlines
  obtain ⟨htotal, -⟩ := totalLine_spec table.total
  have hentry : lineEntry (totalLine table.total ++ [('\n' : UInt8)]) = some 0 := if_pos htotal
  have hfirst : Accepted lines (totalLine table.total ++ [('\n' : UInt8)]) := by
    rw [Accepted, hentry]
    simpa using hpos
  have hcpu : ∀ cpu ∈ table.cpus, Accepted lines (cpuLine cpu ++ [('\n' : UInt8)]) ↔
      cpu.1 + 1 < lines.toNat := by
    intro cpu hcpu
    rw [Accepted, (cpuLine_spec (table.numbered cpu hcpu)).2.1]
    simp
  have hother : ∀ line ∈ table.others, Accepted lines (line ++ [('\n' : UInt8)]) := by
    intro line hline
    rw [Accepted, (otherLine_spec (table.others_label line hline)).2]
    simp
  rw [StatReturns, statRead_render, List.any_cons, htotal, Bool.true_or, List.forall_mem_cons]
  simp only [hfirst, true_and, and_true, Fits, hlines]
  by_cases hone : lines = 1
  · simp [hone]
  · rw [if_neg hone]
    simp only [hone, false_or, List.mem_map, List.mem_append, forall_exists_index, and_imp]
    constructor
    · intro h cpu hmem
      exact (hcpu cpu hmem).1 (h _ _ (.inl ⟨cpu, hmem, rfl⟩) rfl)
    · rintro h - line (⟨cpu, hmem, rfl⟩ | hmem) rfl
      · exact (hcpu cpu hmem).2 (h cpu hmem)
      · exact hother line hmem

/-- The table is read back if every CPU in it has an entry. -/
lemma cpuStatsGetTime_render (procpath : String) {lines : UInt32} (hfits : table.Fits lines) :
    cpuStatsGetTime procpath (some table.render) lines
      = .ok ((List.range lines.toNat).map table.entry) := by
  rcases cpuStatsGetTime_cases procpath table.render hfits.1 with ⟨-, hrun⟩ | ⟨hnot, -⟩
  · rw [hrun]
    refine congrArg _ (List.ext_getElem? fun i => ?_)
    rw [getElem?_foldl_placeLine]
    by_cases hi : i < lines.toNat
    · rw [List.getElem?_replicate_of_lt hi, Option.map_some, entry_statRead hi,
        List.getElem?_map, List.getElem?_range hi, Option.map_some]
    · simp [not_lt.1 hi]
  · exact absurd ((statReturns_iff hfits.1).2 hfits) hnot

end StatTable

end NagiosPlugins
