import NagiosPlugins.Pressure.Basic

/-!
# Starvation between two readings

The file as the kernel prints it is read without loss, so that the plugin reports how the totals
have grown.
-/

namespace NagiosPlugins

open Libc

/-! ### The file of the kernel -/

/-- The averages are hundredths of a percent. -/
structure PsiLine where
  avg10 : ℕ
  avg60 : ℕ
  avg300 : ℕ
  total : ℕ
  avg_le : avg10 ≤ 10000 ∧ avg60 ≤ 10000 ∧ avg300 ≤ 10000

/-- `%lu.%02lu`. -/
def hundredths (n : ℕ) : CString := decimal (n / 100) ++ ('.' : UInt8) :: zeroPadded 2 (n % 100)

namespace PsiLine

variable (line : PsiLine)

/-- What follows the label. -/
def numbers : CString :=
  avg10Word ++ (hundredths line.avg10 ++ (' ' : UInt8) :: (avg60Word ++ (hundredths line.avg60
    ++ (' ' : UInt8) :: (avg300Word ++ (hundredths line.avg300 ++ (' ' : UInt8) :: (totalWord
      ++ decimal (line.total % 2 ^ 64)))))))

def render (label : CString) : CString := label ++ (' ' : UInt8) :: line.numbers

/-- The numbers as they are read. -/
def psi : ProcPsiOneline where
  total := UInt64.ofNat line.total
  avg10 := (Double.fin (line.avg10 / 100)).rounded
  avg60 := (Double.fin (line.avg60 / 100)).rounded
  avg300 := (Double.fin (line.avg300 / 100)).rounded

end PsiLine

/-- The pressure on a resource at one time; older kernels do not have the line `full` for the
CPU. -/
structure Psi where
  some_ : PsiLine
  full : Option PsiLine

def Psi.lines (psi : Psi) : List CString :=
  psi.some_.render someLabel :: psi.full.toList.map fun line => line.render fullLabel

def Psi.text (psi : Psi) : List UInt8 := psi.lines.flatMap (· ++ [('\n' : UInt8)])

/-! ### Reading it back -/

lemma scanWord_append (word s : CString) : scanWord word (word ++ s) = some s := by
  rw [scanWord, if_pos (hasPrefix_append word s), List.drop_left]

lemma hundredths_ne_nil (n : ℕ) : hundredths n ≠ [] := by simp [hundredths]

lemma length_hundredths_le {n : ℕ} (hn : n ≤ 10000) : (hundredths n).length ≤ 6 := by
  have hint : (decimal (n / 100)).length ≤ 3 := length_decimal_le (k := 2) (by omega)
  have hfrac : (zeroPadded 2 (n % 100)).length = 2 := length_zeroPadded (k := 1) (by omega)
  rw [hundredths, List.length_append, List.length_cons, hfrac]
  omega

/-- `strtod` reads the hundredths. -/
lemma strtod_hundredths (n : ℕ) {rest : CString} (hrest : EndsNumeral rest) :
    strtod (hundredths n ++ rest) = (.fin (n / 100), rest) := by
  let d : Decimal := ⟨.none, decimal (n / 100), some (zeroPadded 2 (n % 100)), none,
    by
      intro c hc
      rcases List.mem_append.1 hc with hc | hc
      · exact isdigit_of_mem_decimal _ c hc
      · exact isdigit_of_mem_zeroPadded _ _ c hc,
    by simp [decimal_ne_nil]⟩
  have hrender : d.render = hundredths n := by
    simp [d, Decimal.render, Decimal.renderUnsigned, Decimal.renderExponent, Sign.render,
      hundredths]
  have hlength : (zeroPadded 2 (n % 100)).length = 2 := length_zeroPadded (k := 1) (by omega)
  have hvalue : d.value = n / 100 := by
    have hnat : natOfDigits 10 (decimal (n / 100) ++ zeroPadded 2 (n % 100)) = n := by
      rw [natOfDigits_append, natOfDigits_decimal, natOfDigits_zeroPadded, hlength]
      exact Nat.div_add_mod' n 100
    simp only [d, Decimal.value, Decimal.scale, Sign.apply, Option.getD_some, Option.map_none,
      Option.getD_none, hnat, hlength]
    norm_num
    ring
  rw [← hrender, d.strtod_render hrest, hvalue]

/-- A number in front of a blank is read to its end. -/
lemma scanDouble_hundredths {n : ℕ} (hn : n ≤ 10000) (rest : CString) :
    scanDouble 32 (hundredths n ++ (' ' : UInt8) :: rest)
      = some ((Double.fin (n / 100)).rounded, (' ' : UInt8) :: rest) := by
  have hlength := length_hundredths_le hn
  have hdrop : (hundredths n ++ (' ' : UInt8) :: rest).dropWhile isspace
      = hundredths n ++ (' ' : UInt8) :: rest := by
    obtain ⟨c, digits, hcons⟩ := List.exists_cons_of_ne_nil (decimal_ne_nil (n / 100))
    have hc := (isdigit_ne c (isdigit_of_mem_decimal (n / 100) c (by simp [hcons]))).2.2.2.1
    rw [hundredths, hcons, List.cons_append, List.cons_append,
      List.dropWhile_cons_of_neg (by simp [hc])]
  obtain ⟨k, hk⟩ : ∃ k, 32 - (hundredths n).length = k + 1 :=
    ⟨31 - (hundredths n).length, by omega⟩
  have htake : (hundredths n ++ (' ' : UInt8) :: rest).take 32
      = hundredths n ++ (' ' : UInt8) :: rest.take k := by
    rw [List.take_append, List.take_of_length_le (by omega), hk, List.take_succ_cons]
  have hends : EndsNumeral ((' ' : UInt8) :: rest.take k) := by
    intro c hc
    rw [List.head?_cons, Option.mem_some] at hc
    rw [← hc]
    decide
  have hne : (' ' : UInt8) :: rest.take k ≠ hundredths n ++ (' ' : UInt8) :: rest.take k := by
    intro h
    have hlen := congrArg List.length h
    have hpos := List.length_pos_iff.2 (hundredths_ne_nil n)
    rw [List.length_append] at hlen
    omega
  simp only [scanDouble, hdrop, htake, strtod_hundredths n hends, if_neg hne, List.length_append,
    Nat.add_sub_cancel, List.drop_left]

/-- A blank in front of a word is passed over. -/
lemma dropWhile_word {word : CString} (hne : word ≠ [])
    (hword : ∀ c ∈ word, isspace c = false) (s : CString) :
    ((' ' : UInt8) :: (word ++ s)).dropWhile isspace = word ++ s := by
  obtain ⟨c, word, rfl⟩ := List.exists_cons_of_ne_nil hne
  have hblank : isspace ' ' = true := by decide
  rw [List.dropWhile_cons_of_pos hblank, List.cons_append,
    List.dropWhile_cons_of_neg (by simp [hword c List.mem_cons_self])]

lemma scanUnsigned_decimal (n : ℕ) :
    scanUnsigned (decimal (n % 2 ^ 64) ++ [('\n' : UInt8)])
      = some (UInt64.ofNat n, [('\n' : UInt8)]) := by
  have hend : ∀ c ∈ [('\n' : UInt8)].head?, isdigit c = false := by decide +kernel
  have hlt : ¬ n % 2 ^ 64 ≥ 2 ^ 64 := not_le.2 (Nat.mod_lt _ (by decide))
  have hsign := @scanSign_digits [] _ [('\n' : UInt8)] (by simp)
    (isdigit_of_mem_decimal (n % 2 ^ 64)) (decimal_ne_nil _)
  obtain ⟨htake, hdrop⟩ := takeWhile_digits_append (isdigit_of_mem_decimal (n % 2 ^ 64)) hend
  rw [List.nil_append] at hsign
  rw [scanUnsigned, hsign]
  simp only [htake, hdrop, decimal_ne_nil, if_false, natOfDigits_decimal, hlt, Bool.false_eq_true]
  exact congrArg (fun v => some (v, [('\n' : UInt8)])) UInt64.ofNat_mod_size

lemma scanPsi_numbers (line : PsiLine) :
    scanPsi (line.numbers ++ [('\n' : UInt8)]) = some line.psi := by
  obtain ⟨h10, h60, h300⟩ := line.avg_le
  have hwords : ∀ word ∈ [avg60Word, avg300Word, totalWord],
      word ≠ [] ∧ ∀ c ∈ word, isspace c = false := by
    decide +kernel
  simp only [List.forall_mem_cons] at hwords
  obtain ⟨⟨hne60, hword60⟩, ⟨hne300, hword300⟩, ⟨hnetotal, hwordtotal⟩, -⟩ := hwords
  rw [PsiLine.numbers]
  simp only [List.append_assoc, List.cons_append]
  rw [scanPsi, scanWord_append, Option.bind_eq_bind, Option.bind_some, scanDouble_hundredths h10]
  simp only [Option.bind_eq_bind, Option.bind_some]
  rw [dropWhile_word hne60 hword60, scanWord_append, Option.bind_some, scanDouble_hundredths h60]
  simp only [Option.bind_some]
  rw [dropWhile_word hne300 hword300, scanWord_append, Option.bind_some,
    scanDouble_hundredths h300]
  simp only [Option.bind_some]
  rw [dropWhile_word hnetotal hwordtotal, scanWord_append, Option.bind_some, scanUnsigned_decimal]
  rfl

lemma hundredths_text (n : ℕ) : ∀ c ∈ hundredths n, c ≠ '\n' ∧ c ≠ 0 := by
  rw [hundredths, List.forall_mem_append, List.forall_mem_cons]
  exact ⟨mem_decimal _, by decide, fun c hc => ne_of_isdigit (isdigit_of_mem_zeroPadded _ _ c hc)⟩

lemma render_text (line : PsiLine) {label : CString} (hlabel : ∀ c ∈ label, c ≠ '\n' ∧ c ≠ 0) :
    ∀ c ∈ line.render label, c ≠ '\n' ∧ c ≠ 0 := by
  have hwords : ∀ word ∈ [avg10Word, avg60Word, avg300Word, totalWord],
      ∀ c ∈ word, c ≠ '\n' ∧ c ≠ 0 := by
    decide +kernel
  simp only [List.forall_mem_cons] at hwords
  obtain ⟨h10, h60, h300, htotal, -⟩ := hwords
  have hblank : (' ' : UInt8) ≠ '\n' ∧ (' ' : UInt8) ≠ 0 := by decide
  simp only [PsiLine.render, PsiLine.numbers, List.forall_mem_append, List.forall_mem_cons]
  exact ⟨hlabel, hblank, h10, hundredths_text _, hblank, h60, hundredths_text _, hblank, h300,
    hundredths_text _, hblank, htotal, mem_decimal _⟩

lemma getlines_text (psi : Psi) :
    getlines psi.text = psi.lines.map (· ++ [('\n' : UInt8)]) := by
  have hlabels : ∀ label ∈ [someLabel, fullLabel], ∀ c ∈ label, c ≠ '\n' ∧ c ≠ 0 := by
    decide +kernel
  simp only [List.forall_mem_cons] at hlabels
  rw [Psi.text, getlines_flatMap]
  simp only [Psi.lines, List.forall_mem_cons, List.forall_mem_map]
  exact ⟨render_text _ hlabels.1, fun line _ => render_text line hlabels.2.1⟩

/-- Behind the label of a line its numbers are read. -/
lemma scanPsi_render (line : PsiLine) (label : CString) :
    ¬ (line.render label ++ [('\n' : UInt8)]).length < label.length + 1 ∧
      scanPsi ((line.render label ++ [('\n' : UInt8)]).drop (label.length + 1))
        = some line.psi := by
  have hrender : line.render label ++ [('\n' : UInt8)]
      = label ++ (' ' : UInt8) :: (line.numbers ++ [('\n' : UInt8)]) := by
    rw [PsiLine.render, List.append_assoc]
    rfl
  rw [hrender]
  constructor
  · rw [List.length_append, List.length_cons]
    omega
  · rw [← List.drop_drop, List.drop_left]
    exact scanPsi_numbers line

lemma procPsiParser_some (procpath : String) (psi : Psi) :
    procPsiParser procpath (some psi.text) someLabel = .ok psi.some_.psi := by
  obtain ⟨hlength, hscan⟩ := scanPsi_render psi.some_ someLabel
  have hprefix : hasPrefix (psi.some_.render someLabel ++ [('\n' : UInt8)]) someLabel = true := by
    rw [PsiLine.render, List.append_assoc]
    exact hasPrefix_append _ _
  rw [procPsiParser, getlines_text, Psi.lines, List.map_cons]
  simp only [List.find?_cons, hprefix, if_neg hlength, hscan]

lemma procPsiParser_full (procpath : String) {psi : Psi} {full : PsiLine}
    (h : psi.full = some full) :
    procPsiParser procpath (some psi.text) fullLabel = .ok full.psi := by
  obtain ⟨hlength, hscan⟩ := scanPsi_render full fullLabel
  have hsome : hasPrefix (psi.some_.render someLabel ++ [('\n' : UInt8)]) fullLabel = false := by
    have hsame : fullLabel.length = someLabel.length := rfl
    have hne : (someLabel == fullLabel) = false := by decide +kernel
    rw [PsiLine.render, List.append_assoc, hasPrefix, hsame, List.take_left, hne]
  have hfull : hasPrefix (full.render fullLabel ++ [('\n' : UInt8)]) fullLabel = true := by
    rw [PsiLine.render, List.append_assoc]
    exact hasPrefix_append _ _
  rw [procPsiParser, getlines_text, Psi.lines, h, List.map_cons]
  simp only [Option.toList_some, List.map_cons, List.map_nil, List.find?_cons, hsome, hfull,
    if_neg hlength, hscan]

/-! ### What is reported -/

/-- The microseconds for each second of the delay. -/
def starvation (before after : PsiLine) (delay : ℕ) : ℕ := (after.total - before.total) / delay

/-- A total that wraps around still tells how much it has grown. -/
lemma total_div {before after : PsiLine} (h : before.total ≤ after.total)
    (hlt : after.total - before.total < 2 ^ 64) (delay : UInt64) :
    (after.psi.total - before.psi.total) / delay
      = UInt64.ofNat (starvation before after delay.toNat) := by
  have hdiv : starvation before after delay.toNat < 2 ^ 64 :=
    lt_of_le_of_lt (Nat.div_le_self _ _) hlt
  have hsub : after.psi.total - before.psi.total
      = UInt64.ofNat (after.total - before.total) := (UInt64.ofNat_sub h).symm
  rw [hsub, ← UInt64.toNat_inj, UInt64.toNat_div, UInt64.toNat_ofNat_of_lt' hlt,
    UInt64.toNat_ofNat_of_lt' hdiv]
  rfl

/-- The readings are between the first one and the last one. -/
lemma total_div_of_monotone {lines : ℕ → PsiLine} (h : Monotone fun i => (lines i).total)
    (hlt : (lines 3).total - (lines 0).total < 2 ^ 64) {i j : ℕ} (hij : i ≤ j) (hj : j ≤ 3)
    (delay : UInt64) :
    ((lines j).psi.total - (lines i).psi.total) / delay
      = UInt64.ofNat (starvation (lines i) (lines j) delay.toNat) := by
  have hfirst : (lines 0).total ≤ (lines i).total := h (Nat.zero_le i)
  have hlast : (lines j).total ≤ (lines 3).total := h hj
  exact total_div (h hij) (by omega) delay

lemma pressureDelay_eq_ok {arg : Option CString} {delay : UInt64}
    (h : pressureDelay arg = .ok delay) : 1 ≤ delay.toNat ∧ delay.toNat ≤ 60 := by
  cases arg with
  | none =>
    cases h
    decide
  | some arg => exact delayArgument_eq_ok h

section Report

-- the pressure at each time that the file is opened, and its lines `full`
variable (σ : ℕ → Psi) (full : ℕ → PsiLine)

/-- The report on the pressure at the times of the readings. -/
def PressureOptions.report (options : PressureOptions) (threshold : Thresholds) (delay : ℕ) :
    LinuxPsiId → PressureReport
  | .cpu =>
    let starvation := UInt64.ofNat (starvation (σ 0).some_ (σ 1).some_ delay)
    .cpu (getStatus (.ofUInt64 starvation) threshold) (σ 0).some_.psi starvation
  | .io => twolines (ascii "io")
  | .memory => twolines (ascii "mem")
where
  twolines (prefix_ : CString) : PressureReport :=
    let growthSome := UInt64.ofNat (starvation (σ 0).some_ (σ 2).some_ delay)
    let growthFull := UInt64.ofNat (starvation (full 1) (full 3) delay)
    let checked := if options.thresholdFull then growthFull else growthSome
    .twolines (getStatus (.ofUInt64 checked) threshold) prefix_
      ⟨(σ 0).some_.psi, (full 1).psi⟩ growthSome growthFull

variable {σ} {file : ℕ → Option (List UInt8)}

lemma procPsiReadCpu_text (hfile : ∀ i, file i = some (σ i).text) (delay : UInt64) :
    procPsiReadCpu file delay
      = .ok ((σ 0).some_.psi, ((σ 1).some_.psi.total - (σ 0).some_.psi.total) / delay) := by
  simp only [procPsiReadCpu, hfile, procPsiParser_some]
  rfl

lemma procPsiRead_text (hfile : ∀ i, file i = some (σ i).text)
    (hlines : ∀ i, (σ i).full = some (full i)) (procfile : String) (delay : UInt64) :
    procPsiRead file procfile delay
      = .ok (⟨(σ 0).some_.psi, (full 1).psi⟩,
          ((σ 2).some_.psi.total - (σ 0).some_.psi.total) / delay,
          ((full 3).psi.total - (full 1).psi.total) / delay) := by
  simp only [procPsiRead, hfile, procPsiParser_some, procPsiParser_full _ (hlines _)]
  rfl

/-- The plugin reports the growth of each total between its two readings, whatever the wrapping
of the counters in between. Only for the CPU the line `full` may be missing. -/
theorem checkPressure_starvation {options : PressureOptions} {mode : LinuxPsiId}
    {status : ℕ} {threshold : Thresholds} {delay : UInt64}
    (hfile : ∀ i, file i = some (σ i).text) (hmode : options.pressureMode = some mode)
    (hfull : ¬ (mode = .cpu ∧ options.thresholdFull))
    (hthreshold : setThresholdsRounded none options.warning options.critical
      = (status, some threshold))
    (hstatus : status ≠ npRangeUnparseable) (hdelay : pressureDelay options.delay = .ok delay)
    (hsome : Monotone fun i => (σ i).some_.total)
    (hsome' : (σ 3).some_.total - (σ 0).some_.total < 2 ^ 64)
    (hlines : mode ≠ .cpu → ∀ i, (σ i).full = some (full i))
    (hfulls : mode ≠ .cpu → Monotone fun i => (full i).total)
    (hfulls' : mode ≠ .cpu → (full 3).total - (full 0).total < 2 ^ 64) :
    (1 ≤ delay.toNat ∧ delay.toNat ≤ 60) ∧ checkPressure options file
      = .ok (some (options.report σ full threshold delay.toNat mode)) := by
  refine ⟨pressureDelay_eq_ok hdelay, ?_⟩
  have hcpu := total_div_of_monotone hsome hsome' (i := 0) (j := 1) (by decide) (by decide) delay
  have htotal := total_div_of_monotone hsome hsome' (i := 0) (j := 2) (by decide) (by decide) delay
  have hread : mode ≠ .cpu → procPsiRead file (pathPsiProc mode) delay
      = .ok (⟨(σ 0).some_.psi, (full 1).psi⟩,
          UInt64.ofNat (starvation (σ 0).some_ (σ 2).some_ delay.toNat),
          UInt64.ofNat (starvation (full 1) (full 3) delay.toNat)) := by
    intro hne
    have hgrowth := total_div_of_monotone (hfulls hne) (hfulls' hne) (i := 1) (j := 3)
      (by decide) (by decide) delay
    rw [procPsiRead_text full hfile (hlines hne), htotal, hgrowth]
  rw [checkPressure, hmode]
  simp only [if_neg hfull, hthreshold, if_neg hstatus, hdelay, Except.ok_bind]
  cases mode with
  | cpu =>
    simp only [procPsiReadCpu_text hfile, Except.ok_bind, hcpu]
    rfl
  | io =>
    simp only [hread (by decide), Except.ok_bind]
    rfl
  | memory =>
    simp only [hread (by decide), Except.ok_bind]
    rfl

/-- Seven microseconds after each reading, past the end of the counters; the CPU has no line `full`.
-/
theorem checkPressure_starvation_wrap :
    let line : ℕ → PsiLine := fun i => ⟨150, 50, 0, 2 ^ 64 - 3 + 7 * i, by decide⟩
    let io : PressureOptions := ⟨some .io, true, none, none, some (ascii "2")⟩
    let cpu : PressureOptions := ⟨some .cpu, false, none, none, some (ascii "2")⟩
    checkPressure io (fun i => some (Psi.text ⟨line i, some (line i)⟩))
        = .ok (some (.twolines (getStatus (.ofUInt64 7) ⟨none, none⟩) (ascii "io")
          ⟨(line 0).psi, (line 1).psi⟩ 7 7)) ∧
      checkPressure cpu (fun i => some (Psi.text ⟨line i, none⟩))
        = .ok (some (.cpu (getStatus (.ofUInt64 3) ⟨none, none⟩) (line 0).psi 3)) := by
  intro line io cpu
  have htotal : Monotone fun i => (line i).total :=
    fun i j hij => Nat.add_le_add_left (Nat.mul_le_mul_left 7 hij) _
  have hgrowth : (line 3).total - (line 0).total < 2 ^ 64 := by decide
  have hdelay : pressureDelay (some (ascii "2")) = .ok 2 := by decide +kernel
  have hstatus : 0 ≠ npRangeUnparseable := by decide
  constructor
  · have hreport : io.report (fun i => ⟨line i, some (line i)⟩) line ⟨none, none⟩ 2 .io
        = .twolines (getStatus (.ofUInt64 7) ⟨none, none⟩) (ascii "io")
          ⟨(line 0).psi, (line 1).psi⟩ 7 7 := by
      have hsome : starvation (line 0) (line 2) 2 = 7 := by decide
      have hfull : starvation (line 1) (line 3) 2 = 7 := by decide
      rw [PressureOptions.report, PressureOptions.report.twolines, hsome, hfull]
      rfl
    rw [← hreport]
    have hmode : ¬ (LinuxPsiId.io = .cpu ∧ io.thresholdFull) := by decide
    exact (checkPressure_starvation (σ := fun i => ⟨line i, some (line i)⟩) line (fun _ => rfl) rfl
      hmode rfl hstatus hdelay htotal hgrowth (fun _ _ => rfl) (fun _ => htotal)
      fun _ => hgrowth).2
  · have hreport : cpu.report (fun i => ⟨line i, none⟩) line ⟨none, none⟩ 2 .cpu
        = .cpu (getStatus (.ofUInt64 3) ⟨none, none⟩) (line 0).psi 3 := by
      have hsome : starvation (line 0) (line 1) 2 = 3 := by decide
      rw [PressureOptions.report, hsome]
      rfl
    rw [← hreport]
    have hmode : ¬ (LinuxPsiId.cpu = .cpu ∧ cpu.thresholdFull) := by decide
    exact (checkPressure_starvation (σ := fun i => ⟨line i, none⟩) line (fun _ => rfl) rfl
      hmode rfl hstatus hdelay htotal hgrowth (fun h => absurd rfl h) (fun _ => htotal)
      fun _ => hgrowth).2

end Report

end NagiosPlugins
