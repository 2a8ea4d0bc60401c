import Mathlib.Logic.Function.Iterate
import NagiosPlugins.Data.Except
import NagiosPlugins.Interrupts.Layout

/-!
# The columns that are added up

Behind each number one character is skipped without being looked at. Where a counter follows after
a single blank this is its first digit; behind the last counter the walk goes on in the
description.
-/

namespace NagiosPlugins

open Libc

/-! ### Walking along a line -/

/-- The number that is read at `p`. -/
def readColumn : CString → UInt64
  | [] => 0
  | c :: s => if c = '\n' then 0 else (strtoulEnd s).1

/-- Where `p` stands next. -/
def nextColumn : CString → CString
  | [] => []
  | c :: s => if c = '\n' then c :: s else (strtoulEnd s).2.tail

/-- The number that is read in column `k` behind `p`. -/
def columnValue (p : CString) (k : ℕ) : UInt64 := readColumn (nextColumn^[k] p)

@[simp] lemma columnValue_zero (p : CString) : columnValue p 0 = readColumn p := rfl

@[simp] lemma columnValue_succ (p : CString) (k : ℕ) :
    columnValue p (k + 1) = columnValue (nextColumn p) k := rfl

/-- Nothing is left, or the newline is still ahead. -/
def Terminated (p : CString) : Prop := p = [] ∨ p.getLast? = some ('\n' : UInt8)

lemma Terminated.tail {c : UInt8} {s : CString} (h : Terminated (c :: s)) : Terminated s := by
  rcases h with h | h
  · cases h
  · cases s with
    | nil => exact Or.inl rfl
    | cons c' s => exact Or.inr h

/-- Away from the newline the walk stays in front of the end of the string. -/
lemma exists_endptr {c : UInt8} {s : CString} (h : Terminated (c :: s)) (hc : c ≠ '\n') :
    ∃ c' e, (strtoulEnd s).2 = c' :: e ∧ Terminated e := by
  have hs : s.getLast? = some ('\n' : UInt8) := by
    rcases h with h | h
    · cases h
    · cases s with
      | nil => exact absurd (Option.some.inj h) hc
      | cons c' s => exact h
  have hlast := getLast?_strtoulEnd hs
  cases he : (strtoulEnd s).2 with
  | nil => simp [he] at hlast
  | cons c' e => exact ⟨c', e, rfl, Terminated.tail (Or.inr (he ▸ hlast))⟩

/-- On a line that ends with a newline the walk adds the number of each column. -/
lemma addColumns_ok {p : CString} (hp : Terminated p) (vintr : List UInt64) :
    addColumns (some p) vintr = .ok (vintr.mapIdx fun k v => v + columnValue p k) := by
  induction vintr generalizing p with
  | nil => cases p <;> rfl
  | cons v vintr ih =>
    rw [List.mapIdx_cons]
    simp only [columnValue_zero, columnValue_succ]
    cases p with
    | nil =>
      rw [addColumns, ih (Or.inl rfl)]
      simp [readColumn, nextColumn, pure, Except.pure]
    | cons c s =>
      rw [addColumns]
      split_ifs with hc
      · rw [ih hp]
        simp [readColumn, nextColumn, hc, pure, Except.pure]
      · obtain ⟨c', e, he, hterminated⟩ := exists_endptr hp hc
        simp only [he, List.tail?_cons, ih hterminated]
        simp [readColumn, nextColumn, hc, he, pure, Except.pure]

/-! ### Numbers in a text -/

lemma scanUnsigned_length {text rest : CString} {value : UInt64}
    (h : scanUnsigned text = some (value, rest)) : rest.length ≤ text.length := by
  have hsuffix := strtoulEnd_suffix text
  rw [strtoulEnd, h] at hsuffix
  exact hsuffix.length_le

/-- The numbers of a text that stand where a counter is looked for: behind one character there is
a number with the blanks in front of it, or else one more character is passed over. -/
def strayNumbers : CString → List UInt64
  | [] => []
  | _ :: text =>
    match _h : scanUnsigned text with
    | some (value, rest) => value :: strayNumbers rest.tail
    | none => 0 :: strayNumbers text.tail
termination_by text => text.length
decreasing_by
  · have hlength := scanUnsigned_length _h
    simp
    omega
  · simp

lemma columnValue_nil (k : ℕ) : columnValue [] k = 0 := by
  induction k with
  | zero => rfl
  | succ k ih => exact ih

/-- The newline is not in a text but at its end. -/
def OneLine (text : CString) : Prop := ('\n' : UInt8) ∉ text.dropLast

lemma OneLine.of_suffix {s text : CString} (h : OneLine text) (hs : s <:+ text) : OneLine s := by
  obtain ⟨front, rfl⟩ := hs
  intro hmem
  have hne : s ≠ [] := by
    rintro rfl
    cases hmem
  rw [OneLine, List.dropLast_append_of_ne_nil hne] at h
  exact h (List.mem_append_right front hmem)

/-- In one line the walk reads the stray numbers. -/
lemma columnValue_eq_stray {text : CString} (h : OneLine text) (k : ℕ) :
    columnValue text k = (strayNumbers text)[k]?.getD 0 := by
  fun_induction strayNumbers text generalizing k with
  | case1 => simp [columnValue_nil]
  | case2 c text value rest hscan ih =>
    have hend : strtoulEnd text = (value, rest) := by rw [strtoulEnd, hscan, Option.getD_some]
    have hrest : rest <:+ text := by simpa [hend] using strtoulEnd_suffix text
    have hne : c ≠ '\n' := by
      rintro rfl
      cases text with
      | nil => cases hscan
      | cons d text => simp [OneLine] at h
    cases k with
    | zero => simp [readColumn, hne, hend]
    | succ k =>
      rw [columnValue_succ, nextColumn, if_neg hne, hend]
      have hsuffix := (List.tail_suffix rest).trans (hrest.trans (List.suffix_cons c text))
      exact ih (h.of_suffix hsuffix) k
  | case3 c text hscan ih =>
    have hend : strtoulEnd text = (0, text) := by rw [strtoulEnd, hscan, Option.getD_none]
    have hrest := ih (h.of_suffix ((List.tail_suffix text).trans (List.suffix_cons c text)))
    by_cases hc : c = '\n'
    · have htext : text = [] := by
        by_contra hne
        rw [OneLine, List.dropLast_cons_of_ne_nil hne, hc] at h
        exact h (List.mem_cons_self ..)
      subst hc htext
      have hzero : ∀ k, columnValue [('\n' : UInt8)] k = 0 := by
        intro k
        induction k with
        | zero => rfl
        | succ k ih => exact ih
      rw [hzero]
      cases k with
      | zero => rfl
      | succ k => simp [strayNumbers]
    · cases k with
      | zero => simp [readColumn, hc, hend]
      | succ k =>
        rw [columnValue_succ, nextColumn, if_neg hc, hend]
        exact hrest k

/-! ### Rows -/

namespace InterruptCounter

variable (c : InterruptCounter)

/-- What is read of a counter that is not the first of its row. -/
def readValue : UInt64 :=
  if c.gap = 1 then UInt64.ofNat (natOfDigits 10 c.digits.tail) else c.value

/-- What is missing in it: the leading digit behind a single blank. -/
def lost : UInt64 :=
  if c.gap = 1 then UInt64.ofNat (natOfDigits 10 (c.digits.take 1) * 10 ^ (c.digits.length - 1))
  else 0

lemma natOfDigits_eq_add_tail :
    natOfDigits 10 c.digits = natOfDigits 10 (c.digits.take 1) * 10 ^ (c.digits.length - 1)
      + natOfDigits 10 c.digits.tail := by
  rw [← List.drop_one, ← List.length_drop, ← natOfDigits_append, List.take_append_drop]

lemma readValue_add_lost : c.readValue + c.lost = c.value := by
  rw [readValue, lost, value]
  split_ifs
  · rw [c.natOfDigits_eq_add_tail, UInt64.ofNat_add, UInt64.add_comm]
  · exact UInt64.add_zero _

end InterruptCounter

/-- A number in digits is read, and the character behind it is skipped. -/
lemma column_digits {c : UInt8} (hc : c ≠ '\n') {blanks digits rest : CString}
    (hblanks : ∀ c ∈ blanks, isspace c) (hdigits : ∀ c ∈ digits, isdigit c) (hne : digits ≠ [])
    (hrest : ∀ c ∈ rest.head?, isdigit c = false) (hlt : natOfDigits 10 digits < 2 ^ 64) :
    readColumn (c :: (blanks ++ (digits ++ rest))) = UInt64.ofNat (natOfDigits 10 digits) ∧
      nextColumn (c :: (blanks ++ (digits ++ rest))) = rest.tail := by
  simp [readColumn, nextColumn, hc, strtoulEnd_digits hblanks hdigits hne hrest hlt]

lemma isspace_of_mem_replicate {n : ℕ} : ∀ c ∈ List.replicate n (' ' : UInt8), isspace c := by
  intro c hc
  rw [List.eq_of_mem_replicate hc]
  decide

/-- Of a counter behind another one the walk reads all digits, or all but the first. -/
lemma column_separated {c : InterruptCounter} (hgap : 0 < c.gap) (hwidth : 10 < c.width)
    {rest : CString} (hrest : ∀ c ∈ rest.head?, isdigit c = false) :
    readColumn (c.render ++ rest).tail = c.readValue ∧
      nextColumn (c.render ++ rest).tail = rest.tail := by
  have hrender : (c.render ++ rest).tail
      = List.replicate (c.gap - 1) (' ' : UInt8) ++ (c.digits ++ rest) := by
    obtain ⟨g, hg⟩ := Nat.exists_eq_succ_of_ne_zero hgap.ne'
    simp [InterruptCounter.render, hg, List.replicate_succ]
  rw [hrender]
  by_cases hone : c.gap = 1
  · obtain ⟨d, ds, hds⟩ := List.exists_cons_of_ne_nil c.nonempty
    have hd : isdigit d := c.isDigits d (by simp [hds])
    have hdigits : ∀ c ∈ ds, isdigit c := fun e he => c.isDigits e (by simp [hds, he])
    have hne : ds ≠ [] := by
      rintro rfl
      simp [InterruptCounter.width, hone, hds] at hwidth
    have hlt : natOfDigits 10 ds < 2 ^ 64 := by
      have hvalue := c.natOfDigits_eq_add_tail
      rw [hds, List.tail_cons] at hvalue
      have hlt := c.lt
      rw [hds] at hlt
      omega
    have hnewline : d ≠ '\n' := by
      rintro rfl
      exact absurd hd (by decide)
    have hblanks : ∀ c ∈ ([] : CString), isspace c := by simp
    have hcolumn := column_digits hnewline hblanks hdigits hne hrest hlt
    simpa [hone, hds, InterruptCounter.readValue] using hcolumn
  · obtain ⟨g, hg⟩ : ∃ g, c.gap - 1 = g + 1 := ⟨c.gap - 2, by omega⟩
    rw [hg, List.replicate_succ, List.cons_append, InterruptCounter.readValue, if_neg hone]
    exact column_digits (by decide) isspace_of_mem_replicate c.isDigits c.nonempty hrest c.lt

/-- A blank stands in front of each of these counters. -/
lemma head_separated {cs : List InterruptCounter} (hcs : ∀ c ∈ cs, 0 < c.gap ∧ 10 < c.width)
    {rest : CString} (hrest : ∀ c ∈ rest.head?, isdigit c = false) :
    ∀ c ∈ (cs.flatMap InterruptCounter.render ++ rest).head?, isdigit c = false := by
  cases cs with
  | nil => exact hrest
  | cons c cs =>
    obtain ⟨g, hg⟩ := Nat.exists_eq_succ_of_ne_zero (hcs c (List.mem_cons_self ..)).1.ne'
    simp only [List.flatMap_cons, InterruptCounter.render, hg, List.replicate_succ,
      List.cons_append, List.head?_cons, Option.mem_some, forall_eq']
    decide

/-- Behind the first counter the walk reads one counter after the other, and goes on behind the
last. -/
lemma columnValue_separated {cs : List InterruptCounter} (hcs : ∀ c ∈ cs, 0 < c.gap ∧ 10 < c.width)
    {rest : CString} (hrest : ∀ c ∈ rest.head?, isdigit c = false) (k : ℕ) :
    columnValue (cs.flatMap InterruptCounter.render ++ rest).tail k
      = if k < cs.length then (cs[k]?.map InterruptCounter.readValue).getD 0
        else columnValue rest.tail (k - cs.length) := by
  induction cs generalizing k with
  | nil => simp
  | cons c cs ih =>
    obtain ⟨⟨hgap, hwidth⟩, hcs⟩ := List.forall_mem_cons.1 hcs
    obtain ⟨hread, hcolumn⟩ := column_separated hgap hwidth (head_separated hcs hrest)
    rw [List.flatMap_cons, List.append_assoc]
    cases k with
    | zero => simp [hread]
    | succ k => simp [hcolumn, ih hcs]

namespace InterruptRow

variable {ncpus : ℕ} (row : InterruptRow ncpus)

/-- What the walk misses of a counter. -/
def lost (k : ℕ) : UInt64 :=
  if k = 0 then 0 else (row.counters[k]?.map InterruptCounter.lost).getD 0

/-- The text in which the walk looks for the counters that the row does not have. -/
def behind : CString :=
  if row.counters = [] then (':' : UInt8) :: row.ending else row.ending.tail

/-- The number that stands there instead of a counter. -/
def stray (k : ℕ) : UInt64 :=
  if k < row.counters.length then 0
  else (strayNumbers row.behind)[k - row.counters.length]?.getD 0

/-- The row from its colon on. -/
def columns : CString :=
  (':' : UInt8) :: (row.counters.flatMap InterruptCounter.render ++ row.ending)

lemma head_ending : ∀ c ∈ row.ending.head?, isdigit c = false := by
  intro c hc
  have hblank := row.blank
  cases hd : row.description with
  | nil =>
    simp only [ending, hd, List.nil_append, List.head?_cons, Option.mem_some] at hc
    rw [← hc]
    decide
  | cons d ds =>
    simp only [hd, List.head?_cons, Option.mem_some, forall_eq'] at hblank
    simp only [ending, hd, List.cons_append, List.head?_cons, Option.mem_some] at hc
    rw [← hc, hblank]
    decide

lemma oneLine_behind : OneLine row.behind := by
  have hline : OneLine ((':' : UInt8) :: row.ending) := by
    rw [OneLine, ending, ← List.cons_append, List.dropLast_concat, List.mem_cons, not_or]
    exact ⟨by decide, fun h => (row.isDescription _ h).1 rfl⟩
  rw [behind]
  split_ifs
  · exact hline
  · exact hline.of_suffix ((List.tail_suffix _).trans (List.suffix_cons _ _))

/-- What the walk reads, with what it misses, is the counter, with what it finds instead. -/
lemma columnValue_add_lost (k : ℕ) :
    columnValue row.columns k + row.lost k = row.counter k + row.stray k := by
  have hseparated := row.separated
  rw [columns, lost, counter, stray, ← columnValue_eq_stray row.oneLine_behind, behind]
  cases hcounters : row.counters with
  | nil => simp
  | cons c cs =>
    rw [hcounters, List.tail_cons] at hseparated
    have hblanks : ∀ e ∈ List.replicate c.gap (' ' : UInt8), isspace e := isspace_of_mem_replicate
    have hcolon : (':' : UInt8) ≠ '\n' := by decide
    obtain ⟨hread, hcolumn⟩ := column_digits hcolon hblanks c.isDigits c.nonempty
      (head_separated hseparated row.head_ending) c.lt
    have hcolumns : (c :: cs).flatMap InterruptCounter.render ++ row.ending
        = List.replicate c.gap (' ' : UInt8)
          ++ (c.digits ++ (cs.flatMap InterruptCounter.render ++ row.ending)) := by
      simp [InterruptCounter.render]
    rw [hcolumns]
    cases k with
    | zero => simp [hread, InterruptCounter.value]
    | succ k =>
      rw [columnValue_succ, hcolumn, columnValue_separated hseparated row.head_ending]
      by_cases hk : k < cs.length
      · simp [hk, InterruptCounter.readValue_add_lost]
      · simp [hk]

/-- What the walk reads on a line. -/
lemma addInterruptLine_ok (vintr : List UInt64) :
    addInterruptLine vintr row.render
      = .ok (vintr.mapIdx fun k v => v + columnValue row.columns k) := by
  have hlabel : (':' : UInt8) ∉ row.label := fun h => (row.isLabel _ h).1 rfl
  have hcolumns : strchr row.render ':' = some row.columns := by
    rw [render, strchr_append hlabel]
    simp [strchr, columns]
  have hterminated : Terminated row.columns := by
    have hlast : row.columns = (':' : UInt8) ::
        (row.counters.flatMap InterruptCounter.render ++ row.description) ++ [('\n' : UInt8)] := by
      simp [columns, ending]
    rw [Terminated, hlast, List.getLast?_concat]
    exact Or.inr rfl
  rw [addInterruptLine, hcolumns]
  exact addColumns_ok hterminated vintr

lemma mem_counters {c : UInt8} (hc : c ∈ row.counters.flatMap InterruptCounter.render) :
    c ≠ '\n' ∧ c ≠ 0 := by
  obtain ⟨counter, -, hc⟩ := List.mem_flatMap.1 hc
  rcases List.mem_append.1 hc with hc | hc
  · rw [List.eq_of_mem_replicate hc]
    decide
  · have hdigit := counter.isDigits c hc
    constructor <;> · rintro rfl; exact absurd hdigit (by decide)

/-- The row without its newline. -/
def body : CString :=
  row.label ++ (':' : UInt8) :: (row.counters.flatMap InterruptCounter.render ++ row.description)

lemma render_eq : row.render = row.body ++ [('\n' : UInt8)] := by
  simp [render, body, ending]

lemma mem_body {c : UInt8} (hc : c ∈ row.body) : c ≠ '\n' ∧ c ≠ 0 := by
  rcases List.mem_append.1 hc with hc | hc
  · exact (row.isLabel c hc).2
  · rcases List.mem_cons.1 hc with rfl | hc
    · decide
    · rcases List.mem_append.1 hc with hc | hc
      · exact row.mem_counters hc
      · exact row.isDescription c hc

lemma takeWhile_render : row.render.takeWhile (· ≠ 0) = row.render := by
  rw [List.takeWhile_eq_self_iff, render_eq]
  intro c hc
  rcases List.mem_append.1 hc with hc | hc
  · simpa using (row.mem_body hc).2
  · rw [List.mem_singleton.1 hc]
    decide

end InterruptRow

/-! ### Tables -/

lemma splitLines_rows {ncpus : ℕ} (rows : List (InterruptRow ncpus)) :
    splitLines (rows.flatMap InterruptRow.render) = rows.map InterruptRow.render := by
  have hbody : ∀ l ∈ rows.map InterruptRow.body, ('\n' : UInt8) ∉ l := by
    intro l hl hmem
    obtain ⟨row, -, rfl⟩ := List.mem_map.1 hl
    exact (row.mem_body hmem).1 rfl
  have hlines := splitLines_flatMap hbody
  rw [List.flatMap_map, List.map_map] at hlines
  have hrender : (InterruptRow.render : InterruptRow ncpus → CString)
      = fun row => row.body ++ [('\n' : UInt8)] := funext InterruptRow.render_eq
  rw [hrender]
  exact hlines

/-- The columns are added up row by row. -/
lemma foldlM_addInterruptLine {ncpus : ℕ} (rows : List (InterruptRow ncpus))
    (vintr : List UInt64) :
    (rows.map InterruptRow.render).foldlM addInterruptLine vintr
      = .ok (vintr.mapIdx fun k v => v + (rows.map fun row => columnValue row.columns k).sum) := by
  induction rows generalizing vintr with
  | nil =>
    apply congrArg Except.ok
    apply List.ext_getElem?
    intro k
    simp
  | cons row rows ih =>
    rw [List.map_cons, List.foldlM_cons, row.addInterruptLine_ok, Except.ok_bind, ih,
      List.mapIdx_mapIdx]
    simp [UInt64.add_assoc, Function.comp_def]

namespace InterruptTable

variable {ncpus : ℕ} (table : InterruptTable ncpus)

lemma getlines_render : (getlines table.render).tail = table.rows.map InterruptRow.render := by
  rw [getlines, render, splitLines_append table.isHeader, splitLines_rows, List.map_cons,
    List.tail_cons, List.map_map]
  exact List.map_congr_left fun row _ => row.takeWhile_render

/-- What the function returns. -/
lemma procInterrupts_ok : procInterruptsGetNintrPerCpu (some table.render) ncpus
    = .ok (some ((List.replicate ncpus 0).mapIdx fun k v =>
        v + (table.rows.map fun row => columnValue row.columns k).sum)) := by
  rw [procInterruptsGetNintrPerCpu, table.getlines_render, foldlM_addInterruptLine]
  rfl

/-- What is missing in a column, and what is found in its place. -/
lemma sum_columnValue_add_lost (k : ℕ) :
    (table.rows.map fun row => columnValue row.columns k).sum
        + (table.rows.map fun row => row.lost k).sum
      = table.columnSum k + (table.rows.map fun row => row.stray k).sum := by
  rw [columnSum]
  induction table.rows with
  | nil => rfl
  | cons row rows ih =>
    simp only [List.map_cons, List.sum_cons]
    set read := (rows.map fun row => columnValue row.columns k).sum
    set lost := (rows.map fun row => row.lost k).sum
    set stray := (rows.map fun row => row.stray k).sum
    set counters := (rows.map fun row => row.counter k).sum
    calc
      columnValue row.columns k + read + (row.lost k + lost)
        = columnValue row.columns k + row.lost k + (read + lost) := by ac_rfl
      _ = row.counter k + row.stray k + (counters + stray) := by
        rw [row.columnValue_add_lost k, ih]
      _ = row.counter k + counters + (row.stray k + stray) := by ac_rfl

/-- A column is right exactly if what is missing in it is worth what is found in its place. -/
lemma sum_columnValue_eq_iff (k : ℕ) :
    (table.rows.map fun row => columnValue row.columns k).sum = table.columnSum k ↔
      (table.rows.map fun row => row.lost k).sum = (table.rows.map fun row => row.stray k).sum := by
  have hsum := table.sum_columnValue_add_lost k
  constructor
  · intro hread
    rwa [hread, UInt64.add_right_inj] at hsum
  · intro hlost
    rwa [hlost, UInt64.add_left_inj] at hsum

lemma getElem?_columns {k : ℕ} (hk : k < ncpus) :
    ((List.replicate ncpus (0 : UInt64)).mapIdx fun k v =>
      v + (table.rows.map fun row => columnValue row.columns k).sum)[k]?
        = some (table.rows.map fun row => columnValue row.columns k).sum := by
  simp [hk]

variable {table}

lemma SumsColumns.lost_eq_stray (h : table.SumsColumns) {k : ℕ} (hk : k < ncpus) :
    (table.rows.map fun row => row.lost k).sum = (table.rows.map fun row => row.stray k).sum := by
  obtain ⟨vintr, hok, -, hvintr⟩ := h
  rw [table.procInterrupts_ok] at hok
  cases hok
  have hcolumn := hvintr k hk
  rw [table.getElem?_columns hk] at hcolumn
  exact (table.sum_columnValue_eq_iff k).1 (Option.some.inj hcolumn)

lemma sumsColumns_of_lost_eq_stray (h : ∀ k < ncpus,
    (table.rows.map fun row => row.lost k).sum = (table.rows.map fun row => row.stray k).sum) :
    table.SumsColumns := by
  refine ⟨_, table.procInterrupts_ok, by simp, ?_⟩
  intro k hk
  rw [table.getElem?_columns hk, (table.sum_columnValue_eq_iff k).2 (h k hk)]

/-- The function returns the column sums exactly if in every column the digits that are skipped
are worth as much as the numbers that are found in the descriptions. -/
theorem sumsColumns_iff (table : InterruptTable ncpus) : table.SumsColumns ↔
    ∀ k < ncpus, (table.rows.map fun row => row.lost k).sum
      = (table.rows.map fun row => row.stray k).sum :=
  ⟨fun h _ hk => h.lost_eq_stray hk, sumsColumns_of_lost_eq_stray⟩

end InterruptTable

/-- Two CPUs with counters of the full width. -/
def fullWidth : InterruptCounter where
  gap := 1
  digits := ascii "1234567890"
  isDigits := by decide +kernel
  nonempty := by decide +kernel
  lt := by decide +kernel

def fullWidthTable : InterruptTable 2 where
  header := ascii "           CPU0       CPU1"
  isHeader := by decide +kernel
  rows := [{
    label := ascii "  0"
    counters := [fullWidth, fullWidth]
    description := ascii "  IO-APIC   2-edge      timer"
    isLabel := by decide +kernel
    isDescription := by decide +kernel
    blank := by decide +kernel
    length_le := by decide
    padded := by decide +kernel
    separated := by decide +kernel }]

/-- The second CPU loses the leading digit of its counter. -/
theorem fullWidthTable_not_sumsColumns : ¬ fullWidthTable.SumsColumns := by
  intro h
  have hlost := h.lost_eq_stray (k := 1) (by decide)
  exact absurd hlost (by decide +kernel)

/-! ### Tables without full-width counters -/

lemma strtoulEnd_of_no_digit {s : CString} (hs : ∀ c ∈ s, isdigit c = false) :
    strtoulEnd s = (0, s) := by
  have hsuffix := (scanSign_suffix (s.dropWhile isspace)).trans (List.dropWhile_suffix isspace)
  have hdigits : (scanSign (s.dropWhile isspace)).2.takeWhile isdigit = [] := by
    rw [List.takeWhile_eq_nil_iff]
    intro hlength
    simpa using hs _ (hsuffix.subset (List.getElem_mem hlength))
  rw [strtoulEnd, scanUnsigned]
  simp [hdigits]

/-- Without a digit there is no number. -/
lemma columnValue_of_no_digit {p : CString} (hp : ∀ c ∈ p, isdigit c = false) (k : ℕ) :
    columnValue p k = 0 := by
  induction k generalizing p with
  | zero =>
    cases p with
    | nil => rfl
    | cons c s =>
      simp [readColumn, strtoulEnd_of_no_digit (List.forall_mem_cons.1 hp).2]
  | succ k ih =>
    cases p with
    | nil => exact ih hp
    | cons c s =>
      rw [columnValue_succ, nextColumn]
      split_ifs
      · exact ih hp
      · have hs := (List.forall_mem_cons.1 hp).2
        rw [strtoulEnd_of_no_digit hs]
        exact ih fun c hc => hs c (List.mem_of_mem_tail hc)

namespace InterruptRow

variable {ncpus : ℕ} {row : InterruptRow ncpus}

lemma lost_eq_zero (hwide : ∀ c ∈ row.counters.tail, c.gap ≠ 1) (k : ℕ) : row.lost k = 0 := by
  rw [lost]
  split_ifs with hk
  · rfl
  · obtain ⟨j, rfl⟩ := Nat.exists_eq_succ_of_ne_zero hk
    cases hc : row.counters[j + 1]? with
    | none => simp
    | some c =>
      have hmem : c ∈ row.counters.tail :=
        List.mem_of_getElem? (by rw [List.getElem?_tail, hc])
      simp [InterruptCounter.lost, hwide c hmem]

lemma stray_eq_zero {k : ℕ} (hk : k < ncpus)
    (hshort : row.counters.length < ncpus → ∀ c ∈ row.description, isdigit c = false) :
    row.stray k = 0 := by
  rw [stray]
  split_ifs with hlength
  · rfl
  · have hending : ∀ c ∈ row.ending, isdigit c = false := by
      intro c hc
      rcases List.mem_append.1 hc with hc | hc
      · exact hshort (by omega) c hc
      · rw [List.mem_singleton.1 hc]
        decide
    rw [← columnValue_eq_stray row.oneLine_behind]
    apply columnValue_of_no_digit
    intro c hc
    rw [behind] at hc
    split_ifs at hc
    · rcases List.mem_cons.1 hc with rfl | hc
      · decide
      · exact hending c hc
    · exact hending c (List.mem_of_mem_tail hc)

end InterruptRow

/-- Without counters of the full width, and without digits behind the rows that have fewer counters
than there are CPUs, the function returns the column sums. -/
theorem InterruptTable.sumsColumns_of_narrow {ncpus : ℕ} (table : InterruptTable ncpus)
    (hwide : ∀ row ∈ table.rows, ∀ c ∈ row.counters.tail, c.gap ≠ 1)
    (hshort : ∀ row ∈ table.rows, row.counters.length < ncpus →
      ∀ c ∈ row.description, isdigit c = false) :
    table.SumsColumns := by
  apply sumsColumns_of_lost_eq_stray
  intro k hk
  apply congrArg List.sum
  apply List.map_congr_left
  intro row hrow
  rw [InterruptRow.lost_eq_zero (hwide row hrow), InterruptRow.stray_eq_zero hk (hshort row hrow)]

end NagiosPlugins
