import Mathlib.Data.List.TakeWhile
import NagiosPlugins.Libc.Strtod

/-!
# Reading numbers and lines, comparing and searching

`strtoul`, `getline` and the `%lu` of `sscanf`; `strcmp` and `bsearch`.
-/

namespace Libc

/-! ### Unsigned numbers -/

/-- An optional sign and digits in base 10 behind white space: the number as `strtoul` returns
it, and what follows. Out of range it is `ULONG_MAX`; a minus negates it otherwise. -/
def scanUnsigned (s : CString) : Option (UInt64 × CString) :=
  let (negative, s) := scanSign (s.dropWhile isspace)
  let digits := s.takeWhile isdigit
  if digits = [] then none
  else
    let n := natOfDigits 10 digits
    let value : UInt64 :=
      if n ≥ 2 ^ 64 then -1 else if negative then -UInt64.ofNat n else UInt64.ofNat n
    some (value, s.dropWhile isdigit)

/-- `strtoul (nptr, &endptr, 10)` without `endptr`. -/
def strtoul (nptr : CString) : UInt64 := ((scanUnsigned nptr).map Prod.fst).getD 0

/-- `strtoul (nptr, &endptr, 10)` with `endptr`, which is `nptr` where there is no number. -/
def strtoulEnd (nptr : CString) : UInt64 × CString := (scanUnsigned nptr).getD (0, nptr)

/-- `strtol (nptr, NULL, 10)`: the number, or the closest one that a `long` can hold. -/
def strtol (nptr : CString) : ℤ :=
  let (negative, s) := scanSign (nptr.dropWhile isspace)
  let digits := s.takeWhile isdigit
  if digits = [] then 0
  else
    let n := natOfDigits 10 digits
    if negative then max (-2 ^ 63) (-n) else min (2 ^ 63 - 1) n

/-- What `strtol` leaves behind: the number, `endptr`, and whether `errno` is `ERANGE`. -/
structure Strtol where
  value : ℤ
  endptr : CString
  erange : Bool
  deriving DecidableEq, Repr

/-- `strtol (nptr, &endptr, 10)`; `endptr` is `nptr` where there is no number. -/
def strtolEnd (nptr : CString) : Strtol :=
  let (negative, s) := scanSign (nptr.dropWhile isspace)
  let digits := s.takeWhile isdigit
  if digits = [] then ⟨0, nptr, false⟩
  else
    let n := natOfDigits 10 digits
    ⟨strtol nptr, s.dropWhile isdigit, if negative then n > 2 ^ 63 else n ≥ 2 ^ 63⟩

/-- Is the byte a digit in the base, which is at most 16? -/
def isBaseDigit (base : ℕ) (c : UInt8) : Bool := isxdigit c && digitVal c < base

/-- What `strtoull` leaves behind: the number, `endptr`, and whether `errno` is `ERANGE`. -/
structure Strtoull where
  value : UInt64
  endptr : CString
  erange : Bool
  deriving DecidableEq, Repr

/-- `strtoull (nptr, &endptr, 0)`: a prefix tells base 16 or 8, otherwise the base is 10. -/
def strtoull (nptr : CString) : Strtoull :=
  let (negative, s) := scanSign (nptr.dropWhile isspace)
  let hex := (afterKeyword (ascii "0x") s).filter fun r => r.head?.any isxdigit
  let (base, s) :=
    match hex with
    | some r => (16, r)
    | none => if s.head? = some ('0' : UInt8) then (8, s) else (10, s)
  let digits := s.takeWhile (isBaseDigit base)
  if digits = [] then ⟨0, nptr, false⟩
  else
    let n := natOfDigits base digits
    let rest := s.dropWhile (isBaseDigit base)
    if n ≥ 2 ^ 64 then ⟨-1, rest, true⟩
    else ⟨if negative then -UInt64.ofNat n else UInt64.ofNat n, rest, false⟩

example : (strtoull (ascii "45000")).value = 45000 := by decide +kernel

/-- `sscanf (line, "word %lu %lu", ...)`: the values that are assigned. -/
def sscanfTwo (word line : CString) : List UInt64 :=
  if line.take word.length ≠ word then []
  else
    match scanUnsigned (line.drop word.length) with
    | none => []
    | some (a, s) =>
      match scanUnsigned s with
      | none => [a]
      | some (b, _) => [a, b]

/-- Behind white space, digits are scanned up to the first byte that is none. -/
lemma scanSign_digits {blanks digits rest : CString} (hblanks : ∀ c ∈ blanks, isspace c)
    (hdigits : ∀ c ∈ digits, isdigit c) (hne : digits ≠ []) :
    scanSign ((blanks ++ (digits ++ rest)).dropWhile isspace) = (false, digits ++ rest) := by
  have hfirst : ∀ c ∈ (digits ++ rest).head?, isdigit c := by
    intro c hc
    rw [List.head?_append_of_ne_nil _ hne] at hc
    exact hdigits c (List.mem_of_mem_head? hc)
  have hskip : (blanks ++ (digits ++ rest)).dropWhile isspace = digits ++ rest :=
    (takeWhile_digits_append hblanks fun c hc => (isdigit_ne c (hfirst c hc)).2.2.2.1).2
  rw [hskip]
  apply scanSign_render .none
  intro c hc
  obtain ⟨-, hminus, hplus, -⟩ := isdigit_ne c (hfirst c hc)
  exact ⟨hminus, hplus⟩

/-- A number in digits behind white space is read. -/
lemma strtoulEnd_digits {blanks digits rest : CString} (hblanks : ∀ c ∈ blanks, isspace c)
    (hdigits : ∀ c ∈ digits, isdigit c) (hne : digits ≠ [])
    (hrest : ∀ c ∈ rest.head?, isdigit c = false) (hlt : natOfDigits 10 digits < 2 ^ 64) :
    strtoulEnd (blanks ++ (digits ++ rest)) = (UInt64.ofNat (natOfDigits 10 digits), rest) := by
  obtain ⟨htake, hdrop⟩ := takeWhile_digits_append hdigits hrest
  rw [strtoulEnd, scanUnsigned, scanSign_digits hblanks hdigits hne]
  simp only [htake, hdrop, hne, if_false, Nat.not_le.2 hlt]
  rfl

/-- A number in digits behind white space is read as a signed number. -/
lemma strtol_digits {blanks digits rest : CString} (hblanks : ∀ c ∈ blanks, isspace c)
    (hdigits : ∀ c ∈ digits, isdigit c) (hne : digits ≠ [])
    (hrest : ∀ c ∈ rest.head?, isdigit c = false) (hlt : natOfDigits 10 digits < 2 ^ 63) :
    strtol (blanks ++ (digits ++ rest)) = natOfDigits 10 digits := by
  obtain ⟨htake, -⟩ := takeWhile_digits_append hdigits hrest
  rw [strtol, scanSign_digits hblanks hdigits hne]
  simp only [htake, hne, if_false, Bool.false_eq_true]
  omega

/-- The number fits into a `long`. -/
lemma strtol_mem_range (nptr : CString) : -2 ^ 63 ≤ strtol nptr ∧ strtol nptr < 2 ^ 63 := by
  rw [strtol]
  dsimp only
  split_ifs <;> omega

/-- `endptr` points into the string. -/
lemma strtoulEnd_suffix (s : CString) : (strtoulEnd s).2 <:+ s := by
  rw [strtoulEnd, scanUnsigned]
  dsimp only
  by_cases hdigits : (scanSign (s.dropWhile isspace)).2.takeWhile isdigit = []
  · rw [if_pos hdigits]
    exact List.suffix_rfl
  · rw [if_neg hdigits]
    exact (List.dropWhile_suffix _).trans
      ((scanSign_suffix _).trans (List.dropWhile_suffix _))

lemma getLast?_of_suffix {s t : CString} (h : t <:+ s) (ht : t ≠ []) :
    t.getLast? = s.getLast? := by
  obtain ⟨u, rfl⟩ := h
  rw [List.getLast?_append_of_ne_nil _ ht]

/-- Within a line that ends with a newline `endptr` is in front of its end. -/
lemma getLast?_strtoulEnd {s : CString} (hs : s.getLast? = some ('\n' : UInt8)) :
    (strtoulEnd s).2.getLast? = some ('\n' : UInt8) := by
  rw [strtoulEnd]
  cases hscan : scanUnsigned s with
  | none => exact hs
  | some scanned =>
    obtain ⟨n, e⟩ := scanned
    set r := (scanSign (s.dropWhile isspace)).2
    have hr : r <:+ s := (scanSign_suffix _).trans (List.dropWhile_suffix _)
    have hdigits : r.takeWhile isdigit ≠ [] := fun h => by simp [scanUnsigned, r, h] at hscan
    have he : e = r.dropWhile isdigit := by
      simp only [scanUnsigned] at hscan
      rw [if_neg hdigits] at hscan
      exact (Prod.mk.inj (Option.some.inj hscan)).2.symm
    have hne : r ≠ [] := fun h => hdigits (by rw [h, List.takeWhile_nil])
    have hnewline : ('\n' : UInt8) ∈ r :=
      List.mem_of_getLast? ((getLast?_of_suffix hr hne).trans hs)
    have hdrop : r.dropWhile isdigit ≠ [] := by
      intro h
      have hdigit := List.dropWhile_eq_nil_iff.1 h _ hnewline
      exact absurd hdigit (by decide)
    exact he ▸ (getLast?_of_suffix ((List.dropWhile_suffix _).trans hr) hdrop).trans hs

/-! ### Lines -/

/-- The lines of a file, each with its newline. -/
def splitLines : List UInt8 → List (List UInt8)
  | [] => []
  | c :: s =>
    if c = '\n' then [c] :: splitLines s
    else
      match splitLines s with
      | [] => [[c]]
      | l :: ls => (c :: l) :: ls

lemma splitLines_append {l : List UInt8} (hl : ('\n' : UInt8) ∉ l) (s : List UInt8) :
    splitLines (l ++ ('\n' : UInt8) :: s) = (l ++ [('\n' : UInt8)]) :: splitLines s := by
  induction l with
  | nil => simp [splitLines]
  | cons c l ih =>
    rw [List.mem_cons, not_or] at hl
    obtain ⟨hc, hl⟩ := hl
    rw [List.cons_append, splitLines, if_neg (Ne.symm hc), ih hl]
    rfl

/-- What successive calls of `getline` leave in the buffer, as C strings. -/
def getlines (content : List UInt8) : List CString :=
  (splitLines content).map fun line => line.takeWhile (· ≠ 0)

lemma splitLines_flatMap {lines : List CString} (h : ∀ l ∈ lines, ('\n' : UInt8) ∉ l) :
    splitLines (lines.flatMap (· ++ [('\n' : UInt8)]))
      = lines.map (· ++ [('\n' : UInt8)]) := by
  induction lines with
  | nil => rfl
  | cons l lines ih =>
    obtain ⟨hl, hlines⟩ := List.forall_mem_cons.1 h
    rw [List.flatMap_cons, List.append_assoc, List.singleton_append, splitLines_append hl,
      ih hlines, List.map_cons]

/-- Text lines are read one after the other. -/
lemma getlines_flatMap {lines : List CString} (h : ∀ l ∈ lines, ∀ c ∈ l, c ≠ '\n' ∧ c ≠ 0) :
    getlines (lines.flatMap (· ++ [('\n' : UInt8)])) = lines.map (· ++ [('\n' : UInt8)]) := by
  have hnewline : ∀ l ∈ lines, ('\n' : UInt8) ∉ l := by
    intro l hl hmem
    exact (h l hl _ hmem).1 rfl
  rw [getlines, splitLines_flatMap hnewline, List.map_map]
  apply List.map_congr_left
  intro l hl
  apply List.takeWhile_eq_self_iff.2
  intro c hc
  apply decide_eq_true
  rcases List.mem_append.1 hc with hc | hc
  · exact (h l hl c hc).2
  · rw [List.mem_singleton.1 hc]
    decide

/-- `strncmp (s, word, strlen (word)) == 0`. -/
def hasPrefix (s word : CString) : Bool := s.take word.length == word

lemma hasPrefix_append (word s : CString) : hasPrefix (word ++ s) word = true := by
  rw [hasPrefix, List.take_left]
  exact beq_self_eq_true word

lemma hasPrefix_cons_of_ne {c d : UInt8} (h : c ≠ d) (s word : CString) :
    hasPrefix (c :: s) (d :: word) = false := by
  rw [hasPrefix, List.length_cons, List.take_succ_cons]
  exact beq_eq_false_iff_ne.2 fun heq => h (List.cons.inj heq).1

lemma hasPrefix_iff {s word : CString} : hasPrefix s word = true ↔ word <+: s := by
  rw [hasPrefix, beq_iff_eq, List.prefix_iff_eq_take, eq_comm]

/-- A newline behind a line does not complete a word. -/
lemma hasPrefix_newline {line word : CString} (hword : ('\n' : UInt8) ∉ word)
    (h : ¬ word <+: line) : hasPrefix (line ++ [('\n' : UInt8)]) word = false := by
  rw [Bool.eq_false_iff, Ne, hasPrefix_iff, List.prefix_concat_iff]
  rintro (rfl | hprefix)
  · exact hword (List.mem_append_right _ (List.mem_singleton_self _))
  · exact h hprefix

/-! ### Binary search -/

/-- `strcmp`, by the bytes as unsigned characters. -/
def strcmp : CString → CString → Ordering
  | [], [] => .eq
  | [], _ :: _ => .lt
  | _ :: _, [] => .gt
  | a :: s, b :: t => if a = b then strcmp s t else if a < b then .lt else .gt

lemma strcmp_eq_iff {s t : CString} : strcmp s t = .eq ↔ s = t := by
  induction s generalizing t with
  | nil => cases t <;> simp [strcmp]
  | cons a s ih =>
    cases t with
    | nil => simp [strcmp]
    | cons b t =>
      by_cases h : a = b
      · simp [strcmp, h, ih]
      · rw [strcmp, if_neg h]
        split_ifs <;> simp [h]

variable {α : Type*}

/-- The loop of `bsearch` between the indices `l` and `u`. `compar` compares the key with an
element; the first argument bounds the number of iterations. -/
def bsearchLoop (compar : α → Ordering) (base : List α) : ℕ → ℕ → ℕ → Option α
  | 0, _, _ => none
  | fuel + 1, l, u =>
    if l < u then
      let idx := (l + u) / 2
      match base[idx]? with
      | none => none
      | some p =>
        match compar p with
        | .lt => bsearchLoop compar base fuel l idx
        | .gt => bsearchLoop compar base fuel (idx + 1) u
        | .eq => some p
    else none

/-- `bsearch` in a table. -/
def bsearch (compar : α → Ordering) (base : List α) : Option α :=
  bsearchLoop compar base (base.length + 1) 0 base.length

/-- What `bsearch` finds is equal to the key. -/
lemma bsearch_eq_some {compar : α → Ordering} {base : List α} {p : α}
    (h : bsearch compar base = some p) : p ∈ base ∧ compar p = .eq := by
  have hloop : ∀ fuel l u, bsearchLoop compar base fuel l u = some p →
      p ∈ base ∧ compar p = .eq := by
    intro fuel
    induction fuel with
    | zero =>
      intro l u hp
      cases hp
    | succ fuel ih =>
      intro l u hp
      rw [bsearchLoop] at hp
      split_ifs at hp
      cases hget : base[(l + u) / 2]? with
      | none => simp [hget] at hp
      | some q =>
        cases hcompar : compar q with
        | lt => exact ih _ _ (by simpa [hget, hcompar] using hp)
        | gt => exact ih _ _ (by simpa [hget, hcompar] using hp)
        | eq =>
          have hqp : q = p := by simpa [hget, hcompar] using hp
          exact hqp ▸ ⟨List.mem_of_getElem? hget, hcompar⟩
  exact hloop _ _ _ h

end Libc
