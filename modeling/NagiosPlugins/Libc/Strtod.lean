import Mathlib.Data.Rat.Defs
import Mathlib.Algebra.Order.Field.Rat
import NagiosPlugins.Libc.Bytes

/-!
# Reading floating point numbers

`strtod` in exact arithmetic: a finite result is a rational number, so there is neither
rounding nor overflow. The forms are those of the C locale: optional white space and sign,
then a decimal or hexadecimal numeral, `inf`, `infinity`, `nan` or `nan(...)`.
-/

namespace Libc

/-- A `double` in exact arithmetic. -/
inductive Double where
  | fin (q : ℚ)
  | inf (negative : Bool)
  | nan
  deriving DecidableEq, Repr

namespace Double

/-- The comparison `x <= y`, false as soon as one side is not a number. -/
def le : Double → Double → Bool
  | .nan, _ | _, .nan => false
  | .fin x, .fin y => x ≤ y
  | .inf negative, .fin _ => negative
  | .fin _, .inf negative => !negative
  | .inf n, .inf m => n || !m

def neg : Double → Double
  | .fin q => .fin (-q)
  | .inf negative => .inf !negative
  | .nan => .nan

@[simp] lemma le_fin (x y : ℚ) : (Double.fin x).le (.fin y) = decide (x ≤ y) := rfl

end Double

/-! ### The parts of a numeral -/

def digitVal (c : UInt8) : ℕ :=
  if isdigit c then c.toNat - 48 else (tolower c).toNat - 87

/-- The number denoted by a digit string in base `b`. -/
def natOfDigits (b : ℕ) (ds : List UInt8) : ℕ :=
  ds.foldl (fun n c => b * n + digitVal c) 0

lemma natOfDigits_append (b : ℕ) (ds es : List UInt8) :
    natOfDigits b (ds ++ es) = natOfDigits b ds * b ^ es.length + natOfDigits b es := by
  induction es using List.reverseRecOn with
  | nil => simp [natOfDigits]
  | append_singleton es e ih =>
    have hlast : ∀ xs, natOfDigits b (xs ++ [e]) = b * natOfDigits b xs + digitVal e :=
      fun xs => by simp [natOfDigits, List.foldl_append]
    rw [← List.append_assoc, hlast, hlast, ih, List.length_append, List.length_singleton]
    ring

/-- An optional sign: whether it is a minus, and what follows. -/
def scanSign : CString → Bool × CString
  | c :: s => if c = '-' then (true, s) else if c = '+' then (false, s) else (false, c :: s)
  | [] => (false, [])

/-- Digits with an optional radix point; at least one digit is required. -/
def scanMantissa (digit : UInt8 → Bool) (s : CString) :
    Option (List UInt8 × List UInt8 × CString) :=
  let int := s.takeWhile digit
  let s := s.dropWhile digit
  let (frac, s) :=
    match s with
    | c :: r => if c = '.' then (r.takeWhile digit, r.dropWhile digit) else ([], c :: r)
    | [] => ([], [])
  if int = [] ∧ frac = [] then none else some (int, frac, s)

/-- An exponent introduced by `mark`; without a digit behind it the mark is not consumed. -/
def scanExponent (mark : UInt8) (s : CString) : ℤ × CString :=
  match s with
  | c :: r =>
    if tolower c = mark then
      let (negative, r) := scanSign r
      let ds := r.takeWhile isdigit
      if ds = [] then (0, s)
      else (if negative then -natOfDigits 10 ds else natOfDigits 10 ds, r.dropWhile isdigit)
    else (0, s)
  | [] => (0, [])

def scanDecimal (s : CString) : Option (ℚ × CString) :=
  match scanMantissa isdigit s with
  | none => none
  | some (int, frac, s) =>
    let (e, s) := scanExponent 'e' s
    some (natOfDigits 10 (int ++ frac) * (10 : ℚ) ^ (e - frac.length), s)

/-- A hexadecimal numeral behind its prefix `0x`; the exponent scales by powers of two. -/
def scanHex (s : CString) : Option (ℚ × CString) :=
  match scanMantissa isxdigit s with
  | none => none
  | some (int, frac, s) =>
    let (e, s) := scanExponent 'p' s
    some (natOfDigits 16 (int ++ frac) * (2 : ℚ) ^ (e - 4 * frac.length), s)

/-- The suffix behind a keyword, compared without regard to case. -/
def afterKeyword (keyword s : CString) : Option CString :=
  if (s.take keyword.length).map tolower = keyword then some (s.drop keyword.length) else none

/-- The optional `(n-char-sequence)` behind `nan`. -/
def skipNanSeq : CString → CString
  | c :: r =>
    let tail := r.dropWhile fun c =>
      isdigit c || ('a' ≤ tolower c && tolower c ≤ 'z') || c == '_'
    if c = '(' ∧ tail.head? = some (')' : UInt8) then tail.tail else c :: r
  | [] => []

/-- The unsigned part of a number. -/
def scanNumber (s : CString) : Option (Double × CString) :=
  match afterKeyword (ascii "infinity") s with
  | some r => some (.inf false, r)
  | none =>
  match afterKeyword (ascii "inf") s with
  | some r => some (.inf false, r)
  | none =>
  match afterKeyword (ascii "nan") s with
  | some r => some (.nan, skipNanSeq r)
  | none =>
  match (afterKeyword (ascii "0x") s).bind scanHex with
  | some (q, r) => some (.fin q, r)
  | none => (scanDecimal s).map fun (q, r) => (.fin q, r)

/-- `strtod (nptr, &endptr)`: the value and `endptr`. -/
def strtod (nptr : CString) : Double × CString :=
  let (negative, s) := scanSign (nptr.dropWhile isspace)
  match scanNumber s with
  | none => (.fin 0, nptr)
  | some (x, r) => (if negative then x.neg else x, r)

example : strtod (ascii " -12.5e1%") = (.fin (-125), ascii "%") := by decide +kernel

/-! ### Decimal numerals

The syntax of a decimal numeral as data, its spelling and its value. -/

inductive Sign where
  | none | plus | minus
  deriving DecidableEq

def Sign.render : Sign → CString
  | .none  => []
  | .plus  => ['+']
  | .minus => ['-']

def Sign.apply (q : ℚ) : Sign → ℚ
  | .minus => -q
  | _      => q

/-- An exponent part: the letter, the sign and at least one digit. -/
structure Exponent where
  upper : Bool
  sign : Sign
  digits : List UInt8
  isDigits : ∀ c ∈ digits, isdigit c
  nonempty : digits ≠ []

namespace Exponent

def render (e : Exponent) : CString :=
  (if e.upper then 'E' else 'e') :: (e.sign.render ++ e.digits)

def value (e : Exponent) : ℤ :=
  match e.sign with
  | .minus => -natOfDigits 10 e.digits
  | _      => natOfDigits 10 e.digits

end Exponent

/-- A decimal numeral; a radix point may stand before or behind all digits. -/
structure Decimal where
  sign : Sign
  int : List UInt8
  frac : Option (List UInt8)
  exponent : Option Exponent
  isDigits : ∀ c ∈ int ++ frac.getD [], isdigit c
  nonempty : int ++ frac.getD [] ≠ []

namespace Decimal

def renderExponent (d : Decimal) : CString := (d.exponent.map Exponent.render).getD []

/-- The numeral without its sign. -/
def renderUnsigned (d : Decimal) : CString :=
  d.int ++ (match d.frac with | some ds => ('.' : UInt8) :: ds | none => []) ++ d.renderExponent

def render (d : Decimal) : CString := d.sign.render ++ d.renderUnsigned

/-- The exponent of ten by which the digits are scaled. -/
def scale (d : Decimal) : ℤ :=
  (d.exponent.map Exponent.value).getD 0 - (d.frac.getD []).length

def value (d : Decimal) : ℚ :=
  d.sign.apply (natOfDigits 10 (d.int ++ d.frac.getD []) * (10 : ℚ) ^ d.scale)

end Decimal

/-- No numeral goes on here: the string ends, or its next byte cannot extend a numeral. -/
def EndsNumeral (s : CString) : Prop :=
  ∀ c ∈ s.head?, isdigit c = false ∧ c ≠ '.' ∧ tolower c ≠ 'e' ∧ tolower c ≠ 'x'

/-! ### `strtod` reads a decimal numeral back -/

lemma takeWhile_digits_append {p : UInt8 → Bool} {ds : List UInt8} (hds : ∀ c ∈ ds, p c)
    {s : CString} (hs : ∀ c ∈ s.head?, p c = false) :
    (ds ++ s).takeWhile p = ds ∧ (ds ++ s).dropWhile p = s := by
  have hnil : s.takeWhile p = [] ∧ s.dropWhile p = s := by
    cases s with
    | nil => simp
    | cons c s => simp [hs c rfl]
  constructor
  · rw [List.takeWhile_append_of_pos hds, hnil.1, List.append_nil]
  · rw [List.dropWhile_append_of_pos hds, hnil.2]

/-- A digit introduces none of the other parts of a number. -/
lemma isdigit_ne : ∀ c : UInt8, isdigit c →
    c ≠ '.' ∧ c ≠ '-' ∧ c ≠ '+' ∧ isspace c = false ∧ tolower c = c ∧ c ≠ 'i' ∧ c ≠ 'n'
      ∧ c ≠ 'x' ∧ c ≠ 'e' := by
  decide +kernel

lemma scanSign_render (σ : Sign) {s : CString} (hs : ∀ c ∈ s.head?, c ≠ '-' ∧ c ≠ '+') :
    scanSign (σ.render ++ s) = (σ == .minus, s) := by
  cases σ with
  | none =>
    cases s with
    | nil => rfl
    | cons c s =>
      obtain ⟨h₁, h₂⟩ := hs c rfl
      simp [Sign.render, scanSign, h₁, h₂]
  | plus => simp [Sign.render, scanSign, show ('+' : Char).toUInt8 ≠ '-' by decide]
  | minus => simp [Sign.render, scanSign]

/-- A keyword is missed as soon as its first byte differs. -/
lemma afterKeyword_eq_none {k : UInt8} {keyword s : CString}
    (hs : ∀ c ∈ s.head?, tolower c ≠ k) : afterKeyword (k :: keyword) s = none := by
  cases s with
  | nil => simp [afterKeyword]
  | cons c s => simp [afterKeyword, hs c rfl]

namespace Decimal

variable (d : Decimal) {rest : CString}

/-- Behind the integer digits and the fraction stands the exponent letter or the rest. -/
lemma head_renderExponent (hrest : EndsNumeral rest) :
    ∀ c ∈ (d.renderExponent ++ rest).head?,
      isdigit c = false ∧ c ≠ '.' ∧ tolower c ≠ 'x' := by
  intro c hc
  cases he : d.exponent with
  | none =>
    simp only [renderExponent, he, Option.map_none, Option.getD_none, List.nil_append] at hc
    obtain ⟨h₁, h₂, -, h₃⟩ := hrest c hc
    exact ⟨h₁, h₂, h₃⟩
  | some e =>
    simp only [renderExponent, he, Option.map_some, Option.getD_some, Exponent.render,
      List.cons_append, List.head?_cons, Option.mem_some] at hc
    rw [← hc]
    cases e.upper <;> decide

lemma scanMantissa_render (hrest : EndsNumeral rest) :
    scanMantissa isdigit (d.renderUnsigned ++ rest)
      = some (d.int, d.frac.getD [], d.renderExponent ++ rest) := by
  have hexp := d.head_renderExponent hrest
  have hint : ∀ c ∈ d.int, isdigit c := fun c hc =>
    d.isDigits c (List.mem_append_left _ hc)
  have hne := d.nonempty
  cases hf : d.frac with
  | none =>
    rw [hf] at hne
    obtain ⟨htake, hdrop⟩ := takeWhile_digits_append hint fun c hc => (hexp c hc).1
    simp only [renderUnsigned, hf, List.append_nil, List.append_assoc, scanMantissa, htake,
      hdrop, Option.getD_none]
    cases hs : d.renderExponent ++ rest with
    | nil => simpa using hne
    | cons c s =>
      have hc : c ≠ '.' := (hexp c (by simp [hs])).2.1
      simpa [hc] using hne
  | some ds =>
    rw [hf] at hne
    have hds : ∀ c ∈ ds, isdigit c := fun c hc =>
      d.isDigits c (by simp [hf, hc])
    obtain ⟨htake, hdrop⟩ := takeWhile_digits_append hds fun c hc => (hexp c hc).1
    obtain ⟨htake', hdrop'⟩ :=
      takeWhile_digits_append (s := ('.' : UInt8) :: (ds ++ (d.renderExponent ++ rest))) hint
        (by simp; decide)
    simp only [renderUnsigned, hf, List.append_assoc, List.cons_append, scanMantissa, htake',
      hdrop', if_true, htake, hdrop, Option.getD_some]
    simpa using hne

lemma scanExponent_render (hrest : EndsNumeral rest) :
    scanExponent 'e' (d.renderExponent ++ rest)
      = ((d.exponent.map Exponent.value).getD 0, rest) := by
  cases he : d.exponent with
  | none =>
    simp only [renderExponent, he, Option.map_none, Option.getD_none, List.nil_append]
    cases rest with
    | nil => rfl
    | cons c s => simp [scanExponent, (hrest c rfl).2.2.1]
  | some e =>
    have hlower : tolower (if e.upper then 'E' else 'e') = 'e' := by
      cases e.upper <;> decide
    have hhead : ∀ c ∈ (e.digits ++ rest).head?, c ≠ '-' ∧ c ≠ '+' := by
      intro c hc
      rw [List.head?_append_of_ne_nil _ e.nonempty] at hc
      have := isdigit_ne c (e.isDigits c (List.mem_of_mem_head? hc))
      exact ⟨this.2.1, this.2.2.1⟩
    obtain ⟨htake, hdrop⟩ := takeWhile_digits_append e.isDigits fun c hc => (hrest c hc).1
    simp only [renderExponent, he, Option.map_some, Option.getD_some, Exponent.render,
      List.cons_append, List.append_assoc, scanExponent, hlower, if_true,
      scanSign_render e.sign hhead, htake, hdrop, if_neg e.nonempty, Exponent.value]
    cases e.sign <;> simp

lemma scanDecimal_render (hrest : EndsNumeral rest) :
    scanDecimal (d.renderUnsigned ++ rest)
      = some (natOfDigits 10 (d.int ++ d.frac.getD []) * (10 : ℚ) ^ d.scale, rest) := by
  simp only [scanDecimal, d.scanMantissa_render hrest, d.scanExponent_render hrest, scale]

/-- The bytes of a numeral. -/
lemma mem_render {c : UInt8} (hc : c ∈ d.render) :
    isdigit c ∨ c = '+' ∨ c = '-' ∨ c = '.' ∨ c = 'e' ∨ c = 'E' := by
  have hsign : ∀ σ : Sign, c ∈ σ.render → c = '+' ∨ c = '-' := by
    intro σ h
    cases σ <;> simp_all [Sign.render]
  have hdigit : ∀ c ∈ d.int ++ d.frac.getD [], isdigit c := d.isDigits
  simp only [render, renderUnsigned, List.mem_append] at hc
  rcases hc with hc | (hc | hc) | hc
  · rcases hsign _ hc with h | h <;> simp [h]
  · exact Or.inl (hdigit c (by simp [hc]))
  · cases hf : d.frac with
    | none => simp [hf] at hc
    | some ds =>
      simp only [hf, List.mem_cons] at hc
      rcases hc with hc | hc
      · simp [hc]
      · exact Or.inl (hdigit c (by simp [hf, hc]))
  · cases he : d.exponent with
    | none => simp [renderExponent, he] at hc
    | some e =>
      simp only [renderExponent, he, Option.map_some, Option.getD_some, Exponent.render,
        List.mem_cons, List.mem_append] at hc
      rcases hc with hc | hc | hc
      · split_ifs at hc <;> simp [hc]
      · rcases hsign _ hc with h | h <;> simp [h]
      · exact Or.inl (e.isDigits c hc)

/-- An unsigned numeral starts with a digit or a radix point. -/
lemma head_renderUnsigned (rest : CString) :
    ∀ c ∈ (d.renderUnsigned ++ rest).head?, isdigit c ∨ c = '.' := by
  intro c hc
  cases hi : d.int with
  | nil =>
    cases hf : d.frac with
    | none => exact absurd (by simp [hi, hf]) d.nonempty
    | some ds =>
      simp only [renderUnsigned, hi, hf, List.nil_append, List.cons_append, List.head?_cons,
        Option.mem_some] at hc
      exact Or.inr hc.symm
  | cons a ds =>
    simp only [renderUnsigned, hi, List.cons_append, List.head?_cons, Option.mem_some] at hc
    exact Or.inl (hc ▸ d.isDigits a (by simp [hi]))

/-- A decimal numeral is not taken for a hexadecimal one. -/
lemma afterKeyword_hex (hrest : EndsNumeral rest) :
    afterKeyword (ascii "0x") (d.renderUnsigned ++ rest) = none := by
  have hexp := d.head_renderExponent hrest
  have hx : ∀ c, isdigit c → tolower c ≠ 'x' := fun c hc => by
    have := isdigit_ne c hc
    rw [this.2.2.2.2.1]
    exact this.2.2.2.2.2.2.2.1
  -- the byte behind the first one is a digit, the radix point or the rest, never an `x`
  have hsnd : ∀ a b s, d.renderUnsigned ++ rest = a :: b :: s →
      tolower a = '0' → tolower b ≠ 'x' := by
    intro a b s h ha
    cases hi : d.int with
    | nil =>
      cases hf : d.frac with
      | none => exact absurd (by simp [hi, hf]) d.nonempty
      | some ds =>
        simp only [renderUnsigned, hi, hf, List.nil_append, List.cons_append,
          List.cons.injEq] at h
        rw [← h.1] at ha
        exact absurd ha (by decide)
    | cons c ds =>
      cases ds with
      | cons c' ds =>
        simp only [renderUnsigned, hi, List.cons_append, List.cons.injEq] at h
        exact h.2.1 ▸ hx c' (d.isDigits c' (by simp [hi]))
      | nil =>
        cases hf : d.frac with
        | none =>
          simp only [renderUnsigned, hi, hf, List.cons_append, List.nil_append,
            List.cons.injEq] at h
          exact (hexp b (by simp [h.2])).2.2
        | some ds =>
          simp only [renderUnsigned, hi, hf, List.cons_append, List.nil_append,
            List.cons.injEq] at h
          rw [← h.2.1]
          decide
  rw [afterKeyword]
  rw [if_neg]
  intro h
  rcases hs : d.renderUnsigned ++ rest with _ | ⟨a, _ | ⟨b, s⟩⟩
  · rw [hs] at h
    exact absurd h (by decide)
  · rw [hs] at h
    exact absurd (congrArg List.length h) (by simp [ascii])
  · rw [hs] at h
    have h₂ : [tolower a, tolower b] = [('0' : UInt8), ('x' : UInt8)] := h
    simp only [List.cons.injEq, and_true] at h₂
    exact hsnd a b s hs h₂.1 h₂.2

lemma scanNumber_render (hrest : EndsNumeral rest) :
    scanNumber (d.renderUnsigned ++ rest)
      = some (.fin (natOfDigits 10 (d.int ++ d.frac.getD []) * (10 : ℚ) ^ d.scale), rest) := by
  have hhead := d.head_renderUnsigned rest
  have hkey : ∀ k : UInt8, (∀ c, isdigit c ∨ c = '.' → tolower c ≠ k) →
      ∀ keyword, afterKeyword (k :: keyword) (d.renderUnsigned ++ rest) = none :=
    fun k hk keyword => afterKeyword_eq_none fun c hc => hk c (hhead c hc)
  have hi := hkey 'i' (by decide +kernel)
  have hn := hkey 'n' (by decide +kernel)
  have hinf : afterKeyword (ascii "infinity") (d.renderUnsigned ++ rest) = none := hi _
  have hinf' : afterKeyword (ascii "inf") (d.renderUnsigned ++ rest) = none := hi _
  have hnan : afterKeyword (ascii "nan") (d.renderUnsigned ++ rest) = none := hn _
  simp only [scanNumber, hinf, hinf', hnan, d.afterKeyword_hex hrest, Option.bind_none,
    d.scanDecimal_render hrest, Option.map_some]

/-- `strtod` returns the value of a decimal numeral and stops right behind it. -/
theorem strtod_render (hrest : EndsNumeral rest) :
    strtod (d.render ++ rest) = (.fin d.value, rest) := by
  have hhead := d.head_renderUnsigned rest
  have hsign : ∀ c ∈ (d.renderUnsigned ++ rest).head?, c ≠ '-' ∧ c ≠ '+' := fun c hc =>
    (show ∀ c, isdigit c ∨ c = '.' → c ≠ '-' ∧ c ≠ '+' by decide +kernel) c (hhead c hc)
  have hspace : (d.render ++ rest).dropWhile isspace = d.render ++ rest := by
    have hns : ∀ c ∈ (d.render ++ rest).head?, isspace c = false := by
      intro c hc
      cases hσ : d.sign with
      | none =>
        simp only [render, hσ, Sign.render, List.nil_append] at hc
        exact (show ∀ c, isdigit c ∨ c = '.' → isspace c = false by decide +kernel) c
          (hhead c hc)
      | plus | minus =>
        simp only [render, hσ, Sign.render, List.cons_append, List.head?_cons,
          Option.mem_some] at hc
        rw [← hc]
        decide
    cases hs : d.render ++ rest with
    | nil => rfl
    | cons c s => simp [hns c (by simp [hs])]
  rw [strtod]
  rw [hspace, render, List.append_assoc, scanSign_render d.sign hsign]
  simp only [d.scanNumber_render hrest, value]
  cases d.sign <;> rfl

end Decimal

/-! ### Where `strtod` stops -/

lemma scanSign_suffix (s : CString) : (scanSign s).2 <:+ s := by
  cases s with
  | nil => exact List.suffix_refl _
  | cons c s =>
    rw [scanSign]
    split_ifs
    · exact List.suffix_cons c s
    · exact List.suffix_cons c s
    · exact List.suffix_refl _

lemma scanMantissa_suffix {digit : UInt8 → Bool} {s rest : CString} {int frac : List UInt8}
    (h : scanMantissa digit s = some (int, frac, rest)) : rest <:+ s := by
  have hint : s.dropWhile digit <:+ s := List.dropWhile_suffix digit
  rw [scanMantissa] at h
  cases hs : s.dropWhile digit with
  | nil =>
    simp only [hs, Option.ite_none_left_eq_some, Option.some.injEq, Prod.mk.injEq] at h
    rw [← h.2.2.2]
    exact List.nil_suffix
  | cons c r =>
    rw [hs] at hint
    by_cases hc : c = '.'
    · simp only [hs, hc, if_true, Option.ite_none_left_eq_some, Option.some.injEq,
        Prod.mk.injEq] at h
      rw [← h.2.2.2]
      exact (List.dropWhile_suffix digit).trans ((List.suffix_cons c r).trans hint)
    · simp only [hs, hc, if_false, Option.ite_none_left_eq_some, Option.some.injEq,
        Prod.mk.injEq] at h
      rw [← h.2.2.2]
      exact hint

lemma scanExponent_suffix (mark : UInt8) (s : CString) : (scanExponent mark s).2 <:+ s := by
  cases s with
  | nil => exact List.suffix_refl _
  | cons c r =>
    simp only [scanExponent]
    split_ifs
    · exact List.suffix_refl _
    · exact (List.dropWhile_suffix isdigit).trans
        ((scanSign_suffix r).trans (List.suffix_cons c r))
    · exact (List.dropWhile_suffix isdigit).trans
        ((scanSign_suffix r).trans (List.suffix_cons c r))
    · exact List.suffix_refl _

/-- Mantissa and exponent together. -/
lemma scanExponent_scanMantissa_suffix {digit : UInt8 → Bool} {s r : CString}
    {int frac : List UInt8} (h : scanMantissa digit s = some (int, frac, r)) (mark : UInt8) :
    (scanExponent mark r).2 <:+ s :=
  (scanExponent_suffix mark r).trans (scanMantissa_suffix h)

lemma scanDecimal_suffix {s rest : CString} {q : ℚ} (h : scanDecimal s = some (q, rest)) :
    rest <:+ s := by
  rw [scanDecimal] at h
  cases hm : scanMantissa isdigit s with
  | none => simp [hm] at h
  | some m =>
    simp only [hm, Option.some.injEq, Prod.mk.injEq] at h
    exact h.2 ▸ scanExponent_scanMantissa_suffix hm _

lemma scanHex_suffix {s rest : CString} {q : ℚ} (h : scanHex s = some (q, rest)) :
    rest <:+ s := by
  rw [scanHex] at h
  cases hm : scanMantissa isxdigit s with
  | none => simp [hm] at h
  | some m =>
    simp only [hm, Option.some.injEq, Prod.mk.injEq] at h
    exact h.2 ▸ scanExponent_scanMantissa_suffix hm _

lemma afterKeyword_suffix {keyword s rest : CString} (h : afterKeyword keyword s = some rest) :
    rest <:+ s := by
  rw [afterKeyword, Option.ite_none_right_eq_some, Option.some.injEq] at h
  rw [← h.2]
  exact List.drop_suffix _ _

lemma skipNanSeq_suffix (s : CString) : skipNanSeq s <:+ s := by
  cases s with
  | nil => exact List.suffix_refl _
  | cons c r =>
    simp only [skipNanSeq]
    split_ifs
    · exact (List.tail_suffix _).trans
        ((List.dropWhile_suffix _).trans (List.suffix_cons c r))
    · exact List.suffix_refl _

lemma scanNumber_suffix {s rest : CString} {x : Double} (h : scanNumber s = some (x, rest)) :
    rest <:+ s := by
  rw [scanNumber] at h
  cases hinfinity : afterKeyword (ascii "infinity") s with
  | some r =>
    simp only [hinfinity, Option.some.injEq, Prod.mk.injEq] at h
    exact h.2 ▸ afterKeyword_suffix hinfinity
  | none =>
  cases hinf : afterKeyword (ascii "inf") s with
  | some r =>
    simp only [hinfinity, hinf, Option.some.injEq, Prod.mk.injEq] at h
    exact h.2 ▸ afterKeyword_suffix hinf
  | none =>
  cases hnan : afterKeyword (ascii "nan") s with
  | some r =>
    simp only [hinfinity, hinf, hnan, Option.some.injEq, Prod.mk.injEq] at h
    exact h.2 ▸ (skipNanSeq_suffix r).trans (afterKeyword_suffix hnan)
  | none =>
  cases hhex : (afterKeyword (ascii "0x") s).bind scanHex with
  | some m =>
    simp only [hinfinity, hinf, hnan, hhex, Option.some.injEq, Prod.mk.injEq] at h
    obtain ⟨r, hr, hm⟩ := Option.bind_eq_some_iff.1 hhex
    exact h.2 ▸ (scanHex_suffix hm).trans (afterKeyword_suffix hr)
  | none =>
    simp only [hinfinity, hinf, hnan, hhex, Option.map_eq_some_iff, Prod.mk.injEq] at h
    obtain ⟨m, hm, -, hrest⟩ := h
    exact hrest ▸ scanDecimal_suffix hm

/-- `strtod` stops inside the string. -/
theorem strtod_suffix (s : CString) : (strtod s).2 <:+ s := by
  rw [strtod]
  have hsign := (scanSign_suffix (s.dropWhile isspace)).trans (List.dropWhile_suffix isspace)
  cases h : scanNumber (scanSign (s.dropWhile isspace)).2 with
  | none =>
    simp only [h]
    exact List.suffix_refl _
  | some m =>
    simp only [h]
    exact (scanNumber_suffix h).trans hsign

end Libc
