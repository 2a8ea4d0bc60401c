import Mathlib.Data.List.Basic
import Mathlib.Tactic

/-!
# C strings

A C string is the list of its bytes up to, and without, the terminating NUL. A pointer into
a string is the suffix that starts there, so `strchr` and `strrchr` return suffixes.
-/

namespace Libc

/-- The bytes of a C string, without the terminating NUL. -/
abbrev CString := List UInt8

instance coeCharUInt8 : Coe Char UInt8 := ⟨Char.toUInt8⟩

/-- The bytes of an ASCII literal. -/
def ascii (s : String) : CString := s.toList.map Char.toUInt8

/-- The text of a C string. -/
def text (s : CString) : String := String.ofList (s.map fun c => Char.ofNat c.toNat)

/-- A property of single bytes is checked on all 256 of them. -/
instance decidableForallUInt8 (P : UInt8 → Prop) [DecidablePred P] : Decidable (∀ c, P c) :=
  decidable_of_iff (∀ n : Fin 256, P (UInt8.ofFin n))
    ⟨fun h c => by simpa using h c.toFin, fun h n => h _⟩

/-! ### Character classes of the C locale -/

def isspace (c : UInt8) : Bool := c == ' ' || (9 ≤ c && c ≤ 13)

def isdigit (c : UInt8) : Bool := '0' ≤ c && c ≤ '9'

def isxdigit (c : UInt8) : Bool :=
  isdigit c || ('A' ≤ c && c ≤ 'F') || ('a' ≤ c && c ≤ 'f')

def tolower (c : UInt8) : UInt8 := if 'A' ≤ c && c ≤ 'Z' then c + 32 else c

def isalnum (c : UInt8) : Bool := isdigit c || ('a' ≤ tolower c && tolower c ≤ 'z')

/-! ### Searching a byte -/

/-- The suffix that starts at the first `c`. -/
def strchr : CString → UInt8 → Option CString
  | [], _ => none
  | b :: s, c => if b = c then some (b :: s) else strchr s c

/-- The suffix that starts at the last `c`. -/
def strrchr : CString → UInt8 → Option CString
  | [], _ => none
  | b :: s, c =>
    match strrchr s c with
    | some r => some r
    | none => if b = c then some (b :: s) else none

@[simp] lemma strchr_nil (c : UInt8) : strchr [] c = none := rfl

lemma strchr_eq_none {s : CString} {c : UInt8} : strchr s c = none ↔ c ∉ s := by
  induction s with
  | nil => simp
  | cons b s ih =>
    by_cases h : b = c
    · simp [strchr, h]
    · simp [strchr, h, ih, Ne.symm h]

lemma exists_strchr_of_mem {s : CString} {c : UInt8} (h : c ∈ s) : ∃ r, strchr s c = some r := by
  rw [← Option.ne_none_iff_exists', ne_eq, strchr_eq_none, not_not]
  exact h

lemma strchr_suffix {s r : CString} {c : UInt8} (h : strchr s c = some r) : r <:+ s := by
  induction s with
  | nil => cases h
  | cons b s ih =>
    rw [strchr] at h
    split_ifs at h
    · cases h
      exact List.suffix_rfl
    · exact (ih h).trans (List.suffix_cons b s)

/-- Searching past a prefix that lacks the byte. -/
lemma strchr_append {p : CString} {c : UInt8} (hp : c ∉ p) (s : CString) :
    strchr (p ++ s) c = strchr s c := by
  induction p with
  | nil => rfl
  | cons b p ih =>
    simp only [List.mem_cons, not_or] at hp
    simp [strchr, Ne.symm hp.1, ih hp.2]

lemma strrchr_eq_none {s : CString} {c : UInt8} : strrchr s c = none ↔ c ∉ s := by
  induction s with
  | nil => simp [strrchr]
  | cons b s ih =>
    simp only [strrchr, List.mem_cons, not_or]
    cases h : strrchr s c with
    | some r =>
      have : c ∈ s := by
        by_contra hc
        rw [ih.mpr hc] at h
        cases h
      simp [this]
    | none =>
      by_cases hb : b = c
      · simp [hb]
      · simp [hb, Ne.symm hb, ih.mp h]

/-- What `strrchr` finds starts with the byte and has no further one behind it. -/
lemma strrchr_eq_some {s r : CString} {c : UInt8} (h : strrchr s c = some r) :
    ∃ t, r = c :: t ∧ c ∉ t := by
  induction s with
  | nil => simp [strrchr] at h
  | cons b s ih =>
    simp only [strrchr] at h
    cases hs : strrchr s c with
    | some r' =>
      rw [hs] at h
      exact ih (hs.trans h)
    | none =>
      rw [hs] at h
      split_ifs at h with hb
      · cases h
        exact ⟨s, by rw [hb], strrchr_eq_none.mp hs⟩

/-! ### Splitting at a byte -/

/-- `strtok_r` for one delimiter: the token, and what the next call starts with. -/
def strtok (delim : UInt8) (s : CString) : Option (CString × CString) :=
  let s := s.dropWhile (· = delim)
  if s = [] then none else some (s.takeWhile (· ≠ delim), (s.dropWhile (· ≠ delim)).tail)

/-- Leading delimiters are skipped. -/
lemma strtok_cons (delim : UInt8) (s : CString) : strtok delim (delim :: s) = strtok delim s := by
  simp [strtok]

/-- A token ends at the next delimiter. -/
lemma strtok_append {delim : UInt8} {token : CString} (hne : token ≠ []) (hdelim : delim ∉ token)
    {rest : CString} (hrest : ∀ c ∈ rest.head?, c = delim) :
    strtok delim (token ++ rest) = some (token, rest.tail) := by
  have hmem : ∀ c ∈ token, c ≠ delim := by
    rintro c hc rfl
    exact hdelim hc
  have hpos : ∀ c ∈ token, decide (c ≠ delim) = true := fun c hc => decide_eq_true (hmem c hc)
  have hskip : (token ++ rest).dropWhile (fun c => decide (c = delim)) = token ++ rest := by
    cases token with
    | nil => exact absurd rfl hne
    | cons c token => simp [hmem c List.mem_cons_self]
  have hstop : rest.takeWhile (fun c => decide (c ≠ delim)) = [] ∧
      rest.dropWhile (fun c => decide (c ≠ delim)) = rest := by
    cases rest with
    | nil => exact ⟨rfl, rfl⟩
    | cons c rest => simp [hrest c rfl]
  rw [strtok]
  simp only [hskip]
  rw [if_neg (by simp [hne]), List.takeWhile_append_of_pos hpos, List.dropWhile_append_of_pos hpos,
    hstop.1, hstop.2, List.append_nil]

end Libc
