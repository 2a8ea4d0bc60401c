import NagiosPlugins.Interrupts.Properties
import NagiosPlugins.Libc.Snprintf

/-!
# The pointer of the column loop

The same loop with a pointer that is an index into the line. A line may hold NULs; behind its last
byte stands one more, and nothing behind that may be accessed.
-/

namespace NagiosPlugins

open Libc

/-! ### Memory -/

/-- The byte of a line at `p`. -/
def byteAt (line : List UInt8) (p : ℕ) : Except Stop UInt8 :=
  match (line ++ [0])[p]? with
  | none => .error .outOfBounds
  | some c => .ok c

/-- Where `endptr` points to behind a `strtoul` at `p`. -/
def strtoulEndptr (line : List UInt8) (p : ℕ) : ℕ :=
  p + ((stringAt (line.drop p)).length - (strtoulEnd (stringAt (line.drop p))).2.length)

/-- Where the first colon is. -/
def colonIndex (line : List UInt8) : Option ℕ :=
  (strchr (stringAt line) ':').map fun s => (stringAt line).length - s.length

/-- A turn of the loop over the CPUs: what is added to the counter, and where `p` stands next. -/
def columnTurn (line : List UInt8) (p : ℕ) : Except Stop (UInt64 × ℕ) := do
  let c ← byteAt line p
  if c = 0 ∨ c = '\n' then return (0, p)
  else
    -- `strtoul` looks at `p + 1` in any case
    let _ ← byteAt line (p + 1)
    return ((strtoulEnd (stringAt (line.drop (p + 1)))).1, strtoulEndptr line (p + 1) + 1)

/-- Where `p` stands after some turns. -/
def columnPointer (line : List UInt8) (p : ℕ) : ℕ → Except Stop ℕ
  | 0 => .ok p
  | k + 1 => do
    let p ← columnPointer line p k
    let (_, p) ← columnTurn line p
    return p

/-- The turn at `p` dereferences `p + 1`. -/
def LooksAhead (line : List UInt8) (p : ℕ) : Prop :=
  ∃ c, byteAt line p = .ok c ∧ c ≠ 0 ∧ c ≠ '\n'

section Line

variable {line : List UInt8} {p : ℕ}

lemma byteAt_of_lt (h : p < line.length) : byteAt line p = .ok (line.get ⟨p, h⟩) := by
  rw [byteAt, List.getElem?_append_left h, List.getElem?_eq_getElem h]
  rfl

lemma byteAt_length (line : List UInt8) : byteAt line line.length = .ok 0 := by
  rw [byteAt, List.getElem?_append_right (le_refl _), Nat.sub_self]
  rfl

variable (hnewline : line.getLast? = some ('\n' : UInt8))

include hnewline

/-- Behind a byte that is neither NUL nor newline the line goes on. -/
lemma LooksAhead.lt (h : LooksAhead line p) : p + 1 < line.length := by
  obtain ⟨c, hc, hzero, hne⟩ := h
  rcases lt_trichotomy p line.length with hlt | rfl | hgt
  · rw [byteAt_of_lt hlt] at hc
    by_contra hlast
    have heq : p = line.length - 1 := by omega
    rw [List.getLast?_eq_getElem?, ← heq, List.getElem?_eq_getElem hlt] at hnewline
    exact hne ((Except.ok.inj hc).symm.trans (Option.some.inj hnewline))
  · rw [byteAt_length] at hc
    exact absurd (Except.ok.inj hc).symm hzero
  · rw [byteAt, List.getElem?_eq_none (by simpa using hgt)] at hc
    cases hc

/-- No number reaches to the end of the line, since it ends with the newline. -/
lemma strtoulEndptr_lt (hp : p < line.length) : strtoulEndptr line p < line.length := by
  rw [strtoulEndptr]
  have hdrop : (line.drop p).length = line.length - p := List.length_drop
  rcases stringAt_eq_or_lt (line.drop p) with heq | hlt
  · have hlast : (line.drop p).getLast? = some ('\n' : UInt8) := by
      rw [List.getLast?_drop, if_neg (by omega), hnewline]
    have hend := getLast?_strtoulEnd hlast
    have hpos : 0 < (strtoulEnd (line.drop p)).2.length := by
      rw [List.length_pos_iff]
      rintro hnil
      rw [hnil] at hend
      cases hend
    rw [heq]
    omega
  · omega

/-- A turn keeps `p` inside the line. -/
lemma columnTurn_inside (hp : p ≤ line.length) :
    ∃ value q, columnTurn line p = .ok (value, q) ∧ q ≤ line.length := by
  by_cases hlook : LooksAhead line p
  · have hlt := hlook.lt hnewline
    obtain ⟨c, hc, hzero, hne⟩ := hlook
    refine ⟨(strtoulEnd (stringAt (line.drop (p + 1)))).1, strtoulEndptr line (p + 1) + 1, ?_,
      strtoulEndptr_lt hnewline hlt⟩
    rw [columnTurn, hc, Except.ok_bind, if_neg (not_or.2 ⟨hzero, hne⟩), byteAt_of_lt hlt]
    rfl
  · obtain ⟨c, hc⟩ : ∃ c, byteAt line p = .ok c := by
      rcases hp.lt_or_eq with hlt | rfl
      · exact ⟨_, byteAt_of_lt hlt⟩
      · exact ⟨0, byteAt_length line⟩
    refine ⟨0, p, ?_, hp⟩
    have hstop : c = 0 ∨ c = '\n' := by
      by_contra hnot
      exact hlook ⟨c, hc, not_or.1 hnot⟩
    rw [columnTurn, hc, Except.ok_bind, if_pos hstop]
    rfl

lemma columnPointer_le (hp : p ≤ line.length) (k : ℕ) :
    ∃ q, columnPointer line p k = .ok q ∧ q ≤ line.length := by
  induction k with
  | zero => exact ⟨p, rfl, hp⟩
  | succ k ih =>
    obtain ⟨q, hq, hle⟩ := ih
    obtain ⟨value, r, hr, hrle⟩ := columnTurn_inside hnewline hle
    refine ⟨r, ?_, hrle⟩
    rw [columnPointer, hq, Except.ok_bind, hr]
    rfl

/-! ### Lines without NUL -/

section WithoutNul

variable (hzero : (0 : UInt8) ∉ line)

omit hnewline in
include hzero in
lemma stringAt_drop (p : ℕ) : stringAt (line.drop p) = line.drop p := by
  rw [stringAt, List.takeWhile_eq_self_iff]
  intro c hc
  have hmem := List.mem_of_mem_drop hc
  rw [decide_eq_true_eq]
  rintro rfl
  exact hzero hmem

include hzero

/-- A turn reads the column that `p` stands in front of. -/
lemma columnTurn_drop (hp : p ≤ line.length) :
    ∃ q, columnTurn line p = .ok (readColumn (line.drop p), q) ∧ q ≤ line.length ∧
      line.drop q = nextColumn (line.drop p) := by
  rcases hp.lt_or_eq with hlt | rfl
  · have hcons : line.drop p = line.get ⟨p, hlt⟩ :: line.drop (p + 1) :=
      List.drop_eq_getElem_cons hlt
    have hne : line.get ⟨p, hlt⟩ ≠ 0 := fun heq => hzero (heq ▸ List.get_mem ..)
    rw [hcons]
    by_cases hstop : line.get ⟨p, hlt⟩ = '\n'
    · refine ⟨p, ?_, hp, ?_⟩
      · rw [columnTurn, byteAt_of_lt hlt, Except.ok_bind, if_pos (Or.inr hstop), readColumn,
          if_pos hstop]
        rfl
      · rw [nextColumn, if_pos hstop, hcons]
    · have hlook : LooksAhead line p := ⟨_, byteAt_of_lt hlt, hne, hstop⟩
      have hnext := hlook.lt hnewline
      have hsuffix := strtoulEnd_suffix (line.drop (p + 1))
      refine ⟨strtoulEndptr line (p + 1) + 1, ?_, strtoulEndptr_lt hnewline hnext, ?_⟩
      · rw [columnTurn, byteAt_of_lt hlt, Except.ok_bind, if_neg (not_or.2 ⟨hne, hstop⟩),
          byteAt_of_lt hnext, Except.ok_bind, readColumn, if_neg hstop, stringAt_drop hzero]
        rfl
      · rw [nextColumn, if_neg hstop, ← List.drop_one, strtoulEndptr, stringAt_drop hzero,
          ← List.drop_drop, ← List.drop_drop, ← List.suffix_iff_eq_drop.1 hsuffix]
  · refine ⟨line.length, ?_, le_refl _, ?_⟩
    · rw [columnTurn, byteAt_length, Except.ok_bind, if_pos (Or.inl rfl), List.drop_length]
      rfl
    · rw [List.drop_length]
      rfl

lemma columnPointer_drop {p : ℕ} (hp : p ≤ line.length) (k : ℕ) :
    ∃ q, columnPointer line p k = .ok q ∧ q ≤ line.length ∧
      line.drop q = nextColumn^[k] (line.drop p) := by
  induction k with
  | zero => exact ⟨p, rfl, hp, rfl⟩
  | succ k ih =>
    obtain ⟨q, hq, hle, hdrop⟩ := ih
    obtain ⟨r, hr, hrle, hnext⟩ := columnTurn_drop hnewline hzero hle
    refine ⟨r, ?_, hrle, ?_⟩
    · rw [columnPointer, hq, Except.ok_bind, hr]
      rfl
    · rw [hnext, hdrop, Function.iterate_succ_apply']

/-- What a line adds to the counters are the columns that `p` stands in front of. -/
theorem addInterruptLine_eq_columns (hcolon : (':' : UInt8) ∈ line) (vintr : List UInt64) :
    ∃ (p : ℕ) (pointer : ℕ → ℕ), colonIndex line = some p ∧
      (∀ k, columnPointer line p k = .ok (pointer k)) ∧
      addInterruptLine vintr line
        = .ok (vintr.mapIdx fun k v => v + readColumn (line.drop (pointer k))) := by
  obtain ⟨s, hs⟩ := exists_strchr_of_mem hcolon
  have hstring : stringAt line = line := stringAt_drop hzero 0
  have hdrop : line.drop (line.length - s.length) = s :=
    (List.suffix_iff_eq_drop.1 (strchr_suffix hs)).symm
  choose pointer hpointer _ hcolumn using
    columnPointer_drop hnewline hzero (Nat.sub_le line.length s.length)
  refine ⟨line.length - s.length, pointer, ?_, hpointer, ?_⟩
  · rw [colonIndex, hstring, hs]
    rfl
  · have hterminated : Terminated s := by
      rcases eq_or_ne s [] with hnil | hne
      · exact Or.inl hnil
      · exact Or.inr ((getLast?_of_suffix (strchr_suffix hs) hne).trans hnewline)
    rw [addInterruptLine, hs]
    simp only [addColumns_ok hterminated, hcolumn, hdrop]
    rfl

end WithoutNul

/-- With any number of CPUs `p` stays inside the line, and what is dereferenced behind it is in
front of the end of the line. -/
theorem columnPointer_inside (hcolon : (':' : UInt8) ∈ stringAt line) :
    ∃ p, colonIndex line = some p ∧
      ∀ ncpus, ∃ q, columnPointer line p ncpus = .ok q ∧ q ≤ line.length ∧
        (LooksAhead line q → q + 1 < line.length) := by
  obtain ⟨s, hs⟩ := exists_strchr_of_mem hcolon
  refine ⟨(stringAt line).length - s.length, by rw [colonIndex, hs]; rfl, fun ncpus => ?_⟩
  have hle := length_stringAt_le line
  obtain ⟨q, hq, hqle⟩ :=
    columnPointer_le hnewline (p := (stringAt line).length - s.length) (by omega) ncpus
  exact ⟨q, hq, hqle, fun h => h.lt hnewline⟩

end Line

/-- A row with one counter and a description, whatever the number of CPUs is. -/
theorem columnPointer_inside_short :
    ∃ p, colonIndex (ascii "NMI: 5 x\n") = some p ∧
      ∀ ncpus, ∃ q, columnPointer (ascii "NMI: 5 x\n") p ncpus = .ok q ∧
        q ≤ (ascii "NMI: 5 x\n").length ∧
        (LooksAhead (ascii "NMI: 5 x\n") q → q + 1 < (ascii "NMI: 5 x\n").length) :=
  columnPointer_inside (by decide +kernel) (by decide +kernel)

end NagiosPlugins
