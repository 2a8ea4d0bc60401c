import Mathlib.Computability.RegularExpressions

/-!
# Searching for a regular expression

The parts that an extended regular expression is made of, and what it means that one is found
somewhere in a text.
-/

namespace RegularExpression

variable {α : Type*}

/-! ### Parts -/

/-- One of some characters. -/
def oneOf (cs : List α) : RegularExpression α := (cs.map char).foldr (· + ·) 0

/-- One character after the other. -/
def literal (w : List α) : RegularExpression α := (w.map char).foldr (· * ·) 1

/-- Once or not at all. -/
def optional (r : RegularExpression α) : RegularExpression α := 1 + r

/-- At least once. -/
def atLeastOnce (r : RegularExpression α) : RegularExpression α := r * r.star

variable {r s : RegularExpression α} {cs w t : List α}

lemma mem_mul : t ∈ (r * s).matches' ↔ ∃ u v, u ∈ r.matches' ∧ v ∈ s.matches' ∧ t = u ++ v := by
  rw [matches'_mul, Language.mem_mul]
  constructor
  · rintro ⟨u, hu, v, hv, rfl⟩
    exact ⟨u, v, hu, hv, rfl⟩
  · rintro ⟨u, v, hu, hv, rfl⟩
    exact ⟨u, hu, v, hv, rfl⟩

lemma mem_char {c : α} : t ∈ (char c).matches' ↔ t = [c] := Iff.rfl

lemma mem_oneOf : t ∈ (oneOf cs).matches' ↔ ∃ c ∈ cs, t = [c] := by
  induction cs with
  | nil => simp [oneOf, Language.notMem_zero]
  | cons c cs ih =>
    have hcons : oneOf (c :: cs) = char c + oneOf cs := rfl
    rw [hcons, matches'_add, Language.mem_add, ih, matches'_char, List.exists_mem_cons_iff]
    rfl

lemma mem_literal : t ∈ (literal w).matches' ↔ t = w := by
  induction w generalizing t with
  | nil =>
    have hnil : literal ([] : List α) = 1 := rfl
    rw [hnil, matches'_epsilon, Language.mem_one]
  | cons c w ih =>
    have hcons : literal (c :: w) = char c * literal w := rfl
    rw [hcons, mem_mul]
    constructor
    · rintro ⟨u, v, hu, hv, rfl⟩
      rw [ih.1 hv, show u = [c] from hu]
      rfl
    · rintro rfl
      exact ⟨[c], w, rfl, ih.2 rfl, rfl⟩

lemma mem_optional : t ∈ (optional r).matches' ↔ t = [] ∨ t ∈ r.matches' := by
  rw [optional, matches'_add, Language.mem_add, matches'_epsilon, Language.mem_one]

lemma mem_star_oneOf : t ∈ (oneOf cs).star.matches' ↔ ∀ c ∈ t, c ∈ cs := by
  rw [matches'_star, Language.mem_kstar]
  constructor
  · rintro ⟨parts, rfl, hparts⟩ c hc
    obtain ⟨part, hpart, hc⟩ := List.mem_flatten.1 hc
    obtain ⟨d, hd, rfl⟩ := mem_oneOf.1 (hparts part hpart)
    rwa [List.mem_singleton.1 hc]
  · intro h
    refine ⟨t.map fun c => [c], ?_, ?_⟩
    · rw [← List.flatMap_def, List.flatMap_singleton']
    · intro part hpart
      obtain ⟨c, hc, rfl⟩ := List.mem_map.1 hpart
      exact mem_oneOf.2 ⟨c, h c hc, rfl⟩

lemma mem_atLeastOnce_oneOf :
    t ∈ (atLeastOnce (oneOf cs)).matches' ↔ t ≠ [] ∧ ∀ c ∈ t, c ∈ cs := by
  rw [atLeastOnce, mem_mul]
  constructor
  · rintro ⟨u, v, hu, hv, rfl⟩
    obtain ⟨c, hc, rfl⟩ := mem_oneOf.1 hu
    exact ⟨List.cons_ne_nil c v, List.forall_mem_cons.2 ⟨hc, mem_star_oneOf.1 hv⟩⟩
  · rintro ⟨hne, h⟩
    obtain ⟨c, v, rfl⟩ := List.exists_cons_of_ne_nil hne
    obtain ⟨hc, hv⟩ := List.forall_mem_cons.1 h
    exact ⟨[c], v, mem_oneOf.2 ⟨c, hc, rfl⟩, mem_star_oneOf.2 hv, rfl⟩

/-! ### Search -/

/-- A part of the text matches. -/
def search [DecidableEq α] (r : RegularExpression α) (text : List α) : Bool :=
  text.tails.any fun behind => behind.inits.any r.rmatch

lemma search_iff [DecidableEq α] {text : List α} :
    r.search text = true ↔ ∃ u t v, text = u ++ (t ++ v) ∧ t ∈ r.matches' := by
  simp only [search, List.any_eq_true, List.mem_tails, List.mem_inits, rmatch_iff_matches']
  constructor
  · rintro ⟨behind, ⟨u, rfl⟩, t, ⟨v, rfl⟩, ht⟩
    exact ⟨u, t, v, rfl, ht⟩
  · rintro ⟨u, t, v, rfl, ht⟩
    exact ⟨t ++ v, ⟨u, rfl⟩, t, ⟨v, rfl⟩, ht⟩

end RegularExpression
