import Mathlib.Data.List.Infix
import Mathlib.Data.List.TakeWhile

/-!
# Words in a text

A text of words with a separator in front of each of them. Between two separators stand exactly
its words, except for the last one.
-/

namespace Words

variable {α : Type*}

/-- The words, each behind a separator. -/
def behind (b : α) (words : List (List α)) : List α := words.flatMap (b :: ·)

@[simp] lemma behind_nil (b : α) : behind b [] = [] := rfl

@[simp] lemma behind_cons (b : α) (u : List α) (words : List (List α)) :
    behind b (u :: words) = b :: (u ++ behind b words) := by
  simp [behind]

section Split

variable [BEq α] [LawfulBEq α]

/-- The parts of a text between its separators are its words. -/
lemma cons_eq_behind_splitOn (b : α) (text : List α) :
    b :: text = behind b (text.splitOn b) := by
  induction text with
  | nil => simp [List.splitOn_nil]
  | cons c text ih =>
    rw [List.splitOn_cons_eq_if_modifyHead]
    split_ifs with hc
    · rw [behind_cons, ← ih, eq_of_beq hc]
      rfl
    · obtain ⟨u, words, hsplit⟩ := List.exists_cons_of_ne_nil (List.splitOn_ne_nil b text)
      rw [hsplit, behind_cons, List.cons_inj_right] at ih
      rw [hsplit, List.modifyHead_cons, behind_cons, List.cons_append, ← ih]

lemma notMem_of_mem_splitOn (b : α) (text : List α) : ∀ word ∈ text.splitOn b, b ∉ word := by
  induction text with
  | nil => simp [List.splitOn_nil]
  | cons c text ih =>
    rw [List.splitOn_cons_eq_if_modifyHead]
    split_ifs with hc
    · rw [List.forall_mem_cons]
      exact ⟨List.not_mem_nil, ih⟩
    · obtain ⟨u, words, hsplit⟩ := List.exists_cons_of_ne_nil (List.splitOn_ne_nil b text)
      rw [hsplit, List.forall_mem_cons] at ih
      rw [hsplit, List.modifyHead_cons, List.forall_mem_cons, List.mem_cons, not_or]
      refine ⟨⟨?_, ih.1⟩, ih.2⟩
      rintro rfl
      exact hc (beq_self_eq_true _)

end Split

variable {b : α} {w u : List α} {words : List (List α)}

/-- A separator is not found in a word. -/
lemma infix_append_iff (hu : b ∉ u) {s t : List α} : b :: s <:+: u ++ t ↔ b :: s <:+: t := by
  induction u with
  | nil => rfl
  | cons c u ih =>
    rw [List.mem_cons, not_or] at hu
    have hprefix : ¬ b :: s <+: c :: (u ++ t) := fun h => hu.1 (List.cons_prefix_cons.1 h).1
    rw [List.cons_append, List.infix_cons_iff, ih hu.2]
    exact or_iff_right hprefix

/-- The word in front of the first separator. -/
lemma prefix_append_behind_iff (hw : b ∉ w) (hu : b ∉ u) :
    w ++ [b] <+: u ++ behind b words ↔ w = u ∧ words ≠ [] := by
  classical
  constructor
  · rintro ⟨t, ht⟩
    have htake : ∀ {v : List α}, b ∉ v → ∀ s : List α, (∀ c ∈ s.head?, c = b) →
        (v ++ s).takeWhile (· ≠ b) = v := by
      intro v hv s hs
      rw [List.takeWhile_append_of_pos (by
        intro c hc
        refine decide_eq_true ?_
        rintro rfl
        exact hv hc)]
      cases s with
      | nil => rw [List.takeWhile_nil, List.append_nil]
      | cons c s => rw [hs c rfl, List.takeWhile_cons_of_neg (by simp), List.append_nil]
    have hbehind : ∀ c ∈ (behind b words).head?, c = b := by
      cases words <;> simp
    have hword : w = u := by
      rw [← htake hw (b :: t) (by simp), ← htake hu _ hbehind, ← ht, List.append_assoc]
      rfl
    refine ⟨hword, ?_⟩
    rintro rfl
    rw [hword, behind_nil, List.append_assoc] at ht
    simp at ht
  · rintro ⟨rfl, hwords⟩
    obtain ⟨v, words, rfl⟩ := List.exists_cons_of_ne_nil hwords
    exact ⟨v ++ behind b words, by simp⟩

/-- A word between two separators is one of the words, but not the last one. -/
theorem infix_behind_iff (hw : b ∉ w) (hwords : ∀ u ∈ words, b ∉ u) :
    b :: (w ++ [b]) <:+: behind b words ↔ w ∈ words.dropLast := by
  induction words with
  | nil => simp
  | cons u words ih =>
    rw [List.forall_mem_cons] at hwords
    rw [behind_cons, List.infix_cons_iff, List.cons_prefix_cons, infix_append_iff hwords.1,
      ih hwords.2, prefix_append_behind_iff hw hwords.1]
    cases words with
    | nil => simp
    | cons v words => simp

end Words
