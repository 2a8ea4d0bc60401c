import Mathlib.Data.List.Basic
import Mathlib.Data.List.Infix
import Mathlib.Tactic.Common

/-!
# The value read last

A run over inputs that carries a value along: an input that has a value of its own replaces it,
any other leaves it as it is. How often a property holds of the inputs and the value beside them.
-/

namespace Latch

variable {ρ σ : Type*} (field : ρ → Option σ)

/-- The last value that one of the inputs has. -/
def last? (xs : List ρ) : Option σ := (xs.filterMap field).getLast?

@[simp] lemma last?_nil : last? field [] = none := rfl

lemma last?_cons (x : ρ) (xs : List ρ) : last? field (x :: xs) = (last? field xs).or (field x) := by
  cases hx : field x with
  | none => simp [last?, hx]
  | some v =>
    cases hxs : (xs.filterMap field).getLast? <;>
      simp [last?, hx, List.getLast?_cons, hxs]

/-- The first input says what the others start with. -/
lemma getD_last?_cons (s : σ) (x : ρ) (xs : List ρ) :
    (last? field (x :: xs)).getD s = (last? field xs).getD ((field x).getD s) := by
  rw [last?_cons]
  cases last? field xs <;> rfl

/-- What the value is in the end. -/
lemma foldl_eq_last? (s : σ) (xs : List ρ) :
    xs.foldl (fun s x => (field x).getD s) s = (last? field xs).getD s := by
  induction xs generalizing s with
  | nil => rfl
  | cons x xs ih => rw [List.foldl_cons, ih, getD_last?_cons]

lemma mem_of_last?_eq_some {xs : List ρ} {v : σ} (h : last? field xs = some v) :
    ∃ x ∈ xs, field x = some v :=
  List.mem_filterMap.1 (List.mem_of_getLast? h)

lemma last?_eq_none_iff {xs : List ρ} : last? field xs = none ↔ ∀ x ∈ xs, field x = none := by
  rw [last?, List.getLast?_eq_none_iff, List.filterMap_eq_nil_iff]

/-- No input behind the last one that has a value has one. -/
lemma last?_append_cons {A B : List ρ} {x : ρ} (hB : ∀ y ∈ B, field y = none) :
    last? field (A ++ x :: B) = (field x).or (last? field A) := by
  have hrest : last? field B = none := (last?_eq_none_iff field).2 hB
  induction A with
  | nil => rw [List.nil_append, last?_cons, hrest, last?_nil, Option.none_or, Option.or_none]
  | cons y A ih => rw [List.cons_append, last?_cons, last?_cons, ih, Option.or_assoc]

lemma exists_last {xs : List ρ} {v : σ} (h : last? field xs = some v) :
    ∃ A x B, xs = A ++ x :: B ∧ field x = some v ∧ ∀ y ∈ B, field y = none := by
  induction xs with
  | nil => cases h
  | cons x xs ih =>
    rw [last?_cons] at h
    cases hxs : last? field xs with
    | none =>
      rw [hxs, Option.none_or] at h
      exact ⟨[], x, xs, rfl, h, (last?_eq_none_iff field).1 hxs⟩
    | some w =>
      rw [hxs, Option.some_or] at h
      obtain ⟨A, y, B, rfl, hy, hB⟩ := ih (hxs.trans h)
      exact ⟨x :: A, y, B, rfl, hy, hB⟩

/-- The number of inputs with a property, which may depend on the value carried along. -/
def count (p : ρ → σ → Bool) : σ → List ρ → ℕ
  | _, [] => 0
  | s, x :: xs =>
    let s := (field x).getD s
    (if p x s then 1 else 0) + count p s xs

/-- The inputs of two kinds are counted apart. -/
lemma count_add_count_not (p : ρ → σ → Bool) (q : ρ → Bool) (s : σ) (xs : List ρ) :
    count field p s xs
      = count field (fun x s => q x && p x s) s xs
        + count field (fun x s => !q x && p x s) s xs := by
  induction xs generalizing s with
  | nil => rfl
  | cons x xs ih =>
    simp only [count]
    rw [ih]
    by_cases hq : q x <;> simp [hq] <;> omega

/-- A property that only looks at the input itself. -/
lemma count_eq_countP {p : ρ → σ → Bool} {q : ρ → Bool}
    (hp : ∀ x s, p x ((field x).getD s) = q x) (s : σ) (xs : List ρ) :
    count field p s xs = xs.countP q := by
  induction xs generalizing s with
  | nil => rfl
  | cons x xs ih => rw [count, List.countP_cons, ih, hp, Nat.add_comm]

/-- The property never holds exactly if it does not hold at any place, of the last value there. -/
lemma count_eq_zero_iff {p : ρ → σ → Bool} {s : σ} {xs : List ρ} :
    count field p s xs = 0 ↔
      ∀ A x B, xs = A ++ x :: B → ¬ p x ((last? field (A ++ [x])).getD s) := by
  induction xs generalizing s with
  | nil => simp [count]
  | cons x xs ih =>
    have hcarry : ∀ A y, (last? field (x :: A ++ [y])).getD s
        = (last? field (A ++ [y])).getD ((field x).getD s) := by
      intro A y
      rw [List.cons_append, getD_last?_cons]
    rw [count, Nat.add_eq_zero_iff, ih]
    constructor
    · rintro ⟨hx, hxs⟩ A y B heq
      cases A with
      | nil =>
        cases heq
        simpa [last?_cons] using hx
      | cons a A =>
        obtain ⟨rfl, rfl⟩ := List.cons_eq_cons.1 heq
        rw [hcarry]
        exact hxs A y B rfl
    · intro h
      refine ⟨?_, fun A y B heq => ?_⟩
      · have hx := h [] x xs rfl
        simpa [last?_cons] using hx
      · have hy := h (x :: A) y B (by rw [heq, List.cons_append])
        rwa [hcarry] at hy

end Latch
