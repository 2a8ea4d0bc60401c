import Mathlib.Data.Nat.Notation
import Mathlib.Tactic.Lemma

/-!
# Computations that may fail

How `Except` computations are composed and taken apart again.
-/

namespace Except

variable {ε α β : Type}

@[simp] lemma ok_bind (a : α) (f : α → Except ε β) : (Except.ok a >>= f) = f a := rfl

@[simp] lemma error_bind (e : ε) (f : α → Except ε β) :
    (Except.error e >>= f) = Except.error e := rfl

/-- A composition returns when both parts do. -/
lemma bind_eq_ok {x : Except ε α} {f : α → Except ε β} {b : β} :
    (x >>= f) = .ok b ↔ ∃ a, x = .ok a ∧ f a = .ok b := by
  cases x with
  | error e => simp
  | ok a => simp

/-- A loop returns if every turn does; an invariant is kept. -/
lemma exists_foldlM {step : β → α → Except ε β} {P : β → Prop} (xs : List α)
    (hstep : ∀ s x, P s → ∃ s', step s x = .ok s' ∧ P s') (s : β) (hs : P s) :
    ∃ s', xs.foldlM step s = .ok s' ∧ P s' := by
  induction xs generalizing s with
  | nil => exact ⟨s, rfl, hs⟩
  | cons x xs ih =>
    obtain ⟨s₁, hx, hs₁⟩ := hstep s x hs
    obtain ⟨s₂, hxs, hs₂⟩ := ih s₁ hs₁
    exact ⟨s₂, by rw [List.foldlM_cons, hx, ok_bind, hxs], hs₂⟩

lemma exists_mapM {f : α → Except ε β} {xs : List α} (h : ∀ x ∈ xs, ∃ y, f x = .ok y) :
    ∃ ys, xs.mapM f = .ok ys := by
  induction xs with
  | nil => exact ⟨[], rfl⟩
  | cons x xs ih =>
    obtain ⟨⟨y, hy⟩, hxs⟩ := List.forall_mem_cons.1 h
    obtain ⟨ys, hys⟩ := ih hxs
    exact ⟨y :: ys, by rw [List.mapM_cons, hy, ok_bind, hys, ok_bind]; rfl⟩

/-- What every turn keeps holds at the end. -/
lemma foldlM_invariant {step : β → α → Except ε β} {P : β → Prop}
    (hstep : ∀ s x s', P s → step s x = .ok s' → P s') (xs : List α) (s s' : β) (hs : P s)
    (hrun : xs.foldlM step s = .ok s') : P s' := by
  induction xs generalizing s with
  | nil =>
    cases hrun
    exact hs
  | cons x xs ih =>
    rw [List.foldlM_cons] at hrun
    obtain ⟨s₁, hx, hxs⟩ := bind_eq_ok.1 hrun
    exact ih s₁ (hstep s x s₁ hs hx) hxs

/-- A loop whose states are known turn by turn. -/
lemma foldlM_range' {step : β → ℕ → Except ε β} (state : ℕ → β) (n : ℕ)
    (h : ∀ i < n, step (state i) (i + 1) = .ok (state (i + 1))) :
    (List.range' 1 n).foldlM step (state 0) = .ok (state n) := by
  induction n with
  | zero => rfl
  | succ n ih =>
    have hlast : step (state n) (1 + 1 * n) = .ok (state (n + 1)) := by
      rw [Nat.one_mul, Nat.add_comm]
      exact h n (Nat.lt_succ_self n)
    rw [List.range'_concat, List.foldlM_append, ih fun i hi => h i (Nat.lt_succ_of_lt hi), ok_bind,
      List.foldlM_cons, hlast]
    rfl

end Except
