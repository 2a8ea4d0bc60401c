import Mathlib.Algebra.BigOperators.Group.List.Basic
import Mathlib.Algebra.GroupWithZero.Nat
import Mathlib.Tactic.Common

/-!
# Transfers in parts

A transfer is made by calls. Each call is asked for what is left, and moves a part of it, or fails;
the transfer goes on until nothing is left, nothing has been moved, or a failure is final.
-/

namespace Transfer

/-- What a call replies. -/
inductive CallResult (ε α : Type*) where
  | moved (part : α)
  | failed (error : ε)
  deriving DecidableEq, Repr

variable {ε α σ : Type*} (size : α → ℕ) (again : ε → Bool)

/-- How much a call has moved. -/
def CallResult.amount : CallResult ε α → ℕ
  | .moved part => size part
  | .failed _ => 0

/-- Another call is made after the reply if something is left. -/
def CallResult.GoesOn : CallResult ε α → Prop
  | .moved part => size part ≠ 0
  | .failed error => again error = true

/-- How much the calls have moved. -/
def amount (replies : List (CallResult ε α)) : ℕ := (replies.map (CallResult.amount size)).sum

@[simp] lemma amount_nil : amount size ([] : List (CallResult ε α)) = 0 := rfl

@[simp] lemma amount_cons (r : CallResult ε α) (replies : List (CallResult ε α)) :
    amount size (r :: replies) = r.amount size + amount size replies := List.sum_cons

@[simp] lemma amount_append (rs rs' : List (CallResult ε α)) :
    amount size (rs ++ rs') = amount size rs + amount size rs' := by
  rw [amount, List.map_append, List.sum_append]
  rfl

/-- No call that is made moves more than it is asked for. -/
def Within (len : ℕ) (replies : List (CallResult ε α)) : Prop :=
  ∀ used part rest, replies = used ++ .moved part :: rest → (∀ r ∈ used, r.GoesOn size again) →
    amount size used < len → amount size used + size part ≤ len

/-- The calls of a transfer up to a point: something was left when each of them was made, and none
has ended the transfer. -/
structure Used (len : ℕ) (used : List (CallResult ε α)) : Prop where
  goesOn : ∀ r ∈ used, r.GoesOn size again
  asked : ∀ u r v, used = u ++ r :: v → amount size u < len
  amount_le : amount size used ≤ len

/-- How a transfer comes out: it returns how much has been moved, and leaves replies for later
calls, or it still waits for a reply. -/
inductive Outcome (ε α σ : Type*) where
  | returned (total : ℕ) (state : σ) (rest : List (CallResult ε α))
  | waiting (total : ℕ) (state : σ)
  deriving DecidableEq, Repr

/-- The transfer ends behind the calls `used`. -/
inductive Ends (len : ℕ) (used : List (CallResult ε α)) (state : σ) :
    List (CallResult ε α) → Outcome ε α σ → Prop where
  | complete {rest} (h : amount size used = len) :
      Ends len used state rest (.returned len state rest)
  | stopped {r rest} (h : amount size used < len) (hstop : ¬ r.GoesOn size again) :
      Ends len used state (r :: rest) (.returned (amount size used) state rest)
  | waiting (h : amount size used < len) :
      Ends len used state [] (.waiting (amount size used) state)

variable {size again}

/-- What is returned is the whole length exactly if everything has been moved. -/
lemma Ends.returned_eq {len : ℕ} {used rest : List (CallResult ε α)} {state : σ}
    {outcome : Outcome ε α σ} (h : Ends size again len used state rest outcome)
    {total : ℕ} {state' : σ} {rest' : List (CallResult ε α)}
    (hreturned : outcome = .returned total state' rest') : total = amount size used := by
  cases h with
  | complete heq =>
    obtain ⟨rfl, -, -⟩ := Outcome.returned.inj hreturned
    exact heq.symm
  | stopped _ _ => exact (Outcome.returned.inj hreturned).1.symm
  | waiting _ => cases hreturned

/-- A transfer that has moved everything leaves all the replies behind those it has used. -/
lemma Ends.of_complete {len : ℕ} {used rest : List (CallResult ε α)} {state : σ}
    {outcome : Outcome ε α σ} (h : Ends size again len used state rest outcome)
    {state' : σ} {rest' : List (CallResult ε α)}
    (hreturned : outcome = .returned len state' rest') : state' = state ∧ rest' = rest := by
  have hamount := h.returned_eq hreturned
  cases h with
  | complete _ =>
    obtain ⟨-, rfl, rfl⟩ := Outcome.returned.inj hreturned
    exact ⟨rfl, rfl⟩
  | stopped hlt _ => omega
  | waiting _ => cases hreturned

/-! ### The calls that are made -/

lemma used_nil (len : ℕ) : Used size again len ([] : List (CallResult ε α)) where
  goesOn := by simp
  asked := by simp
  amount_le := Nat.zero_le len

lemma Used.of_append {len : ℕ} {used rest : List (CallResult ε α)}
    (h : Used size again len (used ++ rest)) : Used size again len used where
  goesOn r hr := h.goesOn r (List.mem_append_left rest hr)
  asked u r v heq := h.asked u r (v ++ rest) (by rw [heq, List.append_assoc, List.cons_append])
  amount_le := by
    have hle := h.amount_le
    rw [amount_append] at hle
    exact Nat.le_of_add_right_le hle

/-- One more call in front. -/
lemma Used.cons {len : ℕ} {r : CallResult ε α} {used : List (CallResult ε α)}
    (hr : r.GoesOn size again) (hlen : 0 < len) (hle : r.amount size ≤ len)
    (h : Used size again (len - r.amount size) used) : Used size again len (r :: used) where
  goesOn := List.forall_mem_cons.2 ⟨hr, h.goesOn⟩
  asked u r' v heq := by
    cases u with
    | nil => exact hlen
    | cons a u =>
      obtain ⟨rfl, htail⟩ := List.cons.inj heq
      have hu := h.asked u r' v htail
      rw [amount_cons]
      omega
  amount_le := by
    have hused := h.amount_le
    rw [amount_cons]
    omega

lemma Within.tail {len : ℕ} {r : CallResult ε α} {replies : List (CallResult ε α)}
    (h : Within size again len (r :: replies)) (hr : r.GoesOn size again) :
    Within size again (len - r.amount size) replies := by
  intro used part rest heq hused hlt
  have hcall := h (r :: used) part rest (by rw [heq]; rfl) (List.forall_mem_cons.2 ⟨hr, hused⟩)
    (by rw [amount_cons]; omega)
  rw [amount_cons] at hcall
  omega

lemma Within.head {len : ℕ} {r : CallResult ε α} {replies : List (CallResult ε α)}
    (h : Within size again len (r :: replies)) (hlen : 0 < len) : r.amount size ≤ len := by
  cases r with
  | moved part =>
    have hcall := h [] part replies rfl (by simp) hlen
    rwa [amount_nil, Nat.zero_add] at hcall
  | failed error => exact Nat.zero_le len

lemma within_nil (len : ℕ) : Within size again len ([] : List (CallResult ε α)) := by
  intro used part rest heq
  simp at heq

lemma Within.cons {len : ℕ} {r : CallResult ε α} {replies : List (CallResult ε α)}
    (h : Within size again (len - r.amount size) replies) (hr : r.amount size ≤ len) :
    Within size again len (r :: replies) := by
  intro used part rest heq hused hlt
  cases used with
  | nil =>
    obtain ⟨rfl, -⟩ := List.cons.inj heq
    rw [amount_nil, Nat.zero_add]
    exact hr
  | cons a used =>
    obtain ⟨rfl, htail⟩ : r = a ∧ replies = used ++ .moved part :: rest := List.cons.inj heq
    rw [amount_cons] at hlt ⊢
    have hcall := h used part rest htail (List.forall_mem_cons.1 hused).2 (by omega)
    omega

/-- Every transfer uses some of the replies, and ends in one of the three ways. -/
theorem exists_used {len : ℕ} {replies : List (CallResult ε α)}
    (h : Within size again len replies) :
    ∃ used rest, replies = used ++ rest ∧ Used size again len used ∧
      (amount size used = len ∨ amount size used < len ∧
        (rest = [] ∨ ∃ r rest', rest = r :: rest' ∧ ¬ r.GoesOn size again)) := by
  induction replies generalizing len with
  | nil =>
    refine ⟨[], [], rfl, used_nil len, ?_⟩
    rcases Nat.eq_zero_or_pos len with rfl | hlen
    · exact Or.inl rfl
    · exact Or.inr ⟨hlen, Or.inl rfl⟩
  | cons r replies ih =>
    rcases Nat.eq_zero_or_pos len with rfl | hlen
    · exact ⟨[], r :: replies, rfl, used_nil 0, Or.inl rfl⟩
    by_cases hr : r.GoesOn size again
    · have hle := h.head hlen
      obtain ⟨used, rest, rfl, hused, hend⟩ := ih (h.tail hr)
      have hamount : amount size (r :: used) = r.amount size + amount size used :=
        amount_cons size r used
      refine ⟨r :: used, rest, rfl, hused.cons hr hlen hle, ?_⟩
      rcases hend with hcomplete | ⟨hlt, hstop⟩
      · exact Or.inl (by omega)
      · exact Or.inr ⟨by omega, hstop⟩
    · exact ⟨[], r :: replies, rfl, used_nil len, Or.inr ⟨hlen, Or.inr ⟨r, replies, rfl, hr⟩⟩⟩

end Transfer
