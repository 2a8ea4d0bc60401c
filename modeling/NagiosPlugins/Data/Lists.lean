import Mathlib.Algebra.BigOperators.Group.List.Basic
import Mathlib.Algebra.GroupWithZero.Nat
import Mathlib.Data.List.Basic
import Mathlib.Order.MinMax
import Mathlib.Tactic.Common

/-!
# Lists

Facts about lists that are changed at one place, and about counting.
-/

namespace List

variable {α β : Type*}

lemma modify_length_append (f : α → α) (A B : List α) (a : α) :
    (A ++ a :: B).modify A.length f = A ++ f a :: B := by
  induction A with
  | nil => rfl
  | cons b A ih => simp [ih]

lemma map_modify (f : α → β) (g : α → α) (g' : β → β) (hg : ∀ a, f (g a) = g' (f a))
    (l : List α) (i : Nat) : (l.modify i g).map f = (l.map f).modify i g' := by
  apply ext_getElem?
  intro j
  simp only [getElem?_map, getElem?_modify]
  cases l[j]? with
  | none => rfl
  | some a => by_cases h : i = j <;> simp [h, hg]

/-- A change that the function does not see. -/
lemma map_modify_of_eq (f : α → β) (g : α → α) (hg : ∀ a, f (g a) = f a) (l : List α) (i : Nat) :
    (l.modify i g).map f = l.map f := by
  rw [map_modify f g id hg, modify_id]

/-- If a stronger property is counted as often as a weaker one, they agree. -/
lemma forall_of_countP_le {p q : α → Bool} {l : List α} (hqp : ∀ x, q x → p x)
    (h : l.countP p ≤ l.countP q) : ∀ x ∈ l, p x → q x := by
  induction l with
  | nil => simp
  | cons x l ih =>
    have hmono : l.countP q ≤ l.countP p := countP_mono_left fun x _ => hqp x
    rw [countP_cons, countP_cons] at h
    refine forall_mem_cons.2 ⟨?_, ih ?_⟩
    · intro hp
      by_contra hq
      rw [if_pos hp, if_neg hq] at h
      omega
    · have := hqp x
      split_ifs at h <;> first | omega | simp_all

lemma countP_or_of_disjoint {p q : α → Bool} (hpq : ∀ x, p x → ¬ q x) (l : List α) :
    l.countP (fun x => p x || q x) = l.countP p + l.countP q := by
  induction l with
  | nil => rfl
  | cons x l ih =>
    rw [countP_cons, countP_cons, countP_cons, ih]
    by_cases hp : p x
    · have hq : ¬ q x := hpq x hp
      simp [hp, hq]
      omega
    · simp [hp]
      omega

/-- Beyond a bound, below it and on it. -/
lemma countP_trichotomy [LinearOrder β] (p : α → Bool) (f : α → β) (b : β) (l : List α) :
    l.countP (fun x => p x && b < f x) + l.countP (fun x => p x && f x < b)
      + l.countP (fun x => p x && f x = b) = l.countP p := by
  induction l with
  | nil => rfl
  | cons x l ih =>
    simp only [countP_cons, ← ih]
    cases p x with
    | false => simp
    | true =>
      rcases lt_trichotomy (f x) b with h | h | h
      · simp [h, h.ne, h.not_gt]
        omega
      · simp [h]
        omega
      · simp [h, h.ne', h.not_gt]
        omega

/-- Strictly beyond and strictly below a bound are all elements exactly if none is on it. -/
lemma countP_split_iff [LinearOrder β] (p : α → Bool) (f : α → β) (b : β) (l : List α) :
    l.countP (fun x => p x && b < f x) + l.countP (fun x => p x && f x < b) = l.countP p ↔
      ∀ x ∈ l, p x → f x ≠ b := by
  rw [← countP_trichotomy p f b l, Nat.left_eq_add, countP_eq_zero]
  simp

/-- Counting with several properties, of which no element has two. -/
lemma sum_map_countP {ks : List β} {p : β → α → Bool}
    (hdisjoint : ks.Pairwise fun k k' => ∀ x, p k x → ¬ p k' x) (l : List α) :
    (ks.map fun k => l.countP (p k)).sum = l.countP fun x => ks.any (p · x) := by
  induction ks with
  | nil => simp
  | cons k ks ih =>
    obtain ⟨hk, hks⟩ := pairwise_cons.1 hdisjoint
    have hor : ∀ x, p k x → ¬ ks.any (p · x) := by
      intro x hx hany
      obtain ⟨k', hk', hx'⟩ := any_eq_true.1 hany
      exact hk k' hk' x hx hx'
    simp only [map_cons, sum_cons, any_cons]
    rw [ih hks, countP_or_of_disjoint hor]

/-- An injective map keeps whether two lists have the same elements. -/
lemma forall_mem_map_iff {f : α → β} (hf : Function.Injective f) {l l' : List α} :
    (∀ y, y ∈ l.map f ↔ y ∈ l'.map f) ↔ ∀ x, x ∈ l ↔ x ∈ l' := by
  constructor
  · intro h x
    have hx := h (f x)
    rwa [mem_map_of_injective hf, mem_map_of_injective hf] at hx
  · intro h y
    simp only [mem_map, h]

/-- A list that ends with an element, cut in two: the element ends the second part, or the second
part is empty. -/
lemma append_eq_concat {xs ys zs : List α} {z : α} (h : xs ++ ys = zs ++ [z]) :
    (∃ ws, zs = xs ++ ws ∧ ys = ws ++ [z]) ∨ xs = zs ++ [z] ∧ ys = [] := by
  rcases List.eq_nil_or_concat ys with rfl | ⟨ws, w, rfl⟩
  · exact .inr ⟨by rwa [List.append_nil] at h, rfl⟩
  · rw [List.concat_eq_append, ← List.append_assoc] at h
    obtain ⟨hinit, hlast⟩ := List.append_inj' h rfl
    cases hlast
    exact .inl ⟨ws, hinit.symm, List.concat_eq_append⟩

/-- A list is split at the first place of an element in one way only. -/
lemma append_cons_inj_of_first {a : α} {xs xs' ys ys' : List α} (hxs : a ∉ xs) (hxs' : a ∉ xs')
    (h : xs ++ a :: ys = xs' ++ a :: ys') : xs = xs' ∧ ys = ys' := by
  induction xs generalizing xs' with
  | nil =>
    cases xs' with
    | nil => exact ⟨rfl, (cons.inj h).2⟩
    | cons x xs' => exact absurd (cons.inj h).1 (ne_of_not_mem_cons hxs')
  | cons x xs ih =>
    cases xs' with
    | nil => exact absurd (cons.inj h).1.symm (ne_of_not_mem_cons hxs)
    | cons x' xs' =>
      obtain ⟨rfl, htail⟩ := cons.inj h
      obtain ⟨rfl, hys⟩ := ih (not_mem_of_not_mem_cons hxs) (not_mem_of_not_mem_cons hxs') htail
      exact ⟨rfl, hys⟩

/-- What is not dropped begins with an element that fails the test. -/
lemma of_mem_head?_dropWhile {p : α → Bool} {l : List α} {a : α}
    (h : a ∈ (l.dropWhile p).head?) : p a = false := by
  have hnot := head?_dropWhile_not p l
  rwa [Option.mem_def.1 h] at hnot

/-- Related elements that both tests judge alike are dropped together. -/
lemma Forall₂.dropWhile {R : α → β → Prop} {p : α → Bool} {q : β → Bool}
    (hpq : ∀ a b, R a b → p a = q b) {l : List α} {l' : List β} (h : Forall₂ R l l') :
    Forall₂ R (l.dropWhile p) (l'.dropWhile q) := by
  induction h with
  | nil => exact .nil
  | @cons a b l l' hab hl ih =>
    rw [dropWhile_cons, dropWhile_cons, hpq a b hab]
    split_ifs
    · exact ih
    · exact .cons hab hl

/-- A part of the state to which each element adds something holds the sum in the end. -/
lemma foldl_add_sum {σ γ : Type*} [AddMonoid γ] (part : σ → γ) (f : α → γ) {step : σ → α → σ}
    (hstep : ∀ s x, part (step s x) = part s + f x) (xs : List α) (s : σ) :
    part (xs.foldl step s) = part s + (xs.map f).sum := by
  induction xs generalizing s with
  | nil => simp
  | cons x xs ih => rw [foldl_cons, ih, hstep, map_cons, sum_cons, add_assoc]

/-- The largest element, or the value at first if none is larger. -/
lemma foldl_max_spec [LinearOrder α] (xs : List α) (a : α) :
    a ≤ xs.foldl max a ∧ (∀ x ∈ xs, x ≤ xs.foldl max a) ∧
      (xs.foldl max a = a ∨ xs.foldl max a ∈ xs) := by
  induction xs generalizing a with
  | nil => simp
  | cons x xs ih =>
    obtain ⟨hle, hall, hmem⟩ := ih (max a x)
    refine ⟨(le_max_left a x).trans hle, ?_, ?_⟩
    · exact forall_mem_cons.2 ⟨(le_max_right a x).trans hle, hall⟩
    · rw [foldl_cons]
      rcases hmem with heq | hmem
      · rw [heq]
        rcases max_choice a x with ha | hx
        · exact .inl ha
        · rw [hx]
          exact .inr mem_cons_self
      · exact .inr (mem_cons_of_mem x hmem)

end List
