import Mathlib.Data.List.Count
import Mathlib.Tactic

/-!
# Forests as lists of parents

A forest is listed in preorder when every node stands in front of its children and the nodes
below it follow it without a gap. Such a list is given by the index of the parent of each node,
`-1` for a root. It can go on with a node whose parent lies on the way from the last node up to
its root.
-/

lemma List.getElem?_snoc_eq_some {α : Type*} {l : List α} {a b : α} {i : ℕ}
    (h : (l ++ [a])[i]? = some b) : l[i]? = some b ∨ i = l.length ∧ b = a := by
  rcases lt_trichotomy i l.length with hi | rfl | hi
  · rw [getElem?_append_left hi] at h
    exact .inl h
  · rw [getElem?_append_right le_rfl, Nat.sub_self] at h
    exact .inr ⟨rfl, (Option.some.inj h).symm⟩
  · rw [getElem?_eq_none (by simpa using hi)] at h
    cases h

namespace Forest

/-- The parents of the nodes of a forest in preorder: no edge leads over a node to a node that is
not below it. -/
structure Preorder (parents : List ℤ) : Prop where
  bounds : ∀ (j : ℕ) (y : ℤ), parents[j]? = some y → -1 ≤ y ∧ y < j
  nested : ∀ (i j : ℕ) (x y : ℤ), i < j → parents[i]? = some x → parents[j]? = some y →
    i ≤ y ∨ y ≤ x

/-- The node `top`, or `-1`, lies on the way from the last node up to its root. -/
structure OnLastPath (parents : List ℤ) (top : ℤ) : Prop where
  bounds : -1 ≤ top ∧ top < parents.length
  path : ∀ (i : ℕ) (x : ℤ), parents[i]? = some x → i ≤ top ∨ top ≤ x

/-- The way from the node `j` up to its root leads over the node `i`. -/
inductive Below (parents : List ℤ) (i : ℕ) : ℕ → Prop where
  | child {j : ℕ} (h : parents[j]? = some (i : ℤ)) : Below parents i j
  | step {j k : ℕ} (h : parents[j]? = some (k : ℤ)) (hk : Below parents i k) : Below parents i j

variable {parents : List ℤ} {top : ℤ}

lemma lt_length_of_getElem? {i : ℕ} {x : ℤ} (h : parents[i]? = some x) : i < parents.length :=
  (List.getElem?_eq_some_iff.1 h).1

namespace Preorder

lemma nil : Preorder [] := ⟨by simp, by simp⟩

lemma snoc (h : Preorder parents) (htop : OnLastPath parents top) :
    Preorder (parents ++ [top]) where
  bounds j y hy := by
    rcases List.getElem?_snoc_eq_some hy with hy | ⟨rfl, rfl⟩
    · exact h.bounds j y hy
    · exact htop.bounds
  nested i j x y hij hx hy := by
    rcases List.getElem?_snoc_eq_some hy with hy | ⟨rfl, rfl⟩
    · have := lt_length_of_getElem? hy
      rcases List.getElem?_snoc_eq_some hx with hx | ⟨rfl, rfl⟩
      · exact h.nested i j x y hij hx hy
      · omega
    · rcases List.getElem?_snoc_eq_some hx with hx | ⟨rfl, rfl⟩
      · exact htop.path i x hx
      · omega

lemma root_onLastPath (h : Preorder parents) : OnLastPath parents (-1) where
  bounds := by omega
  path i x hx := .inr (h.bounds i x hx).1

/-- Nodes that follow `i` without an edge that leads over it are below it. -/
lemma below (h : Preorder parents) {i j : ℕ} (hij : i < j) (hj : j < parents.length)
    (hle : ∀ (k : ℕ) (x : ℤ), i < k → k ≤ j → parents[k]? = some x → i ≤ x) :
    Below parents i j := by
  induction j using Nat.strong_induction_on with
  | h j ih =>
    have hget : parents[j]? = some parents[j] := List.getElem?_eq_getElem hj
    have hx := hle j _ hij le_rfl hget
    have hlt := (h.bounds j _ hget).2
    obtain ⟨k, hk⟩ := Int.eq_ofNat_of_zero_le ((Int.natCast_nonneg i).trans hx)
    rw [hk] at hget hx hlt
    rcases eq_or_lt_of_le hx with heq | hik
    · exact .child (heq ▸ hget)
    · refine .step hget (ih k (by omega) (by omega) (by omega) fun l x hl hlk => ?_)
      exact hle l x hl (by omega)

/-- A node has no children among the nodes in front of it. -/
lemma count_length (h : Preorder parents) : parents.count (parents.length : ℤ) = 0 := by
  refine List.count_eq_zero.2 fun hmem => ?_
  obtain ⟨j, hj⟩ := List.mem_iff_getElem?.1 hmem
  have := lt_length_of_getElem? hj
  have := (h.bounds j _ hj).2
  omega

end Preorder

lemma OnLastPath.last (parents : List ℤ) : OnLastPath parents (parents.length - 1) where
  bounds := by omega
  path i x hx := by
    have := lt_length_of_getElem? hx
    omega

lemma OnLastPath.snoc (h : OnLastPath parents top) : OnLastPath (parents ++ [top]) top where
  bounds := by
    have := h.bounds
    rw [List.length_append, List.length_singleton]
    omega
  path i x hx := by
    rcases List.getElem?_snoc_eq_some hx with hx | ⟨rfl, rfl⟩
    · exact h.path i x hx
    · exact .inr le_rfl

end Forest
