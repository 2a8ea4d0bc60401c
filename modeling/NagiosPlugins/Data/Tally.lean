import Mathlib.Algebra.BigOperators.Group.List.Basic
import Mathlib.Data.List.Induction
import Mathlib.Data.List.Nodup

/-!
# Tallies

A tally is a history of increments `(key, amount)`. Its value is the total of each key,
together with the keys in the order in which they were first seen.
-/

namespace Tally

variable {α M : Type*} [DecidableEq α]

/-! ### Keys -/

/-- The keys, each once, in the order of their first occurrence. -/
def keys (puts : List (α × M)) : List α := (puts.map Prod.fst).eraseDups

@[simp] lemma keys_nil : keys ([] : List (α × M)) = [] := rfl

lemma mem_keys {puts : List (α × M)} {k : α} : k ∈ keys puts ↔ k ∈ puts.map Prod.fst :=
  List.mem_eraseDups

lemma keys_concat (puts : List (α × M)) (a : α) (m : M) :
    keys (puts ++ [(a, m)]) = if a ∈ keys puts then keys puts else keys puts ++ [a] := by
  have hremove : [a].removeAll (puts.map Prod.fst)
      = if a ∈ puts.map Prod.fst then [] else [a] := by
    by_cases h : a ∈ puts.map Prod.fst <;> simp [List.removeAll, h]
  rw [keys, List.map_append, List.eraseDups_append]
  simp only [List.map_cons, List.map_nil, hremove, mem_keys]
  split_ifs
  · simp [keys]
  · simp [keys, List.eraseDups_cons]

lemma nodup_keys (puts : List (α × M)) : (keys puts).Nodup := by
  induction puts using List.reverseRecOn with
  | nil => simp
  | append_singleton puts p ih =>
    obtain ⟨a, m⟩ := p
    rw [keys_concat]
    split_ifs with h
    · exact ih
    · rw [List.nodup_append]
      refine ⟨ih, by simp, ?_⟩
      intro x hx y hy
      rw [List.mem_singleton] at hy
      rintro rfl
      exact h (hy ▸ hx)

lemma length_keys_le (puts : List (α × M)) : (keys puts).length ≤ puts.length := by
  induction puts using List.reverseRecOn with
  | nil => simp
  | append_singleton puts p ih =>
    obtain ⟨a, m⟩ := p
    rw [keys_concat]
    split_ifs <;> simp only [List.length_append, List.length_singleton] <;> omega

/-! ### Totals -/

variable [AddCommMonoid M]

/-- The sum of the amounts of a key. -/
def total (puts : List (α × M)) (k : α) : M :=
  ((puts.filter fun p => p.1 = k).map Prod.snd).sum

@[simp] lemma total_nil (k : α) : total ([] : List (α × M)) k = 0 := rfl

lemma total_concat (puts : List (α × M)) (a : α) (m : M) (k : α) :
    total (puts ++ [(a, m)]) k = total puts k + if a = k then m else 0 := by
  by_cases h : a = k <;> simp [total, h]

/-- A key that was never seen has no total. -/
lemma total_eq_zero {puts : List (α × M)} {k : α} (h : k ∉ keys puts) : total puts k = 0 := by
  have hnil : puts.filter (fun p => p.1 = k) = [] := by
    rw [List.filter_eq_nil_iff]
    intro p hp hk
    exact h (mem_keys.mpr (List.mem_map.mpr ⟨p, hp, by simpa using hk⟩))
  simp [total, hnil]

/-- The keys with their totals. -/
def totals (puts : List (α × M)) : List (α × M) := (keys puts).map fun k => (k, total puts k)

lemma totals_concat_new {puts : List (α × M)} {a : α} (ha : a ∉ keys puts) (m : M) :
    totals (puts ++ [(a, m)]) = totals puts ++ [(a, m)] := by
  have hold : ∀ k ∈ keys puts, total (puts ++ [(a, m)]) k = total puts k := by
    intro k hk
    have hne : a ≠ k := by
      rintro rfl
      exact ha hk
    rw [total_concat, if_neg hne, add_zero]
  rw [totals, keys_concat, if_neg ha, List.map_append]
  congr 1
  · exact List.map_congr_left fun k hk => by rw [hold k hk]
  · rw [List.map_singleton, total_concat, total_eq_zero ha, zero_add, if_pos rfl]

lemma totals_concat_known {puts : List (α × M)} {a : α} {i : ℕ} (hi : (keys puts)[i]? = some a)
    (m : M) :
    totals (puts ++ [(a, m)]) = (totals puts).modify i fun x => (x.1, x.2 + m) := by
  have ha : a ∈ keys puts := List.mem_of_getElem? hi
  rw [totals, keys_concat, if_pos ha]
  apply List.ext_getElem?
  intro j
  rw [List.getElem?_modify, totals, List.getElem?_map, List.getElem?_map]
  cases hj : (keys puts)[j]? with
  | none => rfl
  | some k =>
    by_cases hij : i = j
    · subst hij
      rw [hi] at hj
      cases hj
      simp [total_concat]
    · have hne : a ≠ k := by
        rintro rfl
        obtain ⟨hlt, -⟩ := List.getElem?_eq_some_iff.1 hi
        exact hij ((List.getElem?_inj hlt (nodup_keys puts)).1 (hi.trans hj.symm))
      simp [total_concat, hne, hij]

omit [DecidableEq α] in
lemma sum_modify_add {l : List (α × M)} {i : ℕ} (hi : i < l.length) (m : M) :
    ((l.modify i fun x => (x.1, x.2 + m)).map Prod.snd).sum = (l.map Prod.snd).sum + m := by
  induction l generalizing i with
  | nil => simp at hi
  | cons x l ih =>
    cases i with
    | zero =>
      simp only [List.modify_zero_cons, List.map_cons, List.sum_cons]
      exact add_right_comm _ _ _
    | succ i =>
      simp only [List.modify_succ_cons, List.map_cons, List.sum_cons,
        ih (Nat.lt_of_succ_lt_succ hi), add_assoc]

/-- The totals add up to everything that was put. -/
lemma sum_totals (puts : List (α × M)) :
    ((totals puts).map Prod.snd).sum = (puts.map Prod.snd).sum := by
  induction puts using List.reverseRecOn with
  | nil => rfl
  | append_singleton puts p ih =>
    obtain ⟨a, m⟩ := p
    by_cases ha : a ∈ keys puts
    · obtain ⟨i, hlt, hi⟩ := List.getElem_of_mem ha
      have hlen : i < (totals puts).length := by simpa [totals] using hlt
      rw [totals_concat_known (List.getElem?_eq_some_iff.2 ⟨hlt, hi⟩), sum_modify_add hlen, ih,
        List.map_append, List.sum_append]
      simp
    · rw [totals_concat_new ha, List.map_append, List.sum_append, ih, List.map_append,
        List.sum_append]

/-! ### Histories of ones -/

/-- The history that counts each of its keys once. -/
def ones (ks : List α) : List (α × ℕ) := ks.map fun a => (a, 1)

lemma mem_keys_ones {ks : List α} {k : α} : k ∈ keys (ones ks) ↔ k ∈ ks := by
  rw [mem_keys]
  simp [ones]

lemma total_ones [BEq α] [LawfulBEq α] (ks : List α) (k : α) : total (ones ks) k = ks.count k := by
  induction ks with
  | nil => rfl
  | cons a ks ih =>
    have hcons : total (ones (a :: ks)) k = (if a = k then 1 else 0) + total (ones ks) k := by
      by_cases h : a = k <;> simp [total, ones, h]
    rw [hcons, ih, List.count_cons, Nat.add_comm]
    simp

end Tally
