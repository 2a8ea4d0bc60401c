import NagiosPlugins.Libc.Stdlib

/-!
# Binary search in a sorted table

`strcmp` orders the strings, and `bsearch` finds every element of a table that is sorted by it.
-/

namespace Libc

lemma strcmp_swap (s t : CString) : (strcmp s t).swap = strcmp t s := by
  induction s generalizing t with
  | nil => cases t <;> rfl
  | cons a s ih =>
    cases t with
    | nil => rfl
    | cons b t =>
      rw [strcmp, strcmp]
      by_cases heq : a = b
      · rw [if_pos heq, if_pos heq.symm, ih]
      · rw [if_neg heq, if_neg (Ne.symm heq)]
        by_cases hlt : a < b
        · rw [if_pos hlt, if_neg (UInt8.lt_asymm hlt)]
          rfl
        · have hgt : b < a := UInt8.lt_of_le_of_ne (UInt8.not_lt.1 hlt) (Ne.symm heq)
          rw [if_neg hlt, if_pos hgt]
          rfl

variable {α : Type*} {compar : α → Ordering} {base : List α}

/-- The window between `l` and `u` always keeps the element in it, by induction on the bound on
the iterations. -/
lemma bsearchLoop_of_split {A B : List α} {p : α} (hbase : base = A ++ p :: B)
    (hA : ∀ a ∈ A, compar a = .gt) (hp : compar p = .eq) (hB : ∀ b ∈ B, compar b = .lt)
    {fuel l u : ℕ} (hl : l ≤ A.length) (hu : A.length < u) (hbound : u ≤ base.length)
    (hfuel : u < l + fuel) :
    bsearchLoop compar base fuel l u = some p := by
  induction fuel generalizing l u with
  | zero => omega
  | succ fuel ih =>
    rw [bsearchLoop, if_pos (hl.trans_lt hu)]
    rcases lt_trichotomy ((l + u) / 2) A.length with hlt | heq | hgt
    · have hget : base[(l + u) / 2]? = some A[(l + u) / 2] := by
        rw [hbase, List.getElem?_append_left hlt, List.getElem?_eq_getElem hlt]
      simp only [hget, hA _ (List.getElem_mem hlt)]
      exact ih hlt hu hbound (by omega)
    · have hget : base[(l + u) / 2]? = some p := by
        rw [hbase, heq, List.getElem?_append_right le_rfl, Nat.sub_self]
        rfl
      simp only [hget, hp]
    · obtain ⟨b, hb, hget⟩ : ∃ b ∈ B, base[(l + u) / 2]? = some b := by
        obtain ⟨i, hi⟩ : ∃ i, (l + u) / 2 = A.length + (i + 1) :=
          ⟨(l + u) / 2 - A.length - 1, by omega⟩
        have hlen : base.length = A.length + (B.length + 1) := by
          rw [hbase, List.length_append, List.length_cons]
        have hlt : i < B.length := by omega
        refine ⟨B[i], List.getElem_mem hlt, ?_⟩
        rw [hbase, hi, List.getElem?_append_right (Nat.le_add_right _ _), Nat.add_sub_cancel_left,
          List.getElem?_cons_succ, List.getElem?_eq_getElem hlt]
      simp only [hget, hB b hb]
      exact ih hl hgt (by omega) (by omega)

/-- An element is found if those in front of it are less and those behind it greater. -/
lemma bsearch_of_split {A B : List α} {p : α} (hA : ∀ a ∈ A, compar a = .gt)
    (hp : compar p = .eq) (hB : ∀ b ∈ B, compar b = .lt) :
    bsearch compar (A ++ p :: B) = some p := by
  have hlt : A.length < (A ++ p :: B).length := by
    rw [List.length_append, List.length_cons]
    omega
  rw [bsearch]
  exact bsearchLoop_of_split rfl hA hp hB (Nat.zero_le _) hlt le_rfl (by omega)

/-- Every element of a table that is sorted by a name is found by its name. -/
theorem bsearch_of_mem {name : α → CString}
    (hsorted : base.Pairwise fun a b => strcmp (name a) (name b) = .lt) {p : α} (hp : p ∈ base) :
    bsearch (fun q => strcmp (name p) (name q)) base = some p := by
  obtain ⟨A, B, rfl⟩ := List.append_of_mem hp
  rw [List.pairwise_append, List.pairwise_cons] at hsorted
  obtain ⟨-, ⟨hB, -⟩, hcross⟩ := hsorted
  apply bsearch_of_split
  · intro a ha
    rw [← strcmp_swap, hcross a ha p (List.mem_cons_self ..)]
    rfl
  · exact strcmp_eq_iff.2 rfl
  · intro b hb
    exact hB b hb

end Libc
