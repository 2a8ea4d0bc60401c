import Mathlib.Data.List.DropRight
import NagiosPlugins.Data.Lists
import NagiosPlugins.Libc.Bytes

/-!
# Tokens

A loop over `strtok_r` with one delimiter finds the parts between the delimiters that are not empty.
-/

namespace Libc

variable {delim : UInt8} {s : CString}

/-- The parts of a string between delimiters that are not empty. -/
def tokens (delim : UInt8) (s : CString) : List CString :=
  (s.splitOnP (· = delim)).filter (· ≠ [])

@[simp] lemma tokens_nil (delim : UInt8) : tokens delim [] = [] := rfl

/-- Tokens on both sides of a delimiter. -/
lemma tokens_append_cons (delim : UInt8) (s t : CString) :
    tokens delim (s ++ delim :: t) = tokens delim s ++ tokens delim t := by
  rw [tokens, List.splitOnP_append_cons s t (by simp), List.filter_append]
  rfl

@[simp] lemma tokens_cons_self (delim : UInt8) (s : CString) :
    tokens delim (delim :: s) = tokens delim s :=
  tokens_append_cons delim [] s

lemma tokens_of_notMem {token : CString} (hne : token ≠ []) (hdelim : delim ∉ token) :
    tokens delim token = [token] := by
  have hnot : ∀ c ∈ token, decide (c = delim) = false := by
    rintro c hc
    rw [decide_eq_false_iff_not]
    rintro rfl
    exact hdelim hc
  rw [tokens, List.splitOnP_eq_singleton hnot, List.filter_cons_of_pos (by simpa using hne),
    List.filter_nil]

/-- Delimiters alone are passed over. -/
lemma tokens_replicate_append (delim : UInt8) (n : ℕ) (s : CString) :
    tokens delim (List.replicate n delim ++ s) = tokens delim s := by
  induction n with
  | zero => rfl
  | succ n ih => rw [List.replicate_succ, List.cons_append, tokens_cons_self, ih]

/-- Each of the lines has a number of empty ones in front. -/
lemma tokens_lines {token : CString} {lines : List (ℕ × CString)} (hne : token ≠ [])
    (hdelim : delim ∉ token) (hlines : ∀ line ∈ lines, line.2 ≠ [] ∧ delim ∉ line.2) (n : ℕ) :
    tokens delim (token ++ (lines.flatMap (fun line => List.replicate (line.1 + 1) delim ++ line.2)
      ++ List.replicate n delim)) = token :: lines.map Prod.snd := by
  induction lines generalizing token with
  | nil =>
    cases n with
    | zero => simpa using tokens_of_notMem hne hdelim
    | succ n =>
      have htrail := tokens_replicate_append delim n []
      rw [List.append_nil, tokens_nil] at htrail
      rw [List.flatMap_nil, List.nil_append, List.replicate_succ, tokens_append_cons, htrail,
        tokens_of_notMem hne hdelim]
      rfl
  | cons line lines ih =>
    obtain ⟨⟨hne', hdelim'⟩, hlines⟩ := List.forall_mem_cons.1 hlines
    rw [List.flatMap_cons, List.replicate_succ, List.append_assoc, List.append_assoc,
      List.cons_append, tokens_append_cons, tokens_replicate_append, ih hne' hdelim' hlines,
      tokens_of_notMem hne hdelim]
    rfl

lemma tokens_dropWhile (delim : UInt8) (s : CString) :
    tokens delim (s.dropWhile (· = delim)) = tokens delim s := by
  induction s with
  | nil => rfl
  | cons c s ih =>
    by_cases hc : c = delim
    · rw [List.dropWhile_cons_of_pos (by simpa using hc), ih, hc, tokens_cons_self]
    · rw [List.dropWhile_cons_of_neg (by simpa using hc)]

lemma tokens_of_strtok_eq_none (h : strtok delim s = none) : tokens delim s = [] := by
  rw [strtok] at h
  by_cases hnil : s.dropWhile (· = delim) = []
  · rw [← tokens_dropWhile, hnil, tokens_nil]
  · simp only [if_neg hnil] at h
    cases h

/-- Each call finds the next token and leaves a shorter string. -/
lemma tokens_of_strtok_eq_some {token saveptr : CString}
    (h : strtok delim s = some (token, saveptr)) :
    tokens delim s = token :: tokens delim saveptr ∧ saveptr.length < s.length := by
  rw [strtok] at h
  by_cases hnil : s.dropWhile (· = delim) = []
  · simp only [if_pos hnil] at h
    cases h
  simp only [if_neg hnil] at h
  cases h
  set t := s.dropWhile (· = delim) with ht
  have hsuffix : t.length ≤ s.length := (List.dropWhile_suffix _).length_le
  have hsplit := List.takeWhile_append_dropWhile (p := (· ≠ delim)) (l := t)
  have hdelim : delim ∉ t.takeWhile (· ≠ delim) := by
    intro hmem
    simpa using List.mem_takeWhile_imp hmem
  have hne : t.takeWhile (· ≠ delim) ≠ [] := by
    obtain ⟨c, r, hcr⟩ := List.exists_cons_of_ne_nil hnil
    have hhead : c ∈ (s.dropWhile (· = delim)).head? := by
      rw [← ht, hcr]
      rfl
    have hc := List.of_mem_head?_dropWhile hhead
    rw [hcr, List.takeWhile_cons_of_pos (by simpa using hc)]
    exact List.cons_ne_nil _ _
  have hpos : 0 < (t.takeWhile (· ≠ delim)).length := List.length_pos_iff.2 hne
  have hlength := congrArg List.length hsplit
  rw [List.length_append] at hlength
  refine ⟨?_, ?_⟩
  · rw [← tokens_dropWhile, ← ht]
    conv_lhs => rw [← hsplit]
    cases hrest : t.dropWhile (· ≠ delim) with
    | nil => rw [List.append_nil, tokens_of_notMem hne hdelim, List.tail_nil, tokens_nil]
    | cons c rest =>
      have hhead : c ∈ (t.dropWhile (· ≠ delim)).head? := by
        rw [hrest]
        rfl
      have hc : c = delim := by simpa using List.of_mem_head?_dropWhile hhead
      rw [hc, tokens_append_cons, tokens_of_notMem hne hdelim]
      rfl
  · rw [List.length_tail]
    omega

end Libc
