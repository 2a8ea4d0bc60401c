import Mathlib.Data.List.DropRight
import NagiosPlugins.Common
import NagiosPlugins.Data.Except
import NagiosPlugins.Data.Lists
import NagiosPlugins.Libc.Snprintf
import NagiosPlugins.Libc.Stdlib

/-!
# Looking up a key in a line

`linelookup` of `lib/procparser.c`. A pointer goes forward over the key, blanks and the colon, and
another one backward from the last character of the line, which is taken for a newline.
-/

namespace NagiosPlugins

open Libc

/-- The end of the value, where a loop that starts at `p` finds it. -/
def valueEnd (line : CString) : ℕ → Except Stop ℕ
  | 0 => .error .outOfBounds
  | p + 1 => if isspace (line.getD p 0) then valueEnd line p else .ok (p + 1)

/-- `linelookup`; `none` is the return code 0. -/
def linelookup (line pattern : CString) : Except Stop (Option CString) :=
  if line = [] then .ok none
  else if ¬ hasPrefix line pattern then .ok none
  else
    match (line.drop pattern.length).dropWhile isspace with
    | [] => .ok none
    | c :: s =>
      if c ≠ ':' then .ok none
      else
        let v := s.dropWhile isspace
        if v = [] then .ok none
        else do
          let p ← valueEnd line (line.length - 1)
          -- the NUL is written before the value is copied
          return some (stringAt ((line.set p 0).drop (line.length - v.length)))

/-! ### Lines with a key -/

/-- What stands in a line behind its key: a colon between blanks, and a value, which has no blanks
around it. -/
structure KeyValue where
  gap : CString
  lead : CString
  value : CString
  trail : CString
  gap_blank : ∀ c ∈ gap, isspace c
  lead_blank : ∀ c ∈ lead, isspace c
  trail_blank : ∀ c ∈ trail, isspace c
  value_ne : value ≠ []
  head_value : ∀ c ∈ value.head?, isspace c = false
  last_value : ∀ c ∈ value.getLast?, isspace c = false

namespace KeyValue

variable (k : KeyValue) (pattern : CString)

/-- What is in front of the value. -/
def front : CString := pattern ++ (k.gap ++ (':' : UInt8) :: k.lead)

def render : CString := k.front pattern ++ (k.value ++ k.trail)

/-- The last character is not part of the value, or it is all of it and there is a blank in front
of it. -/
def Trimmed : Prop := k.trail ≠ [] ∨ (k.value.length = 1 ∧ k.lead ≠ [])

end KeyValue

/-- 1 is returned for exactly the lines with the key, and the value is right. -/
structure LookupExact (line pattern : CString) : Prop where
  returns : ∃ found, linelookup line pattern = .ok found ∧
    (found.isSome ↔ ∃ k : KeyValue, line = k.render pattern)
  value : ∀ k : KeyValue, line = k.render pattern → linelookup line pattern = .ok (some k.value)

/-! ### The way forward -/

lemma dropWhile_blanks {blanks rest : CString} (hblanks : ∀ c ∈ blanks, isspace c)
    (hrest : ∀ c ∈ rest.head?, isspace c = false) :
    (blanks ++ rest).dropWhile isspace = rest := by
  rw [List.dropWhile_append_of_pos hblanks]
  cases rest with
  | nil => rfl
  | cons c rest => exact List.dropWhile_cons_of_neg (by simp [hrest c rfl])

/-- A line with the key is looked through up to its value. -/
lemma linelookup_render (k : KeyValue) (pattern : CString) :
    linelookup (k.render pattern) pattern = (do
      let p ← valueEnd (k.render pattern) ((k.render pattern).length - 1)
      return some (stringAt (((k.render pattern).set p 0).drop (k.front pattern).length))) := by
  have hline : k.render pattern
      = pattern ++ (k.gap ++ (':' : UInt8) :: (k.lead ++ (k.value ++ k.trail))) := by
    simp [KeyValue.render, KeyValue.front]
  have hne : k.render pattern ≠ [] := by
    rw [hline]
    simp
  have hprefix : hasPrefix (k.render pattern) pattern = true := by
    rw [hline]
    exact hasPrefix_append _ _
  have hgap : ((k.render pattern).drop pattern.length).dropWhile isspace
      = (':' : UInt8) :: (k.lead ++ (k.value ++ k.trail)) := by
    rw [hline, List.drop_left]
    refine dropWhile_blanks k.gap_blank ?_
    intro c hc
    rw [List.head?_cons, Option.mem_some] at hc
    rw [← hc]
    decide
  have hlead : (k.lead ++ (k.value ++ k.trail)).dropWhile isspace = k.value ++ k.trail := by
    apply dropWhile_blanks k.lead_blank
    rw [List.head?_append_of_ne_nil _ k.value_ne]
    exact k.head_value
  have hvalue : k.value ++ k.trail ≠ [] := fun h => k.value_ne (List.append_eq_nil_iff.1 h).1
  have hlength : (k.render pattern).length - (k.value ++ k.trail).length
      = (k.front pattern).length := by
    rw [KeyValue.render, List.length_append, Nat.add_sub_cancel]
  rw [linelookup, if_neg hne, if_neg (not_not.2 hprefix)]
  simp only [hgap, hlead, hlength, ne_eq, not_true_eq_false, if_false, hvalue]

/-- The last character of a text that is no blank. -/
lemma getLast?_rdropWhile (s : CString) :
    ∀ c ∈ (s.rdropWhile isspace).getLast?, isspace c = false := by
  intro c hc
  have hne : s.rdropWhile isspace ≠ [] := by
    intro hnil
    rw [hnil] at hc
    cases hc
  rw [List.getLast?_eq_some_getLast hne, Option.mem_some] at hc
  rw [← hc]
  simpa using List.rdropWhile_last_not isspace s hne

lemma rdropWhile_ne_nil {s : CString} (hne : s ≠ []) (hhead : ∀ c ∈ s.head?, isspace c = false) :
    s.rdropWhile isspace ≠ [] := by
  intro hnil
  obtain ⟨c, cs, rfl⟩ := List.exists_cons_of_ne_nil hne
  have hblank := List.rdropWhile_eq_nil_iff.1 hnil c List.mem_cons_self
  rw [hhead c rfl] at hblank
  cases hblank

/-- A colon behind blanks with a value behind it. -/
lemma exists_keyValue {rest s : CString} (hcolon : rest.dropWhile isspace = (':' : UInt8) :: s)
    (hv : s.dropWhile isspace ≠ []) (pattern : CString) :
    ∃ k : KeyValue, pattern ++ rest = k.render pattern := by
  have hhead : ∀ b ∈ (s.dropWhile isspace).head?, isspace b = false := fun _ hb =>
    List.of_mem_head?_dropWhile hb
  have hsplit := List.rdropWhile_append_rtakeWhile (p := isspace) (l := s.dropWhile isspace)
  have hvalue := rdropWhile_ne_nil hv hhead
  refine ⟨⟨rest.takeWhile isspace, s.takeWhile isspace,
    (s.dropWhile isspace).rdropWhile isspace, (s.dropWhile isspace).rtakeWhile isspace,
    fun b hb => List.mem_takeWhile_imp hb, fun b hb => List.mem_takeWhile_imp hb,
    fun b hb => List.mem_rtakeWhile_imp hb, hvalue, ?_, ?_⟩, ?_⟩
  · rwa [← hsplit, List.head?_append_of_ne_nil _ hvalue] at hhead
  · exact getLast?_rdropWhile _
  · simp only [KeyValue.render, KeyValue.front, hsplit, List.append_assoc, List.cons_append,
      List.takeWhile_append_dropWhile]
    rw [← hcolon, List.takeWhile_append_dropWhile]

/-- Every other line is passed over. -/
lemma exists_render_of_ne_none {line pattern : CString} (h : linelookup line pattern ≠ .ok none) :
    ∃ k : KeyValue, line = k.render pattern := by
  rw [linelookup] at h
  by_cases hne : line = []
  · exact absurd (if_pos hne) h
  by_cases hprefix : hasPrefix line pattern = true
  · obtain ⟨rest, rfl⟩ := hasPrefix_iff.1 hprefix
    rw [if_neg hne, if_neg (not_not.2 hprefix), List.drop_left] at h
    cases hcolon : rest.dropWhile isspace with
    | nil => simp [hcolon] at h
    | cons c s =>
      simp only [hcolon] at h
      by_cases hc : c = ':'
      · subst hc
        apply exists_keyValue hcolon
        intro hnil
        simp [hnil] at h
      · exact absurd (if_pos hc) h
  · rw [if_neg hne] at h
    exact absurd (if_pos hprefix) h

/-! ### The way back -/

/-- Blanks are passed over until the last character that is none. -/
lemma valueEnd_blanks {front blanks : CString} (hfront : front ≠ [])
    (hlast : ∀ c ∈ front.getLast?, isspace c = false) (hblanks : ∀ c ∈ blanks, isspace c)
    (rest : CString) :
    valueEnd (front ++ (blanks ++ rest)) (front.length + blanks.length) = .ok front.length := by
  induction blanks using List.reverseRecOn generalizing rest with
  | nil =>
    obtain ⟨front, c, rfl⟩ := front.eq_nil_or_concat'.resolve_left hfront
    have hc : isspace c = false := hlast c (by simp)
    have hget : ((front ++ [c]) ++ ([] ++ rest)).getD front.length 0 = c := by simp
    have hlength : (front ++ [c]).length = front.length + 1 := by simp
    rw [List.length_nil, Nat.add_zero, hlength, valueEnd, hget, hc]
    rfl
  | append_singleton blanks b ih =>
    have hb : isspace b := hblanks b (by simp)
    have hindex : front.length + (blanks ++ [b]).length = front.length + blanks.length + 1 := by
      simp [Nat.add_assoc]
    have hget : (front ++ ((blanks ++ [b]) ++ rest)).getD (front.length + blanks.length) 0 = b := by
      simp
    rw [hindex, valueEnd, hget, if_pos hb, List.append_assoc blanks]
    exact ih (fun c hc => hblanks c (by simp [hc])) _

/-- Where the NUL is written into a line, and what is copied from `start` on. -/
lemma copied_eq {line front blanks : CString} {c : UInt8} (hline : line = front ++ (blanks ++ [c]))
    (hfront : front ≠ []) (hlast : ∀ c ∈ front.getLast?, isspace c = false)
    (hblanks : ∀ c ∈ blanks, isspace c) (start : ℕ) :
    (do
      let p ← valueEnd line (line.length - 1)
      return some (stringAt ((line.set p 0).drop start)) : Except Stop (Option CString))
      = .ok (some (stringAt ((front ++ 0 :: (blanks ++ [c]).tail).drop start))) := by
  have hlength : line.length - 1 = front.length + blanks.length := by
    rw [hline]
    simp [← Nat.add_assoc]
  have hset : line.set front.length 0 = front ++ 0 :: (blanks ++ [c]).tail := by
    rw [hline, List.set_append_right _ _ (le_refl _), Nat.sub_self]
    cases blanks <;> rfl
  have hend : valueEnd line (line.length - 1) = .ok front.length := by
    rw [hlength, hline]
    exact valueEnd_blanks hfront hlast hblanks [c]
  rw [hend, Except.ok_bind, hset]
  rfl

section Value

variable (k : KeyValue) (pattern : CString) (hzero : (0 : UInt8) ∉ k.render pattern)

include hzero

lemma value_ne_zero : ∀ c ∈ k.value, c ≠ 0 := by
  rintro c hc rfl
  exact hzero (by simp [KeyValue.render, hc])

/-- With white space at the end of the line the value is right. -/
lemma linelookup_of_trail (htrail : k.trail ≠ []) :
    linelookup (k.render pattern) pattern = .ok (some k.value) := by
  obtain ⟨blanks, c, htrail⟩ := k.trail.eq_nil_or_concat'.resolve_left htrail
  have hline : k.render pattern = (k.front pattern ++ k.value) ++ (blanks ++ [c]) := by
    rw [KeyValue.render, htrail, List.append_assoc]
  have hlast : ∀ c ∈ (k.front pattern ++ k.value).getLast?, isspace c = false := by
    rw [List.getLast?_append_of_ne_nil _ k.value_ne]
    exact k.last_value
  have hblanks : ∀ c ∈ blanks, isspace c := fun c hc => k.trail_blank c (by simp [htrail, hc])
  rw [linelookup_render, copied_eq hline (by simp [k.value_ne]) hlast hblanks, List.append_assoc,
    List.drop_left, stringAt_append (value_ne_zero k pattern hzero)]

/-- Otherwise the last of several characters is lost. -/
lemma linelookup_of_append {v : CString} {d : UInt8} (htrail : k.trail = [])
    (hvalue : k.value = v ++ [d]) (hv : v ≠ []) :
    ∃ u, linelookup (k.render pattern) pattern = .ok (some u) ∧ u.length < k.value.length := by
  have hsplit := List.rdropWhile_append_rtakeWhile (p := isspace) (l := v)
  have hhead : ∀ c ∈ v.head?, isspace c = false := by
    intro c hc
    apply k.head_value
    rw [hvalue, List.head?_append_of_ne_nil _ hv]
    exact hc
  have hu := rdropWhile_ne_nil hv hhead
  have hline : k.render pattern
      = (k.front pattern ++ v.rdropWhile isspace) ++ (v.rtakeWhile isspace ++ [d]) := by
    rw [KeyValue.render, htrail, hvalue, List.append_nil, List.append_assoc, ← List.append_assoc
      (v.rdropWhile isspace), hsplit]
  have hlast : ∀ c ∈ (k.front pattern ++ v.rdropWhile isspace).getLast?, isspace c = false := by
    rw [List.getLast?_append_of_ne_nil _ hu]
    exact getLast?_rdropWhile v
  have hzero' : ∀ c ∈ v.rdropWhile isspace, c ≠ 0 := by
    intro c hc
    apply value_ne_zero k pattern hzero
    rw [hvalue]
    exact List.mem_append_left _ ((List.rdropWhile_prefix isspace v).subset hc)
  refine ⟨v.rdropWhile isspace, ?_, ?_⟩
  · rw [linelookup_render, copied_eq hline (by simp [hu]) hlast
      (fun c hc => List.mem_rtakeWhile_imp hc), List.append_assoc, List.drop_left,
      stringAt_append hzero']
  · have hle := (List.rdropWhile_prefix isspace v).length_le
    rw [hvalue, List.length_append, List.length_singleton]
    omega

/-- A single character is there if the NUL is written in front of it, over a blank. -/
lemma linelookup_of_singleton {d : UInt8} (htrail : k.trail = []) (hvalue : k.value = [d]) :
    linelookup (k.render pattern) pattern
      = .ok (some (if k.lead = [] then [] else k.value)) := by
  set front := pattern ++ (k.gap ++ [(':' : UInt8)]) with hfront
  have hfrontEq : k.front pattern = front ++ k.lead := by
    simp [KeyValue.front, hfront]
  have hline : k.render pattern = front ++ (k.lead ++ [d]) := by
    rw [KeyValue.render, htrail, hvalue, hfrontEq, List.append_nil, List.append_assoc]
  have hlast : ∀ c ∈ front.getLast?, isspace c = false := by
    intro c hc
    rw [hfront, ← List.append_assoc, List.getLast?_concat, Option.mem_some] at hc
    rw [← hc]
    decide
  have hd : d ≠ 0 := value_ne_zero k pattern hzero d (by simp [hvalue])
  rw [linelookup_render, copied_eq hline (by simp [hfront]) hlast k.lead_blank, hfrontEq]
  cases hlead : k.lead with
  | nil => simp [stringAt]
  | cons b bs =>
    have hdrop : (front ++ 0 :: (bs ++ [d])).drop (front.length + (bs.length + 1)) = [d] := by
      simp
    simp [hdrop, hvalue, stringAt, hd]

/-- A value is returned, and it is right exactly if it is trimmed. -/
lemma exists_linelookup_render :
    ∃ v, linelookup (k.render pattern) pattern = .ok (some v) ∧ (v = k.value ↔ k.Trimmed) := by
  rw [KeyValue.Trimmed]
  by_cases htrail : k.trail = []
  · obtain ⟨v, d, hvalue⟩ := k.value.eq_nil_or_concat'.resolve_left k.value_ne
    by_cases hv : v = []
    · subst hv
      refine ⟨_, linelookup_of_singleton k pattern hzero htrail hvalue, ?_⟩
      by_cases hlead : k.lead = []
      · simp [htrail, hlead, hvalue]
      · simp [htrail, hlead, hvalue]
    · obtain ⟨u, hu, hlt⟩ := linelookup_of_append k pattern hzero htrail hvalue hv
      have hlong : k.value.length ≠ 1 := by
        have hpos := List.length_pos_iff.2 hv
        rw [hvalue, List.length_append, List.length_singleton]
        omega
      refine ⟨u, hu, ?_⟩
      constructor
      · rintro rfl
        exact absurd hlt (lt_irrefl _)
      · rintro (h | ⟨h, -⟩)
        · exact absurd htrail h
        · exact absurd h hlong
  · exact ⟨k.value, linelookup_of_trail k pattern hzero htrail, iff_of_true rfl (Or.inl htrail)⟩

end Value

/-- The lookup is exact if and only if every value that the line has for the key is trimmed. -/
lemma lookupExact_iff_trimmed {line : CString} (hzero : (0 : UInt8) ∉ line) (pattern : CString) :
    LookupExact line pattern ↔ ∀ k : KeyValue, line = k.render pattern → k.Trimmed := by
  constructor
  · rintro ⟨-, hvalue⟩ k rfl
    obtain ⟨v, hv, hiff⟩ := exists_linelookup_render k pattern hzero
    have hright := hvalue k rfl
    rw [hv] at hright
    exact hiff.1 (Option.some.inj (Except.ok.inj hright))
  · intro h
    refine ⟨?_, ?_⟩
    · by_cases hnone : linelookup line pattern = .ok none
      · refine ⟨none, hnone, iff_of_false (by simp) ?_⟩
        rintro ⟨k, rfl⟩
        obtain ⟨v, hv, -⟩ := exists_linelookup_render k pattern hzero
        rw [hv] at hnone
        cases hnone
      · obtain ⟨k, rfl⟩ := exists_render_of_ne_none hnone
        obtain ⟨v, hv, -⟩ := exists_linelookup_render k pattern hzero
        exact ⟨some v, hv, iff_of_true rfl ⟨k, rfl⟩⟩
    · rintro k rfl
      obtain ⟨v, hv, hiff⟩ := exists_linelookup_render k pattern hzero
      rw [hv, hiff.2 (h k rfl)]

/-! ### Different keys -/

/-- The key is what is in front of the first colon, without the blanks at its end. -/
lemma pattern_eq_of_render_eq {k k' : KeyValue} {pattern pattern' : CString}
    (h : k.render pattern = k'.render pattern') (hcolon : (':' : UInt8) ∉ pattern)
    (hcolon' : (':' : UInt8) ∉ pattern')
    (hlast : ∀ c ∈ pattern.getLast?, isspace c = false)
    (hlast' : ∀ c ∈ pattern'.getLast?, isspace c = false) : pattern = pattern' := by
  have hblank : ∀ k : KeyValue, (':' : UInt8) ∉ k.gap := fun k hmem =>
    absurd (k.gap_blank _ hmem) (by decide)
  have hfront : ∀ (k : KeyValue) (pattern : CString), (':' : UInt8) ∉ pattern →
      (∀ c ∈ pattern.getLast?, isspace c = false) →
      ((k.render pattern).takeWhile (· ≠ (':' : UInt8))).rdropWhile isspace = pattern := by
    intro k pattern hcolon hlast
    have htake : (k.render pattern).takeWhile (· ≠ (':' : UInt8)) = pattern ++ k.gap := by
      rw [KeyValue.render, KeyValue.front, ← List.append_assoc pattern, List.append_assoc,
        List.cons_append, List.takeWhile_append_of_pos, List.takeWhile_cons_of_neg (by simp),
        List.append_nil]
      intro c hc
      rw [decide_eq_true_eq]
      rintro rfl
      exact (List.mem_append.1 hc).elim hcolon (hblank k)
    rw [htake, List.rdropWhile, List.reverse_append, List.dropWhile_append_of_pos
      (by simpa using k.gap_blank), ← List.rdropWhile, List.rdropWhile_eq_self_iff]
    intro hne
    rw [hlast _ (List.getLast?_eq_some_getLast hne)]
    decide
  rw [← hfront k pattern hcolon hlast, h, hfront k' pattern' hcolon' hlast']

end NagiosPlugins
