import Mathlib.Data.List.TakeWhile
import NagiosPlugins.Data.Lists
import NagiosPlugins.Data.RegexSearch
import NagiosPlugins.Libc.Bytes

/-!
# The pattern for good paths

`dm_st_ok_pattern` of `plugins/check_multipath.c`, what it describes, and the columns that this has
in a line.
-/

namespace NagiosPlugins

open Libc RegularExpression

/-! ### The pattern -/

/-- `[ \t]`. -/
def blankClass : RegularExpression UInt8 := oneOf [(' ' : UInt8), ('\t' : UInt8)]

/-- `dm_st_ok_pattern`, which is `[ \t]+\[?active\]?[ \t]*\[?ready\]?[ \t]+`. -/
def dmStOkPattern : RegularExpression UInt8 :=
  atLeastOnce blankClass * (optional (char ('[' : UInt8)) * (literal (ascii "active")
    * (optional (char (']' : UInt8)) * (blankClass.star * (optional (char ('[' : UInt8))
    * (literal (ascii "ready") * (optional (char (']' : UInt8)) * atLeastOnce blankClass)))))))

/-! ### Brackets and blanks -/

def IsBlank (c : UInt8) : Prop := c = ' ' ∨ c = '\t'

instance decidablePredIsBlank : DecidablePred IsBlank :=
  fun _ => inferInstanceAs (Decidable (_ ∨ _))

/-- A word, and with a bracket on either side. -/
def withBrackets (word : CString) : List CString :=
  [word, ('[' : UInt8) :: word, word ++ [(']' : UInt8)], ('[' : UInt8) :: (word ++ [(']' : UInt8)])]

lemma self_mem_withBrackets (word : CString) : word ∈ withBrackets word := List.mem_cons_self

lemma mem_withBrackets {word w : CString} :
    w ∈ withBrackets word ↔ ∃ opening closing : CString,
      (opening = [] ∨ opening = [('[' : UInt8)]) ∧ (closing = [] ∨ closing = [(']' : UInt8)]) ∧
        w = opening ++ (word ++ closing) := by
  simp only [withBrackets, List.mem_cons, List.not_mem_nil, or_false]
  constructor
  · rintro (rfl | rfl | rfl | rfl)
    · exact ⟨[], [], .inl rfl, .inl rfl, by simp⟩
    · exact ⟨_, [], .inr rfl, .inl rfl, by simp⟩
    · exact ⟨[], _, .inl rfl, .inr rfl, by simp⟩
    · exact ⟨_, _, .inr rfl, .inr rfl, by simp⟩
  · rintro ⟨opening, closing, rfl | rfl, rfl | rfl, rfl⟩
    · exact .inl (by simp)
    · exact .inr (.inr (.inl (by simp)))
    · exact .inr (.inl (by simp))
    · exact .inr (.inr (.inr (by simp)))

lemma not_isBlank_of_mem_withBrackets {word w : CString} (hword : ∀ c ∈ word, ¬ IsBlank c)
    (hw : w ∈ withBrackets word) : ∀ c ∈ w, ¬ IsBlank c := by
  obtain ⟨opening, closing, hopening, hclosing, rfl⟩ := mem_withBrackets.1 hw
  have hopen : ∀ c ∈ opening, ¬ IsBlank c := by
    rcases hopening with rfl | rfl <;> decide +kernel
  have hclose : ∀ c ∈ closing, ¬ IsBlank c := by
    rcases hclosing with rfl | rfl <;> decide +kernel
  intro c hc
  simp only [List.mem_append] at hc
  rcases hc with hc | hc | hc
  · exact hopen c hc
  · exact hword c hc
  · exact hclose c hc

/-- A bracket that may be missing counts at most once. -/
lemma count_bracket_le_one {b : UInt8} {s : CString} (h : s = [] ∨ s = [b]) : s.count b ≤ 1 := by
  rcases h with rfl | rfl
  · exact Nat.zero_le 1
  · simp

lemma count_bracket_of_ne {b c : UInt8} (hne : b ≠ c) {s : CString} (h : s = [] ∨ s = [b]) :
    s.count c = 0 := by
  rcases h with rfl | rfl
  · rfl
  · simp [hne]

lemma eq_of_two_le_count {b : UInt8} {s t : CString} (hs : s = [] ∨ s = [b]) (ht : t = [] ∨ t = [b])
    (h : 2 ≤ s.count b + t.count b) : s = [b] ∧ t = [b] := by
  rcases hs with rfl | rfl
  · rcases ht with rfl | rfl
    · simp at h
    · simp at h
  · rcases ht with rfl | rfl
    · simp at h
    · exact ⟨rfl, rfl⟩

/-! ### What the pattern describes -/

/-- Both words, perhaps with brackets around them, and blanks between them. -/
structure OkStates where
  first : CString
  between : CString
  second : CString
  first_mem : first ∈ withBrackets (ascii "active")
  between_blank : ∀ c ∈ between, IsBlank c
  second_mem : second ∈ withBrackets (ascii "ready")

def OkStates.render (o : OkStates) : CString := o.first ++ (o.between ++ o.second)

lemma mem_blankClass {c : UInt8} : c ∈ [(' ' : UInt8), ('\t' : UInt8)] ↔ IsBlank c := by
  simp [IsBlank]

lemma mem_dmStOkPattern {t : CString} :
    t ∈ dmStOkPattern.matches' ↔ ∃ (o : OkStates) (before behind : CString),
      before ≠ [] ∧ (∀ c ∈ before, IsBlank c) ∧ behind ≠ [] ∧ (∀ c ∈ behind, IsBlank c) ∧
        t = before ++ (o.render ++ behind) := by
  simp only [dmStOkPattern, blankClass, mem_mul, mem_atLeastOnce_oneOf, mem_star_oneOf,
    mem_optional, mem_literal, mem_char, mem_blankClass]
  constructor
  · rintro ⟨before, _, ⟨hne, hbefore⟩, ⟨open₁, _, hopen₁, ⟨_, _, rfl, ⟨close₁, _, hclose₁,
      ⟨between, _, hbetween, ⟨open₂, _, hopen₂, ⟨_, _, rfl, ⟨close₂, behind, hclose₂,
        ⟨hne', hbehind⟩, rfl⟩, rfl⟩, rfl⟩, rfl⟩, rfl⟩, rfl⟩, rfl⟩, rfl⟩
    have hfirst : open₁ ++ (ascii "active" ++ close₁) ∈ withBrackets (ascii "active") :=
      mem_withBrackets.2 ⟨open₁, close₁, hopen₁, hclose₁, rfl⟩
    have hsecond : open₂ ++ (ascii "ready" ++ close₂) ∈ withBrackets (ascii "ready") :=
      mem_withBrackets.2 ⟨open₂, close₂, hopen₂, hclose₂, rfl⟩
    refine ⟨⟨_, between, _, hfirst, hbetween, hsecond⟩, before, behind, hne, hbefore, hne',
      hbehind, ?_⟩
    simp [OkStates.render]
  · rintro ⟨⟨first, between, second, hfirst, hbetween, hsecond⟩, before, behind, hne, hbefore, hne',
      hbehind, rfl⟩
    obtain ⟨open₁, close₁, hopen₁, hclose₁, rfl⟩ := mem_withBrackets.1 hfirst
    obtain ⟨open₂, close₂, hopen₂, hclose₂, rfl⟩ := mem_withBrackets.1 hsecond
    refine ⟨before, _, ⟨hne, hbefore⟩, ⟨open₁, _, hopen₁, ⟨_, _, rfl, ⟨close₁, _, hclose₁,
      ⟨between, _, hbetween, ⟨open₂, _, hopen₂, ⟨_, _, rfl, ⟨close₂, behind, hclose₂,
        ⟨hne', hbehind⟩, rfl⟩, rfl⟩, rfl⟩, rfl⟩, rfl⟩, rfl⟩, rfl⟩, ?_⟩
    simp [OkStates.render]

/-! ### Columns -/

/-- The columns of a line. Where several blanks stand together there are empty ones in between. -/
def columns (line : CString) : List CString := line.splitOnP (IsBlank ·)

section Columns

variable {s t word blanks : CString} {b : UInt8}

lemma columns_append_cons (hb : IsBlank b) (s t : CString) :
    columns (s ++ b :: t) = columns s ++ columns t :=
  List.splitOnP_append_cons s t (by simpa using hb)

lemma columns_ne_nil (s : CString) : columns s ≠ [] := List.splitOnP_ne_nil _ _

lemma columns_of_forall_not (hword : ∀ c ∈ word, ¬ IsBlank c) : columns word = [word] :=
  List.splitOnP_eq_singleton (by simpa using hword)

/-- Blanks in front give empty columns. -/
lemma columns_blanks_append (hblanks : ∀ c ∈ blanks, IsBlank c) (s : CString) :
    columns (blanks ++ s) = List.replicate blanks.length [] ++ columns s := by
  induction blanks with
  | nil => rfl
  | cons b blanks ih =>
    obtain ⟨hb, hblanks⟩ := List.forall_mem_cons.1 hblanks
    have hnil : columns ([] : CString) = [[]] := rfl
    have hsplit := columns_append_cons hb [] (blanks ++ s)
    rw [List.nil_append, hnil] at hsplit
    rw [List.cons_append, hsplit, ih hblanks]
    rfl

lemma columns_append_blanks (hblanks : ∀ c ∈ blanks, IsBlank c) (s : CString) :
    columns (s ++ blanks) = columns s ++ List.replicate blanks.length [] := by
  induction blanks generalizing s with
  | nil => simp
  | cons b blanks ih =>
    obtain ⟨hb, hblanks⟩ := List.forall_mem_cons.1 hblanks
    have hnil : columns blanks = columns ([] ++ blanks) := rfl
    have hempty : columns ([] : CString) = [[]] := rfl
    rw [columns_append_cons hb, hnil, ih hblanks, hempty, List.length_cons, List.replicate_succ]
    rfl

/-- Two words with blanks between them. -/
lemma columns_two {word' : CString} (hword : ∀ c ∈ word, ¬ IsBlank c)
    (hword' : ∀ c ∈ word', ¬ IsBlank c) (hblanks : ∀ c ∈ blanks, IsBlank c) (hb : IsBlank b) :
    columns (word ++ (b :: blanks ++ word'))
      = word :: (List.replicate blanks.length [] ++ [word']) := by
  rw [List.cons_append, columns_append_cons hb, columns_of_forall_not hword,
    columns_blanks_append hblanks, columns_of_forall_not hword']
  rfl

/-- A part between blanks has its columns to itself. -/
lemma columns_between {before behind : CString} (hne : before ≠ [])
    (hbefore : ∀ c ∈ before, IsBlank c) (hne' : behind ≠ []) (hbehind : ∀ c ∈ behind, IsBlank c)
    (u s v : CString) :
    columns (u ++ (before ++ (s ++ (behind ++ v))))
      = columns (u ++ before.dropLast) ++ (columns s ++ columns (behind.tail ++ v)) := by
  obtain ⟨before, b, rfl⟩ := before.eq_nil_or_concat'.resolve_left hne
  obtain ⟨b', behind, rfl⟩ := List.exists_cons_of_ne_nil hne'
  have hb : IsBlank b := hbefore b (by simp)
  have hb' : IsBlank b' := hbehind b' (by simp)
  have hsplit : u ++ ((before ++ [b]) ++ (s ++ (b' :: behind ++ v)))
      = (u ++ before) ++ b :: (s ++ b' :: (behind ++ v)) := by simp
  rw [hsplit, columns_append_cons hb, columns_append_cons hb', List.dropLast_concat, List.tail_cons]

end Columns

namespace OkStates

variable (o : OkStates)

lemma not_isBlank_first : ∀ c ∈ o.first, ¬ IsBlank c :=
  not_isBlank_of_mem_withBrackets (by decide +kernel) o.first_mem

lemma not_isBlank_second : ∀ c ∈ o.second, ¬ IsBlank c :=
  not_isBlank_of_mem_withBrackets (by decide +kernel) o.second_mem

lemma second_ne_nil : o.second ≠ [] := by
  have hready : ascii "ready" ≠ [] := by decide +kernel
  obtain ⟨opening, closing, -, -, hsecond⟩ := mem_withBrackets.1 o.second_mem
  simp [hsecond, hready]

lemma active_infix_first : ascii "active" <:+: o.first := by
  obtain ⟨opening, closing, -, -, hfirst⟩ := mem_withBrackets.1 o.first_mem
  exact ⟨opening, closing, by rw [hfirst, List.append_assoc]⟩

/-- Without blanks both words are in one column. -/
lemma columns_render_of_nil (h : o.between = []) : columns o.render = [o.first ++ o.second] := by
  rw [render, h, List.nil_append]
  apply columns_of_forall_not
  intro c hc
  rcases List.mem_append.1 hc with hc | hc
  · exact o.not_isBlank_first c hc
  · exact o.not_isBlank_second c hc

lemma columns_render_of_cons {b : UInt8} {blanks : CString} (h : o.between = b :: blanks) :
    columns o.render = o.first :: (List.replicate blanks.length [] ++ [o.second]) := by
  have hblank := o.between_blank
  rw [h] at hblank
  obtain ⟨hb, hblanks⟩ := List.forall_mem_cons.1 hblank
  rw [render, h]
  exact columns_two o.not_isBlank_first o.not_isBlank_second hblanks hb

end OkStates

/-! ### Empty columns -/

/-- What follows on empty columns. -/
lemma eq_of_replicate_nil_append {k m : ℕ} {word word' : CString} {rest rest' : List CString}
    (hword : word ≠ []) (hword' : word' ≠ [])
    (h : List.replicate k [] ++ word :: rest = List.replicate m [] ++ word' :: rest') :
    word = word' ∧ rest = rest' := by
  have hdrop : ∀ (n : ℕ) (w : CString) (r : List CString), w ≠ [] →
      (List.replicate n [] ++ w :: r).dropWhile (· = []) = w :: r := by
    intro n w r hw
    rw [List.dropWhile_append_of_pos (by simp), List.dropWhile_cons_of_neg (by simpa using hw)]
  have heq := congrArg (List.dropWhile (· = [])) h
  rw [hdrop k word rest hword, hdrop m word' rest' hword'] at heq
  exact List.cons.inj heq

/-! ### The column in front -/

/-- The first column of a text, if a blank follows on it. -/
def leadingColumn (text : CString) : Option CString :=
  let column := text.dropWhile (IsBlank ·)
  if column.dropWhile (¬ IsBlank ·) = [] then none else some (column.takeWhile (¬ IsBlank ·))

lemma leadingColumn_blanks_append {blanks : CString} (hblanks : ∀ c ∈ blanks, IsBlank c)
    (text : CString) : leadingColumn (blanks ++ text) = leadingColumn text := by
  have hdrop : (blanks ++ text).dropWhile (IsBlank ·) = text.dropWhile (IsBlank ·) :=
    List.dropWhile_append_of_pos (by simpa using hblanks)
  rw [leadingColumn, leadingColumn, hdrop]

/-- The blanks in front of the first column, the column and what is behind it. -/
lemma exists_column (text : CString) :
    ∃ blanks column behind : CString, text = blanks ++ (column ++ behind) ∧
      (∀ c ∈ blanks, IsBlank c) ∧ (∀ c ∈ column, ¬ IsBlank c) ∧ (column = [] → behind = []) ∧
        (∀ b ∈ behind.head?, IsBlank b) ∧
          leadingColumn text = if behind = [] then none else some column := by
  set s := text.dropWhile (IsBlank ·) with hs
  refine ⟨text.takeWhile (IsBlank ·), s.takeWhile (¬ IsBlank ·), s.dropWhile (¬ IsBlank ·), ?_, ?_,
    ?_, ?_, ?_, rfl⟩
  · rw [List.takeWhile_append_dropWhile, hs, List.takeWhile_append_dropWhile]
  · intro c hc
    simpa using List.mem_takeWhile_imp hc
  · intro c hc
    simpa using List.mem_takeWhile_imp hc
  · intro hnil
    cases hcase : s with
    | nil => rfl
    | cons c t =>
      have hc : c ∈ (text.dropWhile (IsBlank ·)).head? := by
        rw [← hs, hcase]
        rfl
      have hblank := List.of_mem_head?_dropWhile hc
      rw [hcase, List.takeWhile_cons_of_pos (by simpa using hblank)] at hnil
      cases hnil
  · intro b hb
    simpa using List.of_mem_head?_dropWhile hb

/-- A column with another one behind it leads. -/
lemma leadingColumn_of_columns {text word : CString} {k : ℕ} {rest : List CString}
    (hword : word ≠ []) (hrest : rest ≠ [])
    (h : List.replicate k [] ++ word :: rest = columns text) :
    leadingColumn text = some word := by
  obtain ⟨blanks, column, behind, rfl, hblanks, hcolumn, hnil, hhead, hnext⟩ := exists_column text
  rw [columns_blanks_append hblanks] at h
  cases behind with
  | nil =>
    rw [List.append_nil, columns_of_forall_not hcolumn] at h
    by_cases hempty : column = []
    · have hmem : word ∈ List.replicate blanks.length [] ++ [column] := h ▸ by simp
      rw [hempty, ← List.replicate_succ'] at hmem
      exact absurd (List.eq_of_mem_replicate hmem) hword
    · exact absurd (eq_of_replicate_nil_append hword hempty h).2 hrest
  | cons b t =>
    have hne : column ≠ [] := fun hempty => List.cons_ne_nil b t (hnil hempty)
    rw [columns_append_cons (hhead b rfl), columns_of_forall_not hcolumn] at h
    rw [hnext, if_neg (List.cons_ne_nil b t), (eq_of_replicate_nil_append hword hne h).1]

/-- Where a column leads, blanks stand in front of it and one behind it. -/
lemma exists_of_leadingColumn_eq_some {text word : CString} (h : leadingColumn text = some word) :
    ∃ (blanks : CString) (b : UInt8) (behind : CString),
      (∀ c ∈ blanks, IsBlank c) ∧ IsBlank b ∧ text = blanks ++ (word ++ b :: behind) := by
  obtain ⟨blanks, column, behind, rfl, hblanks, -, -, hhead, hnext⟩ := exists_column text
  rw [h] at hnext
  cases behind with
  | nil => cases hnext
  | cons b t =>
    rw [if_neg (List.cons_ne_nil b t)] at hnext
    cases hnext
    exact ⟨blanks, b, t, hblanks, hhead b rfl, rfl⟩

end NagiosPlugins
