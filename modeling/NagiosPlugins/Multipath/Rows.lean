import NagiosPlugins.Multipath.Pattern

/-!
# Rows of the paths

In which rows of a reply the pattern for good paths is found.
-/

namespace NagiosPlugins

open Libc RegularExpression

/-! ### Rows -/

/-- A state, as it stands in a row. -/
structure PathState where
  word : CString
  nonempty : word ≠ []
  plain : ∀ c ∈ word, ¬ IsBlank c ∧ c ≠ '\n' ∧ c ≠ 0

/-- A row of the paths. The states stand in brackets, or there are blanks `between` them. -/
structure PathRow where
  front : CString
  before : CString
  dmSt : PathState
  between : Option CString
  chkSt : PathState
  behind : CString
  rest : CString
  before_blank : before ≠ [] ∧ ∀ c ∈ before, IsBlank c
  between_blank : ∀ b ∈ between, b ≠ [] ∧ ∀ c ∈ b, IsBlank c
  behind_blank : behind ≠ [] ∧ ∀ c ∈ behind, IsBlank c
  plain : ∀ c ∈ front ++ rest, c ≠ '\n' ∧ c ≠ 0
  other : ∀ column ∈ columns front ++ columns rest, ¬ ascii "active" <:+: column

/-- `active` and `ready` without a blank in between. -/
def joinedStates : List CString :=
  (withBrackets (ascii "active")).flatMap fun first =>
    (withBrackets (ascii "ready")).map fun second => first ++ second

lemma mem_joinedStates {w : CString} :
    w ∈ joinedStates ↔ ∃ first ∈ withBrackets (ascii "active"),
      ∃ second ∈ withBrackets (ascii "ready"), w = first ++ second := by
  simp only [joinedStates, List.mem_flatMap, List.mem_map, eq_comm]

namespace PathRow

variable (row : PathRow)

/-- Both states, in one of the two layouts. -/
def states : CString :=
  match row.between with
  | none =>
    ('[' : UInt8) :: (row.dmSt.word
      ++ (']' : UInt8) :: ('[' : UInt8) :: (row.chkSt.word ++ [(']' : UInt8)]))
  | some between => row.dmSt.word ++ (between ++ row.chkSt.word)

def render : CString := row.front ++ (row.before ++ (row.states ++ (row.behind ++ row.rest)))

/-- `dm_st` is not `active`, or `chk_st` is not `ready`. -/
def Faulty : Prop := row.dmSt.word ≠ ascii "active" ∨ row.chkSt.word ≠ ascii "ready"

/-- In the second layout brackets do not matter, and the words `active` and `ready` may stand in one
column, or one column further on. -/
def Tolerated : Prop :=
  row.between ≠ none ∧
    ((row.dmSt.word ∈ withBrackets (ascii "active") ∧ row.chkSt.word ∈ withBrackets (ascii "ready"))
      ∨ row.dmSt.word ∈ joinedStates ∨ row.chkSt.word ∈ joinedStates
      ∨ (row.chkSt.word ∈ withBrackets (ascii "active")
        ∧ ∃ word ∈ leadingColumn row.rest, word ∈ withBrackets (ascii "ready")))

instance decidablePredFaulty : DecidablePred Faulty := fun _ => inferInstanceAs (Decidable (_ ∨ _))

instance decidablePredTolerated : DecidablePred Tolerated :=
  fun _ => inferInstanceAs (Decidable (_ ∧ _))

end PathRow

/-! ### Rows without the pattern -/

lemma not_active_replicate (n : ℕ) : ∀ c ∈ List.replicate n [], ¬ ascii "active" <:+: c := by
  intro c hc
  rw [List.eq_of_mem_replicate hc, List.infix_nil]
  decide +kernel

/-- A column with the word `active` stands behind those without it. -/
lemma exists_of_active {front front' rest' tail : List CString} {column : CString}
    (hactive : ascii "active" <:+: column) (hfront : ∀ c ∈ front, ¬ ascii "active" <:+: c)
    (h : front ++ tail = front' ++ column :: rest') :
    ∃ middle, tail = middle ++ column :: rest' := by
  rcases List.append_eq_append_iff.1 h with ⟨middle, -, htail⟩ | ⟨middle, hmiddle, hrest⟩
  · exact ⟨middle, htail⟩
  · cases middle with
    | nil => exact ⟨[], hrest.symm⟩
    | cons c middle =>
      rw [← (List.cons.inj hrest).1] at hmiddle
      exact absurd hactive (hfront column (hmiddle ▸ by simp))

/-- Where the other columns do not have the word `active`, it is found in this one. -/
lemma columns_inj {front front' rest rest' : List CString} {column column' : CString}
    (hactive : ascii "active" <:+: column') (hfront : ∀ c ∈ front, ¬ ascii "active" <:+: c)
    (hrest : ∀ c ∈ rest, ¬ ascii "active" <:+: c)
    (h : front ++ column :: rest = front' ++ column' :: rest') :
    column' = column ∧ rest' = rest := by
  obtain ⟨-, hcolumn, hrest⟩ := (List.append_cons_inj_of_notMem
    (fun hmem => hfront _ hmem hactive) (fun hmem => hrest _ hmem hactive)).1 h
  exact ⟨hcolumn.symm, hrest.symm⟩

namespace PathRow

variable (row : PathRow)

lemma front_not_active :
    ∀ c ∈ columns (row.front ++ row.before.dropLast), ¬ ascii "active" <:+: c := by
  have hblank : ∀ c ∈ row.before.dropLast, IsBlank c := fun c hc =>
    row.before_blank.2 c (List.mem_of_mem_dropLast hc)
  intro c hc
  rw [columns_append_blanks hblank, List.mem_append] at hc
  rcases hc with hc | hc
  · exact row.other c (List.mem_append_left _ hc)
  · exact not_active_replicate _ c hc

lemma rest_not_active :
    ∀ c ∈ columns (row.behind.tail ++ row.rest), ¬ ascii "active" <:+: c := by
  have hblank : ∀ c ∈ row.behind.tail, IsBlank c := fun c hc =>
    row.behind_blank.2 c (List.mem_of_mem_tail hc)
  intro c hc
  rw [columns_blanks_append hblank, List.mem_append] at hc
  rcases hc with hc | hc
  · exact not_active_replicate _ c hc
  · exact row.other c (List.mem_append_right _ hc)

lemma columns_render :
    columns row.render = columns (row.front ++ row.before.dropLast)
      ++ (columns row.states ++ columns (row.behind.tail ++ row.rest)) :=
  columns_between row.before_blank.1 row.before_blank.2 row.behind_blank.1 row.behind_blank.2
    _ _ _

/-- Where the pattern is found, both words are columns of the row. -/
lemma columns_of_search (h : dmStOkPattern.search row.render = true) :
    ∃ (o : OkStates) (front rest : List CString), rest ≠ [] ∧
      columns row.render = front ++ (columns o.render ++ rest) := by
  obtain ⟨u, t, v, hsplit, ht⟩ := search_iff.1 h
  obtain ⟨o, before, behind, hne, hbefore, hne', hbehind, rfl⟩ := mem_dmStOkPattern.1 ht
  refine ⟨o, columns (u ++ before.dropLast), columns (behind.tail ++ v), columns_ne_nil _, ?_⟩
  rw [hsplit, ← columns_between hne hbefore hne' hbehind, List.append_assoc, List.append_assoc]

variable {row}

/-- In the first layout the row has two brackets of each kind. -/
lemma states_of_none (h : row.between = none) :
    row.states = ('[' : UInt8) :: (row.dmSt.word
      ++ (']' : UInt8) :: ('[' : UInt8) :: (row.chkSt.word ++ [(']' : UInt8)])) := by
  rw [states, h]

/-- The characters of the states. -/
lemma mem_states {c : UInt8} (hc : c ∈ row.states) :
    c = '[' ∨ c = ']' ∨ c ∈ row.dmSt.word ∨ c ∈ row.chkSt.word ∨ ∃ b ∈ row.between, c ∈ b := by
  cases hbetween : row.between with
  | none =>
    simp only [states_of_none hbetween, List.mem_cons, List.mem_append, List.not_mem_nil] at hc
    tauto
  | some between =>
    simp only [states, hbetween, List.mem_append] at hc
    rcases hc with hc | hc | hc
    · exact .inr (.inr (.inl hc))
    · exact .inr (.inr (.inr (.inr ⟨between, rfl, hc⟩)))
    · exact .inr (.inr (.inr (.inl hc)))

lemma columns_states_of_none (h : row.between = none) : columns row.states = [row.states] := by
  apply columns_of_forall_not
  intro c hc
  rcases mem_states hc with rfl | rfl | hc | hc | ⟨b, hb, -⟩
  · decide
  · decide
  · exact (row.dmSt.plain c hc).1
  · exact (row.chkSt.plain c hc).1
  · rw [h] at hb
    cases hb

lemma columns_states_of_some {b : UInt8} {blanks : CString} (h : row.between = some (b :: blanks)) :
    columns row.states
      = row.dmSt.word :: (List.replicate blanks.length [] ++ [row.chkSt.word]) := by
  obtain ⟨-, hblank⟩ := row.between_blank (b :: blanks) h
  obtain ⟨hb, hblanks⟩ := List.forall_mem_cons.1 hblank
  rw [states, h]
  exact columns_two (fun c hc => (row.dmSt.plain c hc).1) (fun c hc => (row.chkSt.plain c hc).1)
    hblanks hb

/-- One word of the pattern has one bracket of a kind at most. -/
lemma first_ne_states (h : row.between = none) (o : OkStates) : o.first ≠ row.states := by
  intro heq
  obtain ⟨opening, closing, hopening, hclosing, hfirst⟩ := mem_withBrackets.1 o.first_mem
  have hactive : (ascii "active").count ('[' : UInt8) = 0 := by decide +kernel
  have hclose := count_bracket_of_ne (b := ']') (c := '[') (by decide) hclosing
  have hcount := congrArg (List.count ('[' : UInt8)) heq
  rw [states_of_none h, hfirst, List.count_append, List.count_append, hactive, hclose,
    List.count_cons_self, List.count_append, List.count_cons_of_ne (by decide),
    List.count_cons_self] at hcount
  have hle := count_bracket_le_one hopening
  omega

/-- The brackets of the first layout are those of the pattern. -/
lemma states_eq_of_brackets (h : row.between = none) {o : OkStates}
    (ho : o.first ++ o.second = row.states) : ¬ row.Faulty := by
  obtain ⟨open₁, close₁, hopen₁, hclose₁, hfirst⟩ := mem_withBrackets.1 o.first_mem
  obtain ⟨open₂, close₂, hopen₂, hclose₂, hsecond⟩ := mem_withBrackets.1 o.second_mem
  have hletters : ∀ c : UInt8, c = '[' ∨ c = ']' →
      (ascii "active").count c = 0 ∧ (ascii "ready").count c = 0 := by
    rintro c (rfl | rfl) <;> decide +kernel
  have hne : ((']' : UInt8) == '[') = false ∧ (('[' : UInt8) == ']') = false := by decide
  rw [hfirst, hsecond, states_of_none h] at ho
  have hopens : open₁.count ('[' : UInt8) + open₂.count ('[' : UInt8)
      = row.dmSt.word.count ('[' : UInt8) + (row.chkSt.word.count ('[' : UInt8) + 1) + 1 := by
    simpa [List.count_cons, hne, hletters _ (Or.inl rfl),
      count_bracket_of_ne (b := ']') (c := '[') (by decide) hclose₁,
      count_bracket_of_ne (b := ']') (c := '[') (by decide) hclose₂]
      using congrArg (List.count ('[' : UInt8)) ho
  have hcloses : close₁.count (']' : UInt8) + close₂.count (']' : UInt8)
      = row.dmSt.word.count (']' : UInt8) + (row.chkSt.word.count (']' : UInt8) + 1 + 1) := by
    simpa [List.count_cons, hne, hletters _ (Or.inr rfl),
      count_bracket_of_ne (b := '[') (c := ']') (by decide) hopen₁,
      count_bracket_of_ne (b := '[') (c := ']') (by decide) hopen₂]
      using congrArg (List.count (']' : UInt8)) ho
  -- the row has at least two brackets of each kind, and the pattern at most two
  have hdmSt : (']' : UInt8) ∉ row.dmSt.word := by
    have hle₁ := count_bracket_le_one hclose₁
    have hle₂ := count_bracket_le_one hclose₂
    rw [← List.count_eq_zero]
    omega
  obtain ⟨rfl, rfl⟩ := eq_of_two_le_count hopen₁ hopen₂ (by omega)
  obtain ⟨rfl, rfl⟩ := eq_of_two_le_count hclose₁ hclose₂ (by omega)
  have hsplit : ascii "active"
      ++ (']' : UInt8) :: ('[' : UInt8) :: (ascii "ready" ++ [(']' : UInt8)])
      = row.dmSt.word
        ++ (']' : UInt8) :: ('[' : UInt8) :: (row.chkSt.word ++ [(']' : UInt8)]) := by
    simpa using ho
  have hactive : (']' : UInt8) ∉ ascii "active" := by decide +kernel
  obtain ⟨hdm, hrest⟩ := List.append_cons_inj_of_first hactive hdmSt hsplit
  have hchk := List.append_cancel_right (List.cons.inj hrest).2
  exact not_or.2 ⟨not_not.2 hdm.symm, not_not.2 hchk.symm⟩

/-- In the first layout the pattern is found in no faulty row. -/
lemma not_faulty_of_search (hbetween : row.between = none)
    (h : dmStOkPattern.search row.render = true) : ¬ row.Faulty := by
  obtain ⟨o, front, rest, -, hfound⟩ := row.columns_of_search h
  rw [row.columns_render, columns_states_of_none hbetween, List.singleton_append] at hfound
  cases hb : o.between with
  | nil =>
    rw [o.columns_render_of_nil hb, List.singleton_append] at hfound
    obtain ⟨hcolumn, -⟩ := columns_inj
      (o.active_infix_first.trans (List.prefix_append _ _).isInfix) row.front_not_active
      row.rest_not_active hfound
    exact states_eq_of_brackets hbetween hcolumn
  | cons b blanks =>
    rw [o.columns_render_of_cons hb, List.cons_append] at hfound
    obtain ⟨hcolumn, -⟩ := columns_inj o.active_infix_first row.front_not_active
      row.rest_not_active hfound
    exact absurd hcolumn (first_ne_states hbetween o)

/-- In the second layout the words are found in the states, or they begin in the second of them. -/
lemma tolerated_of_search {between : CString} (hbetween : row.between = some between)
    (h : dmStOkPattern.search row.render = true) : row.Tolerated := by
  have hsome : row.between ≠ none := by simp [hbetween]
  obtain ⟨hne, -⟩ := row.between_blank between hbetween
  obtain ⟨b, blanks, rfl⟩ := List.exists_cons_of_ne_nil hne
  obtain ⟨o, front, rest, hrest, hfound⟩ := row.columns_of_search h
  have hjoined : o.first ++ o.second ∈ joinedStates :=
    mem_joinedStates.2 ⟨o.first, o.first_mem, o.second, o.second_mem, rfl⟩
  have hempty := not_active_replicate blanks.length
  rw [row.columns_render, columns_states_of_some hbetween, List.cons_append] at hfound
  cases hb : o.between with
  | nil =>
    have hactive : ascii "active" <:+: o.first ++ o.second :=
      o.active_infix_first.trans (List.prefix_append _ _).isInfix
    rw [o.columns_render_of_nil hb, List.singleton_append] at hfound
    obtain ⟨middle, htail⟩ := exists_of_active hactive row.front_not_active hfound
    cases middle with
    | nil =>
      have hdmSt := (List.cons.inj htail).1
      exact ⟨hsome, .inr (.inl (hdmSt ▸ hjoined))⟩
    | cons column middle =>
      have hstates := (List.cons.inj htail).2
      rw [List.append_assoc, List.singleton_append] at hstates
      obtain ⟨hchkSt, -⟩ := columns_inj hactive hempty row.rest_not_active hstates
      exact ⟨hsome, .inr (.inr (.inl (hchkSt ▸ hjoined)))⟩
  | cons b' blanks' =>
    rw [o.columns_render_of_cons hb, List.cons_append] at hfound
    obtain ⟨middle, htail⟩ := exists_of_active o.active_infix_first row.front_not_active hfound
    cases middle with
    | nil =>
      obtain ⟨hdmSt, hstates⟩ := List.cons.inj htail
      rw [List.append_assoc, List.append_assoc, List.singleton_append, List.singleton_append]
        at hstates
      obtain ⟨hchkSt, -⟩ :=
        eq_of_replicate_nil_append row.chkSt.nonempty o.second_ne_nil hstates
      exact ⟨hsome, .inl ⟨hdmSt ▸ o.first_mem, hchkSt ▸ o.second_mem⟩⟩
    | cons column middle =>
      have hstates := (List.cons.inj htail).2
      rw [List.append_assoc, List.singleton_append] at hstates
      obtain ⟨hchkSt, hbehind⟩ :=
        columns_inj o.active_infix_first hempty row.rest_not_active hstates
      rw [List.append_assoc, List.singleton_append] at hbehind
      have hblank : ∀ c ∈ row.behind.tail, IsBlank c := fun c hc =>
        row.behind_blank.2 c (List.mem_of_mem_tail hc)
      have hnext := leadingColumn_of_columns o.second_ne_nil hrest hbehind
      rw [leadingColumn_blanks_append hblank] at hnext
      exact ⟨hsome, .inr (.inr (.inr ⟨hchkSt ▸ o.first_mem, o.second, hnext, o.second_mem⟩))⟩

/-! ### Rows with the pattern -/

/-- Both words between blanks are found. -/
lemma search_of_append {u before first between second behind v : CString}
    (hbefore : before ≠ [] ∧ ∀ c ∈ before, IsBlank c)
    (hbehind : behind ≠ [] ∧ ∀ c ∈ behind, IsBlank c)
    (hfirst : first ∈ withBrackets (ascii "active"))
    (hsecond : second ∈ withBrackets (ascii "ready")) (hbetween : ∀ c ∈ between, IsBlank c)
    (hrender : row.render = u ++ (before ++ (first ++ (between ++ (second ++ (behind ++ v)))))) :
    dmStOkPattern.search row.render = true := by
  let o : OkStates := ⟨first, between, second, hfirst, hbetween, hsecond⟩
  refine search_iff.2 ⟨u, before ++ (o.render ++ behind), v, ?_, ?_⟩
  · rw [hrender, OkStates.render]
    simp only [o, List.append_assoc]
  · exact mem_dmStOkPattern.2 ⟨o, before, behind, hbefore.1, hbefore.2, hbehind.1, hbehind.2, rfl⟩

lemma search_of_not_faulty (h : ¬ row.Faulty) : dmStOkPattern.search row.render = true := by
  obtain ⟨hdmSt, hchkSt⟩ := not_or.1 h
  rw [not_not] at hdmSt hchkSt
  cases hbetween : row.between with
  | none =>
    have hfirst : ('[' : UInt8) :: (ascii "active" ++ [(']' : UInt8)])
        ∈ withBrackets (ascii "active") := by simp [withBrackets]
    have hsecond : ('[' : UInt8) :: (ascii "ready" ++ [(']' : UInt8)])
        ∈ withBrackets (ascii "ready") := by simp [withBrackets]
    have hnil : ∀ c ∈ ([] : CString), IsBlank c := fun c hc => absurd hc List.not_mem_nil
    refine search_of_append (u := row.front) (v := row.rest) row.before_blank row.behind_blank
      hfirst hsecond hnil ?_
    rw [render, states_of_none hbetween, hdmSt, hchkSt]
    simp
  | some between =>
    refine search_of_append (u := row.front) (v := row.rest) row.before_blank row.behind_blank
      (self_mem_withBrackets _) (self_mem_withBrackets _) (row.between_blank between hbetween).2 ?_
    rw [render, states, hbetween, hdmSt, hchkSt]
    simp

lemma search_of_tolerated (h : row.Tolerated) : dmStOkPattern.search row.render = true := by
  obtain ⟨hsome, hstates⟩ := h
  obtain ⟨between, hbetween⟩ := Option.ne_none_iff_exists'.1 hsome
  have hblank := row.between_blank between hbetween
  have hnil : ∀ c ∈ ([] : CString), IsBlank c := fun c hc => absurd hc List.not_mem_nil
  have hrender : row.render = row.front ++ (row.before ++ (row.dmSt.word
      ++ (between ++ (row.chkSt.word ++ (row.behind ++ row.rest))))) := by
    rw [render, states, hbetween]
    simp
  rcases hstates with ⟨hdmSt, hchkSt⟩ | hjoined | hjoined | ⟨hchkSt, word, hword, hready⟩
  · exact search_of_append row.before_blank row.behind_blank hdmSt hchkSt hblank.2 hrender
  · obtain ⟨first, hfirst, second, hsecond, hdmSt⟩ := mem_joinedStates.1 hjoined
    refine search_of_append (u := row.front) (v := row.chkSt.word ++ (row.behind ++ row.rest))
      row.before_blank hblank hfirst hsecond hnil ?_
    rw [hrender, hdmSt]
    simp
  · obtain ⟨first, hfirst, second, hsecond, hchkSt⟩ := mem_joinedStates.1 hjoined
    refine search_of_append (u := row.front ++ (row.before ++ row.dmSt.word)) (v := row.rest) hblank
      row.behind_blank hfirst hsecond hnil ?_
    rw [hrender, hchkSt]
    simp
  · -- the second word is the column behind the states
    obtain ⟨blanks, b, behind, hblanks, hb, hrest⟩ := exists_of_leadingColumn_eq_some hword
    have hbetween' : ∀ c ∈ row.behind ++ blanks, IsBlank c := fun c hc =>
      (List.mem_append.1 hc).elim (row.behind_blank.2 c) (hblanks c)
    have hbehind : [b] ≠ [] ∧ ∀ c ∈ [b], IsBlank c :=
      ⟨List.cons_ne_nil b [], fun c hc => List.mem_singleton.1 hc ▸ hb⟩
    refine search_of_append (u := row.front ++ (row.before ++ row.dmSt.word)) (v := behind) hblank
      hbehind hchkSt hready hbetween' ?_
    rw [hrender, hrest]
    simp

/-- The pattern is not found in faulty rows, tolerated ones apart. -/
lemma search_eq_false_iff :
    dmStOkPattern.search row.render = false ↔ row.Faulty ∧ ¬ row.Tolerated := by
  rw [← Bool.not_eq_true, ← not_iff_not, not_not, not_and_or, not_not]
  constructor
  · intro h
    cases hbetween : row.between with
    | none => exact .inl (not_faulty_of_search hbetween h)
    | some between => exact .inr (tolerated_of_search hbetween h)
  · rintro (h | h)
    · exact search_of_not_faulty h
    · exact search_of_tolerated h

variable (row)

lemma render_ne_nil : row.render ≠ [] := by
  obtain ⟨b, before, hbefore⟩ := List.exists_cons_of_ne_nil row.before_blank.1
  simp [render, hbefore]

lemma blank_plain {c : UInt8} (hc : IsBlank c) : c ≠ '\n' ∧ c ≠ 0 := by
  rcases hc with rfl | rfl <;> decide

/-- A row is a line. -/
lemma render_plain : ∀ c ∈ row.render, c ≠ '\n' ∧ c ≠ 0 := by
  have hstates : ∀ c ∈ row.states, c ≠ '\n' ∧ c ≠ 0 := by
    intro c hc
    rcases mem_states hc with rfl | rfl | hc | hc | ⟨b, hb, hc⟩
    · decide
    · decide
    · exact (row.dmSt.plain c hc).2
    · exact (row.chkSt.plain c hc).2
    · exact blank_plain ((row.between_blank b hb).2 c hc)
  intro c hc
  simp only [render, List.mem_append] at hc
  rcases hc with hc | hc | hc | hc | hc
  · exact row.plain c (List.mem_append_left _ hc)
  · exact blank_plain (row.before_blank.2 c hc)
  · exact hstates c hc
  · exact blank_plain (row.behind_blank.2 c hc)
  · exact row.plain c (List.mem_append_right _ hc)

end PathRow

end NagiosPlugins
