import NagiosPlugins.Json.Filling

/-!
# Tokenising JSON documents

What the filling pass accepts, the counting pass accepts with the same count. So
`json_tokenise` finds the tokens of every document.
-/

namespace NagiosPlugins

open Libc JsonText

/-! ### The counting pass -/

/-- The two passes are at the same byte and have seen as many tokens. -/
structure SameCount (p q : JsmnParser) : Prop where
  pos : q.pos = p.pos
  count : q.count = p.count

section Counting

variable {n k : ℕ} {p p' q : JsmnParser} {c : UInt8} {cs : CString}

lemma jsmnAllocToken_eq_ok {t : JsmnTok} (h : jsmnAllocToken p n t = .ok p') :
    p' = { p with tokens := p.tokens ++ [t] } := by
  rw [jsmnAllocToken] at h
  split_ifs at h
  exact (Except.ok.inj h).symm

lemma jsmnOpen_none {type : JsmnType} (h : jsmnOpen (some n) type p = .ok p')
    (hpq : SameCount p q) : ∃ q', jsmnOpen none type q = .ok q' ∧ SameCount p' q' := by
  simp only [jsmnOpen] at h
  obtain ⟨r, hr, hp'⟩ := Except.bind_eq_ok.1 h
  cases jsmnAllocToken_eq_ok hr
  cases Except.ok.inj hp'
  refine ⟨_, rfl, ?_, ?_⟩
  · simp [hpq.pos]
  · simp [hpq.count]

lemma jsmnClose_none {type : JsmnType} (h : jsmnClose (some n) type p = .ok p')
    (hpq : SameCount p q) : ∃ q', jsmnClose none type q = .ok q' ∧ SameCount p' q' := by
  refine ⟨q, rfl, ?_⟩
  simp only [jsmnClose] at h
  split at h
  · cases h
  split_ifs at h
  cases Except.ok.inj h
  exact ⟨hpq.pos, hpq.count⟩

lemma afterLeaf_none (hpq : SameCount p q) :
    SameCount (afterLeaf (some n) p) (afterLeaf none q) where
  pos := by simp [afterLeaf, hpq.pos]
  count := by simp [afterLeaf, hpq.count]

lemma jsmnParseString_none (h : jsmnParseString (some n) cs p = .ok (k, p'))
    (hpq : SameCount p q) :
    ∃ q', jsmnParseString none cs q = .ok (k, q') ∧ SameCount p' q' := by
  obtain ⟨stop, hstop, h⟩ := Except.bind_eq_ok.1 h
  obtain ⟨r, hr, h⟩ := Except.bind_eq_ok.1 h
  cases jsmnAllocToken_eq_ok hr
  cases Except.ok.inj h
  refine ⟨q, ?_, hpq.pos, hpq.count⟩
  simp only [jsmnParseString, hpq.pos, hstop, Except.ok_bind]

lemma jsmnParsePrimitive_none (h : jsmnParsePrimitive (some n) c cs p = .ok (k, p'))
    (hpq : SameCount p q) :
    ∃ q', jsmnParsePrimitive none c cs q = .ok (k, q') ∧ SameCount p' q' := by
  obtain ⟨stop, hstop, h⟩ := Except.bind_eq_ok.1 h
  obtain ⟨r, hr, h⟩ := Except.bind_eq_ok.1 h
  cases jsmnAllocToken_eq_ok hr
  cases Except.ok.inj h
  refine ⟨q, ?_, hpq.pos, hpq.count⟩
  simp only [jsmnParsePrimitive, hpq.pos, hstop, Except.ok_bind]

/-- Where the filling pass takes a step, the counting pass takes one over the same bytes. -/
lemma jsmnStep_none (h : jsmnStep (some n) c cs p = .ok (k, p')) (hpq : SameCount p q) :
    ∃ q', jsmnStep none c cs q = .ok (k, q') ∧ SameCount p' q' := by
  have hbracket : ∀ {f g : JsmnParser → Except JsmnErr JsmnParser},
      (∀ {r}, f p = .ok r → ∃ q', g q = .ok q' ∧ SameCount r q') →
      (f p >>= fun r => pure (0, r)) = .ok (k, p') →
      ∃ q', (g q >>= fun r => pure (0, r)) = .ok (k, q') ∧ SameCount p' q' := by
    intro f g hfg hf
    obtain ⟨r, hr, hp'⟩ := Except.bind_eq_ok.1 hf
    obtain ⟨q', hq', hrq⟩ := hfg hr
    cases Except.ok.inj hp'
    exact ⟨q', by rw [hq']; rfl, hrq⟩
  have hleaf : ∀ {x y : Except JsmnErr (ℕ × JsmnParser)},
      (∀ {j r}, x = .ok (j, r) → ∃ q', y = .ok (j, q') ∧ SameCount r q') →
      (x >>= fun a => pure (a.1, afterLeaf (some n) a.2)) = .ok (k, p') →
      ∃ q', (y >>= fun a => pure (a.1, afterLeaf none a.2)) = .ok (k, q') ∧ SameCount p' q' := by
    intro x y hxy hx
    obtain ⟨⟨j, r⟩, hr, hp'⟩ := Except.bind_eq_ok.1 hx
    obtain ⟨q', hq', hrq⟩ := hxy hr
    cases Except.ok.inj hp'
    exact ⟨_, by rw [hq']; rfl, afterLeaf_none hrq⟩
  rw [jsmnStep] at h ⊢
  split_ifs at h ⊢
  · exact hbracket (fun hr => jsmnOpen_none hr hpq) h
  · exact hbracket (fun hr => jsmnOpen_none hr hpq) h
  · exact hbracket (fun hr => jsmnClose_none hr hpq) h
  · exact hbracket (fun hr => jsmnClose_none hr hpq) h
  · exact hleaf (fun hr => jsmnParseString_none hr hpq) h
  · cases Except.ok.inj h
    exact ⟨q, rfl, hpq⟩
  · cases Except.ok.inj h
    exact ⟨_, rfl, hpq.pos, hpq.count⟩
  · cases Except.ok.inj h
    obtain ⟨i, hi⟩ := jsmnComma_eq (some n) p
    rw [hi]
    exact ⟨q, rfl, hpq.pos, hpq.count⟩
  · exact hleaf (fun hr => jsmnParsePrimitive_none hr hpq) h

/-- What the filling pass accepts, the counting pass accepts with the same count. -/
lemma jsmnLoop_none {js : CString} {skip : ℕ} (h : jsmnLoop (some n) js skip p = .ok p')
    (hpq : SameCount p q) :
    ∃ q', jsmnLoop none js skip q = .ok q' ∧ SameCount p' q' := by
  induction js generalizing skip p q with
  | nil =>
    cases Except.ok.inj h
    exact ⟨q, rfl, hpq⟩
  | cons c cs ih =>
    cases skip with
    | succ skip => exact ih h ⟨by simp [hpq.pos], hpq.count⟩
    | zero =>
      simp only [jsmnLoop] at h ⊢
      split_ifs at h ⊢ with hc
      · cases Except.ok.inj h
        exact ⟨q, rfl, hpq⟩
      · obtain ⟨⟨k, r⟩, hr, h⟩ := Except.bind_eq_ok.1 h
        obtain ⟨q', hq', hrq⟩ := jsmnStep_none hr hpq
        rw [hq']
        exact ih h ⟨by simp [hrq.pos], hrq.count⟩

end Counting

/-! ### Documents -/

lemma lastIndex_eq_none {P : JsmnTok → Bool} {tokens : List JsmnTok}
    (h : ∀ t ∈ tokens, P t = false) (n : ℕ) : lastIndex P tokens n = none := by
  induction n with
  | zero => rfl
  | succ n ih =>
    have hany : tokens[n]?.any P = false := by
      cases ht : tokens[n]? with
      | none => rfl
      | some t => exact h t (List.mem_of_getElem? ht)
    simp [lastIndex, hany, ih]

/-- A token of jsmn and the token of the value that it stands for. -/
structure JsmnTok.Spells (text : CString) (t : JsmnTok) (x : Token) : Prop where
  type : t.type = JsmnType.ofKind x.kind
  length : t.end_ - t.start = x.text.length
  text : tokenText text t = x.text

lemma JsmnTok.spells_of_place {text : CString} {t : JsmnTok} {s : Span} {x : Token}
    (ht : t.place = Place.ofSpan s) (hs : s.Cuts text x) : t.Spells text x := by
  obtain ⟨A, B, rfl, rfl⟩ := hs
  have hstart : t.start = A.length := congrArg (·.2.1) ht
  have hend : t.end_ = (A.length + x.text.length : ℕ) := congrArg (·.2.2) ht
  refine ⟨congrArg Prod.fst ht, ?_, ?_⟩
  · rw [hstart, hend]
    omega
  · have hlen : t.end_ - t.start = x.text.length := by
      rw [hstart, hend]
      omega
    rw [tokenText, hlen, hstart]
    simp

/-- `json_token_streq` compares the token with a string. -/
lemma JsmnTok.Spells.streq {text : CString} {t : JsmnTok} {x : Token} (h : t.Spells text x)
    (s : CString) : jsonTokenStreq text t s = decide (x = ⟨.string, s⟩) := by
  obtain ⟨kind, bytes⟩ := x
  have htype : t.type = .string ↔ kind = .string := by
    rw [h.type]
    cases kind <;> simp [JsmnType.ofKind]
  have hlen : bytes = s → (s.length : ℤ) = bytes.length := fun hs => by rw [hs]
  simp only [jsonTokenStreq, h.length, h.text, htype, Token.mk.injEq]
  refine decide_eq_decide.2 ⟨fun ⟨hk, _, hs⟩ => ⟨hk, hs⟩, fun ⟨hk, hs⟩ => ⟨hk, hlen hs, hs⟩⟩

lemma forall₂_spells {text : CString} {tokens : List JsmnTok} {spans : List Span}
    {xs : List Token} (hplaces : tokens.map JsmnTok.place = spans.map Place.ofSpan)
    (hspans : List.Forall₂ (Span.Cuts text) spans xs) :
    List.Forall₂ (JsmnTok.Spells text) tokens xs := by
  induction hspans generalizing tokens with
  | nil =>
    rw [List.map_nil, List.map_eq_nil_iff] at hplaces
    rw [hplaces]
    exact .nil
  | cons hs _ ih =>
    obtain ⟨t, ts, rfl, ht, hts⟩ := List.map_eq_cons_iff.1 hplaces
    exact .cons (JsmnTok.spells_of_place ht hs) (ih hts)

/-- Both passes of `json_tokenise` accept a document and find the tokens of its value. -/
theorem jsonTokenise_document (d : Document) :
    ∃ tokens, jsonTokenise d.text = .ok (some (tokens, d.value.tokens.length)) ∧
      List.Forall₂ (JsmnTok.Spells d.text) tokens d.value.tokens := by
  have hread : Reads d.value.tokens.length jsmnInit d.text []
      ((d.value.spans d.before.bytes.length).map Place.ofSpan) := by
    apply (reads_ws d.before).skip
    intro q hpos hlen
    have hpos' : q.pos = d.before.bytes.length := by simpa [jsmnInit] using hpos
    rw [← List.append_nil (d.value.spans _), List.map_append, ← hpos']
    refine (reads_json d.value ?_ ?_).append fun r _ => reads_ws d.after
    · simp [hlen, jsmnInit]
    · exact boundary_ws d.after (by simp [Boundary])
  obtain ⟨p, hloop, hp⟩ := hread
  rw [List.append_nil, jsmnLoop] at hloop
  obtain ⟨q, hloop', hq⟩ := jsmnLoop_none hloop (q := jsmnInit) ⟨rfl, rfl⟩
  have hplaces : p.tokens.map JsmnTok.place
      = (d.value.spans d.before.bytes.length).map Place.ofSpan := hp.places
  have hclosed : ∀ t ∈ p.tokens, t.isOpen = false := by
    intro t ht
    have hmem : t.place ∈ (d.value.spans d.before.bytes.length).map Place.ofSpan :=
      hplaces ▸ List.mem_map_of_mem ht
    obtain ⟨x, _, hx⟩ := List.mem_map.1 hmem
    rw [JsmnTok.isOpen_eq, ← hx]
    exact Place.ofSpan_closed x
  have hcount : q.count = d.value.tokens.length := by
    rw [hq.count, hp.count, List.length_map, Json.length_spans]
    simp [jsmnInit]
  have hfirst : jsmnParse none d.text = .ok (d.value.tokens.length, q.tokens) := by
    simp [jsmnParse, hloop', hcount]
  have hsecond : jsmnParse (some d.value.tokens.length) d.text = .ok (p.count, p.tokens) := by
    simp [jsmnParse, hloop, lastIndex_eq_none hclosed]
  refine ⟨p.tokens, by simp only [jsonTokenise, hfirst, hsecond], ?_⟩
  exact forall₂_spells hplaces (d.value.spans_tokens (A := d.before.bytes) rfl rfl)

end NagiosPlugins
