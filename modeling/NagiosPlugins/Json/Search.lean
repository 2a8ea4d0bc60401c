import NagiosPlugins.Json.Documents

/-!
# The search for a label

`json_search` takes the token behind the first string that spells the label, once some string has
spelled the object. It runs over the tokens one by one and does not look at how they are nested.
-/

namespace NagiosPlugins

open Libc

/-! ### The token array -/

/-- All tokens that are counted are allocated. -/
def JsmnParser.Filled (p : JsmnParser) : Prop := p.tokens.length = p.count

section Filled

variable {n k : ℕ} {p p' : JsmnParser} {c : UInt8} {cs : CString}

lemma JsmnParser.growSuper_length (p : JsmnParser) :
    p.growSuper.tokens.length = p.tokens.length := by
  rw [growSuper]
  split_ifs
  · rfl
  · exact List.length_modify ..

lemma jsmnOpen_filled {type : JsmnType} (h : jsmnOpen (some n) type p = .ok p')
    (hp : p.Filled) : p'.Filled := by
  simp only [jsmnOpen] at h
  obtain ⟨r, hr, hp'⟩ := Except.bind_eq_ok.1 h
  cases jsmnAllocToken_eq_ok hr
  cases Except.ok.inj hp'
  rw [JsmnParser.Filled] at hp ⊢
  simp [JsmnParser.growSuper_length, hp]

lemma jsmnClose_filled {type : JsmnType} (h : jsmnClose (some n) type p = .ok p')
    (hp : p.Filled) : p'.Filled := by
  simp only [jsmnClose] at h
  split at h
  · cases h
  split_ifs at h
  cases Except.ok.inj h
  rw [JsmnParser.Filled] at hp ⊢
  rwa [List.length_modify]

/-- A string or a primitive is one token more than is counted, until it is counted. -/
lemma length_of_alloc {stop : Except JsmnErr ℕ} {token : ℕ → JsmnTok} {skip : ℕ → ℕ}
    (h : (stop >>= fun e => jsmnAllocToken p n (token e) >>= fun r => .ok (skip e, r))
      = .ok (k, p')) :
    p'.tokens.length = p.tokens.length + 1 ∧ p'.count = p.count := by
  obtain ⟨e, -, h⟩ := Except.bind_eq_ok.1 h
  obtain ⟨r, hr, h⟩ := Except.bind_eq_ok.1 h
  cases jsmnAllocToken_eq_ok hr
  cases Except.ok.inj h
  exact ⟨List.length_append, rfl⟩

lemma afterLeaf_filled {q : JsmnParser} (hp : p.Filled)
    (hq : q.tokens.length = p.tokens.length + 1 ∧ q.count = p.count) :
    (afterLeaf (some n) q).Filled := by
  rw [JsmnParser.Filled] at hp ⊢
  simp [afterLeaf, JsmnParser.growSuper_length, hq.1, hq.2, hp]

lemma jsmnStep_filled (h : jsmnStep (some n) c cs p = .ok (k, p')) (hp : p.Filled) :
    p'.Filled := by
  have hbracket : ∀ {x : Except JsmnErr JsmnParser}, (∀ {r}, x = .ok r → r.Filled) →
      (x >>= fun r => pure (0, r)) = .ok (k, p') → p'.Filled := by
    intro x hx hbind
    obtain ⟨r, hr, hp'⟩ := Except.bind_eq_ok.1 hbind
    cases Except.ok.inj hp'
    exact hx hr
  have hleaf : ∀ {x : Except JsmnErr (ℕ × JsmnParser)},
      (∀ {j r}, x = .ok (j, r) → r.tokens.length = p.tokens.length + 1 ∧ r.count = p.count) →
      (x >>= fun a => pure (a.1, afterLeaf (some n) a.2)) = .ok (k, p') → p'.Filled := by
    intro x hx hbind
    obtain ⟨⟨j, r⟩, hr, hp'⟩ := Except.bind_eq_ok.1 hbind
    cases Except.ok.inj hp'
    exact afterLeaf_filled hp (hx hr)
  rw [jsmnStep] at h
  split_ifs at h
  · exact hbracket (fun hr => jsmnOpen_filled hr hp) h
  · exact hbracket (fun hr => jsmnOpen_filled hr hp) h
  · exact hbracket (fun hr => jsmnClose_filled hr hp) h
  · exact hbracket (fun hr => jsmnClose_filled hr hp) h
  · exact hleaf (fun hr => length_of_alloc hr) h
  · cases Except.ok.inj h
    exact hp
  · cases Except.ok.inj h
    exact hp
  · cases Except.ok.inj h
    obtain ⟨i, hi⟩ := jsmnComma_eq (some n) p
    rw [hi]
    exact hp
  · exact hleaf (fun hr => length_of_alloc hr) h

lemma jsmnLoop_filled {js : CString} {skip : ℕ} (h : jsmnLoop (some n) js skip p = .ok p')
    (hp : p.Filled) : p'.Filled := by
  induction js generalizing skip p with
  | nil =>
    cases Except.ok.inj h
    exact hp
  | cons c cs ih =>
    cases skip with
    | succ skip => exact ih h hp
    | zero =>
      simp only [jsmnLoop] at h
      split_ifs at h with hc
      · cases Except.ok.inj h
        exact hp
      · obtain ⟨⟨k, r⟩, hr, h⟩ := Except.bind_eq_ok.1 h
        have hr' : r.Filled := jsmnStep_filled hr hp
        exact ih h hr'

end Filled

/-- `json_tokenise` returns an array of as many tokens as it says. -/
theorem length_of_jsonTokenise {json : CString} {tokens : List JsmnTok} {n : ℕ}
    (h : jsonTokenise json = .ok (some (tokens, n))) : tokens.length = n := by
  rw [jsonTokenise] at h
  cases hfirst : jsmnParse none json with
  | error e => simp [hfirst] at h
  | ok a =>
    obtain ⟨r, ts⟩ := a
    cases hsecond : jsmnParse (some r) json with
    | error e => simp [hfirst, hsecond] at h
    | ok b =>
      obtain ⟨count, tokens'⟩ := b
      simp only [hfirst, hsecond, Except.ok.injEq, Option.some.injEq, Prod.mk.injEq] at h
      obtain ⟨rfl, rfl⟩ := h
      obtain ⟨p, hp, hpcount⟩ := Except.bind_eq_ok.1 hfirst
      obtain ⟨q, hq, hqtokens⟩ := Except.bind_eq_ok.1 hsecond
      have hr : p.count = r := (Prod.mk.inj (Except.ok.inj hpcount)).1
      have htokens : q.tokens = tokens' := by
        split_ifs at hqtokens
        exact (Prod.mk.inj (Except.ok.inj hqtokens)).2
      obtain ⟨p', hp', hcount⟩ := jsmnLoop_none hq (q := jsmnInit) ⟨rfl, rfl⟩
      have hfilled : q.Filled := jsmnLoop_filled hq rfl
      rw [hp] at hp'
      cases hp'
      rw [← htokens, hfilled, ← hcount.count, hr]

/-! ### The loop -/

/-- The tokens from the first string on that spells the label, but not the object, behind a string
that spells the object. -/
def tokensFromLabel (json object label : CString) (tokens : List JsmnTok) : List JsmnTok :=
  (tokens.dropWhile fun t => !jsonTokenStreq json t object).dropWhile fun t =>
    jsonTokenStreq json t object || !jsonTokenStreq json t label

lemma labelLoop_found (json object label : CString) (tokens : List JsmnTok)
    (value : Option CString) :
    labelLoop json object label tokens true value
      = match tokens.dropWhile fun t =>
          jsonTokenStreq json t object || !jsonTokenStreq json t label with
        | [] => .ok value
        | [_] => .error .outOfBounds
        | _ :: next :: _ => .ok (some (tokenText json next)) := by
  induction tokens with
  | nil => rfl
  | cons t tokens ih =>
    rw [labelLoop]
    cases hobject : jsonTokenStreq json t object with
    | true => simp [hobject, ih]
    | false =>
      cases hlabel : jsonTokenStreq json t label with
      | false => simp [hobject, hlabel, ih]
      | true =>
        have hstring : t.type = .string := by
          rw [jsonTokenStreq, decide_eq_true_iff] at hlabel
          exact hlabel.1
        cases tokens <;> simp [hobject, hlabel, hstring]

/-- What the search does to `*value`. -/
theorem labelLoop_eq (json object label : CString) (tokens : List JsmnTok)
    (value : Option CString) :
    labelLoop json object label tokens false value
      = match tokensFromLabel json object label tokens with
        | [] => .ok value
        | [_] => .error .outOfBounds
        | _ :: next :: _ => .ok (some (tokenText json next)) := by
  induction tokens with
  | nil => rfl
  | cons t tokens ih =>
    rw [labelLoop, tokensFromLabel]
    cases hobject : jsonTokenStreq json t object with
    | true => simp [hobject, labelLoop_found]
    | false => simpa [hobject, tokensFromLabel] using ih

/-- The value is taken from the token behind the one at which the loop breaks. -/
lemma labelLoop_eq_labelIndex (json object label : CString) (tokens : List JsmnTok)
    (foundObject : Bool) (value : Option CString) :
    labelLoop json object label tokens foundObject value
      = match labelIndex json object label tokens foundObject with
        | none => .ok value
        | some i =>
          match tokens[i + 1]? with
          | none => .error .outOfBounds
          | some next => .ok (some (tokenText json next)) := by
  induction tokens generalizing foundObject with
  | nil => rfl
  | cons t tokens ih =>
    rw [labelLoop, labelIndex]
    split_ifs with hobject hlabel
    · rw [ih]
      cases labelIndex json object label tokens true <;> rfl
    · cases tokens <;> rfl
    · rw [ih]
      cases labelIndex json object label tokens foundObject <;> rfl

end NagiosPlugins
