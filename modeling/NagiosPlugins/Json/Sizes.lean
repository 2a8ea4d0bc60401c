import NagiosPlugins.Json.Layout

/-!
# The sizes of the tokens of a document

The field `size` of a token depends on the superior tokens at the time: a container counts its
elements or members, the name of a member counts its value. On a JSON document both are what the
text says, whichever superior token a value leaves behind.
-/

lemma List.modify_append_left {α : Type*} (f : α → α) (A B : List α) {i : ℕ}
    (h : i < A.length) : (A ++ B).modify i f = A.modify i f ++ B := by
  induction A generalizing i with
  | nil => cases h
  | cons a A ih =>
    cases i with
    | zero => rfl
    | succ i => simp [ih (Nat.lt_of_succ_lt_succ h)]

namespace NagiosPlugins

open Libc JsonText

/-! ### The tokens of a value -/

/-- The number of elements of an array. -/
def countItems : Items → ℕ
  | .nil => 0
  | .cons _ _ _ rest => countItems rest + 1

/-- The number of members of an object. -/
def countMembers : Members → ℕ
  | .nil => 0
  | .cons _ _ _ _ _ _ rest => countMembers rest + 1

mutual

/-- The tokens of a value that stands at `pos`, with their sizes. -/
def valueTokens (pos : ℕ) : Json → List JsmnTok
  | .literal l => [⟨.primitive, pos, (pos + l.text.length : ℕ), 0⟩]
  | .string s => [⟨.string, (pos + 1 : ℕ), (pos + 1 + s.bytes.length : ℕ), 0⟩]
  | .array ws items =>
    ⟨.array, pos, (pos + (Json.array ws items).render.length : ℕ), countItems items⟩
      :: itemTokens true (pos + 1 + ws.bytes.length) items
  | .object ws members =>
    ⟨.object, pos, (pos + (Json.object ws members).render.length : ℕ), countMembers members⟩
      :: memberTokens true (pos + 1 + ws.bytes.length) members

def itemTokens (first : Bool) (pos : ℕ) : Items → List JsmnTok
  | .nil => []
  | .cons before value after rest =>
    let start := pos + (separator first).length + before.bytes.length
    valueTokens start value
      ++ itemTokens false (start + value.render.length + after.bytes.length) rest

def memberTokens (first : Bool) (pos : ℕ) : Members → List JsmnTok
  | .nil => []
  | .cons before name beforeColon afterColon value after rest =>
    let start := pos + (separator first).length + before.bytes.length
    let startValue := start + name.quoted.length + beforeColon.bytes.length + 1
      + afterColon.bytes.length
    ⟨.string, (start + 1 : ℕ), (start + 1 + name.bytes.length : ℕ), 1⟩
      :: (valueTokens startValue value
        ++ memberTokens false (startValue + value.render.length + after.bytes.length) rest)

end

mutual

lemma length_valueTokens (pos : ℕ) (v : Json) :
    (valueTokens pos v).length = v.tokens.length := by
  match v with
  | .literal l => rfl
  | .string s => rfl
  | .array ws items => simp [valueTokens, Json.tokens, length_itemTokens]
  | .object ws members => simp [valueTokens, Json.tokens, length_memberTokens]

lemma length_itemTokens (first : Bool) (pos : ℕ) (items : Items) :
    (itemTokens first pos items).length = items.tokens.length := by
  match items with
  | .nil => rfl
  | .cons before value after rest =>
    simp [itemTokens, Items.tokens, length_valueTokens, length_itemTokens]

lemma length_memberTokens (first : Bool) (pos : ℕ) (members : Members) :
    (memberTokens first pos members).length = members.tokens.length := by
  match members with
  | .nil => rfl
  | .cons before name beforeColon afterColon value after rest =>
    simp [memberTokens, Members.tokens, length_valueTokens, length_memberTokens]

end

mutual

/-- No token of a value is left open. -/
lemma valueTokens_closed (pos : ℕ) (v : Json) : ∀ t ∈ valueTokens pos v, t.isOpen = false := by
  match v with
  | .literal l => exact List.forall_mem_singleton.2 (JsmnTok.isOpen_eq_false rfl)
  | .string s => exact List.forall_mem_singleton.2 (JsmnTok.isOpen_eq_false rfl)
  | .array ws items =>
    exact List.forall_mem_cons.2 ⟨JsmnTok.isOpen_eq_false rfl, itemTokens_closed true _ items⟩
  | .object ws members =>
    exact List.forall_mem_cons.2 ⟨JsmnTok.isOpen_eq_false rfl, memberTokens_closed true _ members⟩

lemma itemTokens_closed (first : Bool) (pos : ℕ) (items : Items) :
    ∀ t ∈ itemTokens first pos items, t.isOpen = false := by
  match items with
  | .nil => simp [itemTokens]
  | .cons before value after rest =>
    rw [itemTokens]
    exact List.forall_mem_append.2 ⟨valueTokens_closed _ value, itemTokens_closed false _ rest⟩

lemma memberTokens_closed (first : Bool) (pos : ℕ) (members : Members) :
    ∀ t ∈ memberTokens first pos members, t.isOpen = false := by
  match members with
  | .nil => simp [memberTokens]
  | .cons before name beforeColon afterColon value after rest =>
    rw [memberTokens]
    refine List.forall_mem_cons.2 ⟨JsmnTok.isOpen_eq_false rfl, ?_⟩
    exact List.forall_mem_append.2
      ⟨valueTokens_closed _ value, memberTokens_closed false _ rest⟩

end

/-! ### The superior token -/

/-- A change that the property does not see. -/
lemma lastIndex_modify {P : JsmnTok → Bool} {f : JsmnTok → JsmnTok} (hf : ∀ t, P (f t) = P t)
    (tokens : List JsmnTok) (i m : ℕ) :
    lastIndex P (tokens.modify i f) m = lastIndex P tokens m := by
  induction m with
  | zero => rfl
  | succ m ih =>
    have hany : (tokens.modify i f)[m]?.any P = tokens[m]?.any P := by
      rw [List.getElem?_modify]
      cases tokens[m]? with
      | none => rfl
      | some t =>
        by_cases him : i = m
        · simp [him, hf]
        · simp [him]
    rw [lastIndex, lastIndex, hany, ih]

namespace JsmnParser

variable {p : JsmnParser} {X C : List JsmnTok} {t : JsmnTok}

/-- The last open token. -/
def top (p : JsmnParser) : ℤ := toIndex (lastIndex JsmnTok.isOpen p.tokens p.tokens.length)

lemma growSuper_eq {a : ℕ} (h : p.toksuper = a) :
    p.growSuper.tokens = p.tokens.modify a fun t => { t with size := t.size + 1 } := by
  rw [growSuper, if_neg (by omega), h, Int.toNat_natCast]

lemma growSuper_top (p : JsmnParser) : p.growSuper.top = p.top := by
  rw [top, top, growSuper_length, growSuper]
  split_ifs
  · rfl
  · simp only
    rw [lastIndex_modify]
    exact fun _ => rfl

/-- The superior token is one of those in front of the new token. -/
lemma push_tokens (h : -1 ≤ p.toksuper ∧ p.toksuper < p.tokens.length) (u : JsmnTok) :
    (p.push u).tokens = p.growSuper.tokens ++ [u] := by
  rw [push, growSuper, growSuper]
  simp only
  split_ifs with hsuper
  · rfl
  · exact List.modify_append_left _ _ _ (by omega)

/-- The parser has read the contents `C` of the open container `t`, and the superior token is the
container or the name of a member in it. -/
structure Within (p : JsmnParser) (X : List JsmnTok) (t : JsmnTok) (C : List JsmnTok) : Prop where
  tokens : p.tokens = X ++ t :: C
  isOpen : t.isOpen
  isContainer : t.isContainer
  closed : ∀ u ∈ C, u.isOpen = false
  toksuper : p.toksuper = X.length ∨
    ∃ (k : ℕ) (u : JsmnTok), p.toksuper = k ∧ p.tokens[k]? = some u ∧ u.isContainer = false

namespace Within

lemma top_eq (h : p.Within X t C) : p.top = X.length := by
  rw [top, h.tokens, lastIndex_append _ h.isOpen h.closed, toIndex]

lemma move (h : p.Within X t C) (pos : ℕ) : ({ p with pos } : JsmnParser).Within X t C :=
  ⟨h.tokens, h.isOpen, h.isContainer, h.closed, h.toksuper⟩

lemma back (h : p.Within X t C) (pos : ℕ) :
    ({ p with pos, toksuper := X.length } : JsmnParser).Within X t C :=
  ⟨h.tokens, h.isOpen, h.isContainer, h.closed, .inl rfl⟩

lemma growSuper_tokens (h : p.Within X t C) (hsuper : p.toksuper = X.length) :
    p.growSuper.tokens = X ++ { t with size := t.size + 1 } :: C := by
  rw [growSuper_eq hsuper, h.tokens, List.modify_length_append]

lemma in_range (h : p.Within X t C) (hsuper : p.toksuper = X.length) :
    -1 ≤ p.toksuper ∧ p.toksuper < p.tokens.length := by
  rw [hsuper, h.tokens, List.length_append, List.length_cons]
  omega

end Within

end JsmnParser

/-! ### Lexical elements -/

/-- The filling pass moves over `s`, in front of `rest`, from `p` to `p'`. -/
def Goes (n : ℕ) (s rest : CString) (p p' : JsmnParser) : Prop :=
  jsmnLoop (some n) (s ++ rest) 0 p = jsmnLoop (some n) rest 0 p'

section Lexical

open JsmnParser

variable {n : ℕ} {p q r : JsmnParser} {s s' rest : CString} {X C : List JsmnTok} {t : JsmnTok}

lemma Goes.trans (h : Goes n s (s' ++ rest) p q) (h' : Goes n s' rest q r) :
    Goes n (s ++ s') rest p r := by
  rw [Goes, List.append_assoc]
  exact Eq.trans h h'

lemma goes_ws (ws : Ws) :
    Goes n ws.bytes rest p { p with pos := p.pos + ws.bytes.length } :=
  jsmnLoop_ws (some n) p rest ws

lemma goes_leaf {c : UInt8} (t : JsmnTok) (hc : c ≠ 0)
    (hstep : jsmnStep (some n) c (s ++ rest) p
      = .ok (s.length, afterLeaf (some n) { p with tokens := p.tokens ++ [t] })) :
    Goes n (c :: s) rest p { p.push t with pos := p.pos + (c :: s).length } := by
  have hloop := jsmnLoop_cons hc hstep
  rw [jsmnLoop_skip] at hloop
  refine hloop.trans ?_
  have hpos : (afterLeaf (some n) { p with tokens := p.tokens ++ [t] }).pos = p.pos :=
    growSuper_pos _
  simp only [hpos, List.length_cons, Nat.add_assoc, Nat.add_comm 1]
  rfl

lemma goes_string (s : Str) (hn : p.tokens.length < n) :
    Goes n s.quoted rest p
      { p.push ⟨.string, (p.pos + 1 : ℕ), (p.pos + 1 + s.bytes.length : ℕ), 0⟩ with
        pos := p.pos + s.quoted.length } := by
  have hlen : p.pos + 1 + s.bytes.length - p.pos = (s.bytes ++ [('"' : UInt8)]).length := by
    simp only [List.length_append, List.length_cons, List.length_nil]
    omega
  have hscan : stringLoop ((s.bytes ++ [('"' : UInt8)]) ++ rest) 0 (p.pos + 1)
      = .ok (p.pos + 1 + s.bytes.length) := by
    rw [List.append_assoc]
    exact stringLoop_bytes rest s.valid (p.pos + 1)
  have h0 : ('"' : UInt8) ≠ 0 := by decide
  refine goes_leaf _ h0 ?_
  have hstep : jsmnStep (some n) '"' ((s.bytes ++ [('"' : UInt8)]) ++ rest) p
      = jsmnParseString (some n) ((s.bytes ++ [('"' : UInt8)]) ++ rest) p >>= fun result =>
        .ok (result.1, afterLeaf (some n) result.2) := rfl
  rw [hstep, jsmnParseString, hscan]
  simp only [Except.ok_bind, jsmnAllocToken_of_lt _ hn, hlen]
  rfl

lemma goes_literal (l : Literal) (hn : p.tokens.length < n) (hrest : Boundary rest) :
    Goes n l.text rest p
      { p.push ⟨.primitive, p.pos, (p.pos + l.text.length : ℕ), 0⟩ with
        pos := p.pos + l.text.length } := by
  have hscan := primitiveLoop_literal l.isLiteral hrest p.pos
  obtain ⟨text, hne, hlit⟩ := l
  cases text with
  | nil => exact absurd rfl hne
  | cons c s =>
    have h0 : ∀ c : UInt8, isLiteralByte c → c ≠ 0 := by decide +kernel
    have hc : isLiteralByte c := hlit c (by simp)
    refine goes_leaf _ (h0 c hc) ?_
    have hlen : p.pos + (c :: s).length - p.pos - 1 = s.length := by
      simp only [List.length_cons]
      omega
    rw [jsmnStep_literal hc, jsmnParsePrimitive, ← List.cons_append, hscan]
    simp only [Except.ok_bind, jsmnAllocToken_of_lt _ hn, hlen]
    rfl

lemma goes_colon :
    Goes n [(':' : UInt8)] rest p { p with pos := p.pos + 1, toksuper := p.tokens.length - 1 } := by
  have h0 : (':' : UInt8) ≠ 0 := by decide
  have hstep : jsmnStep (some n) ':' rest p = .ok (0, { p with toksuper := p.toknext - 1 }) := rfl
  exact jsmnLoop_cons h0 hstep

/-- Behind a comma the container is the superior token again. -/
lemma goes_separator (first : Bool) (hp : p.Within X t C)
    (hfirst : first → p.toksuper = X.length) :
    Goes n (separator first) rest p
      { p with pos := p.pos + (separator first).length, toksuper := X.length } := by
  cases first with
  | true =>
    rw [← hfirst rfl]
    rfl
  | false =>
    have h0 : (',' : UInt8) ≠ 0 := by decide
    have hstep : jsmnStep (some n) ',' rest p = .ok (0, jsmnComma (some n) p) := rfl
    have hcomma : jsmnComma (some n) p = { p with toksuper := X.length } := by
      simp only [jsmnComma]
      rcases hp.toksuper with hsuper | ⟨k, u, hsuper, hu, hleaf⟩
      · have hany : p.tokens[p.toksuper.toNat]?.any (fun t => !t.isContainer) = false := by
          rw [hsuper, Int.toNat_natCast, hp.tokens]
          simp [hp.isContainer]
        rw [if_neg (by simp [hany]), ← hsuper]
      · have hany : p.tokens[p.toksuper.toNat]?.any (fun t => !t.isContainer) = true := by
          rw [hsuper, Int.toNat_natCast, hu]
          simp [hleaf]
        have hlast : lastIndex (fun t => t.isContainer && t.isOpen) p.tokens p.toknext
            = some X.length := by
          rw [toknext, hp.tokens]
          refine lastIndex_append _ ?_ fun u hu => ?_
          · simp [hp.isContainer, hp.isOpen]
          · simp [hp.closed u hu]
        rw [if_pos ⟨by omega, hany⟩, hlast]
    rw [hcomma] at hstep
    exact jsmnLoop_cons h0 hstep

variable {type : JsmnType} {opening closing : UInt8}

lemma goes_open (h : Brackets type opening closing) (hn : p.tokens.length < n) :
    Goes n [opening] rest p
      { p.push ⟨type, p.pos, -1, 0⟩ with pos := p.pos + 1, toksuper := p.tokens.length } := by
  have h0 : opening ≠ 0 := by cases h <;> decide
  have hstep : jsmnStep (some n) opening rest p
      = (jsmnOpen (some n) type p >>= fun parser => .ok (0, parser)) := by
    cases h <;> rfl
  have hopen : ∃ p', jsmnOpen (some n) type p = .ok p' := by
    simp only [jsmnOpen, jsmnAllocToken_of_lt (p := { p with count := p.count + 1 }) _ hn]
    exact ⟨_, rfl⟩
  obtain ⟨p', hp'⟩ := hopen
  rw [hp', Except.ok_bind, jsmnOpen_eq_ok hp'] at hstep
  refine (jsmnLoop_cons h0 hstep).trans ?_
  simp only [push_pos]

lemma goes_close (h : Brackets type opening closing) (hp : p.Within X t C)
    (htype : t.type = type) :
    Goes n [closing] rest p
      { p with
        pos := p.pos + 1
        tokens := X ++ { t with end_ := (p.pos + 1 : ℕ) } :: C
        toksuper := toIndex (lastIndex JsmnTok.isOpen X X.length) } := by
  have h0 : closing ≠ 0 := by cases h <;> decide
  have hstep : jsmnStep (some n) closing rest p
      = (jsmnClose (some n) type p >>= fun parser => .ok (0, parser)) := by
    cases h <;> rfl
  have hlast : lastIndex JsmnTok.isOpen p.tokens p.toknext = some X.length := by
    rw [toknext, hp.tokens, lastIndex_append _ hp.isOpen hp.closed]
  have hget : p.tokens[X.length]?.any (·.type = type) = true := by
    simp [hp.tokens, htype]
  have hclosed : JsmnTok.isOpen { t with end_ := (p.pos + 1 : ℕ) } = false :=
    JsmnTok.isOpen_eq_false rfl
  have hclose : jsmnClose (some n) type p = .ok { p with
      tokens := X ++ { t with end_ := (p.pos + 1 : ℕ) } :: C
      toksuper := toIndex (lastIndex JsmnTok.isOpen X X.length) } := by
    simp only [jsmnClose, hlast, hget, if_true]
    rw [hp.tokens, List.modify_length_append]
    have hcast : (p.pos : ℤ) + 1 = (p.pos + 1 : ℕ) := by omega
    rw [hcast, lastIndex_snoc, hclosed]
    rfl
  rw [hclose] at hstep
  exact jsmnLoop_cons h0 hstep

end Lexical

/-! ### Values -/

/-- Behind a value: the superior token has grown by one, the tokens `ts` are new, and the superior
token is the same, unless a closing bracket has gone back to the last open one. -/
structure JsmnParser.Behind (p p' : JsmnParser) (len : ℕ) (ts : List JsmnTok) : Prop where
  pos : p'.pos = p.pos + len
  tokens : p'.tokens = p.growSuper.tokens ++ ts
  toksuper : p'.toksuper = p.toksuper ∨ p'.toksuper = p.top

/-- Behind the contents of a container: `k` elements or members more, with the tokens `ts`. -/
structure JsmnParser.Contains (p p' : JsmnParser) (X : List JsmnTok) (t : JsmnTok)
    (C : List JsmnTok) (len k : ℕ) (ts : List JsmnTok) : Prop where
  pos : p'.pos = p.pos + len
  within : p'.Within X { t with size := t.size + k } (C ++ ts)

section Values

open JsmnParser

variable {n : ℕ} {p : JsmnParser} {rest : CString} {X C : List JsmnTok} {t : JsmnTok}
  {type : JsmnType} {opening closing : UInt8}

lemma behind_leaf (hp : -1 ≤ p.toksuper ∧ p.toksuper < p.tokens.length) (u : JsmnTok) (len : ℕ) :
    p.Behind { p.push u with pos := p.pos + len } len [u] := by
  refine ⟨rfl, push_tokens hp u, .inl ?_⟩
  simp only [push, growSuper]
  split_ifs <;> rfl

/-- A container between its brackets. -/
lemma goes_brackets (h : Brackets type opening closing) {s : CString} {k : ℕ}
    {ts : List JsmnTok} (hp : -1 ≤ p.toksuper ∧ p.toksuper < p.tokens.length)
    (hn : p.tokens.length < n)
    (hs : ∀ q : JsmnParser, q.pos = p.pos + 1 → q.toksuper = p.growSuper.tokens.length →
      q.Within p.growSuper.tokens ⟨type, p.pos, -1, 0⟩ [] →
      ∃ q', Goes n s (closing :: rest) q q' ∧
        q.Contains q' p.growSuper.tokens ⟨type, p.pos, -1, 0⟩ [] s.length k ts) :
    ∃ p', Goes n (opening :: (s ++ [closing])) rest p p' ∧
      p.Behind p' (opening :: (s ++ [closing])).length
        (⟨type, p.pos, (p.pos + (opening :: (s ++ [closing])).length : ℕ), k⟩ :: ts) := by
  have hopened : Goes n [opening] ((s ++ [closing]) ++ rest) p _ := goes_open h hn
  obtain ⟨q', hgoes, hq'⟩ := hs
    { p.push ⟨type, p.pos, -1, 0⟩ with pos := p.pos + 1, toksuper := p.tokens.length }
    rfl (congrArg Nat.cast (growSuper_length p).symm)
    { tokens := push_tokens hp _
      isOpen := by
        have : (p.pos : ℤ) ≠ -1 := by omega
        simp [JsmnTok.isOpen, this]
      isContainer := by cases h <;> rfl
      closed := by simp
      toksuper := .inl (congrArg Nat.cast (growSuper_length p).symm) }
  have hclosed : Goes n [closing] rest q' _ := goes_close h hq'.within rfl
  have hcontents : Goes n (s ++ [closing]) rest _ _ := Goes.trans hgoes hclosed
  refine ⟨_, hopened.trans hcontents, ?_, ?_, ?_⟩
  · simp only [hq'.pos, List.length_cons, List.length_append, List.length_nil]
    omega
  · have hstop : q'.pos + 1 = p.pos + (opening :: (s ++ [closing])).length := by
      simp only [hq'.pos, List.length_cons, List.length_append, List.length_nil]
      omega
    simp [hstop]
  · right
    rw [← growSuper_top]
    rfl

/-- A value is one element of the container around it. -/
lemma JsmnParser.Behind.contains {p' : JsmnParser} {len : ℕ} {ts : List JsmnTok}
    (h : p.Behind p' len ts)
    (hp : p.Within X t C) (hsuper : p.toksuper = X.length) (hts : ∀ u ∈ ts, u.isOpen = false) :
    p.Contains p' X t C len 1 ts where
  pos := h.pos
  within :=
    { tokens := by
        rw [h.tokens, hp.growSuper_tokens hsuper, List.append_assoc]
        rfl
      isOpen := hp.isOpen
      isContainer := hp.isContainer
      closed := List.forall_mem_append.2 ⟨hp.closed, hts⟩
      toksuper := .inl (h.toksuper.elim (·.trans hsuper) (·.trans hp.top_eq)) }

/-- The value of a member is counted by the name of the member, which is counted by the object. -/
lemma JsmnParser.Behind.member {u : JsmnTok} {q p' : JsmnParser} {len : ℕ} {ts : List JsmnTok}
    (h : q.Behind p' len ts) (hp : p.Within X t C) (hsuper : p.toksuper = X.length)
    (hq : q.tokens = (p.push u).tokens) (hname : q.toksuper = p.tokens.length)
    (hclosed : u.isOpen = false) (hleaf : u.isContainer = false)
    (hts : ∀ v ∈ ts, v.isOpen = false) :
    p'.Within X { t with size := t.size + 1 } (C ++ { u with size := u.size + 1 } :: ts) := by
  have hqtokens : q.tokens = (X ++ { t with size := t.size + 1 } :: C) ++ [u] := by
    rw [hq, push_tokens (hp.in_range hsuper), hp.growSuper_tokens hsuper]
  have hlen : p.tokens.length = (X ++ { t with size := t.size + 1 } :: C).length := by
    rw [hp.tokens]
    simp
  have htop : q.top = X.length := by
    rw [top, hqtokens, List.append_assoc, List.cons_append, lastIndex_append, toIndex]
    · exact hp.isOpen
    · exact List.forall_mem_append.2 ⟨hp.closed, by simpa using hclosed⟩
  have htokens : p'.tokens = X ++ { t with size := t.size + 1 } ::
      (C ++ { u with size := u.size + 1 } :: ts) := by
    rw [h.tokens, growSuper_eq hname, hqtokens, hlen, List.modify_length_append]
    simp
  refine ⟨htokens, hp.isOpen, hp.isContainer, ?_, ?_⟩
  · exact List.forall_mem_append.2 ⟨hp.closed, List.forall_mem_cons.2 ⟨hclosed, hts⟩⟩
  · rcases h.toksuper with hsame | hsame
    · refine .inr ⟨p.tokens.length, { u with size := u.size + 1 }, hsame.trans hname, ?_, hleaf⟩
      rw [htokens, hlen, ← List.cons_append, ← List.append_assoc]
      simp
    · exact .inl (hsame.trans htop)

lemma JsmnParser.Contains.refl (hp : p.Within X t C) : p.Contains p X t C 0 0 [] where
  pos := rfl
  within := by simpa using hp

mutual

theorem goes_json {n : ℕ} {p : JsmnParser} {rest : CString} (v : Json)
    (hp : -1 ≤ p.toksuper ∧ p.toksuper < p.tokens.length)
    (hn : p.tokens.length + v.tokens.length ≤ n) (hrest : Boundary rest) :
    ∃ p', Goes n v.render rest p p' ∧ p.Behind p' v.render.length (valueTokens p.pos v) := by
  match v with
  | .literal l =>
    simp only [Json.tokens, List.length_cons, List.length_nil] at hn
    exact ⟨_, goes_literal l hn hrest, behind_leaf hp _ _⟩
  | .string s =>
    simp only [Json.tokens, List.length_cons, List.length_nil] at hn
    exact ⟨_, goes_string s hn, behind_leaf hp _ _⟩
  | .array ws items =>
    simp only [Json.tokens, List.length_cons] at hn
    simp only [Json.render, valueTokens, ← List.append_assoc]
    apply goes_brackets .array hp (by omega)
    intro q hpos hsuper hq
    have hlen : q.tokens.length = p.tokens.length + 1 := by
      rw [hq.tokens, List.length_append, growSuper_length]
      rfl
    have hn' : q.tokens.length + items.tokens.length ≤ n := by omega
    have hboundary : Boundary ((']' : UInt8) :: rest) := boundary_cons (by decide) rest
    obtain ⟨q', hgoes, hq'⟩ := goes_items true items (hq.move (q.pos + ws.bytes.length))
      (fun _ => hsuper) hn' hboundary
    refine ⟨q', (goes_ws ws).trans hgoes, ?_, ?_⟩
    · rw [hq'.pos, List.length_append, ← Nat.add_assoc]
    · simpa [hpos] using hq'.within
  | .object ws members =>
    simp only [Json.tokens, List.length_cons] at hn
    simp only [Json.render, valueTokens, ← List.append_assoc]
    apply goes_brackets .object hp (by omega)
    intro q hpos hsuper hq
    have hlen : q.tokens.length = p.tokens.length + 1 := by
      rw [hq.tokens, List.length_append, growSuper_length]
      rfl
    have hn' : q.tokens.length + members.tokens.length ≤ n := by omega
    have hboundary : Boundary (('\x7d' : UInt8) :: rest) := boundary_cons (by decide) rest
    obtain ⟨q', hgoes, hq'⟩ := goes_members true members (hq.move (q.pos + ws.bytes.length))
      (fun _ => hsuper) hn' hboundary
    refine ⟨q', (goes_ws ws).trans hgoes, ?_, ?_⟩
    · rw [hq'.pos, List.length_append, ← Nat.add_assoc]
    · simpa [hpos] using hq'.within

theorem goes_items {n : ℕ} {p : JsmnParser} {rest : CString} {X C : List JsmnTok} {t : JsmnTok}
    (first : Bool) (items : Items) (hp : p.Within X t C) (hfirst : first → p.toksuper = X.length)
    (hn : p.tokens.length + items.tokens.length ≤ n) (hrest : Boundary rest) :
    ∃ p', Goes n (items.render first) rest p p' ∧
      p.Contains p' X t C (items.render first).length (countItems items)
        (itemTokens first p.pos items) := by
  match items with
  | .nil => exact ⟨p, rfl, Contains.refl hp⟩
  | .cons before value after items =>
    simp only [Items.tokens, List.length_append] at hn
    let start := p.pos + (separator first).length + before.bytes.length
    let q : JsmnParser := { p with pos := start, toksuper := X.length }
    have hq : q.Within X t C := hp.back start
    have hboundary : Boundary (after.bytes ++ (items.render false ++ rest)) :=
      boundary_ws after (boundary_items items hrest)
    have hn₁ : q.tokens.length + value.tokens.length ≤ n := by
      simp only [q]
      omega
    obtain ⟨r, hvalue, hr⟩ := goes_json value (hq.in_range rfl) hn₁ hboundary
    have hr' := hr.contains hq rfl (valueTokens_closed _ value)
    have hlen : r.tokens.length = p.tokens.length + value.tokens.length := by
      rw [hr.tokens, List.length_append, growSuper_length, length_valueTokens]
    have hn₂ : r.tokens.length + items.tokens.length ≤ n := by omega
    obtain ⟨p', hgoes, hp'⟩ := goes_items false items
      (hr'.within.move (r.pos + after.bytes.length)) (by simp) hn₂ hrest
    refine ⟨p', ?_, ?_, ?_⟩
    · simp only [Items.render]
      refine (goes_separator first hp hfirst).trans ((goes_ws before).trans ?_)
      exact Goes.trans (by simpa using hvalue) ((goes_ws after).trans hgoes)
    · simp only [hp'.pos, hr.pos, Items.render, List.length_append, q, start]
      omega
    · have hsize : t.size + 1 + (countItems items : ℤ) = t.size + (countItems items + 1) := by
        omega
      have hstart : r.pos = start + value.render.length := hr.pos
      simpa [itemTokens, countItems, hsize, hstart, q, start] using hp'.within

theorem goes_members {n : ℕ} {p : JsmnParser} {rest : CString} {X C : List JsmnTok} {t : JsmnTok}
    (first : Bool) (members : Members) (hp : p.Within X t C)
    (hfirst : first → p.toksuper = X.length)
    (hn : p.tokens.length + members.tokens.length ≤ n) (hrest : Boundary rest) :
    ∃ p', Goes n (members.render first) rest p p' ∧
      p.Contains p' X t C (members.render first).length (countMembers members)
        (memberTokens first p.pos members) := by
  match members with
  | .nil => exact ⟨p, rfl, Contains.refl hp⟩
  | .cons before name beforeColon afterColon value after members =>
    simp only [Members.tokens, List.length_cons, List.length_append] at hn
    let start := p.pos + (separator first).length + before.bytes.length
    let q : JsmnParser := { p with pos := start, toksuper := X.length }
    have hq : q.Within X t C := hp.back start
    let u : JsmnTok := ⟨.string, (start + 1 : ℕ), (start + 1 + name.bytes.length : ℕ), 0⟩
    have hn₁ : q.tokens.length < n := by
      simp only [q]
      omega
    -- the superior token of the value is its name
    have hlenpush : (q.push u).tokens.length = p.tokens.length + 1 := by
      rw [push_tokens (hq.in_range rfl), List.length_append, growSuper_length]
      rfl
    let startValue := start + name.quoted.length + beforeColon.bytes.length + 1
      + afterColon.bytes.length
    let r : JsmnParser :=
      { q.push u with pos := startValue, toksuper := (q.push u).tokens.length - 1 }
    have hsuper : r.toksuper = p.tokens.length := by
      simp only [r, hlenpush]
      omega
    have hr : -1 ≤ r.toksuper ∧ r.toksuper < r.tokens.length := by
      rw [hsuper]
      simp only [r, hlenpush]
      omega
    have hn₂ : r.tokens.length + value.tokens.length ≤ n := by
      simp only [r, hlenpush]
      omega
    have hboundary : Boundary (after.bytes ++ (members.render false ++ rest)) :=
      boundary_ws after (boundary_members members hrest)
    obtain ⟨r', hvalue, hr'⟩ := goes_json value hr hn₂ hboundary
    have hwithin := hr'.member hq rfl rfl hsuper (JsmnTok.isOpen_eq_false rfl) rfl
      (valueTokens_closed _ value)
    have hlen : r'.tokens.length = p.tokens.length + 1 + value.tokens.length := by
      rw [hr'.tokens, List.length_append, growSuper_length, length_valueTokens]
      simp only [r, hlenpush]
    have hn₃ : r'.tokens.length + members.tokens.length ≤ n := by omega
    obtain ⟨p', hgoes, hp'⟩ := goes_members false members
      (hwithin.move (r'.pos + after.bytes.length)) (by simp) hn₃ hrest
    refine ⟨p', ?_, ?_, ?_⟩
    · simp only [Members.render]
      have hmember : Goes n (value.render ++ (after.bytes ++ members.render false)) rest r p' :=
        Goes.trans (by simpa using hvalue) ((goes_ws after).trans hgoes)
      refine (goes_separator first hp hfirst).trans ((goes_ws before).trans ?_)
      refine (goes_string name hn₁).trans ((goes_ws beforeColon).trans ?_)
      exact Goes.trans (s := [(':' : UInt8)]) goes_colon ((goes_ws afterColon).trans hmember)
    · simp only [hp'.pos, hr'.pos, Members.render, List.length_append, List.length_cons, r,
        start, startValue]
      omega
    · have hsize : t.size + 1 + (countMembers members : ℤ)
          = t.size + (countMembers members + 1) := by
        omega
      have hstart : r'.pos = startValue + value.render.length := hr'.pos
      simpa [memberTokens, countMembers, hsize, hstart, q, start, startValue, u, r]
        using hp'.within

end

/-- `json_tokenise` finds the tokens of every document, with their sizes. -/
theorem jsonTokenise_sizes (d : Document) :
    jsonTokenise d.text
      = .ok (some (valueTokens d.before.bytes.length d.value, d.value.tokens.length)) := by
  obtain ⟨tokens, htokens, -⟩ := jsonTokenise_document d
  rw [htokens]
  have hparse : ∃ count, jsmnParse (some d.value.tokens.length) d.text = .ok (count, tokens) := by
    rw [jsonTokenise] at htokens
    split at htokens
    · cases htokens
    split at htokens
    · cases htokens
    rename_i r _ _ _ count tokens' hsecond
    obtain ⟨rfl, rfl⟩ : tokens' = tokens ∧ r = d.value.tokens.length := by simpa using htokens
    exact ⟨count, hsecond⟩
  obtain ⟨count, hparse⟩ := hparse
  obtain ⟨p, hloop, rfl, -⟩ := jsmnParse_eq_ok hparse
  let q : JsmnParser := { jsmnInit with pos := jsmnInit.pos + d.before.bytes.length }
  have hq : -1 ≤ q.toksuper ∧ q.toksuper < q.tokens.length := by simp [q, jsmnInit]
  have hboundary : Boundary (d.after.bytes ++ []) := boundary_ws d.after (by simp [Boundary])
  have hn : q.tokens.length + d.value.tokens.length ≤ d.value.tokens.length := (Nat.zero_add _).le
  obtain ⟨q', hgoes, hq'⟩ := goes_json d.value hq hn hboundary
  have hdocument : Goes d.value.tokens.length d.text [] jsmnInit _ :=
    (goes_ws d.before).trans (Goes.trans hgoes (goes_ws d.after))
  have htext : jsmnLoop (some d.value.tokens.length) d.text 0 jsmnInit
      = .ok { q' with pos := q'.pos + d.after.bytes.length } := by
    simpa [Goes, jsmnLoop] using hdocument
  rw [hloop] at htext
  rw [Except.ok.inj htext]
  have hpos : q.pos = d.before.bytes.length := Nat.zero_add _
  rw [← hpos]
  exact congrArg (fun ts => Except.ok (some (ts, _))) hq'.tokens

end Values

end NagiosPlugins
