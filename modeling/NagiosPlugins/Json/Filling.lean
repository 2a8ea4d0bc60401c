import NagiosPlugins.Data.Except
import NagiosPlugins.Data.JsonText
import NagiosPlugins.Data.Lists
import NagiosPlugins.Json.Helpers

/-!
# The filling pass on JSON texts

Without strict mode and parent links, only the type, the start and the end of the tokens decide
how `jsmn_parse` goes on: sizes and the superior token never make it fail. On the text of a
value the filling pass allocates exactly the tokens of that value.
-/

namespace NagiosPlugins

open Libc JsonText

/-! ### What a stretch of text does to the parser -/

/-- A token without its size. -/
abbrev Place := JsmnType × ℤ × ℤ

def JsmnTok.place (t : JsmnTok) : Place := (t.type, t.start, t.end_)

def Place.isOpen (x : Place) : Bool := x.2.1 != -1 && x.2.2 == -1

lemma JsmnTok.isOpen_eq (t : JsmnTok) : t.isOpen = t.place.isOpen := rfl

def JsmnType.ofKind : Kind → JsmnType
  | .object  => .object
  | .array   => .array
  | .string  => .string
  | .literal => .primitive

def Place.ofSpan (s : Span) : Place := (JsmnType.ofKind s.kind, s.start, s.stop)

lemma Place.ofSpan_closed (s : Span) : (Place.ofSpan s).isOpen = false := by
  have : (s.stop : ℤ) ≠ -1 := by omega
  simp [Place.isOpen, Place.ofSpan, this]

namespace JsmnParser

def places (p : JsmnParser) : List Place := p.tokens.map JsmnTok.place

lemma length_places (p : JsmnParser) : p.places.length = p.tokens.length := List.length_map ..

/-- The parser has moved over `n` bytes and has allocated tokens at the places `xs`. -/
structure Advance (p p' : JsmnParser) (n : ℕ) (xs : List Place) : Prop where
  pos : p'.pos = p.pos + n
  places : p'.places = p.places ++ xs
  count : p'.count = p.count + xs.length

namespace Advance

variable {p q r : JsmnParser} {m n : ℕ} {xs ys : List Place}

lemma refl (p : JsmnParser) : Advance p p 0 [] := ⟨by simp, by simp, by simp⟩

lemma trans (h : Advance p q m xs) (h' : Advance q r n ys) :
    Advance p r (m + n) (xs ++ ys) where
  pos := by rw [h'.pos, h.pos, Nat.add_assoc]
  places := by rw [h'.places, h.places, List.append_assoc]
  count := by rw [h'.count, h.count, List.length_append, Nat.add_assoc]

lemma length (h : Advance p q n xs) : q.tokens.length = p.tokens.length + xs.length := by
  rw [← length_places, h.places, List.length_append, length_places]

end Advance

@[simp] lemma growSuper_pos (p : JsmnParser) : p.growSuper.pos = p.pos := by
  rw [growSuper]
  split_ifs <;> rfl

@[simp] lemma growSuper_count (p : JsmnParser) : p.growSuper.count = p.count := by
  rw [growSuper]
  split_ifs <;> rfl

@[simp] lemma growSuper_places (p : JsmnParser) : p.growSuper.places = p.places := by
  rw [growSuper]
  split_ifs
  · rfl
  · exact List.map_modify_of_eq JsmnTok.place (fun t => { t with size := t.size + 1 })
      (fun _ => rfl) _ _

end JsmnParser

/-! ### Lexical elements -/

section Lexical

variable (numTokens : Option ℕ) (p : JsmnParser) (rest : CString)

lemma jsmnLoop_skip (s : CString) :
    jsmnLoop numTokens (s ++ rest) s.length p
      = jsmnLoop numTokens rest 0 { p with pos := p.pos + s.length } := by
  induction s generalizing p with
  | nil => rfl
  | cons c s ih =>
    simp only [List.cons_append, List.length_cons, jsmnLoop, ih]
    congr 2
    omega

lemma jsmnLoop_ws (ws : Ws) :
    jsmnLoop numTokens (ws.bytes ++ rest) 0 p
      = jsmnLoop numTokens rest 0 { p with pos := p.pos + ws.bytes.length } := by
  have hstep : ∀ c ∈ ascii "\t\r\n ", ∀ cs q, c ≠ 0 ∧ jsmnStep numTokens c cs q = .ok (0, q) := by
    intro c hc cs q
    simp only [ascii, List.mem_map] at hc
    obtain ⟨d, hd, rfl⟩ := hc
    have hd' : d = '\t' ∨ d = '\r' ∨ d = '\n' ∨ d = ' ' := by simpa using hd
    rcases hd' with rfl | rfl | rfl | rfl <;> exact ⟨by decide, rfl⟩
  obtain ⟨s, hs⟩ := ws
  induction s generalizing p with
  | nil => rfl
  | cons c s ih =>
    obtain ⟨hc, hcs⟩ := hstep c (hs c (by simp)) (s ++ rest) p
    have ih := ih { p with pos := p.pos + 1 } fun d hd => hs d (List.mem_cons_of_mem _ hd)
    simp only [List.cons_append, jsmnLoop, if_neg hc, hcs, Except.ok_bind] at ih ⊢
    rw [ih]
    simp only [List.length_cons]
    congr 2
    omega

/-- The scan of a string stops at its closing quote. -/
lemma stringLoop_bytes {s : CString} (h : StringBytes s) (pos : ℕ) :
    stringLoop (s ++ ('"' : UInt8) :: rest) 0 pos = .ok (pos + s.length) := by
  induction h generalizing pos with
  | nil => rfl
  | plain hc hq hb _ ih =>
    have h0 : ∀ c : UInt8, 32 ≤ c → c ≠ 0 := by decide +kernel
    simp only [List.cons_append, stringLoop, if_neg (h0 _ hc), if_neg hq, if_neg hb, ih,
      List.length_cons]
    congr 1
    omega
  | @escape e s he _ ih =>
    have hesc : stringLoop (('\\' : UInt8) :: e :: (s ++ ('"' : UInt8) :: rest)) 0 pos
        = stringLoop (s ++ ('"' : UInt8) :: rest) 0 (pos + 2) := by
      rw [stringLoop, if_neg (by decide), if_neg (by decide), if_pos rfl]
      simp only [if_pos he]
      rfl
    simp only [List.cons_append, hesc, ih, List.length_cons]
    congr 1
    omega
  | @unicode a b c d s ha hb hc hd _ ih =>
    have h0 : ∀ c : UInt8, isxdigit c → c ≠ 0 := by decide +kernel
    have hhex : hexLoop 4 (a :: b :: c :: d :: (s ++ ('"' : UInt8) :: rest)) = .ok 4 := by
      simp [hexLoop, h0, ha, hb, hc, hd]
    have hesc : stringLoop (('\\' : UInt8) :: ('u' : UInt8) :: a :: b :: c :: d ::
          (s ++ ('"' : UInt8) :: rest)) 0 pos
        = stringLoop (s ++ ('"' : UInt8) :: rest) 0 (pos + 6) := by
      rw [stringLoop, if_neg (by decide), if_neg (by decide), if_pos rfl]
      simp only [hhex, Except.ok_bind]
      rfl
    simp only [List.cons_append, hesc, ih, List.length_cons]
    congr 1
    omega

end Lexical

/-! ### Leaves -/

section Filling

open JsmnParser

variable {n : ℕ} {p : JsmnParser} {rest : CString}

lemma jsmnLoop_cons {numTokens : Option ℕ} {c : UInt8} {cs : CString} {k : ℕ} {q : JsmnParser}
    (hc : c ≠ 0) (hstep : jsmnStep numTokens c cs p = .ok (k, q)) :
    jsmnLoop numTokens (c :: cs) 0 p = jsmnLoop numTokens cs k { q with pos := q.pos + 1 } := by
  simp only [jsmnLoop, if_neg hc, hstep, Except.ok_bind]

/-- The filling pass moves over `s`, in front of `rest`, and allocates tokens at `xs`. -/
def Reads (n : ℕ) (p : JsmnParser) (s rest : CString) (xs : List Place) : Prop :=
  ∃ p', jsmnLoop (some n) (s ++ rest) 0 p = jsmnLoop (some n) rest 0 p' ∧
    Advance p p' s.length xs

lemma Reads.append {s s' : CString} {xs ys : List Place} (h : Reads n p s (s' ++ rest) xs)
    (h' : ∀ q, Advance p q s.length xs → Reads n q s' rest ys) :
    Reads n p (s ++ s') rest (xs ++ ys) := by
  obtain ⟨q, hloop, hq⟩ := h
  obtain ⟨r, hloop', hr⟩ := h' q hq
  refine ⟨r, ?_, ?_⟩
  · rw [List.append_assoc, hloop, hloop']
  · rw [List.length_append]
    exact hq.trans hr

/-- What stands in front of a token and is none itself. -/
lemma Reads.skip {s s' : CString} {ys : List Place} (h : Reads n p s (s' ++ rest) [])
    (h' : ∀ q, q.pos = p.pos + s.length → q.tokens.length = p.tokens.length →
      Reads n q s' rest ys) :
    Reads n p (s ++ s') rest ys :=
  h.append fun q hq => h' q hq.pos (by simpa using hq.length)

lemma reads_ws (ws : Ws) : Reads n p ws.bytes rest [] :=
  ⟨_, jsmnLoop_ws (some n) p rest ws, rfl, by simp [places], rfl⟩

lemma jsmnAllocToken_of_lt (t : JsmnTok) (hn : p.tokens.length < n) :
    jsmnAllocToken p n t = .ok { p with tokens := p.tokens ++ [t] } := by
  have : ¬ p.toknext ≥ n := by simpa [toknext] using hn
  simp [jsmnAllocToken, this]

/-- Behind a string or a primitive of the bytes `c :: s` the walk goes on with one more token. -/
lemma reads_leaf {c : UInt8} {s : CString} (t : JsmnTok) (hc : c ≠ 0)
    (hstep : jsmnStep (some n) c (s ++ rest) p
      = .ok (s.length, afterLeaf (some n) { p with tokens := p.tokens ++ [t] })) :
    Reads n p (c :: s) rest [t.place] := by
  have hloop := jsmnLoop_cons hc hstep
  rw [jsmnLoop_skip] at hloop
  refine ⟨_, hloop, ?_, ?_, ?_⟩
  · simp only [afterLeaf, growSuper_pos, List.length_cons]
    omega
  · change (growSuper _).places = _
    rw [growSuper_places]
    simp [places]
  · simp [afterLeaf]

lemma reads_string (s : Str) (hn : p.tokens.length < n) :
    Reads n p s.quoted rest
      [Place.ofSpan ⟨.string, p.pos + 1, p.pos + 1 + s.bytes.length⟩] := by
  have hlen : p.pos + 1 + s.bytes.length - p.pos = (s.bytes ++ [('"' : UInt8)]).length := by
    simp only [List.length_append, List.length_cons, List.length_nil]
    omega
  have hscan : stringLoop ((s.bytes ++ [('"' : UInt8)]) ++ rest) 0 (p.pos + 1)
      = .ok (p.pos + 1 + s.bytes.length) := by
    rw [List.append_assoc]
    exact stringLoop_bytes rest s.valid (p.pos + 1)
  have h0 : ('"' : UInt8) ≠ 0 := by decide
  refine reads_leaf
    ⟨.string, (p.pos + 1 : ℕ), (p.pos + 1 + s.bytes.length : ℕ), 0⟩ h0 ?_
  have hstep : jsmnStep (some n) '"' ((s.bytes ++ [('"' : UInt8)]) ++ rest) p
      = jsmnParseString (some n) ((s.bytes ++ [('"' : UInt8)]) ++ rest) p >>= fun result =>
        .ok (result.1, afterLeaf (some n) result.2) := rfl
  rw [hstep, jsmnParseString, hscan]
  simp only [Except.ok_bind, jsmnAllocToken_of_lt _ hn, hlen]
  rfl

/-- What follows a literal must end it. -/
def Boundary (rest : CString) : Prop := ∀ c ∈ rest.head?, endsPrimitive c

lemma primitiveLoop_literal {s : CString} (hs : ∀ c ∈ s, isLiteralByte c)
    (hrest : Boundary rest) (pos : ℕ) :
    primitiveLoop (s ++ rest) pos = .ok (pos + s.length) := by
  have hlit : ∀ c : UInt8, isLiteralByte c →
      c ≠ 0 ∧ endsPrimitive c = false ∧ ¬ (c < 32 ∨ c ≥ 127) := by decide +kernel
  induction s generalizing pos with
  | nil =>
    cases rest with
    | nil => rfl
    | cons c rest =>
      have hc : endsPrimitive c := hrest c rfl
      simp [primitiveLoop, hc]
  | cons c s ih =>
    obtain ⟨h0, hend, hrange⟩ := hlit c (hs c (by simp))
    have ih := ih (fun d hd => hs d (List.mem_cons_of_mem _ hd)) (pos + 1)
    simp only [List.cons_append, primitiveLoop, if_neg h0, hend, Bool.false_eq_true, if_false,
      if_neg hrange, ih, List.length_cons]
    congr 1
    omega

lemma jsmnStep_literal {numTokens : Option ℕ} {c : UInt8} (hc : isLiteralByte c) (cs : CString) :
    jsmnStep numTokens c cs p = (do
      let (skip, parser) ← jsmnParsePrimitive numTokens c cs p
      return (skip, afterLeaf numTokens parser)) := by
  have hlit : ∀ c : UInt8, isLiteralByte c → c ≠ '{' ∧ c ≠ '[' ∧ c ≠ '}' ∧ c ≠ ']' ∧ c ≠ '"' ∧
      c ∉ ascii "\t\r\n " ∧ c ≠ ':' ∧ c ≠ ',' := by decide +kernel
  obtain ⟨h1, h2, h3, h4, h5, h6, h7, h8⟩ := hlit c hc
  simp only [jsmnStep, if_neg h1, if_neg h2, if_neg h3, if_neg h4, if_neg h5, if_neg h6,
    if_neg h7, if_neg h8]

lemma reads_literal (l : Literal) (hn : p.tokens.length < n) (hrest : Boundary rest) :
    Reads n p l.text rest [Place.ofSpan ⟨.literal, p.pos, p.pos + l.text.length⟩] := by
  have hscan := primitiveLoop_literal l.isLiteral hrest p.pos
  obtain ⟨text, hne, hlit⟩ := l
  cases text with
  | nil => exact absurd rfl hne
  | cons c s =>
    have h0 : ∀ c : UInt8, isLiteralByte c → c ≠ 0 := by decide +kernel
    have hc : isLiteralByte c := hlit c (by simp)
    refine reads_leaf
      ⟨.primitive, (p.pos : ℕ), (p.pos + (c :: s).length : ℕ), 0⟩ (h0 c hc) ?_
    have hlen : p.pos + (c :: s).length - p.pos - 1 = s.length := by
      simp only [List.length_cons]
      omega
    rw [jsmnStep_literal hc, jsmnParsePrimitive, ← List.cons_append, hscan]
    simp only [Except.ok_bind, jsmnAllocToken_of_lt _ hn, hlen]
    rfl

/-! ### Separators and brackets -/

lemma reads_colon : Reads n p [(':' : UInt8)] rest [] := by
  have h0 : (':' : UInt8) ≠ 0 := by decide
  have hstep : jsmnStep (some n) ':' rest p = .ok (0, { p with toksuper := p.toknext - 1 }) := rfl
  refine ⟨_, jsmnLoop_cons h0 hstep, ?_, ?_, ?_⟩
  · rfl
  · simp [places]
  · rfl

lemma jsmnComma_eq (numTokens : Option ℕ) (p : JsmnParser) :
    ∃ i, jsmnComma numTokens p = { p with toksuper := i } := by
  simp only [jsmnComma]
  split
  · exact ⟨p.toksuper, rfl⟩
  split_ifs
  · split
    · exact ⟨p.toksuper, rfl⟩
    · exact ⟨_, rfl⟩
  · exact ⟨p.toksuper, rfl⟩

lemma reads_separator (first : Bool) : Reads n p (separator first) rest [] := by
  cases first with
  | true => exact ⟨p, rfl, Advance.refl p⟩
  | false =>
    have h0 : (',' : UInt8) ≠ 0 := by decide
    have hstep : jsmnStep (some n) ',' rest p = .ok (0, jsmnComma (some n) p) := rfl
    obtain ⟨i, hi⟩ := jsmnComma_eq (some n) p
    rw [hi] at hstep
    refine ⟨_, jsmnLoop_cons h0 hstep, ?_, ?_, ?_⟩
    · rfl
    · simp [places]
    · rfl

/-- The brackets of the two kinds of containers. -/
inductive Brackets : JsmnType → UInt8 → UInt8 → Prop where
  | object : Brackets .object '{' '}'
  | array : Brackets .array '[' ']'

variable {type : JsmnType} {opening closing : UInt8}

lemma reads_open (h : Brackets type opening closing) (hn : p.tokens.length < n) :
    Reads n p [opening] rest [(type, (p.pos : ℤ), -1)] := by
  have h0 : opening ≠ 0 := by cases h <;> decide
  have hstep : jsmnStep (some n) opening rest p
      = (jsmnOpen (some n) type p >>= fun parser => .ok (0, parser)) := by
    cases h <;> rfl
  let q : JsmnParser := { p with
    count := p.count + 1
    tokens := p.tokens ++ [⟨type, p.pos, -1, 0⟩] }
  have hopen : jsmnOpen (some n) type p
      = .ok { q.growSuper with toksuper := q.growSuper.toknext - 1 } := by
    simp only [jsmnOpen, Except.ok_bind, q,
      jsmnAllocToken_of_lt (p := { p with count := p.count + 1 }) _ hn]
  rw [hopen, Except.ok_bind] at hstep
  refine ⟨_, jsmnLoop_cons h0 hstep, ?_, ?_, ?_⟩
  · simp [q]
  · change q.growSuper.places = _
    rw [growSuper_places]
    simp [q, places, JsmnTok.place]
  · simp [q]

lemma lastIndex_append (P : JsmnTok → Bool) {A B : List JsmnTok} {t : JsmnTok} (ht : P t)
    (hB : ∀ u ∈ B, P u = false) :
    lastIndex P (A ++ t :: B) (A ++ t :: B).length = some A.length := by
  have hscan : ∀ k ≤ B.length, lastIndex P (A ++ t :: B) (A.length + 1 + k) = some A.length := by
    intro k hk
    induction k with
    | zero => simp [lastIndex, ht]
    | succ k ih =>
      have hget : (A ++ t :: B)[A.length + 1 + k]? = B[k]? := by
        rw [List.getElem?_append_right (by omega)]
        have : A.length + 1 + k - A.length = k + 1 := by omega
        rw [this, List.getElem?_cons_succ]
      have hk' : B[k]? = some B[k] := List.getElem?_eq_getElem hk
      rw [← Nat.add_assoc, lastIndex, hget, hk', Option.any_some, hB _ (List.getElem_mem hk)]
      exact ih (by omega)
  have := hscan B.length le_rfl
  simp only [List.length_append, List.length_cons]
  rwa [← Nat.add_assoc, Nat.add_right_comm]

/-- The closing bracket closes the last open token: the one in front of closed ones. -/
lemma jsmnLoop_close (h : Brackets type opening closing) {xs ys : List Place} {start : ℕ}
    (hp : p.places = xs ++ (type, (start : ℤ), -1) :: ys) (hys : ∀ y ∈ ys, y.isOpen = false) :
    ∃ p', jsmnLoop (some n) (closing :: rest) 0 p = jsmnLoop (some n) rest 0 p' ∧
      p'.pos = p.pos + 1 ∧ p'.places = xs ++ (type, (start : ℤ), ((p.pos + 1 : ℕ) : ℤ)) :: ys ∧
      p'.count = p.count := by
  have h0 : closing ≠ 0 := by cases h <;> decide
  have hstep : jsmnStep (some n) closing rest p
      = (jsmnClose (some n) type p >>= fun parser => .ok (0, parser)) := by
    cases h <;> rfl
  obtain ⟨A, tB, htokens, hA, htB⟩ := List.map_eq_append_iff.1 hp
  obtain ⟨t, B, rfl, ht, hB⟩ := List.map_eq_cons_iff.1 htB
  have htype : t.type = type := congrArg Prod.fst ht
  have hstart : t.start = start := congrArg (·.2.1) ht
  have hopen : t.isOpen := by
    rw [JsmnTok.isOpen_eq, ht]
    simp [Place.isOpen]
  have hlast : lastIndex JsmnTok.isOpen p.tokens p.toknext = some A.length := by
    rw [toknext, htokens]
    apply lastIndex_append _ hopen
    intro u hu
    rw [JsmnTok.isOpen_eq]
    exact hys _ (hB ▸ List.mem_map_of_mem hu)
  have hget : p.tokens[A.length]?.any (·.type = type) = true := by
    simp [htokens, htype]
  simp only [jsmnClose, hlast, hget, if_true, Except.ok_bind] at hstep
  refine ⟨_, jsmnLoop_cons h0 hstep, rfl, ?_, rfl⟩
  simp [places, htokens, List.modify_length_append, hA, hB, JsmnTok.place, htype, hstart]

/-- A container between its brackets. -/
lemma Reads.brackets (h : Brackets type opening closing) {s : CString} {xs : List Span}
    (hn : p.tokens.length < n)
    (hs : ∀ q, Advance p q 1 [(type, (p.pos : ℤ), -1)] →
      Reads n q s (closing :: rest) (xs.map Place.ofSpan)) :
    Reads n p (opening :: (s ++ [closing])) rest
      ((type, (p.pos : ℤ), ((p.pos + (opening :: (s ++ [closing])).length : ℕ) : ℤ))
        :: xs.map Place.ofSpan) := by
  have hopened : Reads n p [opening] (s ++ closing :: rest) [(type, (p.pos : ℤ), -1)] :=
    reads_open h hn
  obtain ⟨q, hloop, hq⟩ := hopened.append hs
  have hclosed : ∀ y ∈ xs.map Place.ofSpan, y.isOpen = false := by
    intro y hy
    obtain ⟨x, _, rfl⟩ := List.mem_map.1 hy
    exact Place.ofSpan_closed x
  obtain ⟨r, hloop', hpos, hplaces, hcount⟩ := jsmnLoop_close h hq.places hclosed
  refine ⟨r, ?_, ?_, ?_, ?_⟩
  · rw [← hloop', ← hloop]
    simp
  · rw [hpos, hq.pos]
    simp only [List.length_append, List.length_cons, List.length_nil]
    omega
  · rw [hplaces, hq.pos]
    simp [Nat.add_assoc]
  · rw [hcount, hq.count]
    simp

/-! ### Values -/

lemma boundary_cons {c : UInt8} (hc : endsPrimitive c) (s : CString) : Boundary (c :: s) := by
  simpa [Boundary] using hc

lemma boundary_ws (ws : Ws) (hrest : Boundary rest) : Boundary (ws.bytes ++ rest) := by
  have hws : ∀ c : UInt8, c ∈ ascii "\t\r\n " → endsPrimitive c := by decide +kernel
  obtain ⟨s, hs⟩ := ws
  cases s with
  | nil => exact hrest
  | cons c s => exact boundary_cons (hws c (hs c (by simp))) _

lemma boundary_items (items : Items) (hrest : Boundary rest) :
    Boundary (items.render false ++ rest) := by
  cases items with
  | nil => exact hrest
  | cons before value after items => exact boundary_cons (by decide) _

lemma boundary_members (members : Members) (hrest : Boundary rest) :
    Boundary (members.render false ++ rest) := by
  cases members with
  | nil => exact hrest
  | cons before name beforeColon afterColon value after members =>
    exact boundary_cons (by decide) _

mutual

/-- The filling pass allocates the tokens of a value. -/
theorem reads_json {n : ℕ} {p : JsmnParser} {rest : CString} (v : Json)
    (hn : p.tokens.length + v.tokens.length ≤ n) (hrest : Boundary rest) :
    Reads n p v.render rest ((v.spans p.pos).map Place.ofSpan) := by
  match v with
  | .literal l =>
    simp only [Json.tokens, List.length_cons, List.length_nil] at hn
    exact reads_literal l hn hrest
  | .string s =>
    simp only [Json.tokens, List.length_cons, List.length_nil] at hn
    exact reads_string s hn
  | .array ws items =>
    simp only [Json.tokens, List.length_cons] at hn
    simp only [Json.render, Json.spans, List.map_cons, ← List.append_assoc]
    apply Reads.brackets .array (p := p) (n := n) (by omega)
    intro q hq
    apply (reads_ws ws).skip
    intro r hpos hlen
    have hlen' := hq.length
    rw [List.length_singleton] at hlen'
    rw [← hq.pos, ← hpos]
    exact reads_items true items (by omega) (boundary_cons (by decide) _)
  | .object ws members =>
    simp only [Json.tokens, List.length_cons] at hn
    simp only [Json.render, Json.spans, List.map_cons, ← List.append_assoc]
    apply Reads.brackets .object (p := p) (n := n) (by omega)
    intro q hq
    apply (reads_ws ws).skip
    intro r hpos hlen
    have hlen' := hq.length
    rw [List.length_singleton] at hlen'
    rw [← hq.pos, ← hpos]
    exact reads_members true members (by omega) (boundary_cons (by decide) _)

theorem reads_items {n : ℕ} {p : JsmnParser} {rest : CString} (first : Bool) (items : Items)
    (hn : p.tokens.length + items.tokens.length ≤ n) (hrest : Boundary rest) :
    Reads n p (items.render first) rest ((items.spans first p.pos).map Place.ofSpan) := by
  match items with
  | .nil => exact ⟨p, rfl, Advance.refl p⟩
  | .cons before value after items =>
    simp only [Items.tokens, List.length_append] at hn
    simp only [Items.render, Items.spans, List.map_append]
    apply (reads_separator first).skip
    intro q hpos hlen
    apply (reads_ws before).skip
    intro q' hpos' hlen'
    rw [← hpos, ← hpos']
    refine (reads_json value (by omega) ?_).append fun r hr => ?_
    · rw [List.append_assoc]
      exact boundary_ws after (boundary_items items hrest)
    apply (reads_ws after).skip
    intro r' hpos'' hlen''
    have hlen := hr.length
    rw [List.length_map, Json.length_spans] at hlen
    rw [← hr.pos, ← hpos'']
    exact reads_items false items (by omega) hrest

theorem reads_members {n : ℕ} {p : JsmnParser} {rest : CString} (first : Bool)
    (members : Members) (hn : p.tokens.length + members.tokens.length ≤ n)
    (hrest : Boundary rest) :
    Reads n p (members.render first) rest ((members.spans first p.pos).map Place.ofSpan) := by
  match members with
  | .nil => exact ⟨p, rfl, Advance.refl p⟩
  | .cons before name beforeColon afterColon value after members =>
    simp only [Members.tokens, List.length_cons, List.length_append] at hn
    simp only [Members.render, Members.spans, List.map_cons, List.map_append]
    apply (reads_separator first).skip
    intro q hpos hlen
    apply (reads_ws before).skip
    intro q' hpos' hlen'
    rw [← hpos, ← hpos']
    apply (reads_string name (by omega)).append
    intro r hr
    apply (reads_ws beforeColon).skip
    intro r₁ hpos₁ hlen₁
    apply reads_colon.skip
    intro r₂ hpos₂ hlen₂
    apply (reads_ws afterColon).skip
    intro r₃ hpos₃ hlen₃
    have hlen := hr.length
    rw [List.length_singleton] at hlen hpos₂
    rw [← hr.pos, ← hpos₁, ← hpos₂, ← hpos₃]
    refine (reads_json value (by omega) ?_).append fun r₄ hr₄ => ?_
    · rw [List.append_assoc]
      exact boundary_ws after (boundary_members members hrest)
    apply (reads_ws after).skip
    intro r₅ hpos₅ hlen₅
    have hlen₄ := hr₄.length
    rw [List.length_map, Json.length_spans] at hlen₄
    rw [← hr₄.pos, ← hpos₅]
    exact reads_members false members (by omega) hrest

end

end Filling

end NagiosPlugins
