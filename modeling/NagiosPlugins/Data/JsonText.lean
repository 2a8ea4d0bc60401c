import NagiosPlugins.Libc.Bytes

/-!
# JSON texts

The concrete syntax of JSON as data: a value together with the white space written inside it,
so that `render` is the text itself. The tokens of a text are listed in document order, a
container before its contents, each with its kind and its own text; the spans locate them.
-/

namespace JsonText

open Libc

/-! ### Lexical elements -/

/-- White space between tokens. -/
structure Ws where
  bytes : CString
  isWs : ∀ c ∈ bytes, c ∈ ascii "\t\r\n "

def Ws.none : Ws := ⟨[], by simp⟩

/-- The bytes between the quotes of a string. -/
inductive StringBytes : CString → Prop where
  | nil : StringBytes []
  | plain {c : UInt8} {s : CString} (hc : 32 ≤ c) (hq : c ≠ '"') (hb : c ≠ '\\')
      (h : StringBytes s) : StringBytes (c :: s)
  | escape {e : UInt8} {s : CString} (he : e ∈ ascii "\"/\\bfrnt") (h : StringBytes s) :
      StringBytes ('\\' :: e :: s)
  | unicode {a b c d : UInt8} {s : CString} (ha : isxdigit a) (hb : isxdigit b)
      (hc : isxdigit c) (hd : isxdigit d) (h : StringBytes s) :
      StringBytes ('\\' :: 'u' :: a :: b :: c :: d :: s)

lemma StringBytes.of_plain {s : CString} (h : ∀ c ∈ s, 32 ≤ c ∧ c ≠ '"' ∧ c ≠ '\\') :
    StringBytes s := by
  induction s with
  | nil => exact .nil
  | cons c s ih =>
    obtain ⟨⟨hc, hq, hb⟩, hs⟩ := List.forall_mem_cons.1 h
    exact .plain hc hq hb (ih hs)

structure Str where
  bytes : CString
  valid : StringBytes bytes

/-- The bytes of numbers and of `true`, `false` and `null`. -/
def isLiteralByte (c : UInt8) : Bool :=
  isdigit c || ('a' ≤ tolower c && tolower c ≤ 'z') || c == '+' || c == '-' || c == '.'

/-- A number or one of the names `true`, `false` and `null`; any word of their bytes will do. -/
structure Literal where
  text : CString
  nonempty : text ≠ []
  isLiteral : ∀ c ∈ text, isLiteralByte c

/-! ### Values -/

mutual

inductive Json where
  | literal (l : Literal)
  | string (s : Str)
  | array (ws : Ws) (items : Items)
  | object (ws : Ws) (members : Members)

/-- The elements of an array, each between white space. -/
inductive Items where
  | nil
  | cons (before : Ws) (value : Json) (after : Ws) (rest : Items)

/-- The members of an object. -/
inductive Members where
  | nil
  | cons (before : Ws) (name : Str) (beforeColon afterColon : Ws) (value : Json) (after : Ws)
      (rest : Members)

end

/-- The comma in front of every element but the first. -/
def separator (first : Bool) : CString := if first then [] else [',']

def Str.quoted (s : Str) : CString := ('"' : UInt8) :: (s.bytes ++ [('"' : UInt8)])

mutual

def Json.render : Json → CString
  | .literal l => l.text
  | .string s => s.quoted
  | .array ws items => '[' :: (ws.bytes ++ (items.render true ++ [(']' : UInt8)]))
  | .object ws members => '{' :: (ws.bytes ++ (members.render true ++ [('}' : UInt8)]))

def Items.render (first : Bool) : Items → CString
  | .nil => []
  | .cons before value after rest =>
    separator first ++ (before.bytes ++ (value.render ++ (after.bytes ++ rest.render false)))

def Members.render (first : Bool) : Members → CString
  | .nil => []
  | .cons before name beforeColon afterColon value after rest =>
    separator first ++ (before.bytes ++ (name.quoted ++ (beforeColon.bytes ++
      ((':' : UInt8) :: (afterColon.bytes ++ (value.render ++
        (after.bytes ++ rest.render false)))))))

end

/-- The elements of an array. -/
def Items.values : Items → List Json
  | .nil => []
  | .cons _ value _ rest => value :: rest.values

/-- The values of the members with a name; the name is compared as it is spelled. -/
def Members.valuesOf (name : CString) : Members → List Json
  | .nil => []
  | .cons _ name' _ _ value _ rest =>
    if name'.bytes = name then value :: rest.valuesOf name else rest.valuesOf name

/-- A text that is one value. -/
structure Document where
  before : Ws
  value : Json
  after : Ws

def Document.text (d : Document) : CString := d.before.bytes ++ (d.value.render ++ d.after.bytes)

/-! ### Tokens -/

inductive Kind where
  | object
  | array
  | string
  | literal
  deriving DecidableEq

structure Token where
  kind : Kind
  text : CString
  deriving DecidableEq

mutual

def Json.tokens : Json → List Token
  | .literal l => [⟨.literal, l.text⟩]
  | .string s => [⟨.string, s.bytes⟩]
  | .array ws items => ⟨.array, (Json.array ws items).render⟩ :: items.tokens
  | .object ws members => ⟨.object, (Json.object ws members).render⟩ :: members.tokens

def Items.tokens : Items → List Token
  | .nil => []
  | .cons _ value _ rest => value.tokens ++ rest.tokens

def Members.tokens : Members → List Token
  | .nil => []
  | .cons _ name _ _ value _ rest => ⟨.string, name.bytes⟩ :: (value.tokens ++ rest.tokens)

end

/-- Where a token stands in a text: from `start` up to, and without, `stop`. -/
structure Span where
  kind : Kind
  start : ℕ
  stop : ℕ

/-- The span cuts the token out of the text. -/
def Span.Cuts (text : CString) (s : Span) (t : Token) : Prop :=
  ∃ A B, text = A ++ (t.text ++ B) ∧ s = ⟨t.kind, A.length, A.length + t.text.length⟩

mutual

/-- The spans of the tokens of a value that stands at `pos`. -/
def Json.spans (pos : ℕ) : Json → List Span
  | .literal l => [⟨.literal, pos, pos + l.text.length⟩]
  | .string s => [⟨.string, pos + 1, pos + 1 + s.bytes.length⟩]
  | .array ws items =>
    ⟨.array, pos, pos + (Json.array ws items).render.length⟩
      :: items.spans true (pos + 1 + ws.bytes.length)
  | .object ws members =>
    ⟨.object, pos, pos + (Json.object ws members).render.length⟩
      :: members.spans true (pos + 1 + ws.bytes.length)

def Items.spans (first : Bool) (pos : ℕ) : Items → List Span
  | .nil => []
  | .cons before value after rest =>
    let start := pos + (separator first).length + before.bytes.length
    value.spans start
      ++ rest.spans false (start + value.render.length + after.bytes.length)

def Members.spans (first : Bool) (pos : ℕ) : Members → List Span
  | .nil => []
  | .cons before name beforeColon afterColon value after rest =>
    let start := pos + (separator first).length + before.bytes.length
    let startValue := start + name.quoted.length + beforeColon.bytes.length + 1
      + afterColon.bytes.length
    ⟨.string, start + 1, start + 1 + name.bytes.length⟩ :: (value.spans startValue
      ++ rest.spans false (startValue + value.render.length + after.bytes.length))

end

mutual

lemma Json.length_spans (pos : ℕ) (v : Json) : (v.spans pos).length = v.tokens.length := by
  match v with
  | .literal l => rfl
  | .string s => rfl
  | .array ws items => simp [Json.spans, Json.tokens, Items.length_spans]
  | .object ws members => simp [Json.spans, Json.tokens, Members.length_spans]

lemma Items.length_spans (first : Bool) (pos : ℕ) (items : Items) :
    (items.spans first pos).length = items.tokens.length := by
  match items with
  | .nil => rfl
  | .cons before value after rest =>
    simp [Items.spans, Items.tokens, Json.length_spans, Items.length_spans]

lemma Members.length_spans (first : Bool) (pos : ℕ) (members : Members) :
    (members.spans first pos).length = members.tokens.length := by
  match members with
  | .nil => rfl
  | .cons before name beforeColon afterColon value after rest =>
    simp [Members.spans, Members.tokens, Json.length_spans, Members.length_spans]

end

mutual

/-- Every token takes at least one byte. -/
lemma Json.length_tokens_le (v : Json) : v.tokens.length ≤ v.render.length := by
  match v with
  | .literal l => exact List.length_pos_iff.mpr l.nonempty
  | .string s => simp [Json.tokens, Json.render, Str.quoted]
  | .array ws items =>
    have := Items.length_tokens_le true items
    simp only [Json.tokens, Json.render, List.length_cons, List.length_append]
    omega
  | .object ws members =>
    have := Members.length_tokens_le true members
    simp only [Json.tokens, Json.render, List.length_cons, List.length_append]
    omega

lemma Items.length_tokens_le (first : Bool) (items : Items) :
    items.tokens.length ≤ (items.render first).length := by
  match items with
  | .nil => exact Nat.zero_le _
  | .cons before value after rest =>
    have := Json.length_tokens_le value
    have := Items.length_tokens_le false rest
    simp only [Items.tokens, Items.render, List.length_append]
    omega

lemma Members.length_tokens_le (first : Bool) (members : Members) :
    members.tokens.length ≤ (members.render first).length := by
  match members with
  | .nil => exact Nat.zero_le _
  | .cons before name beforeColon afterColon value after rest =>
    have := Json.length_tokens_le value
    have := Members.length_tokens_le false rest
    simp only [Members.tokens, Members.render, Str.quoted, List.length_cons, List.length_append]
    omega

end

/-- A string member is a pair of neighbouring tokens. -/
lemma Members.tokens_of_mem_valuesOf {name : CString} {s : Str} (members : Members)
    (h : .string s ∈ members.valuesOf name) :
    ∃ A B, members.tokens = A ++ ⟨.string, name⟩ :: ⟨.string, s.bytes⟩ :: B := by
  match members with
  | .nil => simp [Members.valuesOf] at h
  | .cons before name' beforeColon afterColon value after rest =>
    have hrest : .string s ∈ rest.valuesOf name → ∃ A B,
        (Members.cons before name' beforeColon afterColon value after rest).tokens
          = A ++ ⟨.string, name⟩ :: ⟨.string, s.bytes⟩ :: B := by
      intro hmem
      obtain ⟨A, B, hAB⟩ := Members.tokens_of_mem_valuesOf rest hmem
      refine ⟨⟨.string, name'.bytes⟩ :: (value.tokens ++ A), B, ?_⟩
      simp [Members.tokens, hAB]
    simp only [Members.valuesOf] at h
    split_ifs at h with hname
    · rcases List.mem_cons.1 h with rfl | hmem
      · exact ⟨[], rest.tokens, by simp [Members.tokens, Json.tokens, hname]⟩
      · exact hrest hmem
    · exact hrest h

/-! ### Texts are strings -/

lemma StringBytes.ne_zero {s : CString} (h : StringBytes s) : ∀ c ∈ s, c ≠ 0 := by
  induction h with
  | nil => simp
  | plain hc _ _ _ ih =>
    have hzero : ∀ c : UInt8, 32 ≤ c → c ≠ 0 := by decide +kernel
    exact List.forall_mem_cons.2 ⟨hzero _ hc, ih⟩
  | escape he _ ih =>
    have hzero : ∀ e ∈ ascii "\"/\\bfrnt", e ≠ 0 := by decide +kernel
    exact List.forall_mem_cons.2 ⟨by decide, List.forall_mem_cons.2 ⟨hzero _ he, ih⟩⟩
  | unicode ha hb hc hd _ ih =>
    have hzero : ∀ c : UInt8, isxdigit c → c ≠ 0 := by decide +kernel
    simp only [List.forall_mem_cons]
    exact ⟨by decide, by decide, hzero _ ha, hzero _ hb, hzero _ hc, hzero _ hd, ih⟩

lemma Ws.ne_zero (ws : Ws) : ∀ c ∈ ws.bytes, c ≠ 0 := by
  have hzero : ∀ c ∈ ascii "\t\r\n ", c ≠ 0 := by decide +kernel
  exact fun c hc => hzero c (ws.isWs c hc)

lemma Str.ne_zero (s : Str) : ∀ c ∈ s.quoted, c ≠ 0 := by
  rw [quoted, List.forall_mem_cons, List.forall_mem_append, List.forall_mem_singleton]
  exact ⟨by decide, s.valid.ne_zero, by decide⟩

lemma separator_ne_zero (first : Bool) : ∀ c ∈ separator first, c ≠ 0 := by
  cases first <;> decide +kernel

mutual

/-- No byte of a text is a terminator. -/
lemma Json.ne_zero (v : Json) : ∀ c ∈ v.render, c ≠ 0 := by
  match v with
  | .literal l =>
    have hzero : ∀ c : UInt8, isLiteralByte c → c ≠ 0 := by decide +kernel
    exact fun c hc => hzero c (l.isLiteral c hc)
  | .string s => exact s.ne_zero
  | .array ws items =>
    rw [Json.render, List.forall_mem_cons, List.forall_mem_append, List.forall_mem_append,
      List.forall_mem_singleton]
    exact ⟨by decide, ws.ne_zero, Items.ne_zero true items, by decide⟩
  | .object ws members =>
    rw [Json.render, List.forall_mem_cons, List.forall_mem_append, List.forall_mem_append,
      List.forall_mem_singleton]
    exact ⟨by decide, ws.ne_zero, Members.ne_zero true members, by decide⟩

lemma Items.ne_zero (first : Bool) (items : Items) : ∀ c ∈ items.render first, c ≠ 0 := by
  match items with
  | .nil => simp [Items.render]
  | .cons before value after rest =>
    simp only [Items.render, List.forall_mem_append]
    exact ⟨separator_ne_zero first, before.ne_zero, Json.ne_zero value, after.ne_zero,
      Items.ne_zero false rest⟩

lemma Members.ne_zero (first : Bool) (members : Members) :
    ∀ c ∈ members.render first, c ≠ 0 := by
  match members with
  | .nil => simp [Members.render]
  | .cons before name beforeColon afterColon value after rest =>
    simp only [Members.render, List.forall_mem_append, List.forall_mem_cons]
    exact ⟨separator_ne_zero first, before.ne_zero, name.ne_zero, beforeColon.ne_zero, by decide,
      afterColon.ne_zero, Json.ne_zero value, after.ne_zero, Members.ne_zero false rest⟩

end

lemma Document.ne_zero (d : Document) : ∀ c ∈ d.text, c ≠ 0 := by
  rw [text, List.forall_mem_append, List.forall_mem_append]
  exact ⟨d.before.ne_zero, d.value.ne_zero, d.after.ne_zero⟩

lemma Document.text_ne_nil (d : Document) : d.text ≠ [] := by
  have hpos : 0 < d.value.tokens.length := by
    cases d.value <;> simp [Json.tokens]
  have hlength := d.value.length_tokens_le
  intro hnil
  rw [text, List.append_eq_nil_iff, List.append_eq_nil_iff] at hnil
  rw [hnil.2.1, List.length_nil] at hlength
  omega

/-! ### The spans cut the tokens out of the text -/

lemma Span.cuts_of_eq {text A s B : CString} {pos stop : ℕ} (k : Kind)
    (h : text = A ++ (s ++ B)) (hpos : pos = A.length) (hstop : stop = pos + s.length) :
    Span.Cuts text ⟨k, pos, stop⟩ ⟨k, s⟩ := by
  subst hstop hpos
  exact ⟨A, B, h, rfl⟩

mutual

theorem Json.spans_tokens {text A B : CString} {pos : ℕ} (v : Json)
    (h : text = A ++ (v.render ++ B)) (hpos : pos = A.length) :
    List.Forall₂ (Span.Cuts text) (v.spans pos) v.tokens := by
  match v with
  | .literal l =>
    refine .cons ?_ .nil
    exact Span.cuts_of_eq _ h hpos rfl
  | .string s =>
    refine .cons ?_ .nil
    refine Span.cuts_of_eq (A := A ++ [('"' : UInt8)]) (B := ('"' : UInt8) :: B) _ ?_ ?_ rfl
    · simp [h, Json.render, Str.quoted]
    · simp [hpos]
  | .array ws items =>
    refine .cons ?_ ?_
    · exact Span.cuts_of_eq _ h hpos rfl
    refine Items.spans_tokens (A := A ++ ('[' : UInt8) :: ws.bytes)
      (B := (']' : UInt8) :: B) items ?_ ?_
    · simp [h, Json.render]
    · simp only [hpos, List.length_append, List.length_cons]
      omega
  | .object ws members =>
    refine .cons ?_ ?_
    · exact Span.cuts_of_eq _ h hpos rfl
    refine Members.spans_tokens (A := A ++ ('{' : UInt8) :: ws.bytes)
      (B := ('}' : UInt8) :: B) members ?_ ?_
    · simp [h, Json.render]
    · simp only [hpos, List.length_append, List.length_cons]
      omega

theorem Items.spans_tokens {text A B : CString} {first : Bool} {pos : ℕ} (items : Items)
    (h : text = A ++ (items.render first ++ B)) (hpos : pos = A.length) :
    List.Forall₂ (Span.Cuts text) (items.spans first pos) items.tokens := by
  match items with
  | .nil => exact .nil
  | .cons before value after rest =>
    refine List.rel_append ?_ ?_
    · refine Json.spans_tokens (A := A ++ (separator first ++ before.bytes))
        (B := after.bytes ++ (rest.render false ++ B)) value ?_ ?_
      · simp [h, Items.render]
      · simp only [hpos, List.length_append]
        omega
    · refine Items.spans_tokens (B := B)
        (A := A ++ (separator first ++ (before.bytes ++ (value.render ++ after.bytes))))
        rest ?_ ?_
      · simp [h, Items.render]
      · simp only [hpos, List.length_append]
        omega

theorem Members.spans_tokens {text A B : CString} {first : Bool} {pos : ℕ}
    (members : Members) (h : text = A ++ (members.render first ++ B))
    (hpos : pos = A.length) :
    List.Forall₂ (Span.Cuts text) (members.spans first pos) members.tokens := by
  match members with
  | .nil => exact .nil
  | .cons before name beforeColon afterColon value after rest =>
    refine .cons ?_ (List.rel_append ?_ ?_)
    · refine Span.cuts_of_eq (A := A ++ (separator first ++ (before.bytes ++ [('"' : UInt8)])))
        (B := ('"' : UInt8) :: (beforeColon.bytes ++ ((':' : UInt8) :: (afterColon.bytes ++
          (value.render ++ (after.bytes ++ (rest.render false ++ B))))))) _ ?_ ?_ rfl
      · simp [h, Members.render, Str.quoted]
      · simp only [hpos, List.length_append, List.length_cons, List.length_nil]
        omega
    · refine Json.spans_tokens (B := after.bytes ++ (rest.render false ++ B))
        (A := A ++ (separator first ++ (before.bytes ++ (name.quoted ++ (beforeColon.bytes ++
          ((':' : UInt8) :: afterColon.bytes)))))) value ?_ ?_
      · simp [h, Members.render]
      · simp only [hpos, List.length_append, List.length_cons]
        omega
    · refine Members.spans_tokens (B := B)
        (A := A ++ (separator first ++ (before.bytes ++ (name.quoted ++ (beforeColon.bytes ++
          ((':' : UInt8) :: (afterColon.bytes ++ (value.render ++ after.bytes))))))))
        rest ?_ ?_
      · simp [h, Members.render]
      · simp only [hpos, List.length_append, List.length_cons]
        omega

end

end JsonText
