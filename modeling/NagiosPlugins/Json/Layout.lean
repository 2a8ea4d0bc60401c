import NagiosPlugins.Json.Search

/-!
# Where the tokens lie

`jsmn_parse` without strict mode accepts much more than JSON. On every text that the filling pass
accepts, the tokens still lie in the text as tokens should: each is framed by its own delimiters,
they are listed by their starts, and two of them are either apart or one inside the other.
-/

namespace NagiosPlugins

open Libc

/-! ### What the scans accept -/

/-- The bytes between the quotes as `jsmn_parse_string` accepts them: unlike in JSON, control
characters may stand there, but no null byte. -/
inductive StringScan : CString → Prop where
  | nil : StringScan []
  | plain {c : UInt8} {s : CString} (h0 : c ≠ 0) (hq : c ≠ '"') (hb : c ≠ '\\')
      (h : StringScan s) : StringScan (c :: s)
  | escape {e : UInt8} {s : CString} (he : e ∈ ascii "\"/\\bfrnt") (h : StringScan s) :
      StringScan ('\\' :: e :: s)
  | unicode {digits s : CString} (hlen : digits.length = 4) (hd : ∀ d ∈ digits, isxdigit d)
      (h : StringScan s) : StringScan ('\\' :: 'u' :: (digits ++ s))

lemma StringScan.head_ne_zero {s : CString} (h : StringScan s) (rest : CString) :
    ∃ c tail, s ++ ('"' : UInt8) :: rest = c :: tail ∧ c ≠ 0 := by
  cases h with
  | nil => exact ⟨_, _, rfl, by decide⟩
  | plain h0 hq hb h => exact ⟨_, _, rfl, h0⟩
  | escape he h => exact ⟨_, _, rfl, by decide⟩
  | unicode hlen hd h => exact ⟨_, _, rfl, by decide⟩

/-- Fewer than `n` hexadecimal digits are read only in front of the end of the text. -/
lemma hexLoop_eq_ok {n k : ℕ} {cs : CString} (h : hexLoop n cs = .ok k) :
    ∃ digits rest, cs = digits ++ rest ∧ digits.length = k ∧ (∀ d ∈ digits, isxdigit d) ∧
      (k = n ∨ rest.head?.getD 0 = 0) := by
  induction n generalizing cs k with
  | zero =>
    cases Except.ok.inj h
    exact ⟨[], cs, rfl, rfl, by simp, .inl rfl⟩
  | succ n ih =>
    cases cs with
    | nil =>
      cases Except.ok.inj h
      exact ⟨[], [], rfl, rfl, by simp, .inr rfl⟩
    | cons c cs =>
      simp only [hexLoop] at h
      split_ifs at h with h0 hx
      · cases Except.ok.inj h
        exact ⟨[], c :: cs, rfl, rfl, by simp, .inr h0⟩
      · obtain ⟨j, hj, hk⟩ := Except.bind_eq_ok.1 h
        obtain ⟨digits, rest, rfl, hlen, hd, hrest⟩ := ih hj
        cases Except.ok.inj hk
        refine ⟨c :: digits, rest, rfl, by simp [hlen], ?_, ?_⟩
        · exact List.forall_mem_cons.2 ⟨hx, hd⟩
        · exact hrest.imp (congrArg (· + 1)) id

/-- Where the scan of a string stops, a quote ends the bytes that it has passed. The first bytes
are the ones that are still to be skipped. -/
lemma stringLoop_eq_ok {cs : CString} {skip pos stop : ℕ}
    (h : stringLoop cs skip pos = .ok stop) :
    ∃ u s rest, cs = u ++ (s ++ ('"' : UInt8) :: rest) ∧ u.length = skip ∧ StringScan s ∧
      stop = pos + skip + s.length := by
  induction cs generalizing skip pos with
  | nil => cases h
  | cons c cs ih =>
    cases skip with
    | succ skip =>
      obtain ⟨u, s, rest, rfl, hu, hs, rfl⟩ := ih h
      exact ⟨c :: u, s, rest, rfl, by simp [hu], hs, by omega⟩
    | zero =>
      unfold stringLoop at h
      split_ifs at h with h0 hq hb
      · cases Except.ok.inj h
        exact ⟨[], [], cs, by simp [hq], rfl, .nil, rfl⟩
      · subst hb
        cases cs with
        | nil => cases h
        | cons e cs =>
          simp only at h
          split_ifs at h with he hu
          · obtain ⟨u, s, rest, hcs, hlen, hs, rfl⟩ := ih h
            obtain ⟨d, rfl⟩ := List.length_eq_one_iff.1 hlen
            obtain ⟨rfl, rfl⟩ := List.cons.inj hcs
            exact ⟨[], '\\' :: e :: s, rest, rfl, rfl, .escape he hs, by
              simp only [List.length_cons]; omega⟩
          · subst hu
            obtain ⟨k, hk, h⟩ := Except.bind_eq_ok.1 h
            obtain ⟨digits, tail, rfl, hlen, hd, htail⟩ := hexLoop_eq_ok hk
            obtain ⟨u, s, rest, hcs, hulen, hs, rfl⟩ := ih h
            have hsplit : (('u' : UInt8) :: digits) ++ tail = u ++ (s ++ ('"' : UInt8) :: rest) :=
              hcs
            obtain ⟨rfl, rfl⟩ := List.append_inj hsplit
              (by rw [hulen, List.length_cons, hlen, Nat.add_comm])
            -- a shorter run of digits would stand in front of a null byte
            have hfour : digits.length = 4 := by
              obtain ⟨d, tail, hcons, hd0⟩ := hs.head_ne_zero rest
              rw [hcons] at htail
              exact hlen.trans (htail.resolve_right hd0)
            refine ⟨[], '\\' :: 'u' :: (digits ++ s), rest, by simp, rfl, ?_, ?_⟩
            · exact .unicode hfour hd hs
            · simp only [List.length_cons, List.length_append]
              omega
      · obtain ⟨u, s, rest, hcs, hlen, hs, rfl⟩ := ih h
        cases List.eq_nil_of_length_eq_zero hlen
        refine ⟨[], c :: s, rest, by simp [hcs], rfl, .plain h0 hq hb hs, ?_⟩
        simp only [List.length_cons]
        omega

/-- The bytes of a primitive. -/
def isPrimitiveByte (c : UInt8) : Bool := 32 ≤ c && c < 127 && !endsPrimitive c

lemma primitiveLoop_eq_ok {cs : CString} {pos stop : ℕ} (h : primitiveLoop cs pos = .ok stop) :
    ∃ s rest, cs = s ++ rest ∧ (∀ c ∈ s, isPrimitiveByte c) ∧ stop = pos + s.length ∧
      ∀ c ∈ rest.head?, c = 0 ∨ endsPrimitive c := by
  induction cs generalizing pos with
  | nil =>
    cases Except.ok.inj h
    exact ⟨[], [], rfl, by simp, rfl, by simp⟩
  | cons c cs ih =>
    rw [primitiveLoop] at h
    split_ifs at h with h0 hend hrange
    · cases Except.ok.inj h
      exact ⟨[], c :: cs, rfl, by simp, rfl, by simp [h0]⟩
    · cases Except.ok.inj h
      exact ⟨[], c :: cs, rfl, by simp, rfl, by simp [hend]⟩
    · obtain ⟨s, rest, rfl, hs, rfl, hrest⟩ := ih h
      have hc : isPrimitiveByte c := by
        have hbyte : ∀ c : UInt8, ¬ endsPrimitive c → ¬ (c < 32 ∨ c ≥ 127) →
            isPrimitiveByte c := by decide +kernel
        exact hbyte c hend hrange
      refine ⟨c :: s, rest, rfl, List.forall_mem_cons.2 ⟨hc, hs⟩, ?_, hrest⟩
      simp only [List.length_cons]
      omega

/-! ### What one step does -/

lemma JsmnTok.isOpen_eq_false {t : JsmnTok} {k : ℕ} (h : t.end_ = k) : t.isOpen = false := by
  have : (k : ℤ) ≠ -1 := by omega
  simp [isOpen, h, this]

/-- The parser with one more token, which counts for the superior token. -/
def JsmnParser.push (p : JsmnParser) (t : JsmnTok) : JsmnParser :=
  JsmnParser.growSuper { p with tokens := p.tokens ++ [t], count := p.count + 1 }

/-- What one step of the filling pass does at the byte `c`, in front of `cs`: how many bytes are
to be skipped, and the parser behind the step. -/
inductive JsmnMove (c : UInt8) (cs : CString) (p : JsmnParser) : ℕ → JsmnParser → Prop where
  | opened {type : JsmnType} {closing : UInt8} (h : Brackets type c closing) :
      JsmnMove c cs p 0
        { p.push ⟨type, p.pos, -1, 0⟩ with toksuper := p.tokens.length }
  | closed {type : JsmnType} {opening : UInt8} (h : Brackets type opening c)
      {A B : List JsmnTok} {t : JsmnTok} (htokens : p.tokens = A ++ t :: B) (htype : t.type = type)
      (ht : t.isOpen) (hB : ∀ u ∈ B, u.isOpen = false) :
      JsmnMove c cs p 0
        { p with
          tokens := A ++ { t with end_ := p.pos + 1 } :: B
          toksuper := toIndex (lastIndex JsmnTok.isOpen A A.length) }
  | string {s rest : CString} (hc : c = '"') (hcs : cs = s ++ ('"' : UInt8) :: rest)
      (hs : StringScan s) :
      JsmnMove c cs p (s.length + 1)
        (p.push ⟨.string, (p.pos + 1 : ℕ), (p.pos + 1 + s.length : ℕ), 0⟩)
  | primitive {s rest : CString} (hcs : cs = s ++ rest) (hs : ∀ d ∈ c :: s, isPrimitiveByte d)
      (hrest : ∀ d ∈ rest.head?, d = 0 ∨ endsPrimitive d) :
      JsmnMove c cs p s.length
        (p.push ⟨.primitive, p.pos, (p.pos + (c :: s).length : ℕ), 0⟩)
  | blank : JsmnMove c cs p 0 p
  | colon : JsmnMove c cs p 0 { p with toksuper := p.tokens.length - 1 }
  | comma {A B : List JsmnTok} {t : JsmnTok} (htokens : p.tokens = A ++ t :: B) (ht : t.isOpen)
      (hcontainer : t.isContainer) (hB : ∀ u ∈ B, u.isContainer → u.isOpen = false) :
      JsmnMove c cs p 0 { p with toksuper := A.length }

section Move

variable {n k : ℕ} {p p' : JsmnParser} {c : UInt8} {cs : CString} {P : JsmnTok → Bool}

/-- The search only looks at the tokens in front of where it starts. -/
lemma lastIndex_append_left (A B : List JsmnTok) {m : ℕ} (hm : m ≤ A.length) :
    lastIndex P (A ++ B) m = lastIndex P A m := by
  induction m with
  | zero => rfl
  | succ m ih =>
    rw [lastIndex, lastIndex, List.getElem?_append_left hm, ih (by omega)]

lemma lastIndex_snoc (A B : List JsmnTok) (t : JsmnTok) :
    lastIndex P (A ++ t :: B) (A.length + 1)
      = if P t then some A.length else lastIndex P A A.length := by
  rw [lastIndex, lastIndex_append_left A (t :: B) le_rfl]
  simp

lemma lastIndex_eq_some {tokens : List JsmnTok} {i : ℕ}
    (h : lastIndex P tokens tokens.length = some i) :
    ∃ A t B, tokens = A ++ t :: B ∧ A.length = i ∧ P t ∧ ∀ u ∈ B, P u = false := by
  induction tokens using List.reverseRecOn with
  | nil => cases h
  | append_singleton tokens t ih =>
    rw [List.length_append, List.length_singleton, lastIndex_snoc] at h
    split_ifs at h with ht
    · exact ⟨tokens, t, [], rfl, Option.some.inj h, ht, by simp⟩
    · obtain ⟨A, u, B, rfl, hA, hu, hB⟩ := ih h
      refine ⟨A, u, B ++ [t], by simp, hA, hu, ?_⟩
      simpa [or_imp, forall_and, ht] using hB

lemma lastIndex_none_iff {tokens : List JsmnTok} :
    lastIndex P tokens tokens.length = none ↔ ∀ t ∈ tokens, P t = false := by
  refine ⟨fun h => ?_, fun h => lastIndex_eq_none h _⟩
  induction tokens using List.reverseRecOn with
  | nil => simp
  | append_singleton tokens t ih =>
    rw [List.length_append, List.length_singleton, lastIndex_snoc] at h
    split_ifs at h with ht
    simpa [or_imp, forall_and, ht] using ih h

lemma jsmnOpen_eq_ok {type : JsmnType} (h : jsmnOpen (some n) type p = .ok p') :
    p' = { p.push ⟨type, p.pos, -1, 0⟩ with toksuper := p.tokens.length } := by
  simp only [jsmnOpen] at h
  obtain ⟨r, hr, hp'⟩ := Except.bind_eq_ok.1 h
  cases jsmnAllocToken_eq_ok hr
  cases Except.ok.inj hp'
  simp [JsmnParser.push, JsmnParser.toknext, JsmnParser.growSuper_length]

lemma jsmnClose_move {type : JsmnType} {opening : UInt8} (hb : Brackets type opening c)
    (h : jsmnClose (some n) type p = .ok p') : JsmnMove c cs p 0 p' := by
  simp only [jsmnClose] at h
  split at h
  · cases h
  rename_i i hi
  split_ifs at h with htype
  obtain ⟨A, t, B, htokens, rfl, ht, hB⟩ := lastIndex_eq_some hi
  have htype' : t.type = type := by simpa [htokens] using htype
  have hclosed : JsmnTok.isOpen { t with end_ := p.pos + 1 } = false :=
    JsmnTok.isOpen_eq_false (k := p.pos + 1) rfl
  rw [htokens, List.modify_length_append, lastIndex_snoc, hclosed] at h
  cases Except.ok.inj h
  exact .closed hb htokens htype' ht hB

lemma jsmnParseString_move (hc : c = '"') {q : JsmnParser}
    (h : jsmnParseString (some n) cs p = .ok (k, q)) :
    JsmnMove c cs p k (afterLeaf (some n) q) := by
  obtain ⟨stop, hstop, h⟩ := Except.bind_eq_ok.1 h
  obtain ⟨r, hr, h⟩ := Except.bind_eq_ok.1 h
  cases jsmnAllocToken_eq_ok hr
  cases Except.ok.inj h
  obtain ⟨u, s, rest, hcs, hu, hs, rfl⟩ := stringLoop_eq_ok hstop
  cases List.eq_nil_of_length_eq_zero hu
  have hk : p.pos + 1 + 0 + s.length - p.pos = s.length + 1 := by omega
  rw [hk]
  exact .string hc hcs hs

lemma jsmnParsePrimitive_move (hend : endsPrimitive c = false) (h0 : c ≠ 0) {q : JsmnParser}
    (h : jsmnParsePrimitive (some n) c cs p = .ok (k, q)) :
    JsmnMove c cs p k (afterLeaf (some n) q) := by
  obtain ⟨stop, hstop, h⟩ := Except.bind_eq_ok.1 h
  obtain ⟨r, hr, h⟩ := Except.bind_eq_ok.1 h
  cases jsmnAllocToken_eq_ok hr
  cases Except.ok.inj h
  obtain ⟨s, rest, hcs, hs, rfl, hrest⟩ := primitiveLoop_eq_ok hstop
  cases s with
  | nil =>
    -- the scan passes the byte it starts at
    cases hcs
    simp [h0, hend] at hrest
  | cons d s =>
    obtain ⟨rfl, rfl⟩ := List.cons.inj hcs
    have hk : p.pos + (c :: s).length - p.pos - 1 = s.length := by
      simp only [List.length_cons]
      omega
    rw [hk]
    exact .primitive rfl hs hrest

lemma jsmnComma_move : JsmnMove c cs p 0 (jsmnComma (some n) p) := by
  simp only [jsmnComma]
  split_ifs
  · split
    · exact .blank
    · rename_i i hi
      obtain ⟨A, t, B, htokens, rfl, ht, hB⟩ := lastIndex_eq_some hi
      obtain ⟨hcontainer, hopen⟩ : t.isContainer ∧ t.isOpen := by simpa using ht
      refine .comma htokens hopen hcontainer fun u hu hucontainer => ?_
      simpa [hucontainer] using hB u hu
  · exact .blank

/-- Every step of the filling pass is one of the moves. -/
theorem jsmnStep_move (hc : c ≠ 0) (h : jsmnStep (some n) c cs p = .ok (k, p')) :
    JsmnMove c cs p k p' := by
  have hbracket : ∀ {x : Except JsmnErr JsmnParser}, (∀ {r}, x = .ok r → JsmnMove c cs p 0 r) →
      (x >>= fun r => pure (0, r)) = .ok (k, p') → JsmnMove c cs p k p' := by
    intro x hx hbind
    obtain ⟨r, hr, hp'⟩ := Except.bind_eq_ok.1 hbind
    cases Except.ok.inj hp'
    exact hx hr
  have hleaf : ∀ {x : Except JsmnErr (ℕ × JsmnParser)},
      (∀ {j r}, x = .ok (j, r) → JsmnMove c cs p j (afterLeaf (some n) r)) →
      (x >>= fun a => pure (a.1, afterLeaf (some n) a.2)) = .ok (k, p') →
      JsmnMove c cs p k p' := by
    intro x hx hbind
    obtain ⟨⟨j, r⟩, hr, hp'⟩ := Except.bind_eq_ok.1 hbind
    cases Except.ok.inj hp'
    exact hx hr
  have hopen : ∀ {type closing}, Brackets type c closing →
      ∀ {r}, jsmnOpen (some n) type p = .ok r → JsmnMove c cs p 0 r := by
    intro type closing hb r hr
    rw [jsmnOpen_eq_ok hr]
    exact .opened hb
  rw [jsmnStep] at h
  split_ifs at h with h1 h2 h3 h4 h5 h6 h7 h8
  · subst h1
    exact hbracket (hopen .object) h
  · subst h2
    exact hbracket (hopen .array) h
  · subst h3
    exact hbracket (jsmnClose_move .object) h
  · subst h4
    exact hbracket (jsmnClose_move .array) h
  · exact hleaf (jsmnParseString_move h5) h
  · cases Except.ok.inj h
    exact .blank
  · cases Except.ok.inj h
    exact .colon
  · cases Except.ok.inj h
    exact jsmnComma_move
  · have hbyte : ∀ c : UInt8, c ≠ '}' → c ≠ ']' → c ∉ ascii "\t\r\n " → c ≠ ':' → c ≠ ',' →
        endsPrimitive c = false := by decide +kernel
    exact hleaf (jsmnParsePrimitive_move (hbyte c h3 h4 h6 h7 h8) hc) h

end Move

/-! ### Well laid tokens -/

/-- A closed token lies in the text on, or between, its own delimiters. -/
inductive Place.Framed (text : CString) : Place → Prop where
  | container {type : JsmnType} {opening closing : UInt8} (h : Brackets type opening closing)
      {A s B : CString} (htext : text = A ++ opening :: (s ++ closing :: B)) :
      Framed text (type, A.length, (A.length + s.length + 2 : ℕ))
  | string {A s B : CString} (hs : StringScan s)
      (htext : text = A ++ ('"' : UInt8) :: (s ++ ('"' : UInt8) :: B)) :
      Framed text (.string, (A.length + 1 : ℕ), (A.length + 1 + s.length : ℕ))
  | primitive {A s B : CString} (hne : s ≠ []) (hs : ∀ c ∈ s, isPrimitiveByte c)
      (hB : ∀ c ∈ B.head?, c = 0 ∨ endsPrimitive c) (htext : text = A ++ (s ++ B)) :
      Framed text (.primitive, A.length, (A.length + s.length : ℕ))

lemma Place.Framed.closed {text : CString} {x : Place} (h : x.Framed text) : x.isOpen = false := by
  have hstop : ∀ k : ℕ, (k : ℤ) ≠ -1 := by omega
  cases h <;> simp only [Place.isOpen, Bool.and_eq_false_iff, beq_eq_false_iff_ne] <;>
    exact .inr (hstop _)

/-- The container `x` ends behind `y`. -/
def Place.Around (x y : Place) : Prop := (x.1 = .object ∨ x.1 = .array) ∧ y.2.2 < x.2.2

/-- `x` starts in front of `y`, and either ends in front of it or is a container around it. -/
def Place.Before (x y : Place) : Prop := x.2.1 < y.2.1 ∧ (x.2.2 ≤ y.2.1 ∨ x.Around y)

/-- The tokens allocated by the time the walk has passed all bytes in front of `limit`. -/
structure Laid (text : CString) (limit : ℕ) (xs : List Place) : Prop where
  opened : ∀ x ∈ xs, x.isOpen → ∃ opening closing A B, Brackets x.1 opening closing ∧
    text = A ++ opening :: B ∧ x.2.1 = A.length
  framed : ∀ x ∈ xs, x.isOpen = false → x.Framed text
  below : ∀ x ∈ xs, x.2.1 < limit ∧ x.2.2 ≤ limit
  before : xs.Pairwise fun x y =>
    x.2.1 < y.2.1 ∧ (x.isOpen ∨ x.2.2 ≤ y.2.1 ∨ y.isOpen = false ∧ x.Around y)

namespace Laid

variable {text : CString} {limit : ℕ} {xs ys : List Place}

lemma nil (text : CString) (limit : ℕ) : Laid text limit [] :=
  ⟨by simp, by simp, by simp, .nil⟩

lemma mono (h : Laid text limit xs) {limit' : ℕ} (hle : limit ≤ limit') : Laid text limit' xs where
  opened := h.opened
  framed := h.framed
  below x hx := by
    have := h.below x hx
    omega
  before := h.before

lemma snoc (h : Laid text limit xs) {x : Place} {limit' : ℕ}
    (hopened : x.isOpen → ∃ opening closing A B, Brackets x.1 opening closing ∧
      text = A ++ opening :: B ∧ x.2.1 = A.length)
    (hframed : x.isOpen = false → x.Framed text)
    (hstart : limit ≤ x.2.1) (hlimit : x.2.1 < limit' ∧ x.2.2 ≤ limit') :
    Laid text limit' (xs ++ [x]) where
  opened y hy := by
    rcases List.mem_append.1 hy with hy | hy
    · exact h.opened y hy
    · rw [List.mem_singleton.1 hy]
      exact hopened
  framed y hy := by
    rcases List.mem_append.1 hy with hy | hy
    · exact h.framed y hy
    · rw [List.mem_singleton.1 hy]
      exact hframed
  below y hy := by
    rcases List.mem_append.1 hy with hy | hy
    · have := h.below y hy
      omega
    · rw [List.mem_singleton.1 hy]
      exact hlimit
  before := by
    refine List.pairwise_append.2 ⟨h.before, List.pairwise_singleton _ _, fun y hy z hz => ?_⟩
    have := h.below y hy
    rw [List.mem_singleton.1 hz]
    exact ⟨by omega, .inr (.inl (by omega))⟩

lemma snoc_framed (h : Laid text limit xs) {x : Place} {limit' : ℕ} (hx : x.Framed text)
    (hstart : limit ≤ x.2.1) (hlimit : x.2.1 < limit' ∧ x.2.2 ≤ limit') :
    Laid text limit' (xs ++ [x]) := by
  refine h.snoc (fun hopen => ?_) (fun _ => hx) hstart hlimit
  rw [hx.closed] at hopen
  cases hopen

/-- The bracket at `limit` closes the last open container. -/
lemma close {type : JsmnType} {opening closing : UInt8} (hb : Brackets type opening closing)
    {start : ℤ} (h : Laid text limit (xs ++ (type, start, -1) :: ys))
    (hopen : Place.isOpen (type, start, -1)) (hys : ∀ y ∈ ys, y.isOpen = false)
    {A B : CString} (htext : text = A ++ closing :: B) (hA : A.length = limit) :
    Laid text (limit + 1) (xs ++ (type, start, (limit : ℤ) + 1) :: ys) := by
  have hmem : (type, start, (-1 : ℤ)) ∈ xs ++ (type, start, -1) :: ys := by simp
  have hclosed : Place.isOpen (type, start, (limit : ℤ) + 1) = false := by
    have : (limit : ℤ) + 1 ≠ -1 := by omega
    simp [Place.isOpen, this]
  have hframed : Place.Framed text (type, start, (limit : ℤ) + 1) := by
    obtain ⟨opening', closing', A', B', hb', htext', hstart⟩ := h.opened _ hmem hopen
    have hlt := (h.below _ hmem).1
    obtain rfl : opening = opening' := by cases hb <;> cases hb' <;> rfl
    simp only at hstart hlt
    subst hstart
    -- the text between the two brackets
    obtain ⟨s, rfl⟩ : ∃ s, A = A' ++ opening :: s := by
      have hprefix : A' ++ [opening] <+: A := by
        have hopening : A' ++ [opening] <+: text := ⟨B', by simp [htext']⟩
        refine List.prefix_of_prefix_length_le hopening ⟨closing :: B, htext.symm⟩ ?_
        rw [List.length_append, List.length_singleton]
        omega
      obtain ⟨s, hs⟩ := hprefix
      exact ⟨s, by simp [← hs]⟩
    have hlimit : (limit : ℤ) + 1 = (A'.length + s.length + 2 : ℕ) := by
      rw [← hA, List.length_append, List.length_cons]
      omega
    rw [hlimit]
    refine .container (B := B) hb ?_
    simp [htext]
  have hmem' : ∀ x ∈ xs ++ (type, start, (limit : ℤ) + 1) :: ys,
      x = (type, start, (limit : ℤ) + 1) ∨ x ∈ xs ++ (type, start, -1) :: ys := by
    intro x hx
    simp only [List.mem_append, List.mem_cons] at hx ⊢
    tauto
  constructor
  · intro x hx hxopen
    rcases hmem' x hx with rfl | hx
    · rw [hclosed] at hxopen
      cases hxopen
    · exact h.opened x hx hxopen
  · intro x hx hxclosed
    rcases hmem' x hx with rfl | hx
    · exact hframed
    · exact h.framed x hx hxclosed
  · intro x hx
    rcases hmem' x hx with rfl | hx
    · have := h.below _ hmem
      simp only at this ⊢
      omega
    · have := h.below x hx
      omega
  · obtain ⟨hxs, hcons, hcross⟩ := List.pairwise_append.1 h.before
    obtain ⟨hhead, htail⟩ := List.pairwise_cons.1 hcons
    refine List.pairwise_append.2 ⟨hxs, List.pairwise_cons.2 ⟨fun y hy => ?_, htail⟩, ?_⟩
    · have hy' : y ∈ xs ++ (type, start, (-1 : ℤ)) :: ys := by simp [hy]
      have hcontainer : type = .object ∨ type = .array := by cases hb <;> simp
      have := (h.below y hy').2
      refine ⟨(hhead y hy).1, .inr (.inr ⟨hys y hy, hcontainer, ?_⟩)⟩
      simp only
      omega
    · intro x hx y hy
      rcases List.mem_cons.1 hy with rfl | hy
      · -- nothing closed goes around an open container
        obtain ⟨hlt, hx | hx | ⟨hx, -⟩⟩ := hcross x hx (type, start, -1) (by simp)
        · exact ⟨hlt, .inl hx⟩
        · exact ⟨hlt, .inr (.inl hx)⟩
        · rw [hopen] at hx
          cases hx
      · exact hcross x hx y (List.mem_cons_of_mem _ hy)

end Laid

/-! ### The walk -/

namespace JsmnParser

@[simp] lemma push_pos (p : JsmnParser) (t : JsmnTok) : (p.push t).pos = p.pos :=
  growSuper_pos _

@[simp] lemma push_places (p : JsmnParser) (t : JsmnTok) :
    (p.push t).places = p.places ++ [t.place] := by
  rw [push, growSuper_places]
  simp [places]

end JsmnParser

section Walk

variable {n k skip : ℕ} {p p' : JsmnParser} {c : UInt8} {text A cs : CString}

lemma JsmnMove.laid (h : JsmnMove c cs p k p') (htext : text = A ++ c :: cs)
    (hA : A.length = p.pos) (hp : Laid text p.pos p.places) :
    p'.pos = p.pos ∧ Laid text (p.pos + 1 + k) p'.places := by
  cases h with
  | opened hb =>
    refine ⟨by simp, ?_⟩
    change Laid text _ (JsmnParser.push _ _).places
    rw [JsmnParser.push_places]
    refine hp.snoc (fun _ => ⟨c, _, A, cs, hb, htext, ?_⟩) (fun hclosed => ?_) le_rfl ?_
    · simp [JsmnTok.place, hA]
    · have : (p.pos : ℤ) ≠ -1 := by omega
      simp [JsmnTok.place, Place.isOpen, this] at hclosed
    · simp only [JsmnTok.place]
      omega
  | @closed type opening hb C D t htokens htype ht hD =>
    refine ⟨rfl, ?_⟩
    have hplace : t.place = (type, t.start, -1) := by
      have : t.end_ = -1 := by simpa using (Bool.and_eq_true_iff.1 ht).2
      rw [JsmnTok.place, htype, this]
    have hplaces : p.places = C.map JsmnTok.place ++ (type, t.start, -1) ::
        D.map JsmnTok.place := by
      simp [JsmnParser.places, htokens, hplace]
    rw [hplaces] at hp
    have hopen : Place.isOpen (type, t.start, -1) := by rw [← hplace, ← JsmnTok.isOpen_eq, ht]
    have := hp.close hb hopen (by simpa [JsmnTok.isOpen_eq] using hD) htext hA
    simpa [JsmnParser.places, JsmnTok.place, htype] using this
  | string hc hcs hs =>
    refine ⟨by simp, ?_⟩
    rename_i s rest
    have hframed : Place.Framed text
        (.string, (p.pos + 1 : ℕ), (p.pos + 1 + s.length : ℕ)) := by
      rw [← hA]
      exact .string hs (by rw [htext, hcs, hc])
    rw [JsmnParser.push_places]
    refine hp.snoc_framed hframed ?_ ?_
    · simp only [JsmnTok.place]
      omega
    · simp only [JsmnTok.place]
      omega
  | primitive hcs hs hrest =>
    refine ⟨by simp, ?_⟩
    rename_i s rest
    have hframed : Place.Framed text
        (.primitive, p.pos, (p.pos + (c :: s).length : ℕ)) := by
      rw [← hA]
      exact .primitive (by simp) hs hrest (by rw [htext, hcs]; rfl)
    rw [JsmnParser.push_places]
    refine hp.snoc_framed hframed le_rfl ?_
    simp only [JsmnTok.place, List.length_cons]
    omega
  | blank => exact ⟨rfl, hp.mono (Nat.le_succ _)⟩
  | colon => exact ⟨rfl, hp.mono (Nat.le_succ _)⟩
  | comma htokens ht hcontainer hB => exact ⟨rfl, hp.mono (Nat.le_succ _)⟩

lemma jsmnLoop_laid (h : jsmnLoop (some n) cs skip p = .ok p') (htext : text = A ++ cs)
    (hA : A.length = p.pos) (hp : Laid text (p.pos + skip) p.places) :
    ∃ limit, Laid text limit p'.places := by
  induction cs generalizing A skip p with
  | nil =>
    cases Except.ok.inj h
    exact ⟨_, hp⟩
  | cons c cs ih =>
    have htext' : text = (A ++ [c]) ++ cs := by simp [htext]
    cases skip with
    | succ skip =>
      refine ih h htext' (by simp [hA]) ?_
      rwa [← Nat.add_assoc, Nat.add_right_comm] at hp
    | zero =>
      simp only [jsmnLoop] at h
      split_ifs at h with hc
      · cases Except.ok.inj h
        exact ⟨_, hp⟩
      · obtain ⟨⟨k, r⟩, hr, h⟩ := Except.bind_eq_ok.1 h
        obtain ⟨hpos, hlaid⟩ := (jsmnStep_move hc hr).laid htext hA hp
        refine ih h htext' (by simp [hA, hpos]) ?_
        simp only [hpos]
        exact hlaid

variable {js : CString} {r : ℕ} {tokens : List JsmnTok}

/-- The run behind an accepted text, which has left no token open. -/
lemma jsmnParse_eq_ok (h : jsmnParse (some n) js = .ok (r, tokens)) :
    ∃ p, jsmnLoop (some n) js 0 jsmnInit = .ok p ∧ p.tokens = tokens ∧ tokens.length = r ∧
      ∀ t ∈ tokens, t.isOpen = false := by
  obtain ⟨p, hp, h⟩ := Except.bind_eq_ok.1 h
  have hfilled : p.Filled := jsmnLoop_filled hp rfl
  simp only [Option.isSome_some, true_and] at h
  split_ifs at h with hopen
  cases Except.ok.inj h
  exact ⟨p, hp, rfl, hfilled, lastIndex_none_iff.1 (Option.not_isSome_iff_eq_none.1 hopen)⟩

lemma jsmnParse_framed (h : jsmnParse (some n) js = .ok (r, tokens)) :
    ∀ t ∈ tokens, t.place.Framed js := by
  obtain ⟨p, hp, rfl, -, hclosed⟩ := jsmnParse_eq_ok h
  obtain ⟨limit, hlaid⟩ := jsmnLoop_laid (A := []) hp rfl rfl (Laid.nil js 0)
  exact fun t ht => hlaid.framed _ (List.mem_map_of_mem ht) (hclosed t ht)

lemma jsmnParse_before (h : jsmnParse (some n) js = .ok (r, tokens)) :
    tokens.Pairwise fun t u => t.place.Before u.place := by
  obtain ⟨p, hp, rfl, -, hclosed⟩ := jsmnParse_eq_ok h
  obtain ⟨limit, hlaid⟩ := jsmnLoop_laid (A := []) hp rfl rfl (Laid.nil js 0)
  refine (List.pairwise_map.1 hlaid.before).imp_of_mem fun {t u} ht _ htu => ⟨htu.1, ?_⟩
  rcases htu.2 with hopen | hstop | ⟨-, haround⟩
  · rw [← JsmnTok.isOpen_eq, hclosed t ht] at hopen
    cases hopen
  · exact .inl hstop
  · exact .inr haround

/-- The tokens of an accepted text are as many as were counted, lie each on its own delimiters,
and are apart or one inside the other. -/
theorem jsmnParse_laid (h : jsmnParse (some n) js = .ok (r, tokens)) :
    tokens.length = r ∧ (∀ t ∈ tokens, t.place.Framed js) ∧
      tokens.Pairwise fun t u => t.place.Before u.place := by
  obtain ⟨-, -, -, hlen, -⟩ := jsmnParse_eq_ok h
  exact ⟨hlen, jsmnParse_framed h, jsmnParse_before h⟩

/-- A text that is accepted although it is no JSON. -/
theorem jsmnParse_laid_lenient :
    ([⟨.array, 0, 7, 2⟩, ⟨.primitive, 1, 2, 0⟩, ⟨.object, 3, 5, 0⟩] : List JsmnTok).Pairwise
      fun t u => t.place.Before u.place :=
  (jsmnParse_laid (n := 3) (r := 3)
    (by decide +kernel : jsmnParse (some 3) (ascii "[x \x7b\x7d:]") = .ok (3, _))).2.2

end Walk

end NagiosPlugins
