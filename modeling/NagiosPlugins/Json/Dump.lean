import NagiosPlugins.Json.Sizes

/-!
# Dumping a document

`json_dump` walks over the token array by the sizes of the tokens alone. On a document it visits
every token once and prints the value with its members and elements indented.
-/

namespace NagiosPlugins

open Libc JsonText

/-- `for (k = 0; k < n; k++) fprintf (stream, "  ")`. -/
def indentation (n : ℕ) : CString := (List.replicate n (ascii "  ")).flatten

mutual

/-- `json_dump` at the first of the tokens `ts`, which reach to the end of the array: how many
tokens it has dealt with, and the text printed. -/
def jsonDump (json : CString) (ts : List JsmnTok) (indent : ℕ) : Except Stop (ℕ × CString) :=
  match ts with
  | [] => .error .outOfBounds
  | t :: ts' =>
    match t.type with
    | .primitive | .string => .ok (1, tokenText json t ++ if t.size = 0 then ascii "\n" else [])
    | .object => do
      let (j, out) ← dumpMembers json ts' indent t.size.toNat 0
      .ok (j + 1, ascii "\n" ++ out)
    | .array => do
      let (j, out) ← dumpElements json ts' indent t.size.toNat 0
      .ok (j + 1, ascii "\n" ++ out)
    | .undefined => .ok (0, [])
termination_by (ts.length, 0)
decreasing_by all_goals exact Prod.Lex.left _ _ (by simp)

/-- The loop over the members of an object, which start at `ts`; `j` tokens are dealt with. -/
def dumpMembers (json : CString) (ts : List JsmnTok) (indent : ℕ) :
    ℕ → ℕ → Except Stop (ℕ × CString)
  | 0, j => .ok (j, [])
  | i + 1, j => do
    let (k, label) ← jsonDump json (ts.drop j) (indent + 1)
    -- get the value of the previous JSON label
    let (m, value) ←
      if ts[j]?.any (·.size > 0) then do
        let (m, value) ← jsonDump json (ts.drop (j + k)) (indent + 1)
        .ok (m, ascii ": " ++ value)
      else .ok (0, [])
    let (j', rest) ← dumpMembers json ts indent i (j + k + m)
    .ok (j', indentation indent ++ (label ++ (value ++ rest)))
termination_by i _ => (ts.length, i + 1)
decreasing_by
  · exact Prod.Lex.right' _ (by simp) (by simp)
  · exact Prod.Lex.right' _ (by simp) (by simp)
  · exact Prod.Lex.right' _ (by simp) (by simp)

/-- The loop over the elements of an array. -/
def dumpElements (json : CString) (ts : List JsmnTok) (indent : ℕ) :
    ℕ → ℕ → Except Stop (ℕ × CString)
  | 0, j => .ok (j, [])
  | i + 1, j => do
    let (k, value) ← jsonDump json (ts.drop j) (indent + 1)
    let (j', rest) ← dumpElements json ts indent i (j + k)
    .ok (j', indentation (indent - 1) ++ (ascii "  - " ++ (value ++ rest)))
termination_by i _ => (ts.length, i + 1)
decreasing_by
  · exact Prod.Lex.right' _ (by simp) (by simp)
  · exact Prod.Lex.right' _ (by simp) (by simp)

end

/-- `json_dump_pretty`: what `*dump` holds. -/
def jsonDumpPretty (json : CString) (indent : ℕ) : Except Stop CString := do
  match ← jsonTokenise json with
  | none => .error .undefined
  | some (tokens, _) =>
    let (_, dump) ← jsonDump json tokens indent
    .ok dump

/-! ### The indented text -/

mutual

/-- The indented text of a value: the literals and strings as they are spelled, each on the line
of its element or member. -/
def prettyValue (indent : ℕ) : Json → CString
  | .literal l => l.text ++ ascii "\n"
  | .string s => s.bytes ++ ascii "\n"
  | .array _ items => ascii "\n" ++ prettyItems indent items
  | .object _ members => ascii "\n" ++ prettyMembers indent members

def prettyItems (indent : ℕ) : Items → CString
  | .nil => []
  | .cons _ value _ rest =>
    indentation (indent - 1) ++ (ascii "  - " ++ (prettyValue (indent + 1) value
      ++ prettyItems indent rest))

def prettyMembers (indent : ℕ) : Members → CString
  | .nil => []
  | .cons _ name _ _ value _ rest =>
    indentation indent ++ (name.bytes ++ (ascii ": " ++ (prettyValue (indent + 1) value
      ++ prettyMembers indent rest)))

end

section Pretty

variable {text : CString}

lemma jsonDump_leaf {t : JsmnTok} (ht : t.type = .primitive ∨ t.type = .string)
    (ts : List JsmnTok) (indent : ℕ) :
    jsonDump text (t :: ts) indent
      = .ok (1, tokenText text t ++ if t.size = 0 then ascii "\n" else []) := by
  rcases ht with ht | ht <;> simp [jsonDump, ht]

lemma tokenText_mid {A s B : CString} {t : JsmnTok} (htext : text = A ++ (s ++ B))
    (hstart : t.start = A.length) (hend : t.end_ = (A.length + s.length : ℕ)) :
    tokenText text t = s := by
  have hlen : t.end_ - t.start = s.length := by
    rw [hstart, hend]
    omega
  rw [tokenText, hlen, hstart, htext]
  simp

mutual

/-- The dump of the tokens of a value deals with all of them and prints the indented text. -/
theorem jsonDump_value {A B : CString} {pos : ℕ} (v : Json) (htext : text = A ++ (v.render ++ B))
    (hpos : pos = A.length) (more : List JsmnTok) (indent : ℕ) :
    jsonDump text (valueTokens pos v ++ more) indent
      = .ok (v.tokens.length, prettyValue indent v) := by
  match v with
  | .literal l =>
    have hspell : tokenText text
        ⟨.primitive, pos, (pos + l.text.length : ℕ), 0⟩ = l.text :=
      tokenText_mid htext (by rw [hpos]) (by rw [hpos])
    rw [valueTokens, List.singleton_append, jsonDump_leaf (.inl rfl), hspell]
    rfl
  | .string s =>
    have hspell : tokenText text
        ⟨.string, (pos + 1 : ℕ), (pos + 1 + s.bytes.length : ℕ), 0⟩ = s.bytes := by
      have htext' : text = (A ++ [('"' : UInt8)]) ++ (s.bytes ++ (('"' : UInt8) :: B)) := by
        simp [htext, Json.render, Str.quoted]
      exact tokenText_mid htext' (by simp [hpos]) (by simp [hpos])
    rw [valueTokens, List.singleton_append, jsonDump_leaf (.inr rfl), hspell]
    rfl
  | .array ws items =>
    have htext' : text = (A ++ ('[' : UInt8) :: ws.bytes) ++
        (items.render true ++ ((']' : UInt8) :: B)) := by
      simp [htext, Json.render]
    have hpos' : pos + 1 + ws.bytes.length = (A ++ ('[' : UInt8) :: ws.bytes).length := by
      rw [hpos, List.length_append, List.length_cons]
      omega
    have hitems := dumpElements_items items htext' hpos' [] more indent
    simp only [List.nil_append, List.length_nil, Nat.zero_add] at hitems
    rw [valueTokens, List.cons_append, jsonDump]
    simp [hitems, Json.tokens, prettyValue]
  | .object ws members =>
    have htext' : text = (A ++ ('{' : UInt8) :: ws.bytes) ++
        (members.render true ++ (('}' : UInt8) :: B)) := by
      simp [htext, Json.render]
    have hpos' : pos + 1 + ws.bytes.length = (A ++ ('{' : UInt8) :: ws.bytes).length := by
      rw [hpos, List.length_append, List.length_cons]
      omega
    have hmembers := dumpMembers_members members htext' hpos' [] more indent
    simp only [List.nil_append, List.length_nil, Nat.zero_add] at hmembers
    rw [valueTokens, List.cons_append, jsonDump]
    simp [hmembers, Json.tokens, prettyValue]

theorem dumpElements_items {A B : CString} {first : Bool} {pos : ℕ} (items : Items)
    (htext : text = A ++ (items.render first ++ B)) (hpos : pos = A.length)
    (done more : List JsmnTok) (indent : ℕ) :
    dumpElements text (done ++ (itemTokens first pos items ++ more)) indent
        (countItems items) done.length
      = .ok (done.length + items.tokens.length, prettyItems indent items) := by
  match items with
  | .nil => simp [countItems, dumpElements, Items.tokens, prettyItems]
  | .cons before value after items =>
    let start := pos + (separator first).length + before.bytes.length
    let startRest := start + value.render.length + after.bytes.length
    have htext₁ : text = (A ++ (separator first ++ before.bytes)) ++
        (value.render ++ (after.bytes ++ (items.render false ++ B))) := by
      simp [htext, Items.render]
    have hstart : start = (A ++ (separator first ++ before.bytes)).length := by
      simp only [start, hpos, List.length_append, Nat.add_assoc]
    have hvalue := jsonDump_value value htext₁ hstart (itemTokens false startRest items ++ more)
      (indent + 1)
    have htext₂ : text = (A ++ (separator first ++ (before.bytes ++ (value.render ++
        after.bytes)))) ++ (items.render false ++ B) := by
      simp [htext, Items.render]
    have hstartRest : startRest = (A ++ (separator first ++ (before.bytes ++ (value.render ++
        after.bytes)))).length := by
      simp only [startRest, start, hpos, List.length_append, Nat.add_assoc]
    have hitems := dumpElements_items items htext₂ hstartRest (done ++ valueTokens start value) more
      indent
    rw [List.length_append, length_valueTokens, List.append_assoc done] at hitems
    have htokens : itemTokens first pos (.cons before value after items) ++ more
        = valueTokens start value ++ (itemTokens false startRest items ++ more) := by
      rw [itemTokens, List.append_assoc]
    rw [htokens, countItems, dumpElements, List.drop_left, hvalue]
    simp only [Except.ok_bind, hitems, Items.tokens, prettyItems, List.length_append, Nat.add_assoc]

theorem dumpMembers_members {A B : CString} {first : Bool} {pos : ℕ} (members : Members)
    (htext : text = A ++ (members.render first ++ B)) (hpos : pos = A.length)
    (done more : List JsmnTok) (indent : ℕ) :
    dumpMembers text (done ++ (memberTokens first pos members ++ more)) indent
        (countMembers members) done.length
      = .ok (done.length + members.tokens.length, prettyMembers indent members) := by
  match members with
  | .nil => simp [countMembers, dumpMembers, Members.tokens, prettyMembers]
  | .cons before name beforeColon afterColon value after members =>
    let start := pos + (separator first).length + before.bytes.length
    let startValue := start + name.quoted.length + beforeColon.bytes.length + 1
      + afterColon.bytes.length
    let startRest := startValue + value.render.length + after.bytes.length
    let label : JsmnTok := ⟨.string, (start + 1 : ℕ), (start + 1 + name.bytes.length : ℕ), 1⟩
    have hlabel : tokenText text label = name.bytes := by
      have htext₀ : text = (A ++ (separator first ++ (before.bytes ++ [('"' : UInt8)]))) ++
          (name.bytes ++ (('"' : UInt8) :: (beforeColon.bytes ++ ((':' : UInt8) ::
            (afterColon.bytes ++ (value.render ++ (after.bytes ++
              (members.render false ++ B)))))))) := by
        simp [htext, Members.render, Str.quoted]
      refine tokenText_mid htext₀ (congrArg Nat.cast ?_) (congrArg Nat.cast ?_)
      all_goals
        simp only [start, hpos, List.length_append, List.length_singleton, Nat.add_assoc]
    have htext₁ : text = (A ++ (separator first ++ (before.bytes ++ (name.quoted ++
        (beforeColon.bytes ++ ((':' : UInt8) :: afterColon.bytes)))))) ++
        (value.render ++ (after.bytes ++ (members.render false ++ B))) := by
      simp [htext, Members.render]
    have hstartValue : startValue = (A ++ (separator first ++ (before.bytes ++ (name.quoted ++
        (beforeColon.bytes ++ ((':' : UInt8) :: afterColon.bytes)))))).length := by
      simp only [startValue, start, hpos, List.length_append, List.length_cons]
      omega
    have hvalue := jsonDump_value value htext₁ hstartValue
      (memberTokens false startRest members ++ more) (indent + 1)
    have htext₂ : text = (A ++ (separator first ++ (before.bytes ++ (name.quoted ++
        (beforeColon.bytes ++ ((':' : UInt8) :: (afterColon.bytes ++ (value.render ++
          after.bytes)))))))) ++ (members.render false ++ B) := by
      simp [htext, Members.render]
    have hstartRest : startRest = (A ++ (separator first ++ (before.bytes ++ (name.quoted ++
        (beforeColon.bytes ++ ((':' : UInt8) :: (afterColon.bytes ++ (value.render ++
          after.bytes)))))))).length := by
      simp only [startRest, startValue, start, hpos, List.length_append, List.length_cons]
      omega
    have hmembers := dumpMembers_members members htext₂ hstartRest
      (done ++ label :: valueTokens startValue value) more indent
    rw [List.length_append, List.length_cons, length_valueTokens, List.append_assoc done,
      Nat.add_comm _ 1, ← Nat.add_assoc] at hmembers
    have htokens : memberTokens first pos
          (.cons before name beforeColon afterColon value after members) ++ more
        = label :: (valueTokens startValue value ++
            (memberTokens false startRest members ++ more)) := by
      rw [memberTokens, List.cons_append, List.append_assoc]
    have hget : (done ++ label :: (valueTokens startValue value ++
        (memberTokens false startRest members ++ more)))[done.length]? = some label := by
      simp
    have hdrop : (done ++ label :: (valueTokens startValue value ++
          (memberTokens false startRest members ++ more))).drop (done.length + 1)
        = valueTokens startValue value ++ (memberTokens false startRest members ++ more) := by
      simp
    have hsize : Option.any (fun t => decide (t.size > 0)) (some label) = true := rfl
    rw [htokens, countMembers, dumpMembers, List.drop_left, jsonDump_leaf (.inr rfl), hget, hlabel]
    simp only [Except.ok_bind, hdrop, hvalue, List.cons_append, hsize, if_true] at hmembers ⊢
    rw [hmembers]
    -- the label has a value, so no line ends behind it
    simp [label, Members.tokens, prettyMembers, Nat.add_assoc, Nat.add_comm 1]

end

/-- The dump of a JSON document is its value as indented text. -/
theorem jsonDumpPretty_document (d : Document) (indent : ℕ) :
    jsonDumpPretty d.text indent = .ok (prettyValue indent d.value) := by
  have hdump : jsonDump d.text (valueTokens d.before.bytes.length d.value) indent
      = .ok (d.value.tokens.length, prettyValue indent d.value) := by
    have hvalue : jsonDump d.text (valueTokens d.before.bytes.length d.value ++ []) indent = _ :=
      jsonDump_value d.value rfl rfl [] indent
    rwa [List.append_nil] at hvalue
  rw [jsonDumpPretty, jsonTokenise_sizes]
  simp only [Except.ok_bind, hdump]

end Pretty

end NagiosPlugins
