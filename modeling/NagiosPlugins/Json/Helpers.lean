import NagiosPlugins.Json.Jsmn

/-!
# Helper functions for parsing data in JSON format

`lib/json_helpers.c`.
-/

namespace NagiosPlugins

open Libc

/-- The text of a token: the bytes of `json` from its start to its end. -/
def tokenText (json : CString) (tok : JsmnTok) : CString :=
  (json.drop tok.start.toNat).take (tok.end_ - tok.start).toNat

/-- `json_token_streq`, true for the return value 0. -/
def jsonTokenStreq (json : CString) (tok : JsmnTok) (s : CString) : Bool :=
  tok.type = .string ∧ (s.length : ℤ) = tok.end_ - tok.start ∧ tokenText json tok = s

/-- The token array and `*ntoken`, or `none` for NULL: `*ntoken` is not set then. An array of no
tokens is not NULL, so the second pass fills it in as any other one. -/
def jsonTokenise (json : CString) : Except Stop (Option (List JsmnTok × ℕ)) :=
  match jsmnParse none json with
  | .error _ => .ok none
  | .ok (r, _) =>
    match jsmnParse (some r) json with
    | .error _ => .error .assertion
    | .ok (_, tokens) => .ok (some (tokens, r))

/-! ### Searching a label in an object -/

/-- The object and the label that a path names. -/
def pathNames (path : CString) : Option (CString × CString) := do
  let (object, saveptr) ← strtok '.' path
  let (label, _) ← strtok '.' saveptr
  return (object, label)

/-- The loop of `json_search`: `*value` afterwards. The array ends behind the last token. -/
def labelLoop (json object label : CString) :
    List JsmnTok → Bool → Option CString → Except Stop (Option CString)
  | [], _, value => .ok value
  | tok :: rest, foundObject, value =>
    if jsonTokenStreq json tok object then labelLoop json object label rest true value
    else if foundObject ∧ tok.type = .string ∧ jsonTokenStreq json tok label then
      match rest.head? with
      | none => .error .outOfBounds
      | some next => .ok (some (tokenText json next))
    else labelLoop json object label rest foundObject value

/-- The `i` at which this loop breaks. -/
def labelIndex (json object label : CString) : List JsmnTok → Bool → Option ℕ
  | [], _ => none
  | tok :: rest, foundObject =>
    if jsonTokenStreq json tok object then (labelIndex json object label rest true).map (· + 1)
    else if foundObject ∧ tok.type = .string ∧ jsonTokenStreq json tok label then some 0
    else (labelIndex json object label rest foundObject).map (· + 1)

/-- `json_search`: the return value and `*value`. -/
def jsonSearch (json path : CString) (value : Option CString) :
    Except Stop (ℤ × Option CString) := do
  let tok ← jsonTokenise json
  match pathNames path with
  | none => return (-1, value)
  | some (object, label) =>
    -- without tokens `ntoken` keeps its initial 0
    let value ← labelLoop json object label ((tok.map Prod.fst).getD []) false value
    return (0, value)

/-- The number of the token that `json_search` finds; the value is taken from the one behind it. -/
def jsonSearchIndex (json path : CString) : Except Stop (Option ℕ) := do
  let tok ← jsonTokenise json
  match pathNames path with
  | none => return none
  | some (object, label) =>
    return labelIndex json object label ((tok.map Prod.fst).getD []) false

end NagiosPlugins
