import NagiosPlugins.Common

/-!
# The jsmn tokeniser

`include/jsmn.h` as it is compiled here: neither strict nor with parent links. `jsmn_parse` runs
without a token array to count the tokens, and with one to fill it in.

The parser walks over the bytes of the text one by one. Where a subparser moves `pos` over a
whole string or primitive, it returns the number of bytes that the walk has to skip. Offsets
are natural numbers, so the texts meant here are shorter than `2 ^ 31` bytes.
-/

namespace NagiosPlugins

open Libc

/-- `jsmntype_t`. -/
inductive JsmnType where
  | undefined
  | object
  | array
  | string
  | primitive
  deriving DecidableEq, Repr

/-- `enum jsmnerr`. -/
inductive JsmnErr where
  | nomem
  | inval
  | part
  deriving DecidableEq, Repr

/-- `jsmntok_t`. -/
structure JsmnTok where
  type : JsmnType
  start : ℤ
  end_ : ℤ
  size : ℤ
  deriving DecidableEq, Repr

/-- An object or array whose closing bracket has not been read. -/
def JsmnTok.isOpen (token : JsmnTok) : Bool := token.start != -1 && token.end_ == -1

def JsmnTok.isContainer (token : JsmnTok) : Bool :=
  token.type == .array || token.type == .object

/-- `jsmn_parser` together with the tokens allocated so far and the local `count`. -/
structure JsmnParser where
  pos : ℕ
  toksuper : ℤ
  tokens : List JsmnTok
  count : ℕ
  deriving DecidableEq, Repr

namespace JsmnParser

def toknext (parser : JsmnParser) : ℕ := parser.tokens.length

/-- `tokens[parser->toksuper].size++`, unless there is no superior token. -/
def growSuper (parser : JsmnParser) : JsmnParser :=
  if parser.toksuper = -1 then parser
  else { parser with
    tokens := parser.tokens.modify parser.toksuper.toNat fun t => { t with size := t.size + 1 } }

end JsmnParser

def jsmnInit : JsmnParser where
  pos := 0
  toksuper := -1
  tokens := []
  count := 0

/-- `jsmn_alloc_token`; the new token is filled in at once with what its caller puts there. -/
def jsmnAllocToken (parser : JsmnParser) (numTokens : ℕ) (token : JsmnTok) :
    Except JsmnErr JsmnParser :=
  if parser.toknext ≥ numTokens then .error .nomem
  else .ok { parser with tokens := parser.tokens ++ [token] }

/-! ### Primitives -/

/-- The bytes that end a primitive: `:` `\t` `\r` `\n` blank `,` `]` `}`. -/
def endsPrimitive (c : UInt8) : Bool := c ∈ ascii ":\t\r\n ,]\x7d"

/-- The loop of `jsmn_parse_primitive`: the position behind the primitive. -/
def primitiveLoop : CString → ℕ → Except JsmnErr ℕ
  | [], pos => .ok pos
  | c :: cs, pos =>
    if c = 0 then .ok pos
    else if endsPrimitive c then .ok pos
    else if c < 32 ∨ c ≥ 127 then .error .inval
    else primitiveLoop cs (pos + 1)

/-- `jsmn_parse_primitive` at the byte `c`; without a token array nothing is allocated. -/
def jsmnParsePrimitive (numTokens : Option ℕ) (c : UInt8) (cs : CString) (parser : JsmnParser) :
    Except JsmnErr (ℕ × JsmnParser) := do
  let stop ← primitiveLoop (c :: cs) parser.pos
  match numTokens with
  | none => .ok (stop - parser.pos - 1, parser)
  | some n =>
    let token := { type := .primitive, start := parser.pos, end_ := stop, size := 0 }
    let parser' ← jsmnAllocToken parser n token
    .ok (stop - parser.pos - 1, parser')

/-! ### Strings -/

/-- The digits of `\uXXXX`: how many of at most `n` are there. -/
def hexLoop : ℕ → CString → Except JsmnErr ℕ
  | 0, _ => .ok 0
  | _ + 1, [] => .ok 0
  | n + 1, c :: cs =>
    if c = 0 then .ok 0
    else if isxdigit c then return (← hexLoop n cs) + 1
    else .error .inval

/-- The loop of `jsmn_parse_string`: the position of the closing quote. The second argument
counts the bytes of an escape sequence that `pos` has already passed. -/
def stringLoop : CString → ℕ → ℕ → Except JsmnErr ℕ
  | [], _, _ => .error .part
  | _ :: cs, skip + 1, pos => stringLoop cs skip (pos + 1)
  | c :: cs, 0, pos =>
    if c = 0 then .error .part
    else if c = '"' then .ok pos
    else if c = '\\' then
      match cs with
      | [] => .error .part
      | e :: cs' =>
        if e ∈ ascii "\"/\\bfrnt" then stringLoop cs 1 (pos + 1)
        else if e = 'u' then do
          let k ← hexLoop 4 cs'
          stringLoop cs (1 + k) (pos + 1)
        else .error .inval
    else stringLoop cs 0 (pos + 1)

/-- `jsmn_parse_string` at an opening quote. -/
def jsmnParseString (numTokens : Option ℕ) (cs : CString) (parser : JsmnParser) :
    Except JsmnErr (ℕ × JsmnParser) := do
  let stop ← stringLoop cs 0 (parser.pos + 1)
  match numTokens with
  | none => .ok (stop - parser.pos, parser)
  | some n =>
    let token := { type := .string, start := parser.pos + 1, end_ := stop, size := 0 }
    let parser' ← jsmnAllocToken parser n token
    .ok (stop - parser.pos, parser')

/-! ### Brackets and separators -/

/-- `for (i = n - 1; i >= 0; i--)`: the last of the first `n` tokens with a property. -/
def lastIndex (p : JsmnTok → Bool) (tokens : List JsmnTok) : ℕ → Option ℕ
  | 0 => none
  | i + 1 => if tokens[i]?.any p then some i else lastIndex p tokens i

/-- An index as `parser->toksuper` stores it. -/
def toIndex : Option ℕ → ℤ
  | none => -1
  | some i => i

/-- The case of `{` and `[`. -/
def jsmnOpen (numTokens : Option ℕ) (type : JsmnType) (parser : JsmnParser) :
    Except JsmnErr JsmnParser :=
  let parser := { parser with count := parser.count + 1 }
  match numTokens with
  | none => .ok parser
  | some n => do
    let token := { type, start := parser.pos, end_ := -1, size := 0 }
    let parser ← jsmnAllocToken parser n token
    let parser := parser.growSuper
    .ok { parser with toksuper := parser.toknext - 1 }

/-- The case of `}` and `]`; brackets are only matched when there is a token array. -/
def jsmnClose (numTokens : Option ℕ) (type : JsmnType) (parser : JsmnParser) :
    Except JsmnErr JsmnParser :=
  match numTokens with
  | none => .ok parser
  | some _ =>
    match lastIndex JsmnTok.isOpen parser.tokens parser.toknext with
    | none => .error .inval
    | some i =>
      if parser.tokens[i]?.any (·.type = type) then
        let tokens := parser.tokens.modify i fun t => { t with end_ := parser.pos + 1 }
        .ok { parser with tokens, toksuper := toIndex (lastIndex JsmnTok.isOpen tokens (i + 1)) }
      else .error .inval

/-- The case of `,`: behind a member the superior token is the enclosing container again. -/
def jsmnComma (numTokens : Option ℕ) (parser : JsmnParser) : JsmnParser :=
  match numTokens with
  | none => parser
  | some _ =>
    if parser.toksuper ≠ -1 ∧
        parser.tokens[parser.toksuper.toNat]?.any (fun t => !t.isContainer) then
      match lastIndex (fun t => t.isContainer && t.isOpen) parser.tokens parser.toknext with
      | none => parser
      | some i => { parser with toksuper := i }
    else parser

/-- What follows the parsing of a string or a primitive. -/
def afterLeaf (numTokens : Option ℕ) (parser : JsmnParser) : JsmnParser :=
  let parser := { parser with count := parser.count + 1 }
  match numTokens with
  | none => parser
  | some _ => parser.growSuper

/-! ### The main loop -/

/-- The `switch` of `jsmn_parse` on the byte `c`: how many of the bytes behind it are to be
skipped, and the parser. -/
def jsmnStep (numTokens : Option ℕ) (c : UInt8) (cs : CString) (parser : JsmnParser) :
    Except JsmnErr (ℕ × JsmnParser) :=
  if c = '{' then return (0, ← jsmnOpen numTokens .object parser)
  else if c = '[' then return (0, ← jsmnOpen numTokens .array parser)
  else if c = '}' then return (0, ← jsmnClose numTokens .object parser)
  else if c = ']' then return (0, ← jsmnClose numTokens .array parser)
  else if c = '"' then do
    let (skip, parser) ← jsmnParseString numTokens cs parser
    return (skip, afterLeaf numTokens parser)
  else if c ∈ ascii "\t\r\n " then return (0, parser)
  else if c = ':' then return (0, { parser with toksuper := parser.toknext - 1 })
  else if c = ',' then return (0, jsmnComma numTokens parser)
  else do
    let (skip, parser) ← jsmnParsePrimitive numTokens c cs parser
    return (skip, afterLeaf numTokens parser)

/-- The loop of `jsmn_parse`. -/
def jsmnLoop (numTokens : Option ℕ) : CString → ℕ → JsmnParser → Except JsmnErr JsmnParser
  | [], _, parser => .ok parser
  | _ :: cs, skip + 1, parser => jsmnLoop numTokens cs skip { parser with pos := parser.pos + 1 }
  | c :: cs, 0, parser =>
    if c = 0 then .ok parser
    else do
      let (skip, parser) ← jsmnStep numTokens c cs parser
      jsmnLoop numTokens cs skip { parser with pos := parser.pos + 1 }

/-- `jsmn_parse` on a fresh parser: the number of tokens, and the tokens. Without a token array
(`tokens == NULL`) `numTokens` is `none`. -/
def jsmnParse (numTokens : Option ℕ) (js : CString) : Except JsmnErr (ℕ × List JsmnTok) := do
  let parser ← jsmnLoop numTokens js 0 jsmnInit
  -- unmatched opened object or array
  if numTokens.isSome ∧ (lastIndex JsmnTok.isOpen parser.tokens parser.toknext).isSome then
    .error .part
  else .ok (parser.count, parser.tokens)

end NagiosPlugins
