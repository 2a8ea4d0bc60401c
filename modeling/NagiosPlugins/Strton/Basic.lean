import NagiosPlugins.Libc.Stored
import NagiosPlugins.Libc.Truncate

/-!
# Ages and sizes

`agetollint` and `sizetollint` of `lib/xstrton.c`. A number that no `long long int` can hold is
converted all the same: `unspecified` is the value that the machine makes of it.
-/

namespace NagiosPlugins

open Libc

/-! ### Multipliers -/

/-- The `switch` of `agemultiplier`; a plain number has no suffix. -/
def ageFactor (mult : UInt8) : Option ℕ :=
  if mult = 0 ∨ mult = 's' ∨ mult = 'S' then some 1
  else if mult = 'm' ∨ mult = 'M' then some 60
  else if mult = 'h' ∨ mult = 'H' then some 3600
  else if mult = 'd' ∨ mult = 'D' then some 86400
  else if mult = 'w' ∨ mult = 'W' then some (7 * 86400)
  else if mult = 'y' ∨ mult = 'Y' then some 31557600
  else none

/-- The `switch` of `sizemultiplier`. -/
def sizeFactor (mult : UInt8) : Option ℕ :=
  if mult = 0 ∨ mult = 'b' ∨ mult = 'B' then some 1
  else if mult = 'k' ∨ mult = 'K' then some 1000
  else if mult = 'm' ∨ mult = 'M' then some (1000 * 1000)
  else if mult = 'g' ∨ mult = 'G' then some (1000 * 1000 * 1000)
  else if mult = 't' ∨ mult = 'T' then some (1000 * 1000 * 1000 * 1000)
  else if mult = 'p' ∨ mult = 'P' then some (1000 * 1000 * 1000 * 1000 * 1000)
  else none

section Conversion

variable (unspecified : Double → Int64)

/-- A converter: the return value and `*result`. -/
abbrev Converter := Double → UInt8 → Int64 → ℤ × Int64

/-- What the two multipliers have in common; `scale` is the multiplication. -/
def multiplier (scale : ℕ → Double → Double) (factor : UInt8 → Option ℕ) : Converter :=
  fun x mult result =>
    match factor mult with
    | none => (-1, result)
    | some n =>
      let temp := scale n x
      (0, temp.toInt64?.getD (unspecified temp))

def agemultiplier : Converter := multiplier unspecified Double.natMul ageFactor

def sizemultiplier : Converter := multiplier unspecified Double.natMul sizeFactor

/-! ### The conversion -/

/-- The return value, `*result` and `*errmesg`. -/
structure Converted where
  code : ℤ
  result : Int64
  errmesg : Option CString
  deriving DecidableEq

def strtollint (converter : Converter) (str : Option Stored) (result : Int64)
    (errmesg : Option CString) : Converted :=
  match str with
  | none => ⟨-1, result, some (ascii "no number to covert (empty string)")⟩
  | some s =>
    if s.byte 0 = 0 then ⟨-1, result, some (ascii "no number to covert (empty string)")⟩
    else
      let (temp, rest) := strtod s.text
      let stop := s.text.length - rest.length
      if ¬ temp.rangeError ∧ stop ≠ 0 then
        let (res, result) := converter temp (s.byte stop) result
        if res < 0 then
          ⟨-1, result, some (ascii "invalid suffix `" ++ s.byte stop :: ascii "' in `"
            ++ s.text ++ ascii "'")⟩
        else if s.byte (stop + 1) ≠ 0 then
          ⟨-1, result, some (ascii "invalid trailing character `" ++ s.byte (stop + 1)
            :: ascii "' in `" ++ s.text ++ ascii "'")⟩
        else ⟨0, result, errmesg⟩
      else
        ⟨-1, result, some (ascii "converting `" ++ s.text ++ ascii "' to a number failed")⟩

def agetollint : Option Stored → Int64 → Option CString → Converted :=
  strtollint (agemultiplier unspecified)

def sizetollint : Option Stored → Int64 → Option CString → Converted :=
  strtollint (sizemultiplier unspecified)

end Conversion

end NagiosPlugins
