import NagiosPlugins.Libc.Bytes

/-!
# Printing into memory

`snprintf`, which cuts off a text that is too long, and the string that the memory holds then.
-/

namespace Libc

/-- `snprintf (buf + pos, size, ...)` for a text: the memory afterwards, and what is returned. There
is no result if it writes behind the end of the memory. -/
def snprintf (buf : List UInt8) (pos size : ℕ) (text : CString) : Option (List UInt8 × ℕ) :=
  if size = 0 then some (buf, text.length)
  else
    let out := text.take (size - 1) ++ [0]
    if pos + out.length ≤ buf.length then
      some (buf.take pos ++ (out ++ buf.drop (pos + out.length)), text.length)
    else none

/-- The string at the beginning of the memory. -/
def stringAt (buf : List UInt8) : CString := buf.takeWhile (· ≠ 0)

/-- A text for which there is room. -/
lemma snprintf_eq {buf : List UInt8} {pos size : ℕ} {text : CString} (hsize : text.length < size)
    (hbuf : pos + text.length < buf.length) :
    snprintf buf pos size text
      = some (buf.take pos ++ (text ++ 0 :: buf.drop (pos + text.length + 1)), text.length) := by
  have hpos : size ≠ 0 := by omega
  have htake : text.take (size - 1) = text := List.take_of_length_le (by omega)
  have hlen : (text ++ [(0 : UInt8)]).length = text.length + 1 := by simp
  rw [snprintf, if_neg hpos]
  simp only [htake, hlen, ← Nat.add_assoc]
  rw [if_pos (by omega), List.append_assoc]
  rfl

lemma length_stringAt_le (buf : List UInt8) : (stringAt buf).length ≤ buf.length :=
  (List.takeWhile_prefix _).length_le

/-- A string that is shorter than the bytes ends at a NUL among them. -/
lemma stringAt_eq_or_lt (buf : List UInt8) :
    stringAt buf = buf ∨ (stringAt buf).length < buf.length := by
  rcases (length_stringAt_le buf).lt_or_eq with hlt | heq
  · exact Or.inr hlt
  · exact Or.inl ((List.takeWhile_prefix _).eq_of_length heq)

lemma stringAt_append {s : CString} (hs : ∀ c ∈ s, c ≠ 0) (rest : List UInt8) :
    stringAt (s ++ 0 :: rest) = s := by
  rw [stringAt, List.takeWhile_append_of_pos (by simpa using hs),
    List.takeWhile_cons_of_neg (by simp), List.append_nil]

end Libc
