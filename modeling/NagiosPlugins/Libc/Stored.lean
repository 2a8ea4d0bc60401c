import Mathlib.Data.List.TakeWhile
import NagiosPlugins.Libc.Bytes

/-!
# Strings in memory

A string together with what is stored behind its terminator. A pointer to its bytes is an index,
which may also lie behind the terminator.
-/

namespace Libc

/-- A string in memory. -/
structure Stored where
  text : CString
  following : ℕ → UInt8
  noNul : (0 : UInt8) ∉ text

namespace Stored

variable (s : Stored)

/-- The byte `str[i]`. -/
def byte (i : ℕ) : UInt8 :=
  if i < s.text.length then s.text[i]?.getD 0
  else if i = s.text.length then 0
  else s.following (i - s.text.length - 1)

/-- The string that starts with these bytes. -/
def ofBytes (bytes : List UInt8) (following : ℕ → UInt8) : Stored where
  text := bytes.takeWhile (· ≠ 0)
  following := following
  noNul h := by simpa using List.mem_takeWhile_imp h

lemma text_ofBytes {bytes : List UInt8} (h : (0 : UInt8) ∉ bytes) (following : ℕ → UInt8) :
    (ofBytes bytes following).text = bytes := by
  rw [ofBytes, List.takeWhile_eq_self_iff]
  intro c hc
  refine decide_eq_true ?_
  rintro rfl
  exact h hc

/-- The same text with other bytes behind it. -/
def withFollowing (following : ℕ → UInt8) : Stored := { s with following }

@[simp] lemma text_withFollowing (following : ℕ → UInt8) :
    (s.withFollowing following).text = s.text := rfl

variable {s} {front rest : CString}

lemma byte_of_text_eq (h : s.text = front ++ rest) (i : ℕ) :
    s.byte (front.length + i)
      = if i < rest.length then rest[i]?.getD 0
        else if i = rest.length then 0
        else s.following (i - rest.length - 1) := by
  have hlt : front.length + i < s.text.length ↔ i < rest.length := by
    rw [h, List.length_append]
    omega
  have heq : front.length + i = s.text.length ↔ i = rest.length := by
    rw [h, List.length_append]
    omega
  have hsub : front.length + i - s.text.length - 1 = i - rest.length - 1 := by
    rw [h, List.length_append]
    omega
  simp only [byte, hlt, heq, hsub]
  split_ifs with hi
  · rw [h, List.getElem?_append_right (Nat.le_add_right _ _), Nat.add_sub_cancel_left]
  · rfl
  · rfl

/-- Up to the terminator the bytes are those of the text. -/
lemma byte_congr {s' : Stored} (htext : s.text = s'.text) {i : ℕ} (hi : i ≤ s.text.length) :
    s.byte i = s'.byte i := by
  rw [byte, byte, ← htext]
  split_ifs with hlt heq
  · rfl
  · rfl
  · exact absurd (lt_of_le_of_ne hi heq) hlt

/-- No byte of the text is a terminator. -/
lemma ne_zero_of_mem {c : UInt8} (hc : c ∈ s.text) : c ≠ 0 := by
  rintro rfl
  exact s.noNul hc

lemma byte_zero_eq_zero_iff : s.byte 0 = 0 ↔ s.text = [] := by
  have h := byte_of_text_eq (s := s) (List.nil_append s.text).symm 0
  cases htext : s.text with
  | nil => simpa [htext] using h
  | cons c text =>
    have hc : c ≠ 0 := ne_zero_of_mem (s := s) (by simp [htext])
    have hbyte : s.byte 0 = c := by simpa [htext] using h
    rw [hbyte]
    exact iff_of_false hc (List.cons_ne_nil c text)

end Stored

end Libc
