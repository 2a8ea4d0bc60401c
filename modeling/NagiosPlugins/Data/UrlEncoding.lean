import NagiosPlugins.Libc.Bytes

/-!
# Percent encoding

Some bytes of a text stand for themselves, a blank becomes a plus sign, and any other byte becomes a
percent sign and two digits.
-/

namespace UrlEncoding

open Libc

/-- The bytes that stand for themselves, and the digits that the others are written with. -/
structure Code where
  plain : UInt8 → Bool
  digit : UInt8 → UInt8
  value : UInt8 → UInt8
  plain_percent : plain '%' = false
  plain_plus : plain '+' = false
  value_digit : ∀ n < 16, value (digit n) = n

namespace Code

variable (code : Code)

def encodeByte (c : UInt8) : CString :=
  if code.plain c then [c]
  else if c = ' ' then [('+' : UInt8)]
  else [('%' : UInt8), code.digit (c >>> 4), code.digit (c &&& 15)]

def encode (s : CString) : CString := s.flatMap code.encodeByte

/-- What is read, unless some byte should not be there. -/
def decode : CString → Option CString
  | [] => some []
  | c :: s =>
    if c = '%' then
      match s with
      | hi :: lo :: s => (decode s).map ((code.value hi <<< 4 ||| code.value lo) :: ·)
      | _ => none
    else if c = '+' then (decode s).map (' ' :: ·)
    else if code.plain c then (decode s).map (c :: ·)
    else none

/-- The bytes that an encoded text consists of. -/
def Safe (c : UInt8) : Prop :=
  code.plain c ∨ c = '+' ∨ c = '%' ∨ ∃ n < 16, c = code.digit n

lemma halves (c : UInt8) : c >>> 4 < 16 ∧ c &&& 15 < 16 ∧ (c >>> 4) <<< 4 ||| c &&& 15 = c := by
  revert c
  decide +kernel

lemma length_encodeByte_le (c : UInt8) : (code.encodeByte c).length ≤ 3 := by
  rw [encodeByte]
  split_ifs <;> simp

lemma length_encode_le (s : CString) : (code.encode s).length ≤ s.length * 3 := by
  induction s with
  | nil => exact Nat.zero_le _
  | cons c s ih =>
    have hc := code.length_encodeByte_le c
    rw [encode, List.flatMap_cons, List.length_append, List.length_cons, ← encode]
    omega

lemma safe_of_mem_encode {s : CString} : ∀ c ∈ code.encode s, code.Safe c := by
  intro c hc
  obtain ⟨b, -, hc⟩ := List.mem_flatMap.1 hc
  obtain ⟨hhi, hlo, -⟩ := halves b
  rw [encodeByte] at hc
  split_ifs at hc with hplain
  · rw [List.mem_singleton.1 hc]
    exact .inl hplain
  · exact .inr (.inl (List.mem_singleton.1 hc))
  · simp only [List.mem_cons, List.not_mem_nil, or_false] at hc
    rcases hc with rfl | rfl | rfl
    · exact .inr (.inr (.inl rfl))
    · exact .inr (.inr (.inr ⟨_, hhi, rfl⟩))
    · exact .inr (.inr (.inr ⟨_, hlo, rfl⟩))

lemma decode_cons_of_ne {c : UInt8} (hc : c ≠ '%') (s : CString) :
    code.decode (c :: s)
      = if c = '+' then (code.decode s).map ((' ' : UInt8) :: ·)
        else if code.plain c then (code.decode s).map ((c : UInt8) :: ·)
        else none := by
  match s with
  | [] => simp [decode, hc]
  | [hi] => simp [decode, hc]
  | hi :: lo :: s => rw [decode, if_neg hc]

lemma decode_encodeByte (c : UInt8) (rest : CString) :
    code.decode (code.encodeByte c ++ rest) = (code.decode rest).map (c :: ·) := by
  rw [encodeByte]
  split_ifs with hplain hblank
  · have hpercent : c ≠ '%' := by
      rintro rfl
      simp [code.plain_percent] at hplain
    have hplus : c ≠ '+' := by
      rintro rfl
      simp [code.plain_plus] at hplain
    rw [List.singleton_append, decode_cons_of_ne code hpercent, if_neg hplus, if_pos hplain]
  · have hpercent : ('+' : UInt8) ≠ '%' := by decide
    rw [List.singleton_append, decode_cons_of_ne code hpercent, if_pos rfl, hblank]
  · obtain ⟨hhi, hlo, hhalves⟩ := halves c
    rw [List.cons_append, List.cons_append, List.cons_append, List.nil_append, decode, if_pos rfl]
    simp only [code.value_digit _ hhi, code.value_digit _ hlo, hhalves]

/-- What is written is read back. -/
theorem decode_encode_append (s rest : CString) :
    code.decode (code.encode s ++ rest) = (code.decode rest).map (s ++ ·) := by
  induction s with
  | nil => simp [encode]
  | cons c s ih =>
    rw [encode, List.flatMap_cons, ← encode, List.append_assoc, decode_encodeByte, ih,
      Option.map_map]
    rfl

theorem decode_encode (s : CString) : code.decode (code.encode s) = some s := by
  have h := code.decode_encode_append s []
  rw [List.append_nil] at h
  simp [h, decode]

end Code

end UrlEncoding
