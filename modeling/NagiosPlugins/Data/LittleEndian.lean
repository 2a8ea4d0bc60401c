import Mathlib.Tactic

/-!
# Little-endian words

Words of a fixed number of bytes, the byte of least weight first.
-/

namespace LittleEndian

/-- The lowest `k` bytes of a number. -/
def encode : ℕ → ℕ → List UInt8
  | 0, _ => []
  | k + 1, n => UInt8.ofNat n :: encode k (n / 256)

def decode : List UInt8 → ℕ
  | [] => 0
  | b :: bs => b.toNat + 256 * decode bs

@[simp] lemma length_encode (k n : ℕ) : (encode k n).length = k := by
  induction k generalizing n with
  | zero => rfl
  | succ k ih => rw [encode, List.length_cons, ih]

lemma decode_encode (k n : ℕ) (h : n < 256 ^ k) : decode (encode k n) = n := by
  induction k generalizing n with
  | zero =>
    rw [pow_zero, Nat.lt_one_iff] at h
    rw [encode, decode, h]
  | succ k ih =>
    rw [pow_succ] at h
    rw [encode, decode, ih _ (Nat.div_lt_of_lt_mul (by rwa [mul_comm])), UInt8.toNat_ofNat']
    omega

/-- The word of `k` bytes at an offset, if the bytes end behind it. -/
def read (k offset : ℕ) (bytes : List UInt8) : Option ℕ :=
  if offset + k ≤ bytes.length then some (decode ((bytes.drop offset).take k)) else none

lemma read_append {k offset n : ℕ} (h : n < 256 ^ k) {before : List UInt8}
    (hoffset : before.length = offset) (after : List UInt8) :
    read k offset (before ++ (encode k n ++ after)) = some n := by
  have hlen : offset + k ≤ (before ++ (encode k n ++ after)).length := by
    rw [List.length_append, List.length_append, length_encode]
    omega
  rw [read, if_pos hlen, List.drop_left' hoffset, List.take_left' (length_encode k n),
    decode_encode k n h]

/-- A word in an array of words. -/
lemma read_flatMap_encode {k : ℕ} {ns : List ℕ} (h : ∀ n ∈ ns, n < 256 ^ k) {i : ℕ}
    (hi : i < ns.length) (after : List UInt8) :
    read k (k * i) (ns.flatMap (encode k) ++ after) = some ns[i] := by
  have hsplit : ns.flatMap (encode k) ++ after = (ns.take i).flatMap (encode k)
      ++ (encode k ns[i] ++ ((ns.drop (i + 1)).flatMap (encode k) ++ after)) := by
    conv_lhs => rw [← List.take_append_drop i ns, List.drop_eq_getElem_cons hi]
    rw [List.flatMap_append, List.flatMap_cons, List.append_assoc, List.append_assoc]
  have hlen : ((ns.take i).flatMap (encode k)).length = k * i := by
    simp [List.length_flatMap, hi.le, mul_comm]
  rw [hsplit]
  exact read_append (h _ (List.getElem_mem hi)) hlen _

end LittleEndian
