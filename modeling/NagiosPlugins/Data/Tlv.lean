import NagiosPlugins.Data.LittleEndian

/-!
# Records with a length and a type

A buffer of records, each with a header that starts with the length of the record and its type,
and padded to a multiple of four bytes. A pointer into the buffer is the suffix that starts there;
the bytes that are left are counted apart from it, as the buffer may go on behind them.
-/

namespace Tlv

open LittleEndian

/-- A multiple of four that is not below `n`. -/
def align (n : ℕ) : ℕ := (n + 3) / 4 * 4

lemma le_align (n : ℕ) : n ≤ align n := by
  rw [align]
  omega

/-- The size of a header, and of the length at its start. -/
structure Format where
  lengthSize : ℕ
  headerSize : ℕ
  lt : lengthSize + 2 ≤ headerSize

namespace Format

variable (f : Format)

/-- The length of the record, header included. -/
def length (p : List UInt8) : ℕ := decode (p.take f.lengthSize)

def type (p : List UInt8) : ℕ := decode ((p.drop f.lengthSize).take 2)

/-- A whole record is left. -/
def isOk (p : List UInt8) (left : ℤ) : Bool :=
  f.headerSize ≤ left && f.headerSize ≤ f.length p && f.length p ≤ left

/-- The records up to the first one that is not whole, as pointers. -/
def pointersAux : ℕ → List UInt8 → ℤ → List (List UInt8)
  | 0, _, _ => []
  | fuel + 1, p, left =>
    if f.isOk p left then
      p :: pointersAux fuel (p.drop (align (f.length p))) (left - align (f.length p))
    else []

/-- The records that a loop over `left` bytes from `p` on visits. -/
def pointers (p : List UInt8) (left : ℤ) : List (List UInt8) :=
  f.pointersAux (p.length + 1) p left

variable {f}

/-- Whatever is left to visit is behind a whole header. -/
lemma length_drop_lt {p : List UInt8} {left : ℤ} (h : f.isOk p left = true) :
    (p.drop (align (f.length p))).length < p.length := by
  have hlt := f.lt
  rw [isOk, Bool.and_eq_true, Bool.and_eq_true, decide_eq_true_eq, decide_eq_true_eq] at h
  have halign := le_align (f.length p)
  have hne : p ≠ [] := by
    rintro rfl
    have hzero : f.length [] = 0 := by rw [length, List.take_nil, decode]
    omega
  have hpos := List.length_pos_iff.2 hne
  rw [List.length_drop]
  omega

lemma pointersAux_congr {fuel fuel' : ℕ} {p : List UInt8} (h : p.length < fuel)
    (h' : p.length < fuel') (left : ℤ) :
    f.pointersAux fuel p left = f.pointersAux fuel' p left := by
  induction fuel generalizing fuel' p left with
  | zero => exact absurd h (Nat.not_lt_zero _)
  | succ fuel ih =>
    cases fuel' with
    | zero => exact absurd h' (Nat.not_lt_zero _)
    | succ fuel' =>
      rw [pointersAux, pointersAux]
      split_ifs with hok
      · have hlt := length_drop_lt hok
        exact congrArg (p :: ·) (ih (hlt.trans_le (Nat.le_of_lt_succ h))
          (hlt.trans_le (Nat.le_of_lt_succ h')) _)
      · rfl

/-- The loop never runs out of fuel. -/
lemma pointers_eq (p : List UInt8) (left : ℤ) :
    f.pointers p left =
      if f.isOk p left then
        p :: f.pointers (p.drop (align (f.length p))) (left - align (f.length p))
      else [] := by
  rw [pointers, pointersAux]
  split_ifs with hok
  · rw [pointers, pointersAux_congr (length_drop_lt hok) (Nat.lt_succ_self _)]
  · rfl

end Format

/-- A record in its bytes. -/
structure Record (f : Format) where
  type : ℕ
  header : List UInt8
  payload : List UInt8
  padding : List UInt8
  type_lt : type < 256 ^ 2
  length_header : f.lengthSize + 2 + header.length = f.headerSize
  length_lt : f.headerSize + payload.length < 256 ^ f.lengthSize
  length_padding :
    f.headerSize + payload.length + padding.length = align (f.headerSize + payload.length)

namespace Record

variable {f : Format} (r : Record f)

/-- The length that the header states. -/
def length : ℕ := f.headerSize + r.payload.length

def bytes : List UInt8 :=
  encode f.lengthSize r.length ++ (encode 2 r.type ++ (r.header ++ (r.payload ++ r.padding)))

/-- The pointers to the records in front of `tail`. -/
def pointers : List (Record f) → List UInt8 → List (List UInt8)
  | [], _ => []
  | r :: rs, tail => (r.bytes ++ (rs.flatMap bytes ++ tail)) :: pointers rs tail

lemma pointers_append (rs rs' : List (Record f)) (tail : List UInt8) :
    pointers (rs ++ rs') tail = pointers rs (rs'.flatMap bytes ++ tail) ++ pointers rs' tail := by
  induction rs with
  | nil => rfl
  | cons r rs ih =>
    rw [List.cons_append, pointers, pointers, ih, List.flatMap_append, List.append_assoc]
    rfl

variable (tail : List UInt8)

@[simp] lemma length_bytes : r.bytes.length = align r.length := by
  have hheader := r.length_header
  have hpadding := r.length_padding
  rw [bytes, length]
  simp only [List.length_append, length_encode]
  omega

lemma length_append : f.length (r.bytes ++ tail) = r.length := by
  have hlt : r.length < 256 ^ f.lengthSize := r.length_lt
  rw [Format.length, bytes, List.append_assoc, List.take_left' (length_encode _ _),
    decode_encode _ _ hlt]

lemma type_append : f.type (r.bytes ++ tail) = r.type := by
  rw [Format.type, bytes, List.append_assoc, List.drop_left' (length_encode _ _),
    List.append_assoc, List.take_left' (length_encode _ _), decode_encode _ _ r.type_lt]

lemma drop_header : (r.bytes ++ tail).drop f.headerSize = r.payload ++ (r.padding ++ tail) := by
  have hbytes : r.bytes ++ tail = (encode f.lengthSize r.length ++ encode 2 r.type ++ r.header)
      ++ (r.payload ++ (r.padding ++ tail)) := by
    simp only [bytes, List.append_assoc]
  rw [hbytes]
  apply List.drop_left'
  rw [List.length_append, List.length_append, length_encode, length_encode, r.length_header]

lemma isOk_append {left : ℤ} (h : r.bytes.length ≤ left) :
    f.isOk (r.bytes ++ tail) left = true := by
  have halign := le_align r.length
  have hheader : f.headerSize ≤ r.length := Nat.le_add_right _ _
  rw [length_bytes] at h
  rw [Format.isOk, length_append, Bool.and_eq_true, Bool.and_eq_true, decide_eq_true_eq,
    decide_eq_true_eq, decide_eq_true_eq]
  omega

end Record

lemma not_isOk_zero (f : Format) (p : List UInt8) : f.isOk p 0 = false := by
  have hlt := f.lt
  rw [Format.isOk, Bool.and_eq_false_iff, Bool.and_eq_false_iff]
  refine .inl (.inl (decide_eq_false ?_))
  omega

/-- A loop over the bytes of records visits each of them in turn. -/
theorem pointers_flatMap_bytes {f : Format} (rs : List (Record f)) (tail : List UInt8) :
    f.pointers (rs.flatMap Record.bytes ++ tail) (rs.flatMap Record.bytes).length
      = Record.pointers rs tail := by
  induction rs with
  | nil =>
    rw [List.flatMap_nil, List.length_nil, Format.pointers_eq, Nat.cast_zero, not_isOk_zero]
    rfl
  | cons r rs ih =>
    have hle : (r.bytes.length : ℤ) ≤ ((r.bytes ++ rs.flatMap Record.bytes).length : ℕ) := by
      rw [List.length_append]
      omega
    rw [List.flatMap_cons, Format.pointers_eq, List.append_assoc, if_pos (r.isOk_append _ hle),
      Record.length_append, ← r.length_bytes, List.drop_left, List.length_append, Nat.cast_add,
      add_sub_cancel_left, ih]
    rfl

end Tlv
