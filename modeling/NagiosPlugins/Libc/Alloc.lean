import NagiosPlugins.Libc.Bytes

/-!
# Allocated memory

A block of memory is a list of cells. A cell that has not been written yet holds no value, and
reading it is an error, just as reading behind the block.
-/

namespace Libc

/-- A block of memory; `none` is a byte that was never written. -/
abbrev Memory := List (Option UInt8)

/-- Why a block cannot be read. -/
inductive MemoryFault where
  | unwritten
  | behind
  deriving DecidableEq, Repr

namespace Memory

/-- `malloc (n)`, where there is enough memory. -/
def malloc (n : ℕ) : Memory := List.replicate n none

/-- `realloc (m, n)`, where there is enough memory. -/
def realloc (m : Memory) (n : ℕ) : Memory := m.take n ++ malloc (n - m.length)

/-- `memcpy (&m[i], bytes, strlen (bytes))`. -/
def memcpy (m : Memory) (i : ℕ) (bytes : List UInt8) : Memory :=
  m.take i ++ bytes.map some ++ m.drop (i + bytes.length)

/-- `*p++ = c` for each of the bytes, where `p` points to the cell `i`: the block and where `p`
points to afterwards. -/
def put (m : Memory) (i : ℕ) : List UInt8 → Except MemoryFault (Memory × ℕ)
  | [] => .ok (m, i)
  | c :: bytes => if i < m.length then put (m.set i (some c)) (i + 1) bytes else .error .behind

/-- The string that starts the block, as far as a terminator is found. -/
def readString : Memory → Except MemoryFault CString
  | [] => .error .behind
  | none :: _ => .error .unwritten
  | some c :: m => if c = 0 then .ok [] else return c :: (← readString m)

/-- The block starts with these bytes. -/
def StartsWith (m : Memory) (bytes : List UInt8) : Prop := bytes.map some <+: m

lemma startsWith_nil (m : Memory) : StartsWith m [] := List.nil_prefix

/-- Growing a block keeps what it starts with. -/
lemma StartsWith.realloc {m : Memory} {bytes : List UInt8} (h : StartsWith m bytes) {n : ℕ}
    (hn : bytes.length ≤ n) : StartsWith (m.realloc n) bytes := by
  obtain ⟨t, rfl⟩ := h
  rw [Memory.realloc, StartsWith, List.take_append, List.length_map, List.take_of_length_le]
  · rw [List.append_assoc]
    exact List.prefix_append _ _
  · rwa [List.length_map]

lemma length_realloc (m : Memory) (n : ℕ) : (m.realloc n).length = n := by
  rw [realloc, malloc, List.length_append, List.length_take, List.length_replicate]
  omega

/-- Bytes that are copied behind the start of a block, up to its last byte, and a terminator. -/
lemma StartsWith.memcpy_set {m : Memory} {bytes more : List UInt8} (h : StartsWith m bytes)
    (hlen : m.length = bytes.length + more.length + 1) (c : UInt8) :
    (m.memcpy bytes.length more).set (bytes.length + more.length) (some c)
      = (bytes ++ more).map some ++ [some c] := by
  obtain ⟨t, rfl⟩ := h
  rw [List.length_append, List.length_map] at hlen
  have ht : t.length = more.length + 1 := by omega
  have htake : (bytes.map some ++ t).take bytes.length = bytes.map some := by
    rw [List.take_append_of_le_length (by rw [List.length_map]),
      List.take_of_length_le (by rw [List.length_map])]
  have hdrop : (bytes.map some ++ t).drop (bytes.length + more.length) = t.drop more.length := by
    rw [List.drop_append, List.drop_eq_nil_of_le (by simp), List.length_map,
      Nat.add_sub_cancel_left, List.nil_append]
  obtain ⟨last, hlast⟩ : ∃ last, t.drop more.length = [last] := by
    rw [← List.length_eq_one_iff, List.length_drop]
    omega
  rw [memcpy, htake, hdrop, hlast, ← List.map_append]
  have hmap : bytes.length + more.length = ((bytes ++ more).map (some : UInt8 → _)).length := by
    rw [List.length_map, List.length_append]
  rw [hmap, List.set_append_right _ _ (Nat.le_refl _), Nat.sub_self]
  rfl

lemma length_malloc (n : ℕ) : (malloc n).length = n := List.length_replicate

/-- Bytes that fit into a block are stored behind its start. -/
lemma StartsWith.put {m : Memory} {bytes : List UInt8} (h : StartsWith m bytes)
    (more : List UInt8) (hfits : bytes.length + more.length ≤ m.length) :
    ∃ m', m.put bytes.length more = .ok (m', (bytes ++ more).length) ∧
      StartsWith m' (bytes ++ more) ∧ m'.length = m.length := by
  induction more generalizing m bytes with
  | nil =>
    rw [List.append_nil]
    exact ⟨m, rfl, h, rfl⟩
  | cons c more ih =>
    obtain ⟨t, rfl⟩ := h
    rw [List.length_cons] at hfits
    have hlen : bytes.length < (bytes.map some ++ t).length := by omega
    have hset : (bytes.map some ++ t).set bytes.length (some c)
        = (bytes ++ [c]).map some ++ t.tail := by
      have ht : t ≠ [] := by
        rintro rfl
        simp at hlen
      obtain ⟨x, t, rfl⟩ := List.exists_cons_of_ne_nil ht
      simp
    have hstarts : StartsWith ((bytes ++ [c]).map some ++ t.tail) (bytes ++ [c]) :=
      List.prefix_append _ _
    have hlength : ((bytes ++ [c]).map some ++ t.tail).length = (bytes.map some ++ t).length := by
      rw [← hset, List.length_set]
    have hmore : (bytes ++ [c]).length + more.length
        ≤ ((bytes ++ [c]).map some ++ t.tail).length := by
      rw [hlength, List.length_append, List.length_singleton]
      omega
    obtain ⟨m', hput, hstart, hm'⟩ := ih hstarts hmore
    refine ⟨m', ?_, ?_, hm'.trans hlength⟩
    · rw [List.length_append, List.length_singleton, List.append_assoc, List.singleton_append]
        at hput
      rw [Memory.put, if_pos hlen, hset, hput]
    · rwa [List.append_assoc, List.singleton_append] at hstart

/-- A terminated block is read up to its first NUL. -/
lemma readString_terminated (bytes : List UInt8) :
    readString (bytes.map some ++ [some 0]) = .ok (bytes.takeWhile (· ≠ 0)) := by
  induction bytes with
  | nil => rfl
  | cons c bytes ih =>
    rw [List.map_cons, List.cons_append, readString, ih]
    by_cases hc : c = 0
    · simp [hc]
    · simp only [if_neg hc]
      rw [List.takeWhile_cons_of_pos (by simpa using hc)]
      rfl

/-- What stands behind the terminator is not read. -/
lemma StartsWith.readString {m : Memory} {bytes : CString} (h : StartsWith m (bytes ++ [0]))
    (hbytes : (0 : UInt8) ∉ bytes) : m.readString = .ok bytes := by
  obtain ⟨t, rfl⟩ := h
  induction bytes with
  | nil => rfl
  | cons c bytes ih =>
    rw [List.mem_cons, not_or] at hbytes
    rw [List.cons_append, List.map_cons, List.cons_append, Memory.readString,
      if_neg (Ne.symm hbytes.1), ih hbytes.2]
    rfl

end Memory

end Libc
