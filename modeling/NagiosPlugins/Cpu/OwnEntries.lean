import NagiosPlugins.Cpu.Slots

/-!
# Each CPU in its own entry

An entry holds the fields of the line with its label, unless a line with another label that is
counted for it sets one of them for the last time.
-/

namespace NagiosPlugins

open Libc

/-- The field of the line of an entry; 0 if it is missing, or the line. -/
def ownField (read : List CString) (i : ℕ) (k : Fin 10) : Jiff :=
  ((read.find? (isOwnLine i)).bind fun line => (labelFields line)[k.val]?).getD 0

/-- The function stops with an error, or each entry that has one line at most holds its fields. -/
def EntriesAreOwn (procpath : String) (content : List UInt8) (lines : UInt32) : Prop :=
  match cpuStatsGetTime procpath (some content) lines with
  | .error stop => ∃ status message, stop = .pluginError status message
  | .ok cputime =>
    cputime.length = lines.toNat ∧
    ∀ i < lines.toNat, (statRead lines (getlines content)).countP (isOwnLine i) ≤ 1 →
      ∀ k, fieldAt cputime i k = some (ownField (statRead lines (getlines content)) i k)

/-- A line with another label that sets a field of an entry is not the last one to do so, or it
sets what the field should be. -/
def Undisturbed (lines : UInt32) (read : List CString) : Prop :=
  ∀ i < lines.toNat, read.countP (isOwnLine i) ≤ 1 →
    ∀ A line B, read = A ++ line :: B → lineEntry line = some i → ¬ isOwnLine i line →
      ∀ (k : Fin 10) v, (lineValues line)[k.val]? = some v →
        (∃ later ∈ B, lineEntry later = some i ∧ k.val < (lineValues later).length) ∨
          v = ownField read i k

/-- The only line of an entry is found. -/
lemma ownField_of_mem {A B : List CString} {line : CString} {i : ℕ}
    (hcount : (A ++ line :: B).countP (isOwnLine i) ≤ 1) (hown : isOwnLine i line) (k : Fin 10) :
    ownField (A ++ line :: B) i k = (labelFields line)[k.val]?.getD 0 := by
  have hA : ∀ x ∈ A, ¬ isOwnLine i x := by
    rw [List.countP_append, List.countP_cons, if_pos hown] at hcount
    exact List.countP_eq_zero.1 (by omega)
  have hfind : (A ++ line :: B).find? (isOwnLine i) = some line := by
    rw [List.find?_append, List.find?_eq_none.2 hA, Option.none_or, List.find?_cons_of_pos hown]
  rw [ownField, hfind]
  rfl

lemma writtenField_of_own {i : ℕ} (hi : i < 2 ^ 32) {line : CString} (hown : isOwnLine i line)
    (k : Fin 10) : writtenField i k line = (labelFields line)[k.val]? := by
  obtain ⟨hentry, hvalues⟩ := isOwnLine_spec hown hi
  rw [writtenField, if_pos hentry, hvalues]

lemma writtenField_eq_none_iff {i : ℕ} {k : Fin 10} {line : CString} :
    writtenField i k line = none ↔
      ¬ (lineEntry line = some i ∧ k.val < (lineValues line).length) := by
  rw [writtenField]
  split_ifs with hentry
  · simp [hentry]
  · simp [hentry]

/-- What is written last is the field of the own line exactly if no other line is in the way. -/
lemma last?_writtenField_iff {read : List CString} {i : ℕ} (hi : i < 2 ^ 32)
    (hcount : read.countP (isOwnLine i) ≤ 1) (k : Fin 10) :
    (Latch.last? (writtenField i k) read).getD 0 = ownField read i k ↔
      ∀ A line B, read = A ++ line :: B → lineEntry line = some i → ¬ isOwnLine i line →
        ∀ v, (lineValues line)[k.val]? = some v →
          (∃ later ∈ B, lineEntry later = some i ∧ k.val < (lineValues later).length) ∨
            v = ownField read i k := by
  constructor
  · rintro hlast A line B rfl hentry - v hv
    by_contra hnot
    obtain ⟨hlater, hne⟩ := not_or.1 hnot
    have hB : ∀ y ∈ B, writtenField i k y = none :=
      fun y hy => writtenField_eq_none_iff.2 fun h => hlater ⟨y, hy, h⟩
    have hwritten : writtenField i k line = some v := by rw [writtenField, if_pos hentry, hv]
    rw [Latch.last?_append_cons _ hB, hwritten] at hlast
    exact hne hlast
  · intro h
    cases hlast : Latch.last? (writtenField i k) read with
    | none =>
      -- the own line does not set the field either
      have hall := (Latch.last?_eq_none_iff _).1 hlast
      rw [ownField]
      cases hfind : read.find? (isOwnLine i) with
      | none => rfl
      | some line =>
        have hwritten := hall line (List.mem_of_find?_eq_some hfind)
        rw [writtenField_of_own hi (List.find?_some hfind)] at hwritten
        rw [Option.bind_some, hwritten]
    | some v =>
      obtain ⟨A, line, B, rfl, hline, hB⟩ := Latch.exists_last _ hlast
      by_cases hown : isOwnLine i line
      · rw [writtenField_of_own hi hown] at hline
        rw [ownField_of_mem hcount hown, hline]
      · have hentry : lineEntry line = some i := by
          by_contra hentry
          rw [writtenField, if_neg hentry] at hline
          cases hline
        rw [writtenField, if_pos hentry] at hline
        rcases h A line B rfl hentry hown v hline with ⟨later, hmem, hlater⟩ | heq
        · exact absurd hlater (writtenField_eq_none_iff.1 (hB later hmem))
        · exact heq

/-- The fields that the run leaves. -/
lemma fieldAt_run (read : List CString) {lines : UInt32} {i : ℕ} (hi : i < lines.toNat)
    (k : Fin 10) :
    fieldAt (read.foldl placeLine (List.replicate lines.toNat CpuTime.zero)) i k
      = some ((Latch.last? (writtenField i k) read).getD 0) := by
  have hzero : fieldAt (List.replicate lines.toNat CpuTime.zero) i k = some 0 := by
    rw [fieldAt, List.getElem?_replicate_of_lt hi, Option.map_some, CpuTime.field_zero]
  rw [fieldAt_foldl_placeLine, hzero]
  rfl

lemma entriesAreOwn_of_undisturbed (procpath : String) {content : List UInt8} {lines : UInt32}
    (hlines : 1 ≤ lines)
    (h : StatReturns lines (statRead lines (getlines content)) →
      Undisturbed lines (statRead lines (getlines content))) :
    EntriesAreOwn procpath content lines := by
  rcases cpuStatsGetTime_cases procpath content hlines with ⟨hreturns, hrun⟩ | ⟨-, message, hrun⟩
  · rw [EntriesAreOwn, hrun]
    refine ⟨?_, ?_⟩
    · rw [length_foldl_placeLine, List.length_replicate]
    · intro i hi hcount k
      rw [fieldAt_run _ hi, Option.some.injEq,
        last?_writtenField_iff (hi.trans lines.toNat_lt) hcount]
      intro A line B hread hentry hforeign v hv
      exact h hreturns i hi hcount A line B hread hentry hforeign k v hv
  · rw [EntriesAreOwn, hrun]
    exact ⟨_, message, rfl⟩

/-- With the labels that the kernel prints each entry holds the fields of its line. -/
theorem entriesAreOwn_of_labels (procpath : String) (content : List UInt8) {lines : UInt32}
    (hlines : 1 ≤ lines)
    (hlabels : ∀ line ∈ getlines content, ∀ i, lineEntry line = some i → isOwnLine i line) :
    EntriesAreOwn procpath content lines := by
  apply entriesAreOwn_of_undisturbed procpath hlines
  rintro - i - - A line B hread hentry hforeign
  have hmem : line ∈ statRead lines (getlines content) := by
    rw [hread]
    simp
  exact absurd (hlabels line (mem_of_mem_statRead hmem) i hentry) hforeign

/-- The entries hold the fields of their own lines if and only if, where the function returns, no
other line is in the way. -/
theorem entriesAreOwn_iff (procpath : String) (content : List UInt8) {lines : UInt32}
    (hlines : 1 ≤ lines) :
    EntriesAreOwn procpath content lines ↔
      (StatReturns lines (statRead lines (getlines content)) →
        Undisturbed lines (statRead lines (getlines content))) := by
  refine ⟨?_, entriesAreOwn_of_undisturbed procpath hlines⟩
  rcases cpuStatsGetTime_cases procpath content hlines with ⟨-, hrun⟩ | ⟨hnot, -⟩
  · rw [EntriesAreOwn, hrun]
    rintro ⟨-, hown⟩ - i hi hcount A line B hread hentry hforeign k v hv
    have hk := hown i hi hcount k
    rw [fieldAt_run _ hi, Option.some.injEq,
      last?_writtenField_iff (hi.trans lines.toNat_lt) hcount] at hk
    exact hk A line B hread hentry hforeign v hv
  · exact fun _ h => absurd h hnot

/-- Two CPUs, and a line behind theirs. -/
def twoCpuStat : List UInt8 := ascii "cpu  12 14 2\ncpu0 5 6 1\ncpu1 7 8 1\nintr 3\n"

theorem twoCpuStat_entriesAreOwn : EntriesAreOwn "/proc/stat" twoCpuStat 3 := by
  rw [entriesAreOwn_iff "/proc/stat" twoCpuStat (by decide)]
  rintro - i - - A line B hread hentry hforeign
  have hown : ∀ line ∈ statRead 3 (getlines twoCpuStat),
      (lineEntry line).all fun i => isOwnLine i line := by
    decide +kernel
  have hmem : line ∈ statRead 3 (getlines twoCpuStat) := by
    rw [hread]
    simp
  have hline := hown line hmem
  rw [hentry] at hline
  exact absurd hline hforeign

/-- The sum that is compared with the number of entries wraps around, and the entry of all CPUs is
overwritten. -/
theorem wrapped_not_entriesAreOwn :
    ¬ EntriesAreOwn "/proc/stat" (ascii "cpu  7 8 9\ncpu0 7 8 9\ncpu4294967295 1 2 3\n") 2 := by
  have hrun : cpuStatsGetTime "/proc/stat"
      (some (ascii "cpu  7 8 9\ncpu0 7 8 9\ncpu4294967295 1 2 3\n")) 2
      = .ok [⟨some (ascii "cpu4294967295"), 1, 2, 3, 0, 0, 0, 0, 0, 0, 0⟩,
          ⟨some (ascii "cpu0"), 7, 8, 9, 0, 0, 0, 0, 0, 0, 0⟩] := by
    decide +kernel
  rw [EntriesAreOwn, hrun]
  rintro ⟨-, hown⟩
  have hzero := hown 0 (by decide) (by decide +kernel) 0
  revert hzero
  decide +kernel

end NagiosPlugins
