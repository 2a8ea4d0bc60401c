import NagiosPlugins.Files.Properties

/-!
# Files on either side of a bound

A positive size or age selects the files beyond the bound and a negative one those below it. Both
comparisons are strict, so a file on the bound is in neither count.
-/

namespace NagiosPlugins

open Libc

variable (args : FilesArgs)

/-- The total of a fresh `*filecount`. -/
def filesTotal (nodes : List Node) : ℤ :=
  (filesDataInit (filesFilecount args (some nodes) none).2).total

lemma filesTotal_eq (nodes : List Node) :
    filesTotal args nodes = (entriesBelow args nodes).countP (Entry.included args) := by
  rw [filesTotal, filesFilecount_entries]
  show (filesDataInit none + _).total = _
  rw [FilesTypes.add_total, counter_sum args FilesTypes.total rfl (fun _ _ => rfl) _ _
    fun e _ => e.counts_total args]
  exact zero_add _

/-! ### Regular files only -/

namespace Entry

/-- A regular file among the candidates. -/
def regularCandidate (e : Entry) : Bool := e.candidate args && e.statbuf.mode = .ifreg

lemma included_of_regularOnly (hregular : args.has filesRegularOnly) (e : Entry) :
    e.included args = (e.regularCandidate args
      && filesCheckAge args e.statbuf.mtime && filesCheckSize args e.statbuf.size) := by
  cases hmode : e.statbuf.mode <;>
    simp [included, selected, kindSelected, regularCandidate, hmode, hregular, Bool.and_assoc]

end Entry

/-! ### Bounds -/

section Size

variable {S : Int64} (hS : 0 < S)

include hS

lemma toInt_neg_of_pos : (-S).toInt = -S.toInt := by
  have hpos : 0 < S.toInt := Int64.lt_iff_toInt_lt.1 hS
  have hlt := S.toInt_lt
  rw [Int64.toInt_neg]
  apply Int.bmod_eq_of_le_mul_two
  · grind
  · grind

lemma filesCheckSize_pos (filesize : Int64) :
    filesCheckSize { args with size := S } filesize = decide (S.toInt < filesize.toInt) := by
  have hne : S ≠ 0 := by
    rintro rfl
    exact absurd hS (by decide)
  have hnot : ¬ S < 0 := Int64.not_lt.2 (Int64.le_of_lt hS)
  simp [filesCheckSize, hS, hne, hnot, Int64.lt_iff_toInt_lt]

lemma filesCheckSize_neg (filesize : Int64) :
    filesCheckSize { args with size := -S } filesize = decide (filesize.toInt < S.toInt) := by
  have hpos : 0 < S.toInt := Int64.lt_iff_toInt_lt.1 hS
  have hneg : -S < 0 := by
    rw [Int64.lt_iff_toInt_lt, toInt_neg_of_pos hS]
    exact neg_lt_zero.2 hpos
  have hne : -S ≠ 0 := by
    intro h
    rw [h] at hneg
    exact absurd hneg (by decide)
  have hnot : ¬ 0 < -S := Int64.not_lt.2 (Int64.le_of_lt hneg)
  have habs : -1 * -S = S := by grind
  simp [filesCheckSize, hneg, hne, hnot, habs]
  exact Int64.lt_iff_toInt_lt

end Size

lemma filesCheckAge_pos {A : ℤ} (hA : 0 < A) (filemtime : ℤ) :
    filesCheckAge { args with age := A } filemtime = decide (filemtime < args.now - A) := by
  simp [filesCheckAge, hA, hA.ne', hA.not_gt]

lemma filesCheckAge_neg {A : ℤ} (hA : 0 < A) (filemtime : ℤ) :
    filesCheckAge { args with age := -A } filemtime = decide (args.now - A < filemtime) := by
  simp [filesCheckAge, hA, hA.ne', hA.not_gt, sub_eq_add_neg]

/-- The totals for the sizes `S` and `-S` add up to the total without a size. -/
def SizesSplit (S : Int64) (nodes : List Node) : Prop :=
  filesTotal { args with size := S } nodes + filesTotal { args with size := -S } nodes
    = filesTotal { args with size := 0 } nodes

/-- The totals for the ages `A` and `-A` add up to the total without an age. -/
def AgesSplit (A : ℤ) (nodes : List Node) : Prop :=
  filesTotal { args with age := A } nodes + filesTotal { args with age := -A } nodes
    = filesTotal { args with age := 0 } nodes

lemma filesTotal_of_regularOnly (hregular : args.has filesRegularOnly) (nodes : List Node) :
    filesTotal args nodes = (entriesBelow args nodes).countP fun e =>
      e.regularCandidate args && filesCheckAge args e.statbuf.mtime
        && filesCheckSize args e.statbuf.size := by
  rw [filesTotal_eq, funext (Entry.included_of_regularOnly args hregular)]

variable {args}

/-- The sizes split the files exactly if none of the right age has the size `S`. -/
lemma sizesSplit_iff (hregular : args.has filesRegularOnly) {S : Int64} (hS : 0 < S)
    (nodes : List Node) :
    SizesSplit args S nodes ↔ ∀ e ∈ entriesBelow args nodes, e.candidate args →
      e.statbuf.mode = .ifreg → filesCheckAge args e.statbuf.mtime → e.statbuf.size ≠ S := by
  let p : Entry → Bool := fun e => e.regularCandidate args && filesCheckAge args e.statbuf.mtime
  have htotal : ∀ size, filesTotal { args with size } nodes
      = (entriesBelow args nodes).countP fun e =>
          p e && filesCheckSize { args with size } e.statbuf.size :=
    fun size => filesTotal_of_regularOnly { args with size } hregular nodes
  have hzero : ∀ filesize, filesCheckSize { args with size := 0 } filesize = true := fun _ => rfl
  rw [SizesSplit, htotal, htotal, htotal]
  simp only [filesCheckSize_pos args hS, filesCheckSize_neg args hS, hzero, Bool.and_true]
  rw [← Nat.cast_add, Nat.cast_inj,
    List.countP_split_iff p (fun e => e.statbuf.size.toInt) S.toInt (entriesBelow args nodes)]
  simp [p, Entry.regularCandidate, Int64.toInt_inj]

/-- The ages split the files exactly if none of the right size is `A` old to the second. -/
lemma agesSplit_iff (hregular : args.has filesRegularOnly) {A : ℤ} (hA : 0 < A)
    (nodes : List Node) :
    AgesSplit args A nodes ↔ ∀ e ∈ entriesBelow args nodes, e.candidate args →
      e.statbuf.mode = .ifreg → filesCheckSize args e.statbuf.size →
        e.statbuf.mtime ≠ args.now - A := by
  let p : Entry → Bool := fun e => e.regularCandidate args && filesCheckSize args e.statbuf.size
  have htotal : ∀ age, filesTotal { args with age } nodes
      = (entriesBelow args nodes).countP fun e =>
          p e && filesCheckAge { args with age } e.statbuf.mtime := by
    intro age
    rw [filesTotal_of_regularOnly { args with age } hregular nodes]
    congr 2
    funext e
    exact Bool.and_right_comm _ _ _
  have hzero : ∀ filemtime, filesCheckAge { args with age := 0 } filemtime = true := fun _ => rfl
  rw [AgesSplit, add_comm, htotal, htotal, htotal]
  simp only [filesCheckAge_pos args hA, filesCheckAge_neg args hA, hzero, Bool.and_true]
  rw [← Nat.cast_add, Nat.cast_inj,
    List.countP_split_iff p (fun e => e.statbuf.mtime) (args.now - A) (entriesBelow args nodes)]
  simp [p, Entry.regularCandidate]

/-- Complementary filters split the regular files exactly if none that the other filter lets pass
is on the bound. -/
theorem filters_split_iff (args : FilesArgs) (hregular : args.has filesRegularOnly)
    (nodes : List Node) :
    (∀ S, 0 < S → (SizesSplit args S nodes ↔
      ∀ e ∈ entriesBelow args nodes, e.candidate args → e.statbuf.mode = .ifreg →
        filesCheckAge args e.statbuf.mtime → e.statbuf.size ≠ S)) ∧
    (∀ A, 0 < A → (AgesSplit args A nodes ↔
      ∀ e ∈ entriesBelow args nodes, e.candidate args → e.statbuf.mode = .ifreg →
        filesCheckSize args e.statbuf.size → e.statbuf.mtime ≠ args.now - A)) := by
  constructor
  · intro S hS
    exact sizesSplit_iff hregular hS nodes
  · intro A hA
    exact agesSplit_iff hregular hA nodes

/-- `FILES_REGULAR_ONLY`, and neither age nor size nor pattern. -/
def regularArgs : FilesArgs := { defaultArgs with flags := filesRegularOnly }

theorem smallTree_filters_split :
    SizesSplit regularArgs 2 smallTree ∧ AgesSplit regularArgs 5 smallTree := by
  have h := filters_split_iff regularArgs (by decide) smallTree
  exact ⟨(h.1 2 (by simp)).2 (by decide), (h.2 5 (by simp)).2 (by decide)⟩

/-- The regular file of one byte is neither larger than one byte nor smaller. -/
theorem smallTree_not_sizesSplit :
    regularArgs.has filesRegularOnly ∧ ¬ SizesSplit regularArgs 1 smallTree := by
  refine ⟨by decide, ?_⟩
  show ¬ filesTotal _ smallTree + filesTotal _ smallTree = filesTotal _ smallTree
  decide

end NagiosPlugins
