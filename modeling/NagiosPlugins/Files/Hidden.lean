import NagiosPlugins.Files.Properties

/-!
# Hidden entries

The counter `hidden` grows with regular files and with the directories that the scan descends into.
The other kinds of entries are counted without it.
-/

namespace NagiosPlugins

open Libc

namespace Entry

variable (args : FilesArgs) (e : Entry)

/-- An entry of the total with a hidden name. -/
def includedHidden : Bool := e.included args && filesIsHidden e.name

/-- The kinds of entries for which hidden names are counted. -/
def countsHidden : Bool :=
  e.statbuf.mode = .ifreg || (e.statbuf.mode = .ifdir && args.has filesRecursive)

lemma counts_hidden :
    (e.counts args).hidden = if e.includedHidden args && e.countsHidden args then 1 else 0 := by
  cases h : e.candidate args with
  | false => simp [counts_of_not_candidate args e h, includedHidden, included, selected, h]
  | true =>
    rw [counts_of_candidate args e h]
    cases hmode : e.statbuf.mode <;>
      simp [includedHidden, included, selected, kindSelected, countsHidden, h, hmode] <;>
      split_ifs <;> simp_all

end Entry

/-- A fresh `*filecount` has counted the hidden entries of the total. -/
def HiddenCounted (args : FilesArgs) (nodes : List Node) : Prop :=
  ∃ fc, filesFilecount args (some nodes) none = (0, some fc) ∧
    fc.hidden = (entriesBelow args nodes).countP fun e =>
      e.included args && filesIsHidden e.name

/-- The hidden entries are counted exactly if each of them that the total includes is a regular
file, or a directory in a recursive scan. -/
theorem hiddenCounted_iff (args : FilesArgs) (nodes : List Node) :
    HiddenCounted args nodes ↔
      ∀ e ∈ entriesBelow args nodes, e.included args → filesIsHidden e.name →
        e.statbuf.mode = .ifreg ∨ e.statbuf.mode = .ifdir ∧ args.has filesRecursive := by
  have hrun := filesFilecount_entries args nodes none
  have hzero : filesDataInit none = 0 := rfl
  rw [hzero, zero_add] at hrun
  have hhidden := counter_sum args FilesTypes.hidden rfl (fun _ _ => rfl) _
    (entriesBelow args nodes) fun e _ => e.counts_hidden args
  have hkinds : (∀ e ∈ entriesBelow args nodes, e.includedHidden args → e.countsHidden args) ↔
      ∀ e ∈ entriesBelow args nodes, e.included args → filesIsHidden e.name →
        e.statbuf.mode = .ifreg ∨ e.statbuf.mode = .ifdir ∧ args.has filesRecursive := by
    simp [Entry.includedHidden, Entry.countsHidden]
  rw [← hkinds]
  constructor
  · rintro ⟨fc, hfc, hcount⟩
    rw [hrun] at hfc
    cases hfc
    rw [hhidden, Nat.cast_inj] at hcount
    have himp : ∀ e : Entry, e.includedHidden args && e.countsHidden args →
        e.includedHidden args := by
      intro e h
      exact (Bool.and_eq_true_iff.1 h).1
    intro e he h
    have hboth := List.forall_of_countP_le himp hcount.ge e he h
    exact (Bool.and_eq_true_iff.1 hboth).2
  · intro h
    refine ⟨_, hrun, ?_⟩
    rw [hhidden, Nat.cast_inj]
    apply List.countP_congr
    intro e he
    show _ ↔ e.includedHidden args
    rw [Bool.and_eq_true_iff]
    exact ⟨And.left, fun hincluded => ⟨hincluded, h e he hincluded⟩⟩

/-- A hidden symbolic link. -/
def hiddenLink : List Node := [.mk (ascii ".x") ⟨.iflnk, 0, 1⟩ none]

/-- `FILES_INCLUDE_HIDDEN`, and neither age nor size nor pattern. -/
def hiddenArgs : FilesArgs := { defaultArgs with flags := filesIncludeHidden }

theorem hiddenLink_not_hiddenCounted : ¬ HiddenCounted hiddenArgs hiddenLink := by
  rintro ⟨fc, hfc, hhidden⟩
  have hrun : filesFilecount hiddenArgs (some hiddenLink) none
      = (0, some ⟨0, 0, 0, 1, 0, 1, 0⟩) := by decide
  rw [hrun] at hfc
  cases hfc
  exact absurd hhidden (by decide)

end NagiosPlugins
