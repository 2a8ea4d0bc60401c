import NagiosPlugins.Readonlyfs.Properties

/-!
# The report of a scan

The status of a scan and the text it builds from the directories of the entries that it reports.
The text is lost with the second of them.
-/

namespace NagiosPlugins

open Libc

variable (s : FsSettings) (fsExclude : Option (List CString))

/-- A read-only filesystem that neither the options nor the list of exclusions leave out. -/
structure Offending (me : MountEntry) : Prop where
  readonly : me.meReadonly = true
  not_excluded : ∀ names ∈ fsExclude, me.meDevname ∉ names ∧ me.meMountdir ∉ names
  local_only : s.showLocalFs = true → me.meRemote = false
  not_dummy : s.showAllFs = false → me.meDummy = false
  selected : s.fsSelectList = [] ∨ ∀ fstype ∈ me.meType, fstype ∈ s.fsSelectList
  not_omitted : ∀ fstype ∈ me.meType, fstype ∉ s.fsExcludeList

variable {s fsExclude}

lemma not_ignored_iff (me : MountEntry) :
    ignored fsExclude me = false ↔
      ∀ names ∈ fsExclude, me.meDevname ∉ names ∧ me.meMountdir ∉ names := by
  cases fsExclude with
  | none => simp [ignored]
  | some names =>
    simp only [ignored, List.any_eq_false, Bool.or_eq_true, decide_eq_true_eq, not_or,
      Option.mem_some_iff, forall_eq']
    constructor
    · intro h
      exact ⟨fun hdev => (h _ hdev).1 rfl, fun hdir => (h _ hdir).2 rfl⟩
    · rintro ⟨hdev, hdir⟩ fs hfs
      exact ⟨fun heq => hdev (heq ▸ hfs), fun heq => hdir (heq ▸ hfs)⟩

lemma selectedFstype_iff (fstype : Option CString) :
    selectedFstype s fstype = true ↔
      s.fsSelectList = [] ∨ ∀ name ∈ fstype, name ∈ s.fsSelectList := by
  cases fstype <;> simp [selectedFstype]

lemma excludedFstype_iff (fstype : Option CString) :
    excludedFstype s fstype = false ↔ ∀ name ∈ fstype, name ∉ s.fsExcludeList := by
  cases fstype with
  | none => simp [excludedFstype]
  | some name =>
    simp only [excludedFstype, List.any_eq_false, decide_eq_true_eq, Option.mem_some_iff,
      forall_eq']
    exact ⟨fun h hmem => h _ hmem rfl, fun h _ hmem heq => h (heq ▸ hmem)⟩

lemma not_skipMountEntry_iff (me : MountEntry) :
    ¬ skipMountEntry s me ↔
      (s.showLocalFs = true → me.meRemote = false) ∧
      (s.showAllFs = false → me.meDummy = false) ∧
      selectedFstype s me.meType = true ∧ excludedFstype s me.meType = false := by
  rw [skipMountEntry]
  cases me.meRemote <;> cases s.showLocalFs <;> cases me.meDummy <;> cases s.showAllFs <;> simp

lemma offending_iff (me : MountEntry) :
    (!ignored fsExclude me && decide (Reported s me)) = true ↔ Offending s fsExclude me := by
  rw [Bool.and_eq_true_iff, Bool.not_eq_true', not_ignored_iff, decide_eq_true_iff, Reported,
    not_skipMountEntry_iff, selectedFstype_iff, excludedFstype_iff]
  constructor
  · rintro ⟨hexcluded, hreadonly, hlocal, hdummy, hselected, homitted⟩
    exact ⟨hreadonly, hexcluded, hlocal, hdummy, hselected, homitted⟩
  · rintro ⟨hreadonly, hexcluded, hlocal, hdummy, hselected, homitted⟩
    exact ⟨hexcluded, hreadonly, hlocal, hdummy, hselected, homitted⟩

instance (me : MountEntry) : Decidable (Offending s fsExclude me) :=
  decidable_of_iff _ (offending_iff me)

variable (s fsExclude)

/-- The offending entries, in the order of the table. -/
def offendingEntries (mountList : List MountEntry) : List MountEntry :=
  mountList.filter fun me => Offending s fsExclude me

/-- The directories, separated by blanks; NULL if there is none. -/
def joinDirs : List CString → Option CString
  | [] => none
  | dirs => some (List.intercalate (ascii " ") dirs)

/-- The status tells whether there are offending entries, and the text names their directories. -/
def ReportsExactly (mountList : List MountEntry) : Prop :=
  ((checkAllEntries s mountList none fsExclude).1 = .critical ↔
    ∃ me ∈ mountList, Offending s fsExclude me) ∧
  (checkAllEntries s mountList none fsExclude).2
    = .ok (joinDirs ((offendingEntries s fsExclude mountList).map MountEntry.meMountdir))

variable {s fsExclude}

lemma reportedEntries_eq (mountList : List MountEntry) :
    reportedEntries s fsExclude mountList = offendingEntries s fsExclude mountList := by
  apply List.filter_congr
  intro me _
  rw [Bool.eq_iff_iff, decide_eq_true_iff]
  exact offending_iff me

/-- Whatever follows, a lost text stays lost. -/
lemma foldl_addRoFilesystem_error (stop : Stop) (entries : List MountEntry) :
    entries.foldl (fun ro me => addRoFilesystem ro me.meMountdir) (.error stop)
      = .error stop := by
  induction entries with
  | nil => rfl
  | cons me entries ih => exact ih

/-- The status is right for every table. -/
lemma status_iff_offending (mountList : List MountEntry) :
    (checkAllEntries s mountList none fsExclude).1 = .critical ↔
      ∃ me ∈ mountList, Offending s fsExclude me := by
  rw [checkAllEntries_status, reportedEntries_eq, offendingEntries, Ne, List.filter_eq_nil_iff]
  simp

/-- The text is defined as long as there is at most one directory to name. -/
lemma text_eq_iff (mountList : List MountEntry) :
    (checkAllEntries s mountList none fsExclude).2
        = .ok (joinDirs ((offendingEntries s fsExclude mountList).map MountEntry.meMountdir)) ↔
      (offendingEntries s fsExclude mountList).length ≤ 1 := by
  rw [checkAllEntries, checkAllLoop_eq, reportedEntries_eq]
  rcases offendingEntries s fsExclude mountList with _ | ⟨me, _ | ⟨me', entries⟩⟩
  · simp [joinDirs]
  · simp [joinDirs, addRoFilesystem]
  · have hlost : (me :: me' :: entries).foldl
        (fun ro me => addRoFilesystem ro me.meMountdir) (.ok none) = .error .undefined :=
      foldl_addRoFilesystem_error .undefined entries
    simp [hlost]

/-- Scanning reports exactly the offending entries, provided that there is at most one. -/
theorem reportsExactly_iff (s : FsSettings) (fsExclude : Option (List CString))
    (mountList : List MountEntry) :
    ReportsExactly s fsExclude mountList ↔
      (offendingEntries s fsExclude mountList).length ≤ 1 := by
  rw [ReportsExactly, text_eq_iff]
  exact and_iff_right (status_iff_offending mountList)

/-- Two read-only filesystems. -/
def twoReadonly : List MountEntry :=
  [⟨ascii "a", ascii "/a", some (ascii "ext4"), false, false, true⟩,
    ⟨ascii "b", ascii "/b", some (ascii "ext4"), false, false, true⟩]

theorem twoReadonly_not_reportsExactly : ¬ ReportsExactly {} none twoReadonly := by
  rintro ⟨-, htext⟩
  have hlost : (checkAllEntries {} twoReadonly none none).2 = .error .undefined := by decide
  rw [hlost] at htext
  cases htext

end NagiosPlugins
