import NagiosPlugins.Data.Lists
import NagiosPlugins.Readonlyfs.Basic

/-!
# One filesystem or all of them

Scanning all filesystems reports every entry that is read-only and not skipped. Naming one looks
at the entries of its directory in order, and gives up at the first that is skipped.
-/

namespace NagiosPlugins

open Libc

variable {s : FsSettings}

/-- An entry that a scan without exclusions reports. -/
def Reported (s : FsSettings) (me : MountEntry) : Prop :=
  me.meReadonly ∧ ¬ skipMountEntry s me

instance (me : MountEntry) : Decidable (Reported s me) := inferInstanceAs (Decidable (_ ∧ _))

/-! ### Scanning -/

/-- The entries that a scan reports, in the order of the table. -/
def reportedEntries (s : FsSettings) (fsExclude : Option (List CString))
    (mountList : List MountEntry) : List MountEntry :=
  mountList.filter fun me => !ignored fsExclude me && Reported s me

/-- The scan collects the directories of the reported entries. -/
lemma checkAllLoop_eq (fsExclude : Option (List CString)) (mountList : List MountEntry)
    (status : Nagstatus) (roFilesystems : Except Stop (Option CString)) :
    checkAllLoop s fsExclude mountList status roFilesystems
      = (if reportedEntries s fsExclude mountList = [] then status else .critical,
          (reportedEntries s fsExclude mountList).foldl
            (fun ro me => addRoFilesystem ro me.meMountdir) roFilesystems) := by
  induction mountList generalizing status roFilesystems with
  | nil => rfl
  | cons me rest ih =>
    rw [checkAllLoop, reportedEntries, List.filter_cons]
    cases hignored : ignored fsExclude me with
    | true => simp [ih, reportedEntries]
    | false =>
      by_cases hreported : Reported s me
      · have hskip := Bool.eq_false_iff.2 hreported.2
        simp [hskip, hreported.1, ih, hreported, reportedEntries]
      · cases hskip : skipMountEntry s me with
        | true => simp [ih, hreported, reportedEntries]
        | false =>
          have hreadonly : me.meReadonly = false := by
            by_contra hreadonly
            exact hreported ⟨by simpa using hreadonly, by simp [hskip]⟩
          simp [hreadonly, ih, hreported, reportedEntries]

/-- The status of a scan. -/
lemma checkAllEntries_status (mountList : List MountEntry) (roFilesystems : Option CString)
    (fsExclude : Option (List CString)) :
    (checkAllEntries s mountList roFilesystems fsExclude).1 = .critical ↔
      reportedEntries s fsExclude mountList ≠ [] := by
  rw [checkAllEntries, checkAllLoop_eq]
  by_cases h : reportedEntries s fsExclude mountList = []
  · simp [h]
  · simp [h]

/-- The scan is critical exactly if it reports an entry. -/
theorem checkAllEntries_critical_iff (mountList : List MountEntry) :
    (checkAllEntries s mountList none none).1 = .critical ↔ ∃ me ∈ mountList, Reported s me := by
  rw [checkAllEntries_status, reportedEntries, Ne, List.filter_eq_nil_iff]
  simp [ignored]

/-! ### Naming -/

/-- Entries without a reported one on the directory make no difference, unless one there is
skipped. -/
lemma checkEntryLoop_append {name : CString} {A : List MountEntry}
    (hA : ∀ me ∈ A, me.meMountdir = name → ¬ Reported s me) (B : List MountEntry) :
    checkEntryLoop s name (A ++ B)
      = if ∃ me ∈ A, me.meMountdir = name ∧ skipMountEntry s me then .ok
        else checkEntryLoop s name B := by
  induction A with
  | nil => simp
  | cons me A ih =>
    obtain ⟨hme, hA⟩ := List.forall_mem_cons.1 hA
    rw [List.cons_append, checkEntryLoop]
    by_cases hname : me.meMountdir = name
    · by_cases hskip : skipMountEntry s me
      · simp [hname, hskip]
      · have hreadonly : ¬ me.meReadonly := fun hreadonly => hme hname ⟨hreadonly, hskip⟩
        simp [hname, hskip, hreadonly, ih hA]
    · simp [hname, ih hA]

/-- Naming a directory is critical exactly if the table has an entry on it that a scan reports. -/
def AgreesWithScan (s : FsSettings) (mountList : List MountEntry) (name : CString) : Prop :=
  checkEntry s mountList (some name) = .critical ↔
    ∃ me ∈ mountList, me.meMountdir = name ∧ Reported s me

/-- The first entry on a directory that is reported, if there is one. -/
lemma exists_first_reported {mountList : List MountEntry} {name : CString}
    (h : ∃ me ∈ mountList, me.meMountdir = name ∧ Reported s me) :
    ∃ A me B, mountList = A ++ me :: B ∧ (me.meMountdir = name ∧ Reported s me) ∧
      ∀ me ∈ A, me.meMountdir = name → ¬ Reported s me := by
  have hfind : (mountList.find? fun me => me.meMountdir = name ∧ Reported s me).isSome := by
    simpa [List.find?_isSome] using h
  obtain ⟨me, hme⟩ := Option.isSome_iff_exists.1 hfind
  obtain ⟨hreported, A, B, rfl, hA⟩ := List.find?_eq_some_iff_append.1 hme
  refine ⟨A, me, B, rfl, by simpa using hreported, ?_⟩
  intro e he hname hrep
  exact absurd (hA e he) (by simp [hname, hrep])

/-- Where no entry on the directory is reported, naming it is not critical. -/
lemma checkEntry_ne_critical {mountList : List MountEntry} {name : CString}
    (h : ∀ me ∈ mountList, me.meMountdir = name → ¬ Reported s me) :
    checkEntry s mountList (some name) ≠ .critical := by
  have hloop := checkEntryLoop_append h []
  rw [List.append_nil] at hloop
  rw [checkEntry, hloop]
  split_ifs <;> simp [checkEntryLoop]

/-- In front of the first reported entry, a skipped one decides. -/
lemma checkEntry_critical_iff {A B : List MountEntry} {me : MountEntry}
    (hreported : Reported s me)
    (hA : ∀ e ∈ A, e.meMountdir = me.meMountdir → ¬ Reported s e) :
    checkEntry s (A ++ me :: B) (some me.meMountdir) = .critical ↔
      ∀ e ∈ A, e.meMountdir = me.meMountdir → ¬ skipMountEntry s e := by
  have hme : checkEntryLoop s me.meMountdir (me :: B) = .critical := by
    simp [checkEntryLoop, hreported.1, hreported.2]
  rw [checkEntry, checkEntryLoop_append hA, hme]
  split_ifs with hskip
  · obtain ⟨e, he, hname, hskip⟩ := hskip
    exact iff_of_false (by decide) fun h => h e he hname hskip
  · exact iff_of_true rfl fun e he hname hs => hskip ⟨e, he, hname, hs⟩

/-- Naming agrees with scanning exactly if no entry on the directory that is skipped stands before
the first one there that is reported. -/
theorem agreesWithScan_iff (s : FsSettings) (mountList : List MountEntry) (name : CString) :
    AgreesWithScan s mountList name ↔
      ∀ A me B, mountList = A ++ me :: B → me.meMountdir = name → Reported s me →
        (∀ e ∈ A, e.meMountdir = name → ¬ Reported s e) →
          ∀ e ∈ A, e.meMountdir = name → ¬ skipMountEntry s e := by
  constructor
  · rintro hagrees A me B rfl rfl hreported hA
    have hcritical := hagrees.2 ⟨me, by simp, rfl, hreported⟩
    exact (checkEntry_critical_iff hreported hA).1 hcritical
  · intro h
    by_cases hex : ∃ me ∈ mountList, me.meMountdir = name ∧ Reported s me
    · obtain ⟨A, me, B, rfl, ⟨rfl, hreported⟩, hA⟩ := exists_first_reported hex
      have hskip := h A me B rfl rfl hreported hA
      exact iff_of_true ((checkEntry_critical_iff hreported hA).2 hskip) hex
    · refine iff_of_false (checkEntry_ne_critical fun me hme hname hreported => ?_) hex
      exact hex ⟨me, hme, hname, hreported⟩

/-- A read-only filesystem behind its automounter. -/
def autofsTable : List MountEntry :=
  [⟨ascii "systemd-1", ascii "/mnt", some (ascii "autofs"), true, false, false⟩,
    ⟨ascii "/dev/sda1", ascii "/mnt", some (ascii "ext4"), false, false, true⟩]

theorem autofs_not_agreesWithScan : ¬ AgreesWithScan {} autofsTable (ascii "/mnt") := by
  intro hagrees
  have hreported : ∃ me ∈ autofsTable, me.meMountdir = ascii "/mnt" ∧ Reported {} me := by decide
  have hcritical := hagrees.2 hreported
  exact absurd hcritical (by decide)

end NagiosPlugins
