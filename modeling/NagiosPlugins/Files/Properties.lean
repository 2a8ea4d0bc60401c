import NagiosPlugins.Data.Lists
import NagiosPlugins.Files.Selection

/-!
# What `files_filecount` counts

The total is the number of selected entries, in whatever order the directories are listed. The
counters of the single kinds make up the total only where no directory is counted as unknown
and no special file is counted without being included.
-/

namespace NagiosPlugins

open Libc

/-! ### The counts of one entry -/

lemma FilesArgs.has_or (args : FilesArgs) (a b : UInt32) :
    args.has (a ||| b) ↔ args.has a ∨ args.has b := by
  have hor : args.flags &&& (a ||| b) = args.flags &&& a ||| args.flags &&& b :=
    UInt32.toBitVec_inj.1 BitVec.and_or_distrib_left
  rw [FilesArgs.has, hor, FilesArgs.has, FilesArgs.has, ne_eq, UInt32.or_eq_zero_iff]
  tauto

namespace Entry

variable (args : FilesArgs) (e : Entry)

def special : Bool := e.statbuf.mode ∈ [.ifblk, .ifchr, .ififo, .ifsock]

/-- The entries that make the total grow: a directory into which the scan does not descend is of
unknown kind. -/
def included : Bool :=
  e.selected args &&
    !(e.statbuf.mode = .ifdir && !args.has filesRecursive && args.has filesIgnoreUnknown)

lemma counts_of_not_candidate (h : e.candidate args = false) : e.counts args = 0 := by
  rw [candidate, Bool.and_eq_false_iff] at h
  rcases h with h | h <;> simp [counts, filesCountDirectory, filesCountEntry, h]

/-- The counts by the type of an entry. -/
lemma counts_of_candidate (h : e.candidate args = true) :
    e.counts args =
      let hidden := if filesIsHidden e.name then 1 else 0
      match e.statbuf.mode with
      | .ifreg => if e.kindSelected args then ⟨0, hidden, 0, 0, 1, 1, 0⟩ else 0
      | .iflnk => if e.kindSelected args then ⟨0, 0, 0, 1, 0, 1, 0⟩ else 0
      | .ifblk | .ifchr | .ififo | .ifsock =>
        ⟨0, 0, 1, 0, 0, if args.has filesRegularOnly then 0 else 1, 0⟩
      | .ifdir =>
        if args.has filesRegularOnly then 0
        else if args.has filesRecursive then ⟨1, hidden, 0, 0, 0, 1, 0⟩
        else ⟨0, 0, 0, 0, 0, if args.has filesIgnoreUnknown then 0 else 1, 1⟩ := by
  rw [candidate, Bool.and_eq_true] at h
  obtain ⟨hvisible, hmatch⟩ := h
  obtain ⟨ancestors, name, mode, mtime, size⟩ := e
  cases mode with
  | ifreg =>
    by_cases hage : filesCheckAge args mtime <;> by_cases hsize : filesCheckSize args size <;>
      by_cases hhidden : filesIsHidden name <;>
      simp [counts, hvisible, filesCountEntry, hmatch, filesSwitch, kindSelected, hage, hsize,
        hhidden]
  | iflnk =>
    by_cases hsymlinks : args.has filesIgnoreSymlinks <;>
      by_cases hregular : args.has filesRegularOnly <;>
      simp [counts, hvisible, filesCountEntry, hmatch, filesSwitch, kindSelected,
        FilesArgs.has_or, hsymlinks, hregular]
  | ifblk | ifchr | ififo | ifsock =>
    by_cases hregular : args.has filesRegularOnly <;>
      simp [counts, hvisible, filesCountEntry, hmatch, filesSwitch, hregular]
  | ifdir =>
    by_cases hregular : args.has filesRegularOnly <;>
      by_cases hrecursive : args.has filesRecursive <;>
      by_cases hunknown : args.has filesIgnoreUnknown <;>
      by_cases hhidden : filesIsHidden name <;>
      simp [counts, hvisible, filesCountEntry, filesCountDirectory, hmatch, filesSwitch, hregular,
        hrecursive, hunknown, hhidden]

/-- A directory that no scan descends into is counted as unknown. -/
def countedUnknown : Bool :=
  e.candidate args && (e.statbuf.mode = .ifdir && !args.has filesRegularOnly &&
    !args.has filesRecursive)

lemma counts_total : (e.counts args).total = if e.included args then 1 else 0 := by
  cases h : e.candidate args with
  | false => simp [counts_of_not_candidate args e h, included, selected, h]
  | true =>
    rw [counts_of_candidate args e h]
    cases hmode : e.statbuf.mode <;>
      simp [included, selected, h, hmode, kindSelected] <;> split_ifs <;> simp_all

lemma counts_unknown : (e.counts args).unknown = if e.countedUnknown args then 1 else 0 := by
  cases h : e.candidate args with
  | false => simp [counts_of_not_candidate args e h, countedUnknown, h]
  | true =>
    rw [counts_of_candidate args e h]
    cases hmode : e.statbuf.mode <;>
      simp [countedUnknown, h, hmode] <;> split_ifs <;> simp_all

lemma counts_specialFile :
    (e.counts args).specialFile = if e.candidate args && e.special then 1 else 0 := by
  cases h : e.candidate args with
  | false => simp [counts_of_not_candidate args e h]
  | true =>
    rw [counts_of_candidate args e h]
    cases hmode : e.statbuf.mode <;> simp [special, hmode] <;> split_ifs <;> simp_all

/-- An entry that is counted as unknown, or counted as special without being included. -/
def misfit : Bool := e.countedUnknown args || (e.candidate args && e.special && !e.included args)

lemma misfit_eq_false_iff : e.misfit args = false ↔ (e.candidate args →
    (e.statbuf.mode = .ifdir → args.has filesRecursive ∨ args.has filesRegularOnly) ∧
    (e.special → ¬ args.has filesRegularOnly)) := by
  cases h : e.candidate args with
  | false => simp [misfit, countedUnknown, h]
  | true =>
    cases hmode : e.statbuf.mode <;>
      simp [misfit, countedUnknown, included, selected, kindSelected, special, h, hmode]
    tauto

/-- An entry that is no misfit is counted under its own type, if at all. -/
lemma counts_of_fits (h : e.misfit args = false) :
    (e.counts args).directory = (if e.included args && e.statbuf.mode = .ifdir then 1 else 0) ∧
    (e.counts args).regularFile = (if e.included args && e.statbuf.mode = .ifreg then 1 else 0) ∧
    (e.counts args).specialFile = (if e.included args && e.special then 1 else 0) ∧
    (e.counts args).symlink = (if e.included args && e.statbuf.mode = .iflnk then 1 else 0) ∧
    (e.counts args).unknown = 0 := by
  rw [misfit_eq_false_iff] at h
  cases hcand : e.candidate args with
  | false => simp [counts_of_not_candidate args e hcand, included, selected, hcand]
  | true =>
    obtain ⟨hdir, hspecial⟩ := h hcand
    rw [counts_of_candidate args e hcand]
    cases hmode : e.statbuf.mode <;>
      simp_all [included, selected, kindSelected, special] <;> split_ifs <;> simp_all

/-- The sum of the counters of the kinds. -/
lemma counts_sum_of_fits (h : e.misfit args = false) :
    (e.counts args).directory + (e.counts args).regularFile + (e.counts args).specialFile
        + (e.counts args).symlink + (e.counts args).unknown
      = if e.included args then 1 else 0 := by
  obtain ⟨hdirectory, hregular, hspecial, hsymlink, hunknown⟩ := e.counts_of_fits args h
  rw [hdirectory, hregular, hspecial, hsymlink, hunknown]
  cases e.included args with
  | false => rfl
  | true => cases hmode : e.statbuf.mode <;> simp [special, hmode]

end Entry

/-! ### The counts of a scan -/

section Scan

variable (args : FilesArgs)

/-- A counter to which the entries with a property add one, and the others nothing. -/
lemma counter_sum (f : FilesTypes → ℤ) (hzero : f 0 = 0) (hadd : ∀ a b, f (a + b) = f a + f b)
    (p : Entry → Bool) (entries : List Entry)
    (hp : ∀ e ∈ entries, f (e.counts args) = if p e then 1 else 0) :
    f (entries.map (Entry.counts args)).sum = entries.countP p := by
  induction entries with
  | nil => simpa using hzero
  | cons e entries ih =>
    obtain ⟨he, hentries⟩ := List.forall_mem_cons.1 hp
    rw [List.map_cons, List.sum_cons, hadd, he, ih hentries, List.countP_cons]
    split_ifs <;> simp [add_comm]

/-- The entries that a scan of the directory can meet. -/
def entriesBelow (nodes : List Node) : List Entry :=
  walkNodes (args.has filesRecursive) [] nodes

lemma filesFilecount_entries (nodes : List Node) (filecount : Option FilesTypes) :
    filesFilecount args (some nodes) filecount = (0, some (filesDataInit filecount
      + ((entriesBelow args nodes).map (Entry.counts args)).sum)) := by
  rw [filesFilecount, filesScan_eq [] (.inr (by simp)) nodes]
  rfl

end Scan

/-! ### The total -/

/-- Two listings of one directory tree: each directory lists its entries in any order. -/
inductive Reordered : List Node → List Node → Prop
  | nil : Reordered [] []
  | cons {nodes nodes' : List Node} (node : Node) (h : Reordered nodes nodes') :
      Reordered (node :: nodes) (node :: nodes')
  | inside {nodes nodes' listing listing' : List Node} (name : CString) (statbuf : Stat)
      (hlisting : Reordered listing listing') (h : Reordered nodes nodes') :
      Reordered (.mk name statbuf (some listing) :: nodes)
        (.mk name statbuf (some listing') :: nodes')
  | swap (node node' : Node) (nodes : List Node) :
      Reordered (node :: node' :: nodes) (node' :: node :: nodes)
  | trans {nodes nodes' nodes'' : List Node} (h : Reordered nodes nodes')
      (h' : Reordered nodes' nodes'') : Reordered nodes nodes''

lemma Reordered.perm_walkNodes {nodes nodes' : List Node} (h : Reordered nodes nodes')
    (recursive : Bool) (ancestors : List CString) :
    (walkNodes recursive ancestors nodes).Perm (walkNodes recursive ancestors nodes') := by
  induction h generalizing ancestors with
  | nil => exact .refl _
  | cons node _ ih =>
    rw [walkNodes, walkNodes]
    exact (ih ancestors).append_left _
  | inside name statbuf _ _ ihlisting ih =>
    rw [walkNodes, walkNodes]
    refine List.Perm.append ?_ (ih ancestors)
    rw [walkNode, walkNode]
    split_ifs
    · exact .refl _
    · rw [walk, walk]
      exact (ihlisting (name :: ancestors)).cons _
    · exact .refl _
  | swap node node' nodes =>
    simp only [walkNodes, ← List.append_assoc]
    exact List.perm_append_comm.append_right _
  | trans _ _ ih ih' => exact (ih ancestors).trans (ih' ancestors)

/-- Without `FILES_IGNORE_UNKNOWN` the total grows by the number of selected entries, and no
counter depends on the order in which directories are listed. -/
theorem filesFilecount_selected (args : FilesArgs) (hunknown : ¬ args.has filesIgnoreUnknown)
    (dir : Option (List Node)) (filecount : Option FilesTypes) :
    (filesFilecount args dir filecount = (-1, filecount) ↔ dir = none) ∧
    ∀ nodes, dir = some nodes →
      (∃ fc, filesFilecount args dir filecount = (0, some fc) ∧
        fc.total = (filesDataInit filecount).total
          + (entriesBelow args nodes).countP (Entry.selected args)) ∧
      ∀ nodes', Reordered nodes nodes' →
        filesFilecount args (some nodes') filecount = filesFilecount args dir filecount := by
  constructor
  · cases dir with
    | none => simp [filesFilecount]
    | some nodes => simp [filesFilecount]
  · rintro nodes rfl
    refine ⟨⟨_, filesFilecount_entries args nodes filecount, ?_⟩, ?_⟩
    · rw [FilesTypes.add_total]
      congr 1
      apply counter_sum args FilesTypes.total rfl (fun _ _ => rfl) _ _
      intro e _
      rw [Entry.counts_total, Entry.included]
      simp [hunknown]
    · intro nodes' h
      have hperm := (h.perm_walkNodes (args.has filesRecursive) []).map (Entry.counts args)
      rw [filesFilecount_entries, filesFilecount_entries]
      exact congrArg (fun sum => (0, some (filesDataInit filecount + sum))) hperm.sum_eq.symm

/-- A log and a hidden one, a recent log, and a directory with a log and a short one. -/
def logTree : List Node :=
  [.mk (ascii "a.log") ⟨.ifreg, 10, 100⟩ none, .mk (ascii ".b.log") ⟨.ifreg, 20, 100⟩ none,
    .mk (ascii "c.log") ⟨.ifreg, 990, 100⟩ none,
    .mk (ascii "old") ⟨.ifdir, 0, 0⟩ (some [.mk (ascii "notes") ⟨.ifreg, 0, 100⟩ none,
      .mk (ascii "d.log") ⟨.ifreg, 30, 100⟩ none, .mk (ascii "e.log") ⟨.ifreg, 30, 64⟩ none])]

/-- Logs at any depth and hidden ones too, of more than 64 bytes and more than a minute old. -/
def logArgs : FilesArgs where
  flags := filesRecursive ||| filesIncludeHidden ||| filesIgnoreSymlinks
  age := 60
  size := 64
  pattern := some (ascii "*.log")
  now := 1000
  fnmatch pattern name := pattern.tail.isSuffixOf name

theorem filesFilecount_logTree :
    (∃ fc, filesFilecount logArgs (some logTree) none = (0, some fc) ∧ fc.total = 3) ∧
    filesFilecount logArgs (some (logTree.take 2).reverse) none
      = filesFilecount logArgs (some (logTree.take 2)) none := by
  have h := filesFilecount_selected logArgs (by decide) (some logTree) none
  obtain ⟨⟨fc, hfc, htotal⟩, -⟩ := h.2 logTree rfl
  refine ⟨⟨fc, hfc, ?_⟩, ?_⟩
  · rw [htotal]
    decide
  · have h := filesFilecount_selected logArgs (by decide) (some (logTree.take 2)) none
    exact (h.2 _ rfl).2 _ (.swap _ _ [])

/-! ### The partition -/

/-- The counters of a fresh `*filecount` afterwards: each kind has the number of its entries that
are included in the total, nothing is unknown, and the kinds make up the total. -/
def Partitioned (args : FilesArgs) (nodes : List Node) : Prop :=
  ∃ fc, filesFilecount args (some nodes) none = (0, some fc) ∧
    fc.directory = (entriesBelow args nodes).countP
      (fun e => e.included args && e.statbuf.mode = .ifdir) ∧
    fc.regularFile = (entriesBelow args nodes).countP
      (fun e => e.included args && e.statbuf.mode = .ifreg) ∧
    fc.specialFile = (entriesBelow args nodes).countP
      (fun e => e.included args && e.special) ∧
    fc.symlink = (entriesBelow args nodes).countP
      (fun e => e.included args && e.statbuf.mode = .iflnk) ∧
    fc.unknown = 0 ∧
    fc.total = fc.directory + fc.regularFile + fc.specialFile + fc.symlink + fc.unknown

/-- The counters partition the total exactly if, among the visible entries with a matching name,
a directory is only met by a scan that descends or counts regular files only, and a special file
only by one that does not count regular files only. -/
theorem partitioned_iff (args : FilesArgs) (nodes : List Node) :
    Partitioned args nodes ↔ ∀ e ∈ entriesBelow args nodes, e.candidate args →
      (e.statbuf.mode = .ifdir → args.has filesRecursive ∨ args.has filesRegularOnly) ∧
      (e.special → ¬ args.has filesRegularOnly) := by
  have hrun := filesFilecount_entries args nodes none
  have hzero : filesDataInit none = 0 := rfl
  rw [hzero, zero_add] at hrun
  simp only [← Entry.misfit_eq_false_iff]
  constructor
  · rintro ⟨fc, hfc, -, -, hspecial, -, hunknown, -⟩
    rw [hrun] at hfc
    cases hfc
    have hunknowns := counter_sum args FilesTypes.unknown rfl (fun _ _ => rfl) _
      (entriesBelow args nodes) fun e _ => e.counts_unknown args
    have hspecials := counter_sum args FilesTypes.specialFile rfl (fun _ _ => rfl) _
      (entriesBelow args nodes) fun e _ => e.counts_specialFile args
    rw [hunknown] at hunknowns
    rw [hspecial, Nat.cast_inj] at hspecials
    have hnone : ∀ e ∈ entriesBelow args nodes, ¬ e.countedUnknown args :=
      List.countP_eq_zero.1 (Nat.cast_eq_zero.1 hunknowns.symm)
    have hcandidate : ∀ e : Entry, e.included args && e.special →
        e.candidate args && e.special := by
      intro e h
      simp only [Entry.included, Entry.selected, Bool.and_eq_true] at h ⊢
      exact ⟨h.1.1.1, h.2⟩
    have hincluded := List.forall_of_countP_le hcandidate hspecials.ge
    intro e he
    rw [Entry.misfit, Bool.or_eq_false_iff]
    refine ⟨by simpa using hnone e he, ?_⟩
    cases h : e.candidate args && e.special with
    | false => rfl
    | true =>
      have := hincluded e he h
      simp only [Bool.and_eq_true] at this
      simp [this.1]
  · intro hfits
    have hcounts := fun e he => Entry.counts_of_fits args e (hfits e he)
    refine ⟨_, hrun, ?_, ?_, ?_, ?_, ?_, ?_⟩
    · exact counter_sum args _ rfl (fun _ _ => rfl) _ _ fun e he => (hcounts e he).1
    · exact counter_sum args _ rfl (fun _ _ => rfl) _ _ fun e he => (hcounts e he).2.1
    · exact counter_sum args _ rfl (fun _ _ => rfl) _ _ fun e he => (hcounts e he).2.2.1
    · exact counter_sum args _ rfl (fun _ _ => rfl) _ _ fun e he => (hcounts e he).2.2.2.1
    · have h := counter_sum args FilesTypes.unknown rfl (fun _ _ => rfl) (fun _ => false)
        (entriesBelow args nodes) fun e he => (hcounts e he).2.2.2.2
      rwa [List.countP_false] at h
    · have htotal := counter_sum args FilesTypes.total rfl (fun _ _ => rfl) _
        (entriesBelow args nodes) fun e _ => e.counts_total args
      have hsum := counter_sum args (fun fc => fc.directory + fc.regularFile + fc.specialFile
          + fc.symlink + fc.unknown) rfl ?_ _ (entriesBelow args nodes)
        fun e he => e.counts_sum_of_fits args (hfits e he)
      · rw [htotal, hsum]
      · intro a b
        simp only [FilesTypes.add_directory, FilesTypes.add_regularFile,
          FilesTypes.add_specialFile, FilesTypes.add_symlink, FilesTypes.add_unknown]
        ring

/-- A regular file and a directory with another one. -/
def smallTree : List Node :=
  let file : Stat := ⟨.ifreg, 0, 1⟩
  [.mk (ascii "x") file none, .mk (ascii "a") ⟨.ifdir, 0, 0⟩ (some [.mk (ascii "1") file none])]

/-- `FILES_DEFAULT`, and neither age nor size nor pattern. -/
def defaultArgs : FilesArgs where
  flags := 0
  age := 0
  size := 0
  pattern := none
  now := 0
  fnmatch _ _ := false

/-- A flat scan counts the directory as unknown. -/
theorem smallTree_not_partitioned : ¬ Partitioned defaultArgs smallTree := by
  rintro ⟨fc, hfc, -, -, -, -, hunknown, -⟩
  have hrun : filesFilecount defaultArgs (some smallTree) none
      = (0, some ⟨0, 0, 0, 0, 1, 2, 1⟩) := by decide
  rw [hrun] at hfc
  cases hfc
  exact absurd hunknown (by decide)

end NagiosPlugins
