import Mathlib.Algebra.BigOperators.Group.List.Basic
import NagiosPlugins.Files.Basic

/-!
# The entries of a directory tree

A walk lists the entries that a scan can meet, each with the names of the directories on its way
from the root. What an entry adds to the counters depends on nothing but the entry, so a scan
adds up the counts of its walk.
-/

namespace NagiosPlugins

open Libc

/-! ### Counters add up -/

namespace FilesTypes

instance : Add FilesTypes where
  add a b := ⟨a.directory + b.directory, a.hidden + b.hidden, a.specialFile + b.specialFile,
    a.symlink + b.symlink, a.regularFile + b.regularFile, a.total + b.total,
    a.unknown + b.unknown⟩

variable (a b c : FilesTypes)

@[simp] lemma add_directory : (a + b).directory = a.directory + b.directory := rfl
@[simp] lemma add_hidden : (a + b).hidden = a.hidden + b.hidden := rfl
@[simp] lemma add_specialFile : (a + b).specialFile = a.specialFile + b.specialFile := rfl
@[simp] lemma add_symlink : (a + b).symlink = a.symlink + b.symlink := rfl
@[simp] lemma add_regularFile : (a + b).regularFile = a.regularFile + b.regularFile := rfl
@[simp] lemma add_total : (a + b).total = a.total + b.total := rfl
@[simp] lemma add_unknown : (a + b).unknown = a.unknown + b.unknown := rfl

@[simp] lemma zero_directory : (0 : FilesTypes).directory = 0 := rfl
@[simp] lemma zero_hidden : (0 : FilesTypes).hidden = 0 := rfl
@[simp] lemma zero_specialFile : (0 : FilesTypes).specialFile = 0 := rfl
@[simp] lemma zero_symlink : (0 : FilesTypes).symlink = 0 := rfl
@[simp] lemma zero_regularFile : (0 : FilesTypes).regularFile = 0 := rfl
@[simp] lemma zero_total : (0 : FilesTypes).total = 0 := rfl
@[simp] lemma zero_unknown : (0 : FilesTypes).unknown = 0 := rfl

instance : AddCommMonoid FilesTypes where
  add_assoc a b c := by ext <;> simp [add_assoc]
  zero_add a := by ext <;> simp
  add_zero a := by ext <;> simp
  add_comm a b := by ext <;> simp [add_comm]
  nsmul := nsmulRec

end FilesTypes

/-! ### Entries -/

/-- An entry below the root; `ancestors` are the directories between the two, innermost first. -/
structure Entry where
  ancestors : List CString
  name : CString
  statbuf : Stat

mutual

/-- The entries of a directory that can be opened and, if asked for, those below it. -/
def walk (recursive : Bool) (ancestors : List CString) (dir : Option (List Node)) :
    List Entry :=
  match dir with
  | none => []
  | some nodes => walkNodes recursive ancestors nodes

def walkNodes (recursive : Bool) (ancestors : List CString) (nodes : List Node) : List Entry :=
  match nodes with
  | [] => []
  | node :: nodes => walkNode recursive ancestors node ++ walkNodes recursive ancestors nodes

def walkNode (recursive : Bool) (ancestors : List CString) (node : Node) : List Entry :=
  match node with
  | .mk name statbuf listing =>
    if name = ascii "." ∨ name = ascii ".." then []
    else ⟨ancestors, name, statbuf⟩ ::
      if statbuf.mode = .ifdir ∧ recursive then walk recursive (name :: ancestors) listing
      else []

end

/-- No name on a way is hidden, or hidden ones are included. -/
def VisibleWay (args : FilesArgs) (way : List CString) : Prop :=
  args.has filesIncludeHidden ∨ ∀ a ∈ way, filesIsHidden a = false

instance (args : FilesArgs) (way : List CString) : Decidable (VisibleWay args way) :=
  inferInstanceAs (Decidable (_ ∨ _))

namespace Entry

variable (args : FilesArgs) (e : Entry)

/-- Neither the entry nor a directory on the way to it is hidden, or hidden ones are included. -/
def visible : Bool := VisibleWay args (e.name :: e.ancestors)

/-- A visible entry whose name matches the pattern. -/
def candidate : Bool := e.visible args && filesFilematch args e.name

/-- The test that is made for the type of the entry. -/
def kindSelected : Bool :=
  match e.statbuf.mode with
  | .ifreg => filesCheckAge args e.statbuf.mtime && filesCheckSize args e.statbuf.size
  | .iflnk => ¬ args.has filesIgnoreSymlinks ∧ ¬ args.has filesRegularOnly
  | .ifblk | .ifchr | .ififo | .ifsock | .ifdir => ¬ args.has filesRegularOnly

/-- The entries to be counted. -/
def selected : Bool := e.candidate args && e.kindSelected args

/-- What the entry adds to the counters. -/
def counts : FilesTypes :=
  if e.visible args then
    if e.statbuf.mode = .ifdir ∧ args.has filesRecursive then
      filesCountDirectory args (filesIsHidden e.name) e.name 0
    else if e.statbuf.mode = .ifdir ∧ args.has filesRegularOnly then 0
    else filesCountEntry args (filesIsHidden e.name) e.name e.statbuf 0
  else 0

end Entry

/-! ### A scan adds up the counts of its walk -/

variable (args : FilesArgs)

lemma filesCountDirectory_add (isHidden : Bool) (name : CString) (fc : FilesTypes) :
    filesCountDirectory args isHidden name fc
      = fc + filesCountDirectory args isHidden name 0 := by
  simp only [filesCountDirectory]
  split_ifs <;> ext <;> simp

lemma filesSwitch_add (isHidden : Bool) (statbuf : Stat) (fc : FilesTypes) :
    filesSwitch args isHidden statbuf fc
      = (fc + (filesSwitch args isHidden statbuf 0).1,
        (filesSwitch args isHidden statbuf 0).2) := by
  simp only [filesSwitch]
  cases statbuf.mode with
  | iflnk =>
    simp only
    split_ifs <;> refine Prod.ext ?_ rfl <;> ext <;> simp
  | ifreg =>
    simp only
    split_ifs <;> refine Prod.ext ?_ rfl <;> ext <;> simp
  | ifblk | ifchr | ififo | ifsock | ifdir =>
    refine Prod.ext ?_ rfl
    ext <;> simp

lemma filesCountEntry_add (isHidden : Bool) (name : CString) (statbuf : Stat)
    (fc : FilesTypes) :
    filesCountEntry args isHidden name statbuf fc
      = fc + filesCountEntry args isHidden name statbuf 0 := by
  unfold filesCountEntry
  rw [filesSwitch_add args isHidden statbuf fc]
  split_ifs
  · rw [add_zero]
  · simp only
    split_ifs
    · rfl
    · ext <;> simp [add_assoc]

mutual

/-- The way to an entry starts with the way to the directory it is listed in. -/
lemma ancestors_of_mem_walk {recursive : Bool} {ancestors : List CString} {e : Entry}
    (dir : Option (List Node)) (h : e ∈ walk recursive ancestors dir) :
    ancestors ⊆ e.ancestors := by
  match dir with
  | none => simp [walk] at h
  | some nodes =>
    rw [walk] at h
    exact ancestors_of_mem_walkNodes nodes h

lemma ancestors_of_mem_walkNodes {recursive : Bool} {ancestors : List CString} {e : Entry}
    (nodes : List Node) (h : e ∈ walkNodes recursive ancestors nodes) :
    ancestors ⊆ e.ancestors := by
  match nodes with
  | [] => simp [walkNodes] at h
  | node :: nodes =>
    rw [walkNodes, List.mem_append] at h
    rcases h with h | h
    · exact ancestors_of_mem_walkNode node h
    · exact ancestors_of_mem_walkNodes nodes h

lemma ancestors_of_mem_walkNode {recursive : Bool} {ancestors : List CString} {e : Entry}
    (node : Node) (h : e ∈ walkNode recursive ancestors node) :
    ancestors ⊆ e.ancestors := by
  match node with
  | .mk name statbuf listing =>
    rw [walkNode] at h
    split_ifs at h
    · simp at h
    · rcases List.mem_cons.1 h with rfl | h
      · exact List.Subset.refl _
      · intro a ha
        exact ancestors_of_mem_walk listing h (List.mem_cons_of_mem name ha)
    · rw [List.mem_singleton] at h
      rw [h]
      exact List.Subset.refl _

end

/-- Neither a hidden entry nor one below a hidden directory counts, unless hidden ones are
included. -/
lemma counts_eq_zero_of_hidden (hinclude : ¬ args.has filesIncludeHidden) {e : Entry}
    {a : CString} (ha : a ∈ e.name :: e.ancestors) (hhidden : filesIsHidden a = true) :
    e.counts args = 0 := by
  have hvisible : e.visible args = false := by
    apply decide_eq_false
    rintro (h | hway)
    · exact hinclude h
    · simp [hway a ha] at hhidden
  simp [Entry.counts, hvisible]

lemma VisibleWay.cons {way : List CString} (hway : VisibleWay args way) {name : CString}
    (hname : ¬ (¬ args.has filesIncludeHidden ∧ filesIsHidden name)) :
    VisibleWay args (name :: way) := by
  rcases hway with hinclude | hway
  · exact .inl hinclude
  by_cases hinclude : args.has filesIncludeHidden
  · exact .inl hinclude
  · refine .inr (List.forall_mem_cons.2 ⟨?_, hway⟩)
    rw [← Bool.not_eq_true]
    intro hhidden
    exact hname ⟨hinclude, hhidden⟩

variable {args}

mutual

/-- `files_filecount` on a directory that can be opened. -/
theorem filesFilecount_some (ancestors : List CString) (hway : VisibleWay args ancestors)
    (dir : Option (List Node)) (fc : FilesTypes) :
    (filesFilecount args dir (some fc)).2
      = some (fc + ((walk (args.has filesRecursive) ancestors dir).map
          (Entry.counts args)).sum) := by
  match dir with
  | none => simp [filesFilecount, walk]
  | some nodes =>
    rw [filesFilecount, walk]
    exact congrArg some (filesScan_eq ancestors hway nodes fc)

theorem filesScan_eq (ancestors : List CString) (hway : VisibleWay args ancestors)
    (nodes : List Node) (fc : FilesTypes) :
    filesScan args nodes fc = fc + ((walkNodes (args.has filesRecursive) ancestors nodes).map
      (Entry.counts args)).sum := by
  match nodes with
  | [] => simp [filesScan, walkNodes]
  | node :: nodes =>
    rw [filesScan, walkNodes, List.map_append, List.sum_append, ← add_assoc,
      ← filesEntry_eq ancestors hway node fc]
    exact filesScan_eq ancestors hway nodes _

theorem filesEntry_eq (ancestors : List CString) (hway : VisibleWay args ancestors)
    (node : Node) (fc : FilesTypes) :
    filesEntry args node fc = fc + ((walkNode (args.has filesRecursive) ancestors node).map
      (Entry.counts args)).sum := by
  match node with
  | .mk name statbuf listing =>
    rw [filesEntry, walkNode]
    by_cases hdots : name = ascii "." ∨ name = ascii ".."
    · rw [if_pos hdots, if_pos hdots, List.map_nil, List.sum_nil, add_zero]
    rw [if_neg hdots, if_neg hdots, List.map_cons, List.sum_cons]
    by_cases hhidden : ¬ args.has filesIncludeHidden ∧ filesIsHidden name
    · -- the entry is skipped, and with it everything below it
      obtain ⟨hinclude, hname⟩ := hhidden
      have hentry : Entry.counts args ⟨ancestors, name, statbuf⟩ = 0 :=
        counts_eq_zero_of_hidden args hinclude List.mem_cons_self hname
      have hbelow : ∀ e ∈ walk (args.has filesRecursive) (name :: ancestors) listing,
          e.counts args = 0 := by
        intro e he
        have hmem : name ∈ e.ancestors := ancestors_of_mem_walk listing he List.mem_cons_self
        exact counts_eq_zero_of_hidden args hinclude (List.mem_cons_of_mem _ hmem) hname
      rw [if_pos ⟨hinclude, hname⟩, hentry, zero_add]
      split_ifs with hdescend
      · rw [List.sum_eq_zero (by simpa using hbelow), add_zero]
      · rw [List.map_nil, List.sum_nil, add_zero]
    · have hway' : VisibleWay args (name :: ancestors) := hway.cons args hhidden
      have hvisible : Entry.visible args ⟨ancestors, name, statbuf⟩ = true := decide_eq_true hway'
      rw [if_neg hhidden, Entry.counts, if_pos hvisible]
      by_cases hdescend : statbuf.mode = .ifdir ∧ args.has filesRecursive
      · have hrecursive : statbuf.mode = .ifdir ∧ decide (args.has filesRecursive) = true :=
          ⟨hdescend.1, decide_eq_true hdescend.2⟩
        simp only [if_pos hdescend, if_pos hrecursive]
        rw [filesFilecount_some (name :: ancestors) hway' listing, Option.getD_some,
          filesCountDirectory_add, add_assoc]
      · have hrecursive : ¬ (statbuf.mode = .ifdir ∧ decide (args.has filesRecursive) = true) :=
          fun h => hdescend ⟨h.1, of_decide_eq_true h.2⟩
        rw [if_neg hdescend, if_neg hdescend, if_neg hrecursive, List.map_nil, List.sum_nil,
          add_zero]
        split_ifs
        · rw [add_zero]
        · exact filesCountEntry_add args _ _ _ _

end

end NagiosPlugins
