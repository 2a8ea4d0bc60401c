import NagiosPlugins.Vminfo.Scan

/-!
# Paging and swapping

Four counters that `/proc/vmstat` need not have. Those of a pair whose first counter is missing are
looked for in `/proc/stat`, in a loop that ends when both pairs are found and stores each number it
comes across until then.
-/

namespace NagiosPlugins

open Libc

/-- The lines of `/proc/stat` that count pages. -/
inductive StatKind where
  | page
  | swap
  deriving DecidableEq, Repr

namespace StatKind

def word : StatKind → CString
  | .page => ascii "page"
  | .swap => ascii "swap"

/-- The name in `/proc/vmstat` that decides whether a pair of counters is there. -/
def firstName : StatKind → CString
  | .page => ascii "pgpgin"
  | .swap => ascii "pswpin"

def numbers (kind : StatKind) (line : CString) : List UInt64 := sscanfTwo kind.word line

/-- The line has both numbers. -/
def complete (kind : StatKind) (line : CString) : Bool := (kind.numbers line).length = 2

/-- A line of the one kind is none of the other. -/
lemma numbers_swap_eq_nil {line : CString} (h : page.numbers line ≠ []) :
    swap.numbers line = [] := by
  rw [numbers, sscanfTwo] at h ⊢
  split_ifs at h with hword
  · exact absurd rfl h
  · have hne : line.take 4 ≠ ascii "swap" := by
      have htake : line.take 4 = ascii "page" := not_not.1 hword
      rw [htake]
      decide
    exact if_pos hne

end StatKind

/-- A counter of pages: its name in `/proc/vmstat`, and its place in the lines of `/proc/stat`. -/
structure PageCounter where
  name : CString
  slot : VmField
  kind : StatKind
  place : ℕ

def pageCounters : List PageCounter := [
  ⟨ascii "pgpgin", .pgpgin, .page, 0⟩,
  ⟨ascii "pgpgout", .pgpgout, .page, 1⟩,
  ⟨ascii "pswpin", .pswpin, .swap, 0⟩,
  ⟨ascii "pswpout", .pswpout, .swap, 1⟩]

/-- The number that a line has for a counter. -/
def PageCounter.number (c : PageCounter) (line : CString) : Option UInt64 :=
  (c.kind.numbers line)[c.place]?

/-! ### The lines that are read -/

/-- What is found with one more line. -/
def foundWith (found : StatKind → Bool) (line : CString) (kind : StatKind) : Bool :=
  found kind || kind.complete line

/-- The lines up to the one with which both pairs are found. -/
def linesRead : (StatKind → Bool) → List CString → List CString
  | _, [] => []
  | found, line :: lines =>
    if found .page && found .swap then []
    else line :: linesRead (foundWith found line) lines

lemma linesRead_of_found {found : StatKind → Bool} (h : (found .page && found .swap) = true)
    (lines : List CString) : linesRead found lines = [] := by
  cases lines with
  | nil => rfl
  | cons line lines => exact if_pos h

lemma linesRead_subset (found : StatKind → Bool) (lines : List CString) :
    linesRead found lines ⊆ lines := by
  induction lines generalizing found with
  | nil => exact List.Subset.refl _
  | cons line lines ih =>
    rw [linesRead]
    split_ifs
    · exact List.nil_subset _
    · exact List.cons_subset_cons line (ih _)

lemma linesRead_cons {found : StatKind → Bool} (h : (found .page && found .swap) = false)
    (line : CString) (lines : List CString) :
    linesRead found (line :: lines) = line :: linesRead (foundWith found line) lines := by
  rw [linesRead, h]
  rfl

lemma or_any_cons (found : StatKind → Bool) (kind : StatKind) (line : CString)
    (lines : List CString) :
    (found kind || (line :: lines).any kind.complete)
      = (foundWith found line kind || lines.any kind.complete) := by
  rw [List.any_cons, foundWith, Bool.or_assoc]

lemma assignTwo_eq {a b : VmField} (hne : a ≠ b) (values : List UInt64) (data : ProcVmemData) :
    assignTwo a b values data a = (values[0]?).getD (data a) ∧
      assignTwo a b values data b = (values[1]?).getD (data b) := by
  match values with
  | [] => exact ⟨rfl, rfl⟩
  | [x] => exact ⟨Function.update_self .., Function.update_of_ne hne.symm _ _⟩
  | x :: y :: _ =>
    refine ⟨?_, Function.update_self ..⟩
    rw [assignTwo, Function.update_of_ne hne, Function.update_self]
    rfl

/-- What the numbers of one line do to the counters. -/
def assignLine (line : CString) (data : ProcVmemData) : ProcVmemData :=
  assignTwo .pswpin .pswpout (StatKind.swap.numbers line)
    (assignTwo .pgpgin .pgpgout (StatKind.page.numbers line) data)

/-- A line is looked at as one of swaps unless it is a complete one of pages; it cannot be both. -/
lemma statLine_eq (line : CString) (foundPgpg foundPswp : Bool) (data : ProcVmemData) :
    statLine line foundPgpg foundPswp data = (foundPgpg || StatKind.page.complete line,
      foundPswp || StatKind.swap.complete line, assignLine line data) := by
  have hstep : statLine line foundPgpg foundPswp data
      = if (StatKind.page.numbers line).length = 2
        then (true, foundPswp, assignTwo .pgpgin .pgpgout (StatKind.page.numbers line) data)
        else if (StatKind.swap.numbers line).length = 2
          then (foundPgpg, true, assignLine line data)
          else (foundPgpg, foundPswp, assignLine line data) := rfl
  rw [hstep, StatKind.complete, StatKind.complete]
  split_ifs with hpages hswaps
  · have hne : StatKind.page.numbers line ≠ [] := by
      intro hnil
      rw [hnil] at hpages
      cases hpages
    rw [assignLine, StatKind.numbers_swap_eq_nil hne]
    simp [hpages, assignTwo]
  · simp [hpages, hswaps]
  · simp [hpages, hswaps]

/-- Each counter has the number of the line, if there is one. -/
lemma assignLine_slot (line : CString) (data : ProcVmemData) :
    ∀ c ∈ pageCounters, assignLine line data c.slot = (c.number line).getD (data c.slot) := by
  let paged := assignTwo .pgpgin .pgpgout (StatKind.page.numbers line) data
  have hpages : ChangesOnly [.pgpgin, .pgpgout] data paged := .assignTwo (by simp) (by simp) _
  have hswaps : ChangesOnly [.pswpin, .pswpout] paged (assignLine line data) :=
    .assignTwo (by simp) (by simp) _
  obtain ⟨hpgpgin, hpgpgout⟩ := assignTwo_eq (a := .pgpgin) (b := .pgpgout) (by simp)
    (StatKind.page.numbers line) data
  obtain ⟨hpswpin, hpswpout⟩ := assignTwo_eq (a := .pswpin) (b := .pswpout) (by simp)
    (StatKind.swap.numbers line) paged
  simp only [pageCounters, List.forall_mem_cons]
  refine ⟨?_, ?_, ?_, ?_, by simp⟩
  · exact (hswaps .pgpgin (by simp)).trans hpgpgin
  · exact (hswaps .pgpgout (by simp)).trans hpgpgout
  · rw [assignLine, hpswpin, hpages .pswpin (by simp)]
    rfl
  · rw [assignLine, hpswpout, hpages .pswpout (by simp)]
    rfl

/-- The loop finds what is found in the lines that it reads, and keeps the last number of each
counter. -/
lemma statLoop_eq {found : StatKind → Bool} (hfound : (found .page && found .swap) = false)
    (lines : List CString) (data : ProcVmemData) :
    ∃ data', statLoop lines (found .page) (found .swap) data
        = (found .page || (linesRead found lines).any StatKind.page.complete,
          found .swap || (linesRead found lines).any StatKind.swap.complete, data') ∧
      ∀ c ∈ pageCounters, data' c.slot
        = (Latch.last? c.number (linesRead found lines)).getD (data c.slot) := by
  induction lines generalizing found data with
  | nil =>
    refine ⟨data, ?_, fun _ _ => rfl⟩
    rw [statLoop, linesRead, List.any_nil, List.any_nil, Bool.or_false, Bool.or_false]
  | cons line lines ih =>
    have hlast : ∀ c ∈ pageCounters, ∀ P : List CString,
        (Latch.last? c.number (line :: P)).getD (data c.slot)
          = (Latch.last? c.number P).getD (assignLine line data c.slot) := by
      intro c hc P
      rw [Latch.getD_last?_cons, assignLine_slot line data c hc]
    have hstep : statLoop (line :: lines) (found .page) (found .swap) data
        = if foundWith found line .page && foundWith found line .swap
          then (foundWith found line .page, foundWith found line .swap, assignLine line data)
          else statLoop lines (foundWith found line .page) (foundWith found line .swap)
            (assignLine line data) := by
      rw [statLoop, statLine_eq]
      rfl
    rw [hstep, linesRead_cons hfound, or_any_cons, or_any_cons]
    by_cases hboth : (foundWith found line .page && foundWith found line .swap) = true
    · rw [if_pos hboth, linesRead_of_found hboth, List.any_nil, List.any_nil, Bool.or_false,
        Bool.or_false]
      exact ⟨_, rfl, fun c hc => (hlast c hc []).symm⟩
    · obtain ⟨data', hloop, hdata⟩ := ih (Bool.not_eq_true _ ▸ hboth) (assignLine line data)
      rw [if_neg hboth, hloop]
      exact ⟨data', rfl, fun c hc => (hdata c hc).trans (hlast c hc _).symm⟩

/-! ### A read -/

/-- What is found in `/proc/vmstat`. -/
def givenByVmstat (content : List UInt8) (kind : StatKind) : Bool :=
  (lastRow? (rows ' ' content) kind.firstName).getD (-1) ≠ -1

/-- The lines of `/proc/stat`; there are none if it cannot be opened. -/
def ProcFiles.statLines (files : ProcFiles) : List CString :=
  match files.stat with
  | none => []
  | some content => getlines content

/-- What is found in the end, in either of the files. -/
def foundInFiles (content : List UInt8) (lines : List CString) (kind : StatKind) : Bool :=
  givenByVmstat content kind
    || (linesRead (givenByVmstat content) lines).any kind.complete

/-- The last number for a counter in the lines that are read. -/
def statNumber? (content : List UInt8) (lines : List CString) (c : PageCounter) : Option UInt64 :=
  Latch.last? c.number (linesRead (givenByVmstat content) lines)

/-- The counters before `/proc/stat` is looked at. -/
lemma fillZones_slot (content : List UInt8) (data : ProcVmemData) :
    ∀ c ∈ pageCounters,
      fillZones ((rows ' ' content).foldl (storeRow vmemTable) (vmemReset data)) c.slot
        = (lastRow? (rows ' ' content) c.name).getD (-1) := by
  have htable : ∀ c ∈ pageCounters, (⟨c.name, c.slot⟩ : ProcTableStruct VmField) ∈ vmemTable := by
    decide +kernel
  have hfields : ∀ c ∈ pageCounters, c.slot ∉ lostFields ∧ c.slot ∉ zoneSums ∧
      vmemReset data c.slot = -1 := by
    simp [pageCounters, lostFields, zoneSums, vmemReset]
  intro c hc
  obtain ⟨hlost, hzones, hreset⟩ := hfields c hc
  rw [fillZones_changesOnly _ c.slot hzones, foldl_storeRow_vmemTable (htable c hc) hlost, hreset]

/-- A pair that is not found is set to 0. -/
lemma readProcStat_none (found : StatKind → Bool) (data : ProcVmemData) :
    ∀ c ∈ pageCounters, readProcStat none (found .page) (found .swap) data c.slot
      = if found c.kind then data c.slot else 0 := by
  simp only [pageCounters, List.forall_mem_cons, readProcStat]
  cases found .page <;> cases found .swap <;> simp [Function.update]

lemma readProcStat_eq (files : ProcFiles) (foundPgpg foundPswp : Bool) (data : ProcVmemData) :
    readProcStat files.stat foundPgpg foundPswp data
      = (let r := statLoop files.statLines foundPgpg foundPswp data
         readProcStat none r.1 r.2.1 r.2.2) := by
  rw [ProcFiles.statLines]
  cases files.stat <;> rfl

/-- A pair that is found in the end keeps its last numbers. -/
lemma readProcStat_slot {found : StatKind → Bool} (hfound : (found .page && found .swap) = false)
    (files : ProcFiles) (data : ProcVmemData) :
    ∀ c ∈ pageCounters, readProcStat files.stat (found .page) (found .swap) data c.slot
      = if found c.kind || (linesRead found files.statLines).any c.kind.complete
        then (Latch.last? c.number (linesRead found files.statLines)).getD (data c.slot)
        else 0 := by
  obtain ⟨data', hloop, hdata⟩ := statLoop_eq hfound files.statLines data
  intro c hc
  rw [readProcStat_eq, hloop, ← hdata c hc]
  exact readProcStat_none (fun kind =>
    found kind || (linesRead found files.statLines).any kind.complete) data' c hc

/-- A pair is found in `/proc/vmstat` if its first counter is not marked any more. -/
lemma givenByVmstat_eq {content : List UInt8} {stored : ProcVmemData}
    (hstored : ∀ c ∈ pageCounters, stored c.slot
      = (lastRow? (rows ' ' content) c.name).getD (-1)) :
    givenByVmstat content .page = decide (stored .pgpgin ≠ -1) ∧
      givenByVmstat content .swap = decide (stored .pswpin ≠ -1) := by
  rw [hstored ⟨ascii "pgpgin", .pgpgin, .page, 0⟩ (by simp [pageCounters]),
    hstored ⟨ascii "pswpin", .pswpin, .swap, 0⟩ (by simp [pageCounters])]
  exact ⟨rfl, rfl⟩

/-- The counters after a read. -/
lemma procVmemRead_slot {files : ProcFiles} {content : List UInt8}
    (hvmstat : files.vmstat = some content) (data : ProcVmemData) :
    ∃ data', procVmemRead files data = .ok data' ∧ ∀ c ∈ pageCounters,
      data' c.slot = if foundInFiles content files.statLines c.kind
        then (statNumber? content files.statLines c).getD
          ((lastRow? (rows ' ' content) c.name).getD (-1))
        else 0 := by
  obtain ⟨stored, heq⟩ : ∃ stored, stored
    = fillZones ((rows ' ' content).foldl (storeRow vmemTable) (vmemReset data)) := ⟨_, rfl⟩
  have hstored : ∀ c ∈ pageCounters, stored c.slot
      = (lastRow? (rows ' ' content) c.name).getD (-1) := heq ▸ fillZones_slot content data
  obtain ⟨hpage, hswap⟩ := givenByVmstat_eq hstored
  rw [procVmemRead, hvmstat, procparser_eq, Except.ok_bind]
  simp only
  rw [← heq]
  by_cases hboth : stored .pgpgin ≠ -1 ∧ stored .pswpin ≠ -1
  · -- the early return: no line is read
    have hgiven : ∀ kind, givenByVmstat content kind = true := by
      rintro (_ | _)
      · exact hpage.trans (decide_eq_true hboth.1)
      · exact hswap.trans (decide_eq_true hboth.2)
    have hread : linesRead (givenByVmstat content) files.statLines = [] :=
      linesRead_of_found (by rw [hgiven, hgiven]; rfl) _
    refine ⟨stored, if_pos hboth, ?_⟩
    intro c hc
    rw [foundInFiles, hgiven, Bool.true_or, if_pos rfl, statNumber?, hread]
    exact hstored c hc
  · have hgiven : (givenByVmstat content .page && givenByVmstat content .swap) = false := by
      rw [hpage, hswap, ← Bool.decide_and]
      exact decide_eq_false hboth
    have hfound : decide (stored .pgpgin = -1 ∧ stored .pswpin ≠ -1)
        = givenByVmstat content .swap := by
      rw [hswap, decide_eq_decide]
      exact ⟨fun h => h.2, fun h => ⟨by_contra fun hpgpgin => hboth ⟨hpgpgin, h⟩, h⟩⟩
    refine ⟨_, if_neg hboth, ?_⟩
    intro c hc
    rw [hfound, ← hpage, readProcStat_slot hgiven files stored c hc, hstored c hc]
    rfl

/-! ### Counters that are settled -/

/-- No counter holds the marker, unless one of the files has the number. Those that `/proc/vmstat`
has keep their numbers, and the others come from `/proc/stat` or are 0. -/
structure VmemSettled (content : List UInt8) (lines : List CString) (data : ProcVmemData) :
    Prop where
  marker : ∀ c ∈ pageCounters, data c.slot = -1 →
    (∃ row ∈ rows ' ' content, row.2 = -1) ∨ ∃ line ∈ lines, c.number line = some (-1)
  kept : ∀ c ∈ pageCounters, ∀ value, lastRow? (rows ' ' content) c.name = some value →
    data c.slot = value
  taken : ∀ c ∈ pageCounters, c.name ∉ (rows ' ' content).map Prod.fst →
    data c.slot = 0 ∨ ∃ line ∈ lines, c.number line = some (data c.slot)

/-- The lines of `/proc/stat` that are read have no other number for a counter that is already
there, and one for a counter that is missing while its pair is found. -/
def StatSettles (content : List UInt8) (lines : List CString) (c : PageCounter) : Prop :=
  match lastRow? (rows ' ' content) c.name with
  | some value =>
    if foundInFiles content lines c.kind then ∀ n ∈ statNumber? content lines c, n = value
    else value = 0
  | none =>
    foundInFiles content lines c.kind →
      statNumber? content lines c ≠ none ∨ ∃ line ∈ lines, c.number line = some (-1)

section Settled

variable {content : List UInt8} {lines : List CString} {c : PageCounter}

lemma exists_line_of_statNumber? {n : UInt64} (h : statNumber? content lines c = some n) :
    ∃ line ∈ lines, c.number line = some n := by
  obtain ⟨line, hline, hnumber⟩ := Latch.mem_of_last?_eq_some _ h
  exact ⟨line, linesRead_subset _ _ hline, hnumber⟩

/-- With the first counters of both pairs in `/proc/vmstat`, a counter is settled exactly if it has
a row there, or the marker itself in `/proc/stat`. -/
theorem statSettles_iff_of_firsts (hfirsts : ∀ kind, givenByVmstat content kind) :
    StatSettles content lines c ↔ c.name ∈ (rows ' ' content).map Prod.fst ∨
      ∃ line ∈ lines, c.number line = some (-1) := by
  have hread : linesRead (givenByVmstat content) lines = [] :=
    linesRead_of_found (by rw [hfirsts, hfirsts]; rfl) lines
  have hnumber : statNumber? content lines c = none := by rw [statNumber?, hread]; rfl
  have hfound : foundInFiles content lines c.kind = true := by
    rw [foundInFiles, hfirsts, Bool.true_or]
  rw [StatSettles, hnumber, hfound]
  cases hrow : lastRow? (rows ' ' content) c.name with
  | some value =>
    have hmem : c.name ∈ (rows ' ' content).map Prod.fst := by
      by_contra hnot
      rw [lastRow?_eq_none_iff.2 hnot] at hrow
      cases hrow
    simp [hmem]
  | none => simp [lastRow?_eq_none_iff.1 hrow]

variable {value : UInt64}
  (hvalue : value = if foundInFiles content lines c.kind
    then (statNumber? content lines c).getD ((lastRow? (rows ' ' content) c.name).getD (-1)) else 0)

include hvalue

/-- A counter that is there keeps its number. -/
lemma statSettles_iff_of_some {before : UInt64}
    (hrow : lastRow? (rows ' ' content) c.name = some before) :
    StatSettles content lines c ↔ value = before := by
  rw [hvalue, StatSettles, hrow]
  simp only [Option.getD_some]
  split_ifs
  · cases statNumber? content lines c with
    | none => simp
    | some n => simp
  · exact eq_comm

/-- A counter that is missing is taken from a line, or 0. -/
lemma statSettles_iff_of_none (hrow : lastRow? (rows ' ' content) c.name = none) :
    StatSettles content lines c ↔ value = 0 ∨ ∃ line ∈ lines, c.number line = some value := by
  rw [hvalue, StatSettles, hrow]
  simp only [Option.getD_none]
  split_ifs with hfound
  · cases hnumber : statNumber? content lines c with
    | none => simp [hfound]
    | some n => simpa using .inr (exists_line_of_statNumber? hnumber)
  · simp [hfound]

end Settled

/-- The counters are settled after a read exactly if `/proc/stat` settles each of them. -/
theorem vmemSettled_iff {files : ProcFiles} {content : List UInt8}
    (hvmstat : files.vmstat = some content) (data : ProcVmemData) :
    ∃ data', procVmemRead files data = .ok data' ∧
      (VmemSettled content files.statLines data'
        ↔ ∀ c ∈ pageCounters, StatSettles content files.statLines c) := by
  obtain ⟨data', hread, hslot⟩ := procVmemRead_slot hvmstat data
  refine ⟨data', hread, ?_⟩
  constructor
  · rintro ⟨-, hkept, htaken⟩ c hc
    cases hrow : lastRow? (rows ' ' content) c.name with
    | some before => exact (statSettles_iff_of_some (hslot c hc) hrow).2 (hkept c hc before hrow)
    | none =>
      exact (statSettles_iff_of_none (hslot c hc) hrow).2
        (htaken c hc (lastRow?_eq_none_iff.1 hrow))
  · intro h
    have hkept : ∀ c ∈ pageCounters, ∀ value,
        lastRow? (rows ' ' content) c.name = some value → data' c.slot = value :=
      fun c hc value hrow => (statSettles_iff_of_some (hslot c hc) hrow).1 (h c hc)
    have htaken : ∀ c ∈ pageCounters, c.name ∉ (rows ' ' content).map Prod.fst →
        data' c.slot = 0 ∨ ∃ line ∈ files.statLines, c.number line = some (data' c.slot) :=
      fun c hc hname =>
        (statSettles_iff_of_none (hslot c hc) (lastRow?_eq_none_iff.2 hname)).1 (h c hc)
    refine ⟨?_, hkept, htaken⟩
    intro c hc hmarker
    cases hrow : lastRow? (rows ' ' content) c.name with
    | some value =>
      refine .inl ⟨_, mem_of_lastRow?_eq_some hrow, ?_⟩
      exact (hkept c hc value hrow).symm.trans hmarker
    | none =>
      rcases htaken c hc (lastRow?_eq_none_iff.1 hrow) with hzero | hline
      · exact absurd (hzero.symm.trans hmarker) (by decide)
      · exact .inr (hmarker ▸ hline)

end NagiosPlugins
