import NagiosPlugins.Sysfs.Lines

/-!
# Attributes that are texts

`sysfsparser_cpufreq_get_string` of `lib/sysfsparser.c` takes the newline off a line that
`sysfsparser_getline` has already taken it off.
-/

namespace NagiosPlugins

open Libc

/-! ### The first line of a file -/

/-- The first line, without its newline, as a C string. -/
def firstLine (content : List UInt8) : CString := content.takeWhile fun c => c ≠ '\n' ∧ c ≠ 0

lemma firstLine_cons {c : UInt8} (hc : c ≠ '\n' ∧ c ≠ 0) (content : List UInt8) :
    firstLine (c :: content) = c :: firstLine content :=
  List.takeWhile_cons_of_pos (by simpa using hc)

lemma firstLine_cons_of_not {c : UInt8} (hc : ¬ (c ≠ '\n' ∧ c ≠ 0)) (content : List UInt8) :
    firstLine (c :: content) = [] :=
  List.takeWhile_cons_of_neg (by simpa using hc)

/-- There is no newline left to take off. -/
lemma getLast_firstLine_ne {content : List UInt8} (hne : firstLine content ≠ []) :
    (firstLine content).getLast hne ≠ '\n' := by
  have hlast := List.mem_takeWhile_imp (List.getLast_mem hne)
  rw [decide_eq_true_eq] at hlast
  exact hlast.1

lemma getlines_cons {c : UInt8} (hc : c ≠ '\n' ∧ c ≠ 0) (content : List UInt8) :
    getlines (c :: content)
      = match getlines content with
        | [] => [[c]]
        | l :: ls => (c :: l) :: ls := by
  rw [getlines, splitLines, if_neg hc.1, getlines]
  cases splitLines content with
  | nil => simp [hc.2]
  | cons l ls => simp [hc.2]

/-- What `getline` reads first is the line, with its newline if there is one in front of a NUL. -/
lemma getlines_eq_cons {content : List UInt8} (hne : content ≠ []) :
    ∃ ending lines, getlines content = (firstLine content ++ ending) :: lines ∧
      (ending = [] ∨ ending = [('\n' : UInt8)]) ∧
      (firstLine content ++ ending = [] ↔ content.head? = some 0) := by
  induction content with
  | nil => exact absurd rfl hne
  | cons c content ih =>
    by_cases hc : c ≠ '\n' ∧ c ≠ 0
    · rw [firstLine_cons hc, getlines_cons hc]
      rcases eq_or_ne content [] with rfl | hcontent
      · exact ⟨[], [], rfl, Or.inl rfl, by simp [hc.2]⟩
      · obtain ⟨ending, lines, hlines, hending, -⟩ := ih hcontent
        exact ⟨ending, lines, by rw [hlines]; rfl, hending, by simp [hc.2]⟩
    · rw [firstLine_cons_of_not hc]
      by_cases hnewline : c = '\n'
      · have hzero : ('\n' : UInt8) ≠ 0 := by decide
        subst hnewline
        exact ⟨[('\n' : UInt8)], getlines content, by simp [getlines, splitLines, hzero],
          Or.inr rfl, by simp [hzero]⟩
      · have hzero : c = 0 := by
          by_contra hzero
          exact hc ⟨hnewline, hzero⟩
        subst hzero
        refine ⟨[], (getlines (0 :: content)).tail, ?_, Or.inl rfl, by simp⟩
        rw [getlines, splitLines, if_neg hnewline]
        cases splitLines content <;> rfl

variable {sysfs : Sysfs} {filename : CString} {content : List UInt8}

/-- `sysfsparser_getline`, for every content of the file. -/
lemma sysfsparserGetline_content (hfile : sysfs.file filename = some content) :
    sysfsparserGetline sysfs filename
      = match content.head? with
        | none => .ok none
        | some c => if c = 0 then .error .outOfBounds else .ok (some (firstLine content)) := by
  rw [sysfsparserGetline, hfile]
  cases content with
  | nil => rfl
  | cons c content =>
    obtain ⟨ending, lines, hlines, hending, hempty⟩ := getlines_eq_cons (List.cons_ne_nil c content)
    have hzero : firstLine (c :: content) ++ ending = [] ↔ c = 0 := by
      rw [hempty, List.head?_cons, Option.some.injEq]
    simp only [hlines, List.head?_cons]
    by_cases hc : c = 0
    · rw [hzero.2 hc, if_pos hc]
      rfl
    · rw [if_neg hc]
      have hne := mt hzero.1 hc
      rcases hending with rfl | rfl
      · rw [List.append_nil] at hne ⊢
        have hlast := List.getLast?_eq_some_getLast hne
        simp only [hlast, if_neg (getLast_firstLine_ne hne)]
      · simp only [List.getLast?_concat, if_true, List.dropLast_concat]

/-! ### The attributes of a CPU -/

/-- `PATH_SYS_CPU`. -/
def pathSysCpu : String := "/sys/devices/system/cpu"

/-- `sysfsparser_devices_system_cpu_file_string`. -/
def sysfsparserDevicesSystemCpuFileString : List CString :=
  [ascii "scaling_driver", ascii "scaling_governor", ascii "scaling_available_governors",
    ascii "scaling_available_frequencies"]

/-- `PATH_SYS_CPU "/cpu%u/cpufreq/%s"`. -/
def cpufreqPath (cpunum : UInt32) (name : CString) : CString :=
  ascii pathSysCpu ++ ascii "/cpu" ++ decimal cpunum.toNat ++ ascii "/cpufreq/" ++ name

/-- `sysfsparser_cpufreq_get_string`; `none` is NULL. -/
def sysfsparserCpufreqGetString (sysfs : Sysfs) (cpunum : UInt32) (which : ℕ) :
    Except Stop (Option CString) :=
  match sysfsparserDevicesSystemCpuFileString[which]? with
  | none => .ok none
  | some name => do
    match ← sysfsparserGetline sysfs (cpufreqPath cpunum name) with
    | none => return none
    | some line =>
      match line.getLast? with
      -- the byte in front of an empty string
      | none => throw .outOfBounds
      | some c => return some (if c = '\n' then line.dropLast else line)

/-- The attribute `which` of a CPU holds this. -/
def HoldsAttribute (sysfs : Sysfs) (cpunum : UInt32) (which : ℕ) (content : List UInt8) : Prop :=
  ∃ name, sysfsparserDevicesSystemCpuFileString[which]? = some name ∧
    sysfs.file (cpufreqPath cpunum name) = some content

/-- What is returned is NULL or the first line, and no byte in front of a string is accessed. -/
def ReadsFirstLine (sysfs : Sysfs) (cpunum : UInt32) (which : ℕ) : Prop :=
  sysfsparserCpufreqGetString sysfs cpunum which = .ok none ∨
    ∃ content, HoldsAttribute sysfs cpunum which content ∧
      sysfsparserCpufreqGetString sysfs cpunum which = .ok (some (firstLine content))

lemma sysfsparserCpufreqGetString_content {cpunum : UInt32} {which : ℕ}
    (h : HoldsAttribute sysfs cpunum which content) :
    sysfsparserCpufreqGetString sysfs cpunum which
      = match content.head? with
        | none => .ok none
        | some c =>
          if c ≠ '\n' ∧ c ≠ 0 then .ok (some (firstLine content)) else .error .outOfBounds := by
  obtain ⟨name, hname, hfile⟩ := h
  rw [sysfsparserCpufreqGetString, hname]
  simp only [sysfsparserGetline_content hfile]
  cases content with
  | nil => rfl
  | cons c content =>
    simp only [List.head?_cons]
    by_cases hc : c ≠ '\n' ∧ c ≠ 0
    · have hne : firstLine (c :: content) ≠ [] := by
        rw [firstLine_cons hc]
        exact List.cons_ne_nil _ _
      simp only [if_neg hc.2, if_pos hc, Except.ok_bind, List.getLast?_eq_some_getLast hne,
        if_neg (getLast_firstLine_ne hne)]
      rfl
    · rw [if_neg hc, firstLine_cons_of_not hc]
      split_ifs <;> rfl

/-- A text is read without an access in front of it if and only if it is not empty. -/
theorem readsFirstLine_iff (sysfs : Sysfs) (cpunum : UInt32) (which : ℕ) :
    ReadsFirstLine sysfs cpunum which ↔
      ∀ content, HoldsAttribute sysfs cpunum which content →
        ∀ c ∈ content.head?, c ≠ '\n' ∧ c ≠ 0 := by
  constructor
  · intro h content hcontent c hc
    have hrun := sysfsparserCpufreqGetString_content hcontent
    rw [Option.mem_def.1 hc] at hrun
    by_contra hnot
    simp only [if_neg hnot] at hrun
    rcases h with hnull | ⟨content', -, hline⟩
    · rw [hnull] at hrun
      cases hrun
    · rw [hline] at hrun
      cases hrun
  · intro h
    cases hname : sysfsparserDevicesSystemCpuFileString[which]? with
    | none =>
      left
      rw [sysfsparserCpufreqGetString, hname]
    | some name =>
      cases hfile : sysfs.file (cpufreqPath cpunum name) with
      | none =>
        left
        rw [sysfsparserCpufreqGetString, hname]
        simp only [sysfsparserGetline, hfile]
        rfl
      | some content =>
        have hcontent : HoldsAttribute sysfs cpunum which content := ⟨name, hname, hfile⟩
        have hrun := sysfsparserCpufreqGetString_content hcontent
        cases content with
        | nil => exact Or.inl hrun
        | cons c content =>
          have hc := h _ hcontent c rfl
          rw [List.head?_cons] at hrun
          simp only [if_pos hc] at hrun
          exact Or.inr ⟨_, hcontent, hrun⟩

/-- A governor that is an empty line. -/
theorem emptyLine_not_readsFirstLine :
    ¬ ReadsFirstLine ⟨fun _ => some (ascii "\n"), false, none⟩ 0 1 := by
  have hrun : sysfsparserCpufreqGetString ⟨fun _ => some (ascii "\n"), false, none⟩ 0 1
      = .error .outOfBounds := by decide +kernel
  rintro (hnull | ⟨content, -, hline⟩)
  · rw [hrun] at hnull
    cases hnull
  · rw [hrun] at hline
    cases hline

end NagiosPlugins
