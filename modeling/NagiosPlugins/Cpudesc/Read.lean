import NagiosPlugins.Cpudesc.Basic
import NagiosPlugins.Data.Words

/-!
# The description of a CPU

`cpu_desc_read` of `lib/cpudesc.c` as a whole. A flag is searched for with a blank on both sides of
it. There is no room for the blank behind the last flag.
-/

namespace Libc

/-- The suffix that starts at the first `needle`. -/
def strstr : CString → CString → Option CString
  | [], needle => if needle = [] then some [] else none
  | c :: s, needle => if hasPrefix (c :: s) needle then some (c :: s) else strstr s needle

lemma strstr_isSome_iff {s needle : CString} : (strstr s needle).isSome ↔ needle <:+: s := by
  induction s with
  | nil =>
    rw [strstr, List.infix_nil]
    split_ifs with h <;> simp [h]
  | cons c s ih =>
    rw [strstr, List.infix_cons_iff, ← ih, ← hasPrefix_iff]
    split_ifs with h <;> simp [h]

end Libc

namespace NagiosPlugins

open Libc

/-! ### Reading the description -/

def mode32bit : UInt32 := (1 : UInt32) <<< 1

def mode64bit : UInt32 := (1 : UInt32) <<< 2

/-- `struct cpu_desc`, without the reference count. -/
structure CpuDesc where
  arch : Option CString
  texts : CpuDescTexts
  virtflag : Option CString
  mode : UInt32
  ncpus : ℤ
  ncpuspos : ℤ

/-- `cpu_desc_new`, where there is enough memory. -/
def cpuDescNew : CpuDesc := ⟨none, fun _ => none, none, 0, 0, 0⟩

/-- What `cpu_desc_read` finds: the file `/proc/cpuinfo`, the machine that `uname` names, and the
numbers of processors. The platform sets the mode that is assumed at first. -/
structure CpuDescFiles where
  cpuinfo : Option (List UInt8)
  machine : Option CString
  platformMode : UInt32
  processorNumberTotal : ℤ
  processorNumberKernelMax : ℤ

/-- The memory that the flags are copied to, as a string. -/
def flagsBuffer (flags : CString) : Option CString :=
  let buflen := flags.length + 2
  (snprintf (List.replicate buflen 0) 0 buflen ((' ' : UInt8) :: (flags ++ [(' ' : UInt8)]))).map
    fun p => stringAt p.1

/-- `strstr` for a flag between blanks. -/
def hasFlag (buf flag : CString) : Bool :=
  (strstr buf ((' ' : UInt8) :: (flag ++ [(' ' : UInt8)]))).isSome

def cpuDescRead (files : CpuDescFiles) (cpudesc : CpuDesc) : Except Stop CpuDesc :=
  match files.cpuinfo, files.machine with
  | none, _ => .error (.pluginError .unknown "error opening /proc/cpuinfo")
  | some _, none => .error (.pluginError .unknown "uname() failed")
  | some content, some machine => do
    let texts ← cpuDescLines cpuDescAttempts content cpudesc.texts
    let cpudesc :=
      { cpudesc with
        arch := some machine
        texts
        mode := files.platformMode
        ncpus := files.processorNumberTotal
        ncpuspos := files.processorNumberKernelMax }
    match texts .flags with
    | none => return cpudesc
    | some flags =>
      match flagsBuffer flags with
      | none => throw .outOfBounds
      | some buf =>
        let virtflag :=
          if hasFlag buf (ascii "svm") then some (ascii "svm")
          else if hasFlag buf (ascii "vmx") then some (ascii "vmx")
          else cpudesc.virtflag
        let mode := cpudesc.mode
        let mode := if hasFlag buf (ascii "lm") then mode ||| (mode32bit ||| mode64bit) else mode
        let mode := if hasFlag buf (ascii "zarch") then mode ||| (mode32bit ||| mode64bit) else mode
        let mode :=
          if hasFlag buf (ascii "sun4v") ∨ hasFlag buf (ascii "sun4u")
          then mode ||| (mode32bit ||| mode64bit) else mode
        return { cpudesc with virtflag, mode }

def cpuDescGetVirtualizationFlag (cpudesc : CpuDesc) : Option CString :=
  match cpudesc.virtflag with
  | none => none
  | some virtflag =>
    if virtflag = ascii "svm" then some (ascii "AMD-V")
    else if virtflag = ascii "vmx" then some (ascii "VT-x")
    else some virtflag

/-! ### The file of the kernel -/

/-- A row of `/proc/cpuinfo`. There may be blanks around the colon and at the end, and there need
not be a value. -/
structure CpuinfoRow where
  key : CString
  gap : CString
  lead : CString
  value : CString
  trail : CString
  key_text : ∀ c ∈ key, c ≠ ':' ∧ c ≠ '\n' ∧ c ≠ 0
  key_last : ∀ c ∈ key.getLast?, isspace c = false
  gap_blank : ∀ c ∈ gap, isspace c ∧ c ≠ '\n'
  lead_blank : ∀ c ∈ lead, isspace c ∧ c ≠ '\n'
  value_text : ∀ c ∈ value, c ≠ '\n' ∧ c ≠ 0
  value_head : ∀ c ∈ value.head?, isspace c = false
  value_last : ∀ c ∈ value.getLast?, isspace c = false
  trail_blank : ∀ c ∈ trail, isspace c ∧ c ≠ '\n'

namespace CpuinfoRow

variable (row : CpuinfoRow)

def render : CString :=
  row.key ++ (row.gap ++ (':' : UInt8) :: (row.lead ++ (row.value ++ row.trail)))

/-- The member of the description that a row is for. -/
def field : Option CpuDescField :=
  if row.value = [] then none else (cpuDescAttempts.find? fun p => p.1 = row.key).map Prod.snd

def store (texts : CpuDescTexts) : CpuDescTexts :=
  match row.field with
  | none => texts
  | some field => Function.update texts field (some row.value)

end CpuinfoRow

/-- A line of `/proc/cpuinfo`; the ones between two processors are empty. -/
inductive CpuinfoLine where
  | keyed (row : CpuinfoRow)
  | other (text : CString) (noColon : ∀ c ∈ text, c ≠ ':' ∧ c ≠ '\n' ∧ c ≠ 0)

namespace CpuinfoLine

def render : CpuinfoLine → CString
  | .keyed row => row.render
  | .other text _ => text

def row? : CpuinfoLine → Option CpuinfoRow
  | .keyed row => some row
  | .other _ _ => none

end CpuinfoLine

/-- `/proc/cpuinfo`. -/
def cpuinfoText (lines : List CpuinfoLine) : List UInt8 :=
  lines.flatMap fun line => line.render ++ [('\n' : UInt8)]

/-- What the last row for a member says. -/
def described (rows : List CpuinfoRow) (field : CpuDescField) : Option CString :=
  ((rows.filter fun row => row.field = some field).getLast?).map CpuinfoRow.value

/-! ### Reading a row -/

section Row

variable (row : CpuinfoRow)

/-- A row with a value, as a line with a key. -/
def CpuinfoRow.keyValue (hvalue : row.value ≠ []) : KeyValue where
  gap := row.gap
  lead := row.lead
  value := row.value
  trail := row.trail ++ [('\n' : UInt8)]
  gap_blank c hc := (row.gap_blank c hc).1
  lead_blank c hc := (row.lead_blank c hc).1
  trail_blank := by
    intro c hc
    rcases List.mem_append.1 hc with hc | hc
    · exact (row.trail_blank c hc).1
    · rw [List.mem_singleton.1 hc]
      decide
  value_ne := hvalue
  head_value := row.value_head
  last_value := row.value_last

lemma render_keyValue (hvalue : row.value ≠ []) :
    row.render ++ [('\n' : UInt8)] = (row.keyValue hvalue).render row.key := by
  simp [CpuinfoRow.render, KeyValue.render, KeyValue.front, CpuinfoRow.keyValue]

lemma colon_notMem_key : (':' : UInt8) ∉ row.key := fun h => (row.key_text _ h).1 rfl

lemma CpuinfoRow.render_text : ∀ c ∈ row.render, c ≠ '\n' ∧ c ≠ 0 := by
  have hblank : ∀ {c}, isspace c ∧ c ≠ '\n' → c ≠ '\n' ∧ c ≠ 0 := by
    rintro c ⟨hc, hne⟩
    refine ⟨hne, ?_⟩
    rintro rfl
    exact absurd hc (by decide)
  intro c hc
  simp only [CpuinfoRow.render, List.mem_append, List.mem_cons] at hc
  rcases hc with hc | hc | rfl | hc | hc | hc
  · exact (row.key_text c hc).2
  · exact hblank (row.gap_blank c hc)
  · decide
  · exact hblank (row.lead_blank c hc)
  · exact row.value_text c hc
  · exact hblank (row.trail_blank c hc)

/-- Behind the first colon of a line with a key stands a value. -/
lemma dropWhile_colon {pattern : CString} (hcolon : (':' : UInt8) ∉ pattern) (gap rest : CString)
    (hgap : ∀ c ∈ gap, isspace c) :
    (pattern ++ (gap ++ (':' : UInt8) :: rest)).dropWhile (· ≠ (':' : UInt8))
      = (':' : UInt8) :: rest := by
  have hpattern : ∀ c ∈ pattern, decide (c ≠ (':' : UInt8)) = true := by
    intro c hc
    refine decide_eq_true ?_
    rintro rfl
    exact hcolon hc
  have hblank : ∀ c ∈ gap, decide (c ≠ (':' : UInt8)) = true := by
    intro c hc
    refine decide_eq_true ?_
    rintro rfl
    exact absurd (hgap _ hc) (by decide)
  rw [List.dropWhile_append_of_pos hpattern, List.dropWhile_append_of_pos hblank,
    List.dropWhile_cons_of_neg (by simp)]

/-- A row is found for its own key only, and only if it has a value. -/
lemma linelookup_row {pattern : CString} (hcolon : (':' : UInt8) ∉ pattern)
    (hlast : ∀ c ∈ pattern.getLast?, isspace c = false) :
    linelookup (row.render ++ [('\n' : UInt8)]) pattern
      = .ok (if row.value ≠ [] ∧ pattern = row.key then some row.value else none) := by
  by_cases hvalue : row.value = []
  · rw [if_neg (fun h => h.1 hvalue)]
    by_contra hfound
    obtain ⟨k, hk⟩ := exists_render_of_ne_none hfound
    have hline := congrArg (List.dropWhile (· ≠ (':' : UInt8))) hk
    have hrow : row.render ++ [('\n' : UInt8)] = row.key ++
        (row.gap ++ (':' : UInt8) :: (row.lead ++ (row.trail ++ [('\n' : UInt8)]))) := by
      simp [CpuinfoRow.render, hvalue]
    have hkey : k.render pattern
        = pattern ++ (k.gap ++ (':' : UInt8) :: (k.lead ++ (k.value ++ k.trail))) := by
      simp [KeyValue.render, KeyValue.front]
    rw [hrow, hkey, dropWhile_colon (colon_notMem_key row) _ _ fun c hc => (row.gap_blank c hc).1,
      dropWhile_colon hcolon _ _ k.gap_blank] at hline
    -- behind the colon there are only blanks
    obtain ⟨c, value, hcons⟩ := List.exists_cons_of_ne_nil k.value_ne
    have hc : c ∈ row.lead ++ (row.trail ++ [('\n' : UInt8)]) := by
      rw [(List.cons.inj hline).2, hcons]
      simp
    have hblank : isspace c = true := by
      simp only [List.mem_append, List.mem_singleton] at hc
      rcases hc with hc | hc | rfl
      · exact (row.lead_blank c hc).1
      · exact (row.trail_blank c hc).1
      · decide
    rw [k.head_value c (by rw [hcons]; rfl)] at hblank
    cases hblank
  · have hrender := render_keyValue row hvalue
    by_cases hkey : pattern = row.key
    · have hzero : (0 : UInt8) ∉ (row.keyValue hvalue).render row.key := by
        rw [← hrender, List.mem_append, not_or]
        exact ⟨fun h => (row.render_text 0 h).2 rfl, by decide⟩
      rw [if_pos ⟨hvalue, hkey⟩, hkey, hrender]
      exact linelookup_of_trail _ _ hzero
        (List.append_ne_nil_of_right_ne_nil _ (List.cons_ne_nil _ _))
    · rw [if_neg (fun h => hkey h.2)]
      by_contra hfound
      obtain ⟨k, hk⟩ := exists_render_of_ne_none hfound
      rw [hrender] at hk
      exact hkey (pattern_eq_of_render_eq hk (colon_notMem_key row) hcolon row.key_last hlast).symm

/-- The first key that is the one of the row decides. -/
lemma cpuDescLine_row {attempts : List (CString × CpuDescField)}
    (hplain : ∀ p ∈ attempts, (':' : UInt8) ∉ p.1 ∧ ∀ c ∈ p.1.getLast?, isspace c = false)
    (texts : CpuDescTexts) :
    cpuDescLine attempts texts (row.render ++ [('\n' : UInt8)])
      = .ok (if row.value = [] then texts
          else match attempts.find? fun p => p.1 = row.key with
            | none => texts
            | some p => Function.update texts p.2 (some row.value)) := by
  induction attempts with
  | nil => simp [cpuDescLine]
  | cons p attempts ih =>
    rw [List.forall_mem_cons] at hplain
    obtain ⟨⟨hcolon, hlast⟩, hplain⟩ := hplain
    obtain ⟨pattern, field⟩ := p
    rw [cpuDescLine, linelookup_row row hcolon hlast, Except.ok_bind, ih hplain]
    by_cases hvalue : row.value = []
    · simp [hvalue]
    · by_cases hkey : pattern = row.key
      · simp [hvalue, hkey]
        rfl
      · simp [hvalue, hkey]

lemma cpuDescLine_store (texts : CpuDescTexts) :
    cpuDescLine cpuDescAttempts texts (row.render ++ [('\n' : UInt8)]) = .ok (row.store texts) := by
  rw [cpuDescLine_row row cpuDescAttempts_plain.1, CpuinfoRow.store, CpuinfoRow.field]
  by_cases hvalue : row.value = []
  · simp [hvalue]
  · simp only [hvalue, if_false]
    cases cpuDescAttempts.find? fun p => p.1 = row.key <;> rfl

/-- A line without a colon has no key. -/
lemma cpuDescLine_other {line : CString} (hline : (':' : UInt8) ∉ line)
    (attempts : List (CString × CpuDescField)) (texts : CpuDescTexts) :
    cpuDescLine attempts texts line = .ok texts := by
  have hnone : ∀ pattern, linelookup line pattern = .ok none := by
    intro pattern
    by_contra hfound
    obtain ⟨k, rfl⟩ := exists_render_of_ne_none hfound
    exact hline (by simp [KeyValue.render, KeyValue.front])
  induction attempts with
  | nil => rfl
  | cons p attempts ih =>
    rw [cpuDescLine, hnone, Except.ok_bind]
    exact ih

end Row

/-! ### Reading the file -/

lemma getlines_cpuinfoText (lines : List CpuinfoLine) :
    getlines (cpuinfoText lines) = lines.map fun line => line.render ++ [('\n' : UInt8)] := by
  have htext : cpuinfoText lines
      = (lines.map CpuinfoLine.render).flatMap (· ++ [('\n' : UInt8)]) := by
    rw [cpuinfoText, List.flatMap_map]
  rw [htext, getlines_flatMap, List.map_map]
  · rfl
  · intro text htext c hc
    obtain ⟨line, -, rfl⟩ := List.mem_map.1 htext
    cases line with
    | keyed row => exact row.render_text c hc
    | other text noColon => exact (noColon c hc).2

lemma cpuDescLine_render (line : CpuinfoLine) (texts : CpuDescTexts) :
    cpuDescLine cpuDescAttempts texts (line.render ++ [('\n' : UInt8)])
      = .ok (line.row?.elim texts fun row => row.store texts) := by
  cases line with
  | keyed row => exact cpuDescLine_store row texts
  | other text noColon =>
    refine cpuDescLine_other ?_ cpuDescAttempts texts
    rw [CpuinfoLine.render, List.mem_append, not_or]
    exact ⟨fun h => (noColon _ h).1 rfl, by decide⟩

lemma cpuDescLines_cpuinfoText (lines : List CpuinfoLine) (texts : CpuDescTexts) :
    cpuDescLines cpuDescAttempts (cpuinfoText lines) texts
      = .ok ((lines.filterMap CpuinfoLine.row?).foldl (fun texts row => row.store texts)
          texts) := by
  rw [cpuDescLines, getlines_cpuinfoText]
  induction lines generalizing texts with
  | nil => rfl
  | cons line lines ih =>
    rw [List.map_cons, List.foldlM_cons, cpuDescLine_render, Except.ok_bind, ih]
    cases line <;> rfl

/-- The last row for a member decides. -/
lemma foldl_store (rows : List CpuinfoRow) (texts : CpuDescTexts) (field : CpuDescField) :
    rows.foldl (fun texts row => row.store texts) texts field
      = (described rows field).or (texts field) := by
  induction rows using List.reverseRecOn with
  | nil => rfl
  | append_singleton rows row ih =>
    rw [List.foldl_append, List.foldl_cons, List.foldl_nil, CpuinfoRow.store, described,
      List.filter_append]
    cases hfield : row.field with
    | none => simpa [hfield, described] using ih
    | some field' =>
      by_cases hsame : field' = field
      · subst hsame
        simp [hfield]
      · have hne : field ≠ field' := Ne.symm hsame
        simpa [hfield, hsame, hne, described] using ih

/-! ### Flags -/

/-- The blank behind the last flag does not fit into the memory. -/
lemma flagsBuffer_eq {flags : CString} (hflags : ∀ c ∈ flags, c ≠ 0) :
    flagsBuffer flags = some ((' ' : UInt8) :: flags) := by
  have htake : ((' ' : UInt8) :: (flags ++ [(' ' : UInt8)])).take (flags.length + 1)
      = (' ' : UInt8) :: flags := by
    rw [List.take_succ_cons, List.take_left]
  have hzero : ∀ c ∈ (' ' : UInt8) :: flags, c ≠ 0 :=
    List.forall_mem_cons.2 ⟨by decide, hflags⟩
  have hlength : 0 + ((' ' : UInt8) :: flags ++ [0]).length
      ≤ (List.replicate (flags.length + 2) (0 : UInt8)).length := by simp
  have hsize : flags.length + 2 - 1 = flags.length + 1 := rfl
  rw [flagsBuffer, snprintf, if_neg (by omega)]
  simp only [hsize, htake]
  rw [if_pos hlength, Option.map_some, List.take_zero, List.nil_append, List.append_assoc]
  exact congrArg some (stringAt_append hzero _)

/-- The flags between two blanks: all but the last one. -/
def flagsBeforeLast (flags : CString) : List CString := (flags.splitOn (' ' : UInt8)).dropLast

/-- So the last flag is never found. -/
lemma hasFlag_iff {flags flag : CString} (hflag : (' ' : UInt8) ∉ flag) :
    hasFlag ((' ' : UInt8) :: flags) flag ↔ flag ∈ flagsBeforeLast flags := by
  rw [hasFlag, strstr_isSome_iff, Words.cons_eq_behind_splitOn _ flags]
  exact Words.infix_behind_iff hflag (Words.notMem_of_mem_splitOn _ flags)

lemma wide_and_mode64bit (mode : UInt32) :
    (mode ||| (mode32bit ||| mode64bit)) &&& mode64bit = mode64bit := by
  have hwide : (mode32bit ||| mode64bit).toBitVec &&& mode64bit.toBitVec = mode64bit.toBitVec := by
    decide
  rw [← UInt32.toBitVec_inj, UInt32.toBitVec_and, UInt32.toBitVec_or, BitVec.and_or_distrib_right,
    hwide]
  ext i hi
  simp only [BitVec.getElem_or, BitVec.getElem_and]
  cases mode64bit.toBitVec[i] <;> simp

/-- A flag of a 64 bit machine sets its mode. -/
lemma mode64bit_ite {mode : UInt32} {flag : Prop} [Decidable flag] :
    ((if flag then mode ||| (mode32bit ||| mode64bit) else mode) &&& mode64bit ≠ 0) ↔
      flag ∨ mode &&& mode64bit ≠ 0 := by
  have hne : mode64bit ≠ 0 := by decide
  by_cases h : flag
  · simp [h, wide_and_mode64bit, hne]
  · simp [h]

/-- The flags are looked for in this order, and the platform comes first. -/
lemma or_reverse {a b c d e : Prop} : (d ∨ e) ∨ c ∨ b ∨ a ↔ a ∨ b ∨ c ∨ d ∨ e := by
  tauto

/-- A row with one tab and one blank. -/
def plainRow (key value : CString)
    (htext : (∀ c ∈ key, c ≠ ':' ∧ c ≠ '\n' ∧ c ≠ 0) ∧ ∀ c ∈ value, c ≠ '\n' ∧ c ≠ 0)
    (hblank : (∀ c ∈ key.getLast?, isspace c = false) ∧
      (∀ c ∈ value.head?, isspace c = false) ∧ ∀ c ∈ value.getLast?, isspace c = false) :
    CpuinfoRow where
  key := key
  gap := ascii "\t"
  lead := ascii " "
  value := value
  trail := []
  key_text := htext.1
  key_last := hblank.1
  gap_blank := by decide +kernel
  lead_blank := by decide +kernel
  value_text := htext.2
  value_head := hblank.2.1
  value_last := hblank.2.2
  trail_blank := by decide +kernel

def threeFlags : List CpuinfoLine :=
  [.keyed (plainRow (ascii "model name") (ascii "a CPU") (by decide +kernel) (by decide +kernel)),
    .keyed (plainRow (ascii "flags") (ascii "fpu lm vmx") (by decide +kernel) (by decide +kernel)),
    .keyed (plainRow (ascii "power management") [] (by decide +kernel) (by decide +kernel)),
    .other [] (by simp)]

end NagiosPlugins
