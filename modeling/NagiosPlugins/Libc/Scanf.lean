import NagiosPlugins.Libc.Stdlib

/-!
# Formatted input

`sscanf` for the conversions of unsigned numbers, of characters from a set and of words.
-/

namespace Libc

/-- What `sscanf` stores behind one of its pointers. -/
inductive Arg where
  | unsignedInt (n : UInt32)
  | unsignedLong (n : UInt64)
  | chars (s : CString)
  deriving DecidableEq, Repr

/-- The parts of a format string. -/
inductive Directive where
  /-- White space. -/
  | white
  /-- An ordinary character. -/
  | literal (c : UInt8)
  /-- `%u` and `%X`, or `%lu` and `%lX`. -/
  | integer (base : ℕ) (long : Bool)
  /-- `%n[...]`. -/
  | set (width : ℕ) (member : UInt8 → Bool)
  /-- `%*s`. -/
  | skipWord

/-- An unsigned number in base 10 or 16, with an optional sign and prefix. -/
def scanInteger (base : ℕ) (s : CString) : Option (UInt64 × CString) :=
  let (negative, s) := scanSign s
  let s := if base = 16 then (afterKeyword (ascii "0x") s).getD s else s
  let digits := s.takeWhile (isBaseDigit base)
  if digits = [] then none
  else
    let n := natOfDigits base digits
    let value : UInt64 :=
      if n ≥ 2 ^ 64 then -1 else if negative then -UInt64.ofNat n else UInt64.ofNat n
    some (value, s.dropWhile (isBaseDigit base))

/-- The arguments that are assigned, and whether the input ends before the first conversion is
completed. -/
structure Scan where
  args : List Arg
  eof : Bool
  deriving DecidableEq, Repr

def scan : List Directive → CString → Scan
  | [], _ => ⟨[], false⟩
  | .white :: format, s => scan format (s.dropWhile isspace)
  | .literal c :: format, s =>
    match s with
    | [] => ⟨[], true⟩
    | c' :: s => if c' = c then scan format s else ⟨[], false⟩
  | .integer base long :: format, s =>
    match s.dropWhile isspace with
    | [] => ⟨[], true⟩
    | c :: s =>
      match scanInteger base (c :: s) with
      | none => ⟨[], false⟩
      | some (n, s) =>
        let arg : Arg := if long then .unsignedLong n else .unsignedInt n.toUInt32
        ⟨arg :: (scan format s).args, false⟩
  | .set width member :: format, s =>
    match s with
    | [] => ⟨[], true⟩
    | c :: s =>
      let chars := ((c :: s).take width).takeWhile member
      if chars = [] then ⟨[], false⟩
      else ⟨.chars chars :: (scan format ((c :: s).drop chars.length)).args, false⟩
  | .skipWord :: format, s =>
    match s.dropWhile isspace with
    | [] => ⟨[], true⟩
    | c :: s => ⟨(scan format ((c :: s).dropWhile (!isspace ·))).args, false⟩

/-- `sscanf`: what it returns, `EOF` being -1, and the arguments that it assigns. -/
def sscanf (format : List Directive) (s : CString) : ℤ × List Arg :=
  let r := scan format s
  (if r.eof then -1 else r.args.length, r.args)

/-- Nothing is assigned where the input ends too early. -/
lemma scan_args_of_eof {format : List Directive} {s : CString} (h : (scan format s).eof) :
    (scan format s).args = [] := by
  induction format generalizing s with
  | nil => rfl
  | cons d format ih =>
    cases d with
    | white => exact ih h
    | literal c =>
      cases s with
      | nil => rfl
      | cons c' s =>
        rw [scan] at h ⊢
        split_ifs at h ⊢
        exact ih h
    | integer base long =>
      rw [scan] at h ⊢
      split at h
      · rfl
      · split at h <;> simp at h
    | set width member =>
      cases s with
      | nil => rfl
      | cons c s =>
        rw [scan] at h
        split_ifs at h
    | skipWord =>
      rw [scan] at h ⊢
      split at h
      · rfl
      · simp at h

/-! ### The types of the arguments -/

inductive ArgKind where
  | unsignedInt
  | unsignedLong
  | chars
  deriving DecidableEq, Repr

def Arg.kind : Arg → ArgKind
  | .unsignedInt _ => .unsignedInt
  | .unsignedLong _ => .unsignedLong
  | .chars _ => .chars

/-- The type of the argument for a directive that assigns one. -/
def Directive.kind? : Directive → Option ArgKind
  | .integer _ long => some (if long then .unsignedLong else .unsignedInt)
  | .set _ _ => some .chars
  | _ => none

/-- The arguments are of the types that the format tells, as far as they are assigned. -/
lemma kinds_scan (format : List Directive) (s : CString) :
    (scan format s).args.map Arg.kind <+: format.filterMap Directive.kind? := by
  induction format generalizing s with
  | nil => exact List.nil_prefix
  | cons d format ih =>
    cases d with
    | white => exact ih _
    | literal c =>
      cases s with
      | nil => exact List.nil_prefix
      | cons c' s =>
        rw [scan]
        split_ifs
        · exact ih s
        · exact List.nil_prefix
    | integer base long =>
      rw [scan]
      split
      · exact List.nil_prefix
      · split
        · exact List.nil_prefix
        · cases long <;> exact (List.prefix_cons_inj _).2 (ih _)
    | set width member =>
      cases s with
      | nil => exact List.nil_prefix
      | cons c s =>
        rw [scan]
        split_ifs
        · exact List.nil_prefix
        · exact (List.prefix_cons_inj _).2 (ih _)
    | skipWord =>
      rw [scan]
      split
      · exact List.nil_prefix
      · exact ih _

end Libc
