import NagiosPlugins.Libc.Bytes

/-!
# Counting files

`lib/files.c`. A directory is what `readdir` lists for it, in that order, or nothing when
`opendir` fails; `lstat` succeeds on every entry. Times and counters are integers. The variable
`deep` only numbers the debug messages and is left out.
-/

namespace NagiosPlugins

open Libc

/-! ### Directory trees -/

/-- The file types that `st_mode & S_IFMT` tells apart. -/
inductive Mode where
  | ifblk
  | ifchr
  | ififo
  | ifsock
  | iflnk
  | ifreg
  | ifdir
  deriving DecidableEq, Repr

/-- The fields of `struct stat` that are read. -/
structure Stat where
  mode : Mode
  mtime : ℤ
  size : Int64
  deriving DecidableEq, Repr

/-- An entry of a directory, with what it lists if it is itself a directory that can be
opened. -/
inductive Node where
  | mk (dName : CString) (statbuf : Stat) (listing : Option (List Node))

/-! ### Flags and counters -/

def filesIgnoreSymlinks : UInt32 := (1 : UInt32) <<< 1

def filesIgnoreUnknown : UInt32 := (1 : UInt32) <<< 2

def filesIncludeHidden : UInt32 := (1 : UInt32) <<< 3

def filesRecursive : UInt32 := (1 : UInt32) <<< 4

def filesRegularOnly : UInt32 := (1 : UInt32) <<< 5

/-- `struct files_types`. -/
@[ext] structure FilesTypes where
  directory : ℤ
  hidden : ℤ
  specialFile : ℤ
  symlink : ℤ
  regularFile : ℤ
  total : ℤ
  unknown : ℤ
  deriving DecidableEq, Repr

instance : Zero FilesTypes := ⟨⟨0, 0, 0, 0, 0, 0, 0⟩⟩

/-- `files_data_init`: the memory of a new structure is zero. -/
def filesDataInit (filecount : Option FilesTypes) : FilesTypes := filecount.getD 0

/-- The arguments that the recursive calls repeat, and what the system answers: the current time
and whether `fnmatch` returns 0 for a pattern and a name. -/
structure FilesArgs where
  flags : UInt32
  age : ℤ
  size : Int64
  pattern : Option CString
  now : ℤ
  fnmatch : CString → CString → Bool

namespace FilesArgs

variable (args : FilesArgs)

def has (flag : UInt32) : Prop := args.flags &&& flag ≠ 0

instance (flag : UInt32) : Decidable (args.has flag) := inferInstanceAs (Decidable (_ ≠ _))

end FilesArgs

/-! ### The tests -/

/-- `files_filematch`, true for the return value 0. -/
def filesFilematch (args : FilesArgs) (name : CString) : Bool :=
  match args.pattern with
  | none => true
  | some pattern => args.fnmatch pattern name

def filesIsHidden (filename : CString) : Bool := filename.head? = some ('.' : UInt8)

def filesCheckAge (args : FilesArgs) (filemtime : ℤ) : Bool :=
  if args.age = 0 then true
  else
    let mtime := if args.age < 0 then args.now + args.age else args.now - args.age
    (args.age < 0 ∧ filemtime > mtime) ∨ (args.age > 0 ∧ filemtime < mtime)

def filesCheckSize (args : FilesArgs) (filesize : Int64) : Bool :=
  if args.size = 0 then true
  else
    -- the product wraps around for the smallest `int64_t`, where C leaves it undefined
    let absSize := if args.size < 0 then -1 * args.size else args.size
    (args.size < 0 ∧ filesize < absSize) ∨ (args.size > 0 ∧ filesize > absSize)

/-! ### The scan -/

/-- The `switch` on the type of an entry: the counters, and whether the entry is left with
`continue`. A directory reaches the `default` case. -/
def filesSwitch (args : FilesArgs) (isHidden : Bool) (statbuf : Stat) (fc : FilesTypes) :
    FilesTypes × Bool :=
  match statbuf.mode with
  | .ifdir => ({ fc with unknown := fc.unknown + 1 }, args.has filesIgnoreUnknown)
  | .ifblk | .ifchr | .ififo | .ifsock =>
    ({ fc with specialFile := fc.specialFile + 1 }, args.has filesRegularOnly)
  | .iflnk =>
    if args.has (filesIgnoreSymlinks ||| filesRegularOnly) then (fc, true)
    else ({ fc with symlink := fc.symlink + 1 }, false)
  | .ifreg =>
    if !filesCheckAge args statbuf.mtime then (fc, true)
    else if !filesCheckSize args statbuf.size then (fc, true)
    else
      let fc := { fc with regularFile := fc.regularFile + 1 }
      (if isHidden then { fc with hidden := fc.hidden + 1 } else fc, false)

/-- What happens to an entry that is not a directory to descend into. -/
def filesCountEntry (args : FilesArgs) (isHidden : Bool) (name : CString) (statbuf : Stat)
    (fc : FilesTypes) : FilesTypes :=
  if !filesFilematch args name then fc
  else
    let (fc, skip) := filesSwitch args isHidden statbuf fc
    if skip then fc
    else if !filesFilematch args name then fc
    else { fc with total := fc.total + 1 }

/-- A directory is counted before the recursive call. -/
def filesCountDirectory (args : FilesArgs) (isHidden : Bool) (name : CString)
    (fc : FilesTypes) : FilesTypes :=
  if args.has filesRegularOnly then fc
  else if filesFilematch args name then
    let fc := { fc with directory := fc.directory + 1, total := fc.total + 1 }
    if isHidden then { fc with hidden := fc.hidden + 1 } else fc
  else fc

mutual

/-- `files_filecount` on a directory: the return value and `*filecount`. -/
def filesFilecount (args : FilesArgs) (dir : Option (List Node))
    (filecount : Option FilesTypes) : ℤ × Option FilesTypes :=
  match dir with
  | none => (-1, filecount)
  | some entries => (0, some (filesScan args entries (filesDataInit filecount)))

/-- The loop over the entries of a directory. -/
def filesScan (args : FilesArgs) (entries : List Node) (fc : FilesTypes) : FilesTypes :=
  match entries with
  | [] => fc
  | node :: entries => filesScan args entries (filesEntry args node fc)

/-- The body of the loop. -/
def filesEntry (args : FilesArgs) (node : Node) (fc : FilesTypes) : FilesTypes :=
  match node with
  | .mk name statbuf listing =>
    if name = ascii "." ∨ name = ascii ".." then fc
    else
      let isHidden := filesIsHidden name
      if ¬ args.has filesIncludeHidden ∧ isHidden then fc
      else if statbuf.mode = .ifdir ∧ args.has filesRecursive then
        let fc := filesCountDirectory args isHidden name fc
        (filesFilecount args listing (some fc)).2.getD fc
      else if statbuf.mode = .ifdir ∧ args.has filesRegularOnly then fc
      else filesCountEntry args isHidden name statbuf fc

end

end NagiosPlugins
