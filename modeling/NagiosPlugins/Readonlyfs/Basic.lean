import NagiosPlugins.Common

/-!
# Read-only filesystems

The two ways in which `plugins/check_readonlyfs.c` goes through the table of mounted filesystems,
without the lines that `--verbose` prints.
-/

namespace NagiosPlugins

open Libc

/-- `struct mount_entry`. -/
structure MountEntry where
  meDevname : CString
  meMountdir : CString
  meType : Option CString
  meDummy : Bool
  meRemote : Bool
  meReadonly : Bool
  deriving DecidableEq, Repr

/-- The filesystems that the options select. -/
structure FsSettings where
  fsSelectList : List CString := []
  fsExcludeList : List CString := []
  showAllFs : Bool := false
  showLocalFs : Bool := false
  deriving DecidableEq, Repr

variable (s : FsSettings)

/-- Is `fstype` a type of file system that should be listed? -/
def selectedFstype (fstype : Option CString) : Bool :=
  match fstype with
  | none => true
  | some fstype => s.fsSelectList.isEmpty || s.fsSelectList.any (fstype = ·)

/-- Is `fstype` a type of file system that should be omitted? -/
def excludedFstype (fstype : Option CString) : Bool :=
  match fstype with
  | none => false
  | some fstype => s.fsExcludeList.any (fstype = ·)

def skipMountEntry (me : MountEntry) : Bool :=
  if me.meRemote && s.showLocalFs then true
  else if me.meDummy && !s.showAllFs then true
  else if !selectedFstype s me.meType || excludedFstype s me.meType then true
  else false

/-- The test of `check_all_entries` whether an entry is in the list of excluded ones. -/
def ignored (fsExclude : Option (List CString)) (me : MountEntry) : Bool :=
  match fsExclude with
  | none => false
  | some fsExclude => fsExclude.any fun fs => fs = me.meDevname || fs = me.meMountdir

/-- `*ro_filesystems` with one more directory. Behind the first one, `sprintf` reads the old string
through a pointer that `xrealloc` has already released. -/
def addRoFilesystem (roFilesystems : Except Stop (Option CString)) (mountdir : CString) :
    Except Stop (Option CString) :=
  match roFilesystems with
  | .error stop => .error stop
  | .ok none => .ok (some mountdir)
  | .ok (some _) => .error .undefined

/-- The loop of `check_all_entries`: the status and `*ro_filesystems`. -/
def checkAllLoop (fsExclude : Option (List CString)) :
    List MountEntry → Nagstatus → Except Stop (Option CString) →
      Nagstatus × Except Stop (Option CString)
  | [], status, roFilesystems => (status, roFilesystems)
  | me :: rest, status, roFilesystems =>
    if ignored fsExclude me then checkAllLoop fsExclude rest status roFilesystems
    else if skipMountEntry s me then checkAllLoop fsExclude rest status roFilesystems
    else if me.meReadonly then
      checkAllLoop fsExclude rest .critical (addRoFilesystem roFilesystems me.meMountdir)
    else checkAllLoop fsExclude rest status roFilesystems

/-- The return value and `*ro_filesystems`, which the return value does not depend on. -/
def checkAllEntries (mountList : List MountEntry) (roFilesystems : Option CString)
    (fsExclude : Option (List CString)) : Nagstatus × Except Stop (Option CString) :=
  checkAllLoop s fsExclude mountList .ok (.ok roFilesystems)

/-- The loop of `check_entry`. -/
def checkEntryLoop (name : CString) : List MountEntry → Nagstatus
  | [] => .ok
  | me :: rest =>
    if me.meMountdir = name then
      if skipMountEntry s me then .ok
      else if me.meReadonly then .critical
      else checkEntryLoop name rest
    else checkEntryLoop name rest

def checkEntry (mountList : List MountEntry) (name : Option CString) : Nagstatus :=
  match name with
  | none => .ok
  | some name => checkEntryLoop s name mountList

end NagiosPlugins
