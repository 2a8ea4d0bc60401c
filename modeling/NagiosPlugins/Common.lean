import NagiosPlugins.Libc.Bytes

/-!
# Common definitions

The exit states of a plugin, and the ways in which a run can end before a function returns.
-/

namespace NagiosPlugins

/-- `nagstatus`: the exit state of a plugin. -/
inductive Nagstatus where
  | ok
  | warning
  | critical
  | unknown
  | dependent
  deriving DecidableEq, Repr

/-- How a run ends when a function does not return to its caller. -/
inductive Stop where
  /-- `plugin_error (status, errno, message)`. -/
  | pluginError (status : Nagstatus) (message : String)
  /-- A failed `assert`. -/
  | assertion
  /-- A variable is read that was never set. -/
  | uninitialised
  /-- An array is read at an index behind its last element. -/
  | outOfBounds
  /-- An operation without a defined result: a NULL pointer is followed, a signed sum overflows,
  or a number is converted into a type that cannot hold it. -/
  | undefined
  deriving DecidableEq, Repr

end NagiosPlugins
