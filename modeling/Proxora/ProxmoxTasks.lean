import Proxora.Ecma.Text

/-!
# The tasks of Proxmox

How a task ended, after `lib/proxmox-tasks.ts`, and what a task id looks like,
after `lib/guest-task.ts`.
-/

namespace Proxora

open Ecma

/-- `\w`. -/
def isWordChar (c : Char) : Bool := c.isAlphanum || c = '_'

/-- `/^warnings?\b/i`. -/
def startsWithWarning (exit : Text) : Bool :=
  let lower := exit.map Char.toLower
  if startsWith lower "warnings" then !((lower.drop 8).head?.any isWordChar)
  else startsWith lower "warning" && !((lower.drop 7).head?.any isWordChar)

/-- An absent exit status, like an empty one, is a success. -/
def isSuccessfulTaskExit (exitstatus : Option Text) : Bool :=
  let exit := trim (exitstatus.getD [])
  if exit = [] || exit = "OK" then true else startsWithWarning exit

example : isSuccessfulTaskExit (some "WARNINGS: 1") = true ∧
    isSuccessfulTaskExit (some "warned") = false := by
  decide

def isUpid (value : Text) : Bool := includes value "UPID:"

end Proxora
