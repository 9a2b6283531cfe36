import Proxora.Dialogues
import Proxora.Ecma.Base64
import Proxora.Ecma.Json
import Proxora.GuestListing
import Proxora.ProxmoxClient

/-!
# Files by way of the guest agent

`guestAgentFiles` of `server/services/guest-agent-files.ts`, as a dialogue with the methods of
`VmApi`: what is asked, how the answers are read and what becomes of errors. The pauses between two
looks at a process are left out.
-/

namespace Proxora

open Ecma Dialogues

/-! ## Answers and errors -/

/-- The `data` of an answer. -/
abbrev AgentData : Type := Json Text Double

def agentField (data : AgentData) (name : Text) : Option AgentData := data.member name

/-- `ValidationError`, `ProxmoxApiError` and every other error, with its message. -/
inductive AgentError : Type
  | validation (message : Text)
  | proxmox (message : Text)
  | other (message : Text)

abbrev AgentAnswer : VmApi → Type := fun _ => Except AgentError AgentData

abbrev AgentDialogue (α : Type) : Type := Dialogue VmApi AgentAnswer AgentError α

def AgentError.message : AgentError → Text
  | validation message | proxmox message | other message => message

/-- `s.slice(0, n)`. -/
def takeUnits : Nat → Text → Text
  | _, [] => []
  | n, c :: s =>
      let width := if c.toNat < 0x10000 then 1 else 2
      if width ≤ n then c :: takeUnits (n - width) s else []

def agentError (error : AgentError) : AgentError :=
  match error with
  | .validation message => .validation message
  | error =>
      let lower := toLowerCase error.message
      if includes lower "not running" || includes lower "guest agent" ||
          includes lower "no qemu-guest-agent" then
        .validation "QEMU Guest Agent antwortet nicht (in der VM installiert und gestartet?)"
      else if includes lower "guest-exec" || includes lower "disabled" then
        .validation "guest-exec ist im Guest Agent deaktiviert"
      else
        match error with
        | .proxmox message => .validation (takeUnits 240 message)
        | error =>
            let message := takeUnits 240 (trim error.message)
            .validation (if message = [] then "QEMU Agent fehlgeschlagen" else message)

/-- A call of the API; an error is thrown. -/
def agentCall (method : VmApi) : AgentDialogue AgentData :=
  .ask method fun answer =>
    match answer with
    | .ok data => .result data
    | .error error => .fail error

def orOther {α : Type} : Except String α → AgentDialogue α
  | .ok a => .result a
  | .error message => .fail (.other message.toList)

def unwrapAgent (data : AgentData) : AgentData :=
  match agentField data "result" with
  | some result => if result.isObject then result else data
  | none => if data.isObject then data else .obj []

/-- `String(v ?? "")`. -/
def textOrEmpty : Option AgentData → AgentDialogue Text
  | none | some .null => .result []
  | some value =>
      match value.text with
      | some text => .result text
      | none => .fail (.other "Cannot convert object to primitive value")

/-- `Number(v)`. -/
def numberOf (value : Option AgentData) : AgentDialogue Double :=
  match Json.number value with
  | some number => .result number
  | none => .fail (.other "Cannot convert object to primitive value")

def b64Text (value : Option AgentData) : AgentDialogue Text := do
  let raw ← textOrEmpty value
  return if raw = [] then [] else utf8Text (base64Decode raw)

/-! ## Processes -/

structure AgentResult where
  exitcode : Double
  stdout : Text
  stderr : Text

/-- An integer from 1. -/
def processId : Double → Option Nat
  | .finite q => if q.den = 1 ∧ 1 ≤ q.num then some q.num.toNat else none
  | _ => none

/-- The looks at a process that are left. -/
def awaitExit (node : Text) (vmid pid : Nat) : Nat → AgentDialogue AgentResult
  | 0 => .fail (.validation "QEMU Agent Timeout")
  | n + 1 => do
      let status := unwrapAgent (← agentCall (.agentExecStatus node vmid pid))
      if Json.truthy (agentField status "exited") then
        let exitcode ← match agentField status "exitcode" with
          | none | some .null => pure (.finite 1)
          | value => numberOf value
        let stdout ← b64Text (agentField status "out-data")
        let stderr ← b64Text (agentField status "err-data")
        return ⟨exitcode, stdout, stderr⟩
      else awaitExit node vmid pid n

def agentExec (node : Text) (vmid : Nat) (command : List Text) : AgentDialogue AgentResult := do
  let started := unwrapAgent (← agentCall (.agentExec node vmid command))
  let pid ← numberOf (agentField started "pid")
  match processId pid with
  | none => .fail (.validation "QEMU Agent hat keinen Prozess gestartet (guest-exec aktiv?)")
  | some pid => awaitExit node vmid pid 40

def agentExecOk (node : Text) (vmid : Nat) (command : List Text) : AgentDialogue AgentResult := do
  let result ← agentExec node vmid command
  if result.exitcode ≠ .finite 0 then
    let said := if result.stderr = [] then result.stdout else result.stderr
    let detail := takeUnits 200 (trim said)
    .fail (.validation (if detail = [] then
      "Befehl fehlgeschlagen (".toList ++ (result.exitcode.text ++ [')']) else detail))
  else return result

/-! ## Operations -/

def findCommand (path : Text) : List Text :=
  ["find", path, "-maxdepth", "1", "-mindepth", "1", "-printf", "%y\t%s\t%T@\t%f\n"]

def lsCommand (path : Text) : List Text := ["ls", "-1Ap", "--", path]

/-- The listing by `find`, unless it fails in any way. -/
def listByFind (compare : Text → Text → Int) (node : Text) (vmid : Nat) (path : Text) :
    AgentDialogue (Option (List GuestFileEntry)) :=
  Dialogue.rescue
    (do
      let listed ← agentExec node vmid (findCommand path)
      if listed.exitcode = .finite 0 then
        return some (← orOther (parseGuestListOutput compare listed.stdout path))
      else return none)
    fun _ => .result none

def listDir (compare : Text → Text → Int) (node : Text) (vmid : Nat) (path : Text) :
    AgentDialogue (List GuestFileEntry) := do
  match ← listByFind compare node vmid path with
  | some entries => return entries
  | none =>
      let listed ← agentExecOk node vmid (lsCommand path)
      orOther (parseGuestListOutput compare listed.stdout path)

def agentFileMaxBytes : Nat := 48 * 1024

def fileTooLarge : AgentError := .validation "Datei größer als 48 KB für den QEMU Agent"

def decodeGuestFileContent (base64 : Text) (max : Nat) : Except String (List UInt8) :=
  let compact := removeSpaces base64
  if compact = [] then .ok []
  else
    let buf := base64Decode compact
    if buf.length > max then .error "File too large" else .ok buf

def readFile (node : Text) (vmid : Nat) (path : Text) : AgentDialogue (List UInt8) := do
  let raw := unwrapAgent (← agentCall (.agentFileRead node vmid path))
  let content ← textOrEmpty (agentField raw "content")
  if Json.truthy (agentField raw "truncated") then .fail fileTooLarge
  else orOther (decodeGuestFileContent content agentFileMaxBytes)

def writeFile (node : Text) (vmid : Nat) (path : Text) (body : List UInt8) : AgentDialogue Unit :=
  if body.length > agentFileMaxBytes then .fail fileTooLarge
  else do
    let _ ← agentCall (.agentFileWrite node vmid path (base64Encode body))
    return ()

inductive GuestFileOp : Type
  | list
  | read
  | write
  | mkdir
  | delete
  | rename
  | uploadState
deriving DecidableEq

structure GuestFileRequest where
  node : Option Text
  vmid : Nat
  op : GuestFileOp
  path : Text
  toPath : Option Text
  contentBase64 : Option Text

structure GuestFileResult where
  path : Text
  entries : Option (List GuestFileEntry) := none
  name : Option Text := none
  size : Option Nat := none
  contentBase64 : Option Text := none

/-- The switch over the operations. -/
def agentOperation (compare : Text → Text → Int) (request : GuestFileRequest) (node path : Text) :
    AgentDialogue GuestFileResult :=
  match request.op with
  | .list => do
      let entries ← listDir compare node request.vmid path
      return { path := path, entries := some entries }
  | .read => do
      let buf ← readFile node request.vmid path
      let name ← orOther (guestFileName path)
      return { path := path, name := some name, size := some buf.length,
               contentBase64 := some (base64Encode buf) }
  | .write => do
      let buf ← orOther (decodeGuestFileContent (request.contentBase64.getD []) agentFileMaxBytes)
      writeFile node request.vmid path buf
      let name ← orOther (guestFileName path)
      return { path := path, name := some name, size := some buf.length }
  | .mkdir => do
      let _ ← agentExecOk node request.vmid ["mkdir", "--", path]
      return { path := path }
  | .delete => do
      let _ ← Dialogue.rescue (agentExecOk node request.vmid ["rmdir", "--", path])
        fun _ => agentExecOk node request.vmid ["rm", "-f", "--", path]
      return { path := path }
  | .rename =>
      match resolveGuestPath (request.toPath.getD []) [] with
      | .error message => .fail (.validation message.toList)
      | .ok dest => do
          if path = "/" ∨ dest = "/" then
            .fail (.validation "Umbenennen nur im selben Ordner")
          else if (← orOther (guestPathParent path)) ≠ (← orOther (guestPathParent dest)) then
            .fail (.validation "Umbenennen nur im selben Ordner")
          else
            let held ← agentExec node request.vmid ["test", "-e", dest]
            if held.exitcode = .finite 0 then .fail (.validation "Ziel existiert schon")
            else
              let _ ← agentExecOk node request.vmid ["mv", "--", path, dest]
              let name ← orOther (guestFileName dest)
              return { path := dest, name := some name }
  | .uploadState => .fail (.validation "Unknown file operation")

def guestAgentFiles (compare : Text → Text → Int) (request : GuestFileRequest) :
    AgentDialogue GuestFileResult :=
  match resolveGuestPath (if request.path = [] then "/" else request.path) [] with
  | .error message => .fail (.validation message.toList)
  | .ok path =>
      let node := trim (request.node.getD [])
      if node = [] then .fail (.validation "Node fehlt")
      else
        (agentOperation compare request node path).rescue fun error => .fail (agentError error)

end Proxora
