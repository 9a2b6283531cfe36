import Proxora.Ecma.Doubles
import Proxora.Ecma.Maps
import Proxora.FederationAccess
import Proxora.GuestPaths
import Proxora.Histories
import Proxora.SftpTargets
import Proxora.SuitePaths

/-!
# Transfer tickets

`createGuestTransferTicket` and `takeGuestTransferTicket` of
`server/services/guest-file-tickets.ts`, with the checks of SSH ports and keys of
`lib/guest-files.ts`. All calls share one map; each of them first drops the tickets that have
expired, and a take that fails drops its ticket. A call reads the clock when it starts and a second
time later on, and `randomBytes` is given by the id that it returns; times are in milliseconds.

`get?_ticketsAfter` says which tickets the map has after a run, `transferTickets_law` which takes
succeed.
-/

namespace Proxora

open Ecma Histories

/-! ## SSH ports and keys -/

def clampSftpPort (port : Double) : Except String Double :=
  if !port.isInteger || port.lt (.finite 1) || (Double.finite 65535).lt port then
    .error "Invalid SSH port"
  else .ok port

def guestSshKeyMax : Nat := 32 * 1024

/-- What follows the line ends. -/
def nextLines : Text → List Text
  | [] => []
  | c :: rest => if isLineEnd c then rest :: nextLines rest else nextLines rest

/-- `-----BEGIN (OPENSSH |RSA |EC |DSA |ENCRYPTED )?PRIVATE KEY-----`. -/
def privateKeyHeaders : List Text :=
  [[], "OPENSSH ", "RSA ", "EC ", "DSA ", "ENCRYPTED "].map fun kind =>
    ("-----BEGIN " : Text) ++ kind ++ ("PRIVATE KEY-----" : Text)

def looksLikeSshPrivateKey (raw : Text) : Bool :=
  let text := trim raw
  if text = [] || guestSshKeyMax < utf16Length text then false
  else (text :: nextLines text).any fun line => privateKeyHeaders.any (startsWith line)

/-- With both fields given. -/
def hasGuestSshAuth (password privateKey : Text) : Bool :=
  trim password ≠ [] || looksLikeSshPrivateKey privateKey

/-! ## Tickets -/

def guestTransferTicketTtlMs : Rat := 30 * 60 * 1000

inductive GuestTransferMode : Type
  | download | upload
deriving DecidableEq, Repr

/-- The text of a mode. -/
def GuestTransferMode.name : GuestTransferMode → Text
  | .download => "download"
  | .upload => "upload"

/-- The mode of a text. -/
def transferMode (text : Text) : Option GuestTransferMode :=
  if text = "download" then some .download else if text = "upload" then some .upload else none

structure GuestTransferTicket where
  id : Text
  userId : Text
  hostId : Text
  kind : GuestKind
  node : Text
  vmid : Nat
  path : Text
  target : Text
  port : Double
  username : Text
  password : Text
  privateKey : Text
  passphrase : Text
  mode : GuestTransferMode
  expiresAt : Rat
deriving DecidableEq, Repr

/-- The argument of `createGuestTransferTicket`. -/
structure TicketInput where
  userId : Text
  hostId : Text
  kind : GuestKind
  node : Text
  vmid : Nat
  path : Text
  target : Text
  port : Option Double
  username : Text
  password : Option Text
  privateKey : Option Text
  passphrase : Option Text
  mode : Text
  expiresAt : Option Rat
deriving DecidableEq, Repr

/-- What `createGuestTransferTicket` returns. -/
structure IssuedTicket where
  ticket : Text
  path : Text
  name : Text
  mode : GuestTransferMode
deriving DecidableEq, Repr

/-- What is thrown: an `AppError`, or any other `Error`. -/
inductive Thrown : Type
  | app (error : AppError)
  | error (message : String)
deriving DecidableEq, Repr

abbrev Tickets : Type := Record GuestTransferTicket

def pruneTickets (now : Rat) (tickets : Tickets) : Tickets :=
  tickets.filter fun row => now < row.expiresAt

/-- The `try` block: path, target and port. -/
def sftpAddress (input : TicketInput) : Except String (Text × Text × Double) := do
  let path ← resolveGuestPath input.path []
  let target ← (isAllowedSftpTarget input.target).mapError String.ofList
  let port ← clampSftpPort (input.port.getD (.finite 22))
  return (path, target, port)

/-- The record that is stored; `written` is the clock when it is put together. -/
def ticketRow (input : TicketInput) (id : Text) (written : Rat) :
    Except AppError GuestTransferTicket :=
  match transferMode input.mode with
  | none => .error (validationError "Ungültiger Transfer")
  | some mode =>
      match sftpAddress input with
      | .error message => .error (validationError message)
      | .ok (path, target, port) =>
          let username := trim input.username
          let password := input.password.getD []
          let privateKey := (input.privateKey.map trim).getD []
          let passphrase := input.passphrase.getD []
          if username = [] ∨ 64 < utf16Length username then
            .error (validationError "SSH-Benutzer fehlt")
          else if !hasGuestSshAuth password privateKey then
            .error (validationError "SSH-Passwort oder Schlüssel fehlt")
          else if privateKey ≠ [] ∧ !looksLikeSshPrivateKey privateKey then
            .error (validationError "Ungültiger SSH-Schlüssel")
          else
            .ok
              { id, userId := input.userId, hostId := input.hostId, kind := input.kind,
                node := input.node, vmid := input.vmid, path, target, port, username, password,
                privateKey, passphrase, mode,
                expiresAt := input.expiresAt.getD (written + guestTransferTicketTtlMs) }

/-- The answer, and the tickets after it; `id` is what `randomBytes` gives. -/
def createGuestTransferTicket (input : TicketInput) (id : Text) (started written : Rat)
    (tickets : Tickets) : Except Thrown IssuedTicket × Tickets :=
  let tickets := pruneTickets started tickets
  match ticketRow input id written with
  | .error error => (.error (.app error), tickets)
  | .ok row =>
      let tickets := tickets.set id row
      match guestFileName row.path with
      | .error message => (.error (.error message), tickets)
      | .ok name => (.ok ⟨id, row.path, name, row.mode⟩, tickets)

/-- The answer, and the tickets after it. -/
def takeGuestTransferTicket (id userId : Text) (mode : GuestTransferMode) (started checked : Rat)
    (tickets : Tickets) : Except AppError GuestTransferTicket × Tickets :=
  let tickets := pruneTickets started tickets
  let failed := (.error (notFoundError "Transfer abgelaufen oder ungültig"), tickets.delete id)
  match tickets.get? id with
  | none => failed
  | some row =>
      if row.userId ≠ userId ∨ row.mode ≠ mode ∨ row.expiresAt ≤ checked then failed
      else (.ok row, tickets)

/-! ## Runs -/

inductive TicketCall : Type
  | create (input : TicketInput) (id : Text) (started written : Rat)
  | take (id userId : Text) (mode : GuestTransferMode) (started checked : Rat)
deriving DecidableEq, Repr

namespace TicketCall

/-- The ticket that the call is about. -/
def id : TicketCall → Text
  | create _ id _ _ => id
  | take id _ _ _ _ => id

/-- The clock when the call starts. -/
def started : TicketCall → Rat
  | create _ _ started _ => started
  | take _ _ _ started _ => started

/-- The clock when the call reads it, in order. -/
def readings : TicketCall → List Rat
  | create _ _ started written => [started, written]
  | take _ _ _ started checked => [started, checked]

/-- The tickets after a call. -/
def apply (tickets : Tickets) : TicketCall → Tickets
  | create input id started written =>
      (createGuestTransferTicket input id started written tickets).2
  | take id userId mode started checked =>
      (takeGuestTransferTicket id userId mode started checked tickets).2

/-- The ticket that the call puts into the map. -/
def made : TicketCall → Option GuestTransferTicket
  | create input id _ written => (ticketRow input id written).toOption
  | take .. => none

end TicketCall

/-- The tickets after a run. -/
def ticketsAfter (calls : List TicketCall) : Tickets := calls.foldl TicketCall.apply Record.empty

/-- The clock does not go back. -/
def InOrder (calls : List TicketCall) : Prop := (calls.flatMap TicketCall.readings).Pairwise (· ≤ ·)

/-- No two tickets get the same id. -/
def FreshIds (calls : List TicketCall) : Prop :=
  ((calls.filterMap TicketCall.made).map GuestTransferTicket.id).Nodup

instance (calls : List TicketCall) : Decidable (InOrder calls) :=
  inferInstanceAs (Decidable (List.Pairwise _ _))

instance (calls : List TicketCall) : Decidable (FreshIds calls) :=
  inferInstanceAs (Decidable (List.Nodup _))

/-! ## What the law is about -/

/-- The record of a ticket that was created with `input`. -/
structure CreatedAs (input : TicketInput) (id : Text) (written : Rat) (row : GuestTransferTicket) :
    Prop where
  id : row.id = id
  userId : row.userId = input.userId
  hostId : row.hostId = input.hostId
  kind : row.kind = input.kind
  node : row.node = input.node
  vmid : row.vmid = input.vmid
  path : resolveGuestPath input.path [] = .ok row.path
  target : isAllowedSftpTarget input.target = .ok row.target
  port : row.port = input.port.getD (.finite 22)
  username : row.username = trim input.username
  password : row.password = input.password.getD []
  privateKey : row.privateKey = (input.privateKey.map trim).getD []
  passphrase : row.passphrase = input.passphrase.getD []
  mode : row.mode.name = input.mode
  expiresAt : row.expiresAt = input.expiresAt.getD (written + guestTransferTicketTtlMs)

/-- A call that creates the ticket `id` for the user and the mode, with its record. -/
def CreatedFor (id userId : Text) (mode : GuestTransferMode) (row : GuestTransferTicket)
    (past : List TicketCall) (call : TicketCall) : Prop :=
  ∃ input made started written issued, call = .create input made started written ∧
    (createGuestTransferTicket input made started written (ticketsAfter past)).1 = .ok issued ∧
    issued.ticket = id ∧ input.userId = userId ∧ input.mode = mode.name ∧
    CreatedAs input id written row

/-- A take of the ticket `id`, by whomever, that fails. -/
def FailedTake (id : Text) (past : List TicketCall) (call : TicketCall) : Prop :=
  ∃ userId mode started checked error, call = .take id userId mode started checked ∧
    (takeGuestTransferTicket id userId mode started checked (ticketsAfter past)).1 = .error error

/-! ## The record -/

section

variable {input : TicketInput} {id other userId : Text} {mode : GuestTransferMode}
  {started written checked : Rat} {row : GuestTransferTicket} {tickets : Tickets}
  {call : TicketCall} {calls : List TicketCall}

theorem transferMode_eq_some_iff {text : Text} :
    transferMode text = some mode ↔ text = mode.name := by
  unfold transferMode
  constructor
  · intro parsed
    split_ifs at parsed with download upload
    · cases parsed
      exact download
    · cases parsed
      exact upload
  · intro named
    rw [named]
    cases mode <;> rfl

theorem eq_of_clampSftpPort {port clamped : Double} (fine : clampSftpPort port = .ok clamped) :
    clamped = port := by
  unfold clampSftpPort at fine
  split at fine
  · cases fine
  · cases fine
    rfl

theorem sftpAddress_eq_ok {path target : Text} {port : Double}
    (done : sftpAddress input = .ok (path, target, port)) :
    resolveGuestPath input.path [] = .ok path ∧ isAllowedSftpTarget input.target = .ok target ∧
      port = input.port.getD (.finite 22) := by
  unfold sftpAddress at done
  cases resolved : resolveGuestPath input.path [] with
  | error message =>
      rw [resolved] at done
      cases done
  | ok _ =>
      rw [resolved] at done
      cases allowed : isAllowedSftpTarget input.target with
      | error message =>
          rw [allowed] at done
          cases done
      | ok _ =>
          rw [allowed] at done
          cases clamped : clampSftpPort (input.port.getD (.finite 22)) with
          | error message =>
              rw [clamped] at done
              cases done
          | ok _ =>
              rw [clamped] at done
              cases done
              exact ⟨rfl, rfl, eq_of_clampSftpPort clamped⟩

theorem createdAs_of_ticketRow (done : ticketRow input id written = .ok row) :
    CreatedAs input id written row := by
  unfold ticketRow at done
  split at done
  · cases done
  · next parsed =>
    split at done
    · cases done
    · next address =>
      obtain ⟨path, target, port⟩ := sftpAddress_eq_ok address
      have named := transferMode_eq_some_iff.mp parsed
      dsimp only at done
      split_ifs at done
      cases done
      exact ⟨rfl, rfl, rfl, rfl, rfl, rfl, path, target, port, rfl, rfl, rfl, rfl, named.symm, rfl⟩

/-- The record is determined by the input. -/
theorem CreatedAs.unique {twin : GuestTransferTicket} (made : CreatedAs input id written row)
    (again : CreatedAs input id written twin) : row = twin := by
  have path : row.path = twin.path := Except.ok.inj (made.path.symm.trans again.path)
  have target : row.target = twin.target := Except.ok.inj (made.target.symm.trans again.target)
  have mode : row.mode = twin.mode :=
    Option.some.inj ((transferMode_eq_some_iff.mpr made.mode.symm).symm.trans
      (transferMode_eq_some_iff.mpr again.mode.symm))
  cases row
  cases twin
  rw [GuestTransferTicket.mk.injEq]
  exact ⟨made.id.trans again.id.symm, made.userId.trans again.userId.symm,
    made.hostId.trans again.hostId.symm, made.kind.trans again.kind.symm,
    made.node.trans again.node.symm, made.vmid.trans again.vmid.symm, path, target,
    made.port.trans again.port.symm, made.username.trans again.username.symm,
    made.password.trans again.password.symm, made.privateKey.trans again.privateKey.symm,
    made.passphrase.trans again.passphrase.symm, mode, made.expiresAt.trans again.expiresAt.symm⟩

/-- The path of a record has a name. -/
theorem guestFileName_of_createdAs (made : CreatedAs input id written row) :
    ∃ name, guestFileName row.path = .ok name := by
  rw [guestFileName, resolveGuestPath_resolved made.path]
  exact ⟨_, rfl⟩

theorem createGuestTransferTicket_of_error {error : AppError}
    (refused : ticketRow input id written = .error error) :
    createGuestTransferTicket input id started written tickets =
      (.error (.app error), pruneTickets started tickets) := by
  rw [createGuestTransferTicket, refused]

theorem createGuestTransferTicket_of_ok (started : Rat) (tickets : Tickets)
    (done : ticketRow input id written = .ok row) :
    ∃ name, createGuestTransferTicket input id started written tickets =
      (.ok ⟨id, row.path, name, row.mode⟩, (pruneTickets started tickets).set id row) := by
  obtain ⟨name, named⟩ := guestFileName_of_createdAs (createdAs_of_ticketRow done)
  rw [createGuestTransferTicket, done]
  dsimp only
  rw [named]
  exact ⟨name, rfl⟩

/-! ## The map -/

theorem get?_pruneTickets : (pruneTickets started tickets).get? other =
    (tickets.get? other).filter fun row => started < row.expiresAt :=
  Record.get?_filter

theorem get?_pruneTickets_eq_some_iff : (pruneTickets started tickets).get? other = some row ↔
    tickets.get? other = some row ∧ started < row.expiresAt := by
  rw [get?_pruneTickets, Option.filter_eq_some_iff, decide_eq_true_iff]

/-- A take leaves what is not expired, without its own ticket if it fails. -/
theorem takeGuestTransferTicket_cases (id userId : Text) (mode : GuestTransferMode)
    (started checked : Rat) (tickets : Tickets) :
    (∃ row, takeGuestTransferTicket id userId mode started checked tickets =
        (.ok row, pruneTickets started tickets)) ∨
      ∃ error, takeGuestTransferTicket id userId mode started checked tickets =
        (.error error, (pruneTickets started tickets).delete id) := by
  rw [takeGuestTransferTicket]
  split
  · exact .inr ⟨_, rfl⟩
  · split
    · exact .inr ⟨_, rfl⟩
    · exact .inl ⟨_, rfl⟩

theorem takeGuestTransferTicket_eq_ok_iff :
    (takeGuestTransferTicket id userId mode started checked tickets).1 = .ok row ↔
      tickets.get? id = some row ∧ started < row.expiresAt ∧ row.userId = userId ∧
        row.mode = mode ∧ checked < row.expiresAt := by
  rw [← and_assoc, ← get?_pruneTickets_eq_some_iff, takeGuestTransferTicket]
  cases held : (pruneTickets started tickets).get? id with
  | none => simp
  | some found =>
      dsimp only
      split
      · next refused =>
        refine iff_of_false (fun done => by cases done) fun fine => ?_
        obtain ⟨same, user, kind, lasts⟩ := fine
        cases same
        rcases refused with other | other | expired
        · exact other user
        · exact other kind
        · exact absurd lasts (not_lt_of_ge expired)
      · next accepted =>
        rw [not_or, not_or, not_not, not_not, not_le] at accepted
        constructor
        · intro same
          cases same
          exact ⟨rfl, accepted⟩
        · intro fine
          cases fine.1
          rfl

/-- What ends a ticket: it has expired, another one is put in its place, or a take fails. -/
def Dropped (id : Text) (row : GuestTransferTicket) (past : List TicketCall) (call : TicketCall) :
    Prop :=
  row.expiresAt ≤ call.started ∨ (∃ made, call.made = some made ∧ made.id = id) ∨
    FailedTake id past call

theorem ticketsAfter_snoc :
    ticketsAfter (calls ++ [call]) = call.apply (ticketsAfter calls) := by
  rw [ticketsAfter, List.foldl_append]
  rfl

theorem get?_ticketsAfter_create {input : TicketInput} :
    (ticketsAfter (calls ++ [.create input id started written])).get? other = some row ↔
      ((TicketCall.create input id started written).made = some row ∧ row.id = other) ∨
        (ticketsAfter calls).get? other = some row ∧
          ¬ Dropped other row calls (.create input id started written) := by
  have noTake : ¬ FailedTake other calls (.create input id started written) := by
    intro failed
    obtain ⟨_, _, _, _, _, same, -⟩ := failed
    cases same
  rw [ticketsAfter_snoc, TicketCall.apply, TicketCall.made, Dropped, TicketCall.made,
    TicketCall.started, or_iff_left noTake, not_or, not_le]
  cases done : ticketRow input id written with
  | error error =>
      rw [createGuestTransferTicket_of_error done, get?_pruneTickets_eq_some_iff]
      simp [Except.toOption]
  | ok made =>
      obtain ⟨name, created⟩ := createGuestTransferTicket_of_ok started (ticketsAfter calls) done
      have key : made.id = id := (createdAs_of_ticketRow done).id
      rw [created, Record.get?_set]
      have put : (∃ twin, some made = some twin ∧ twin.id = other) ↔ other = id := by
        constructor
        · intro taken
          obtain ⟨twin, same, named⟩ := taken
          rw [← named, ← Option.some.inj same, key]
        · intro same
          exact ⟨made, rfl, same ▸ key⟩
      rw [Except.toOption, put]
      split_ifs with same
      · constructor
        · intro held
          exact .inl ⟨held, same ▸ Option.some.inj held ▸ key⟩
        · intro held
          rcases held with ⟨held, -⟩ | ⟨-, -, apart⟩
          · exact held
          · exact absurd same apart
      · rw [get?_pruneTickets_eq_some_iff]
        constructor
        · intro held
          exact .inr ⟨held.1, held.2, same⟩
        · intro held
          rcases held with ⟨twin, named⟩ | ⟨held, lasts, -⟩
          · exact absurd (put.mp ⟨row, twin, named⟩) same
          · exact ⟨held, lasts⟩

theorem get?_ticketsAfter_take :
    (ticketsAfter (calls ++ [.take id userId mode started checked])).get? other = some row ↔
      (ticketsAfter calls).get? other = some row ∧
        ¬ Dropped other row calls (.take id userId mode started checked) := by
  have nothing : ¬ ∃ made, (TicketCall.take id userId mode started checked).made = some made ∧
      made.id = other := by
    intro put
    obtain ⟨_, same, -⟩ := put
    cases same
  rw [ticketsAfter_snoc, TicketCall.apply, Dropped, or_iff_right nothing, TicketCall.started,
    not_or, not_le]
  rcases takeGuestTransferTicket_cases id userId mode started checked (ticketsAfter calls) with
    ⟨taken, done⟩ | ⟨error, done⟩
  · have fine : ¬ FailedTake other calls (.take id userId mode started checked) := by
      intro failed
      obtain ⟨_, _, _, _, _, same, refused⟩ := failed
      cases same
      rw [done] at refused
      cases refused
    rw [done, get?_pruneTickets_eq_some_iff, and_iff_left fine]
  · have failed : FailedTake other calls (.take id userId mode started checked) ↔ other = id := by
      constructor
      · intro failed
        obtain ⟨_, _, _, _, _, same, -⟩ := failed
        cases same
        rfl
      · intro same
        rw [same]
        exact ⟨userId, mode, started, checked, error, rfl, by rw [done]⟩
    rw [done, Record.get?_delete, failed]
    split_ifs with same
    · exact iff_of_false (fun held => by cases held) fun held => held.2.2 same
    · rw [get?_pruneTickets_eq_some_iff, and_iff_left same]

/-- What one call does to the map. -/
theorem get?_ticketsAfter_snoc : (ticketsAfter (calls ++ [call])).get? id = some row ↔
    (call.made = some row ∧ row.id = id) ∨
      (ticketsAfter calls).get? id = some row ∧ ¬ Dropped id row calls call := by
  cases call with
  | create input made started written => exact get?_ticketsAfter_create
  | take made userId mode started checked =>
      refine get?_ticketsAfter_take.trans (or_iff_right fun put => ?_).symm
      cases put.1

/-- **The map after a run.** It has the tickets that were put into it and not dropped since. -/
theorem get?_ticketsAfter : (ticketsAfter calls).get? id = some row ↔
    Since (fun _ call => call.made = some row ∧ row.id = id) (Dropped id row) calls := by
  refine iff_since (fun calls => (ticketsAfter calls).get? id = some row) ?_ ?_ calls
  · intro held
    cases held
  · exact fun _ _ => get?_ticketsAfter_snoc

theorem exists_of_made (made : call.made = some row) : ∃ input id started written,
    call = .create input id started written ∧ ticketRow input id written = .ok row := by
  cases call with
  | take => cases made
  | create input id started written =>
      refine ⟨input, id, started, written, rfl, ?_⟩
      cases stored : ticketRow input id written with
      | error error =>
          rw [TicketCall.made, stored] at made
          cases made
      | ok twin =>
          rw [TicketCall.made, stored] at made
          cases made
          rfl

theorem id_of_made (made : call.made = some row) : row.id = call.id := by
  obtain ⟨input, id, started, written, rfl, stored⟩ := exists_of_made made
  exact (createdAs_of_ticketRow stored).id

/-- A call leaves the tickets with other ids that are not expired. -/
theorem get?_ticketsAfter_of_ne (apart : call.id ≠ other) (lasts : call.started < row.expiresAt) :
    (ticketsAfter (calls ++ [call])).get? other = some row ↔
      (ticketsAfter calls).get? other = some row := by
  have kept : ¬ Dropped other row calls call := by
    intro dropped
    rcases dropped with expired | ⟨made, put, named⟩ | failed
    · exact absurd lasts (not_lt_of_ge expired)
    · exact apart ((id_of_made put).symm.trans named)
    · obtain ⟨_, _, _, _, _, rfl, -⟩ := failed
      exact apart rfl
  rw [get?_ticketsAfter_snoc, and_iff_left kept, or_iff_right]
  intro put
  exact apart ((id_of_made put.1).symm.trans put.2)

/-! ## Runs with a clock and fresh ids -/

theorem InOrder.started_le
    (ordered : InOrder (calls ++ [.take id userId mode started checked])) (member : call ∈ calls) :
    call.started ≤ checked := by
  unfold InOrder at ordered
  rw [List.flatMap_append, List.pairwise_append] at ordered
  have reading : call.started ∈ calls.flatMap TicketCall.readings := by
    refine List.mem_flatMap.mpr ⟨call, member, ?_⟩
    cases call <;> exact List.mem_cons_self
  have last : checked ∈ [TicketCall.take id userId mode started checked].flatMap
      TicketCall.readings := by
    simp [TicketCall.readings]
  exact ordered.2.2 _ reading _ last

theorem InOrder.started_le_checked
    (ordered : InOrder (calls ++ [.take id userId mode started checked])) : started ≤ checked := by
  unfold InOrder at ordered
  rw [List.flatMap_append, List.pairwise_append] at ordered
  exact List.rel_of_pairwise_cons ordered.2.1 List.mem_cons_self

theorem FreshIds.apart {past later : List TicketCall} {again : TicketCall}
    {twin : GuestTransferTicket} (fresh : FreshIds (past ++ call :: later))
    (made : call.made = some row) (member : again ∈ later) (put : again.made = some twin) :
    twin.id ≠ row.id := by
  intro same
  unfold FreshIds at fresh
  rw [List.filterMap_append, List.map_append, List.filterMap_cons_some made, List.map_cons] at fresh
  have absent := (List.nodup_cons.mp (List.nodup_append.mp fresh).2.1).1
  rw [← same] at absent
  exact absent (List.mem_map_of_mem (List.mem_filterMap.mpr ⟨again, member, put⟩))

/-- A call that creates the ticket puts its record into the map. -/
theorem CreatedFor.made {past : List TicketCall}
    (created : CreatedFor id userId mode row past call) :
    call.made = some row ∧ row.id = id ∧ row.userId = userId ∧ row.mode = mode := by
  obtain ⟨input, made, started, written, issued, rfl, done, ticket, user, kind, recorded⟩ := created
  cases stored : ticketRow input made written with
  | error error =>
      rw [createGuestTransferTicket_of_error stored] at done
      cases done
  | ok twin =>
      obtain ⟨name, form⟩ := createGuestTransferTicket_of_ok started (ticketsAfter past) stored
      rw [form] at done
      cases done
      change made = id at ticket
      rw [← ticket] at recorded
      have same := recorded.unique (createdAs_of_ticketRow stored)
      have named : some row.mode = some mode := by
        rw [← transferMode_eq_some_iff.mpr recorded.mode.symm,
          ← transferMode_eq_some_iff.mpr kind]
      refine ⟨?_, recorded.id.trans ticket, recorded.userId.trans user, Option.some.inj named⟩
      rw [TicketCall.made, stored, same]
      rfl

theorem createdFor_of_made {past : List TicketCall} (made : call.made = some row) :
    CreatedFor row.id row.userId row.mode row past call := by
  obtain ⟨input, id, started, written, rfl, stored⟩ := exists_of_made made
  obtain ⟨name, form⟩ := createGuestTransferTicket_of_ok started (ticketsAfter past) stored
  have recorded := createdAs_of_ticketRow stored
  refine ⟨input, id, started, written, _, rfl, by rw [form], recorded.id.symm,
    recorded.userId.symm, recorded.mode.symm, ?_⟩
  rw [recorded.id]
  exact recorded

/-- A ticket that is in the map at the end was created, and no take of it has failed since. -/
theorem createdFor_of_held (held : (ticketsAfter calls).get? id = some row) :
    Since (CreatedFor id row.userId row.mode row) (FailedTake id) calls := by
  obtain ⟨past, call, later, place, ⟨made, named⟩, kept⟩ := get?_ticketsAfter.mp held
  refine ⟨past, call, later, place, named ▸ createdFor_of_made made, fun failed => kept ?_⟩
  exact failed.of_imp fun _ _ _ _ take => .inr (.inr take)

/-- With a clock and fresh ids, nothing but a failed take drops a ticket that is not expired. -/
theorem held_of_createdFor
    (ordered : InOrder (calls ++ [.take id userId mode started checked])) (fresh : FreshIds calls)
    (created : Since (CreatedFor id userId mode row) (FailedTake id) calls)
    (lasts : checked < row.expiresAt) : (ticketsAfter calls).get? id = some row := by
  obtain ⟨past, call, later, place, created, kept⟩ := created
  obtain ⟨made, named, -, -⟩ := created.made
  refine get?_ticketsAfter.mpr ⟨past, call, later, place, ⟨made, named⟩, fun dropped => kept ?_⟩
  refine dropped.of_imp fun middle again rest within why => ?_
  have member : again ∈ later := by
    rw [within]
    exact List.mem_append_right middle List.mem_cons_self
  rcases why with expired | ⟨twin, put, same⟩ | take
  · have inCalls : again ∈ calls := by
      rw [place]
      exact List.mem_append_right past (List.mem_cons_of_mem call member)
    exact absurd (expired.trans (ordered.started_le inCalls)) (not_le_of_gt lasts)
  · rw [place] at fresh
    exact absurd (same.trans named.symm) (fresh.apart made member put)
  · exact take

/-- **Transfer tickets.** A take succeeds if and only if the ticket was created for this user and
this mode, no take of it has failed since, and it has not expired; it returns the record as created.
No call changes another ticket that is not expired. -/
theorem transferTickets_law
    (ordered : InOrder (calls ++ [.take id userId mode started checked])) (fresh : FreshIds calls) :
    ((takeGuestTransferTicket id userId mode started checked (ticketsAfter calls)).1 = .ok row ↔
        Since (CreatedFor id userId mode row) (FailedTake id) calls ∧ checked < row.expiresAt) ∧
      ∀ call other, call.id ≠ other → call.started < row.expiresAt →
        ((ticketsAfter (calls ++ [call])).get? other = some row ↔
          (ticketsAfter calls).get? other = some row) := by
  refine ⟨?_, fun call other apart lasts => get?_ticketsAfter_of_ne apart lasts⟩
  rw [takeGuestTransferTicket_eq_ok_iff]
  constructor
  · intro taken
    obtain ⟨held, -, rfl, rfl, lasts⟩ := taken
    exact ⟨createdFor_of_held held, lasts⟩
  · intro usable
    obtain ⟨created, lasts⟩ := usable
    have held := held_of_createdFor ordered fresh created lasts
    obtain ⟨_, _, _, _, made, _⟩ := created
    exact ⟨held, ordered.started_le_checked.trans_lt lasts, made.made.2.2.1, made.made.2.2.2, lasts⟩

end

/-! ## A run -/

/-- A transfer of a user. -/
def noteTransfer (userId mode : Text) : TicketInput where
  userId := userId
  hostId := "h1"
  kind := .lxc
  node := "pve"
  vmid := 101
  path := "/root/../note"
  target := "10.0.0.8"
  port := none
  username := "root "
  password := some "secret"
  privateKey := none
  passphrase := none
  mode := mode
  expiresAt := none

/-- Two users get a ticket, and the second one takes both. -/
def noteRun : List TicketCall :=
  [.create (noteTransfer "u1" "download") "t1" 0 1, .create (noteTransfer "u2" "upload") "t2" 2 3,
    .take "t2" "u2" .upload 4 5, .take "t2" "u2" .download 6 7, .take "t2" "u2" .upload 8 9]

/-- The record of the first ticket. -/
def noteRow : GuestTransferTicket where
  id := "t1"
  userId := "u1"
  hostId := "h1"
  kind := .lxc
  node := "pve"
  vmid := 101
  path := "/note"
  target := "10.0.0.8"
  port := .finite 22
  username := "root"
  password := "secret"
  privateKey := []
  passphrase := []
  mode := .download
  expiresAt := 1800001

theorem transferTickets_law_note :
    (takeGuestTransferTicket "t1" "u1" .download 10 1800000 (ticketsAfter noteRun)).1 =
        .ok noteRow ∧
      Since (CreatedFor "t1" "u1" .download noteRow) (FailedTake "t1") noteRun := by
  have law : (takeGuestTransferTicket "t1" "u1" .download 10 1800000 (ticketsAfter noteRun)).1 =
      .ok noteRow ↔ Since (CreatedFor "t1" "u1" .download noteRow) (FailedTake "t1") noteRun ∧
        (1800000 : Rat) < noteRow.expiresAt :=
    (transferTickets_law (by decide +kernel) (by decide +kernel)).1
  have taken : (takeGuestTransferTicket "t1" "u1" .download 10 1800000 (ticketsAfter noteRun)).1 =
      .ok noteRow := by
    decide +kernel
  exact ⟨taken, (law.mp taken).1⟩

end Proxora
