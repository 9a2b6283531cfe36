import Proxora.GuestEndpoints
import Proxora.GuestScope
import Proxora.Pairing
import Proxora.SocketEntries
import Proxora.TransferTickets

/-!
# Transfers of guest files

The routes around the transfer tickets: `guestFilesRoute` of `server/http/guest-files-route.ts`
gives a ticket out, `handleNodeGuestFileTransfer` of `server/http/guest-file-node.ts` and
`handleUploadSocket` of `server/ws/guest-file-upload.ts` take one and start to stream. Every request
brings what is looked up while it is handled, so that users, roles and hosts change in between as
they like.

`streams_authorised` says what stands behind every stream.
-/

namespace Proxora

open Ecma Histories

/-! ## Requests -/

/-- A request as `handleNodeGuestFileTransfer` and `assertSameOrigin` read it. -/
structure NodeRequest extends UpgradeRequest where
  method : Text
  fetchSite : Option Text
  referer : Option Text
deriving DecidableEq, Repr

/-- What is looked up for a transfer: the configured origins, the sessions, and the host rows, of
which the origin is kept. -/
structure TransferAnswers where
  appUrl : Text
  allowedOrigins : Text
  sessions : Text → Answer (Option SessionUser)
  hosts : String → Answer (Option HostOrigin)

/-- `findUnique` and `canAccessHost` of `getHostOrThrow`. -/
def TransferAnswers.host (answers : TransferAnswers) (user : SessionUser) (hostId : String) :
    Answer (Option HostOrigin) :=
  match answers.hosts hostId with
  | .gives (some origin) =>
      .gives (if canAccessHost user.toAccessScope hostId then some origin else none)
  | other => other

/-- The access that a mode needs. -/
def GuestTransferMode.access : GuestTransferMode → FileAccess
  | .download => .read
  | .upload => .write

/-- `userHasAnyPermission` for the one permission of a mode. -/
def permitsTransfer (user : SessionUser) (mode : GuestTransferMode) (guest : GuestScope) : Bool :=
  userHasAnyPermission user.holder [guestFilePermission guest.kind mode.access] (some guest.hostId)
    (some guest)

/-- `assertGuestAccess`. -/
def assertGuestAccess (user : SessionUser) (guest : GuestScope) : Except AppError Unit :=
  if canAccessGuest user.toAccessScope guest.hostId guest.kind guest.vmid then .ok ()
  else .error (notFoundError (guest.kind.pick "VM not found" "Container not found"))

/-- The guest of a ticket. -/
def GuestTransferTicket.guest (ticket : GuestTransferTicket) : GuestScope :=
  ⟨String.ofList ticket.hostId, ticket.kind, ticket.vmid⟩

/-- `Number(params.vmid)`, where it is an integer from 1 on. -/
def routeVmid (text : Text) : Option Nat :=
  match numberOfText text with
  | .finite value => if value.isInt && 1 ≤ value then some value.num.toNat else none
  | _ => none

def forbidden : AppError := forbiddenError "You do not have permission to perform this action"

/-! ## Giving out a ticket -/

/-- What the schema of `guestFilesRoute` reads, as far as a ticket needs it. -/
structure FilesBody where
  op : Text
  mode : Option Text
  via : Option Text
  target : Option Text
  port : Option Double
  username : Option Text
  password : Option Text
  privateKey : Option Text
  passphrase : Option Text
  path : Text
deriving DecidableEq, Repr

namespace FilesBody

def hasAuth (body : FilesBody) : Bool :=
  hasGuestSshAuth (body.password.getD []) (body.privateKey.getD [])

/-- `superRefine`: SSH needs a target, a user and something to sign in with. -/
def refined (body : FilesBody) : Bool :=
  let via := body.via.getD (if body.hasAuth then "sftp" else "agent")
  via ≠ ("sftp" : Text) ||
    ((body.target.getD []) ≠ [] && (body.username.getD []) ≠ [] && body.hasAuth)

def mutating (body : FilesBody) : Bool :=
  body.op ∈ (["write", "mkdir", "delete", "rename"] : List Text) ||
    (body.op = "transfer-ticket" && body.mode = some "upload")

/-- `mutating ? write : read`. -/
def permission (body : FilesBody) (kind : GuestKind) : Permission :=
  guestFilePermission kind (if body.mutating then .write else .read)

def route (body : FilesBody) (kind : GuestKind) : Text :=
  body.via.getD (if kind = .vm && !body.hasAuth then "agent" else "sftp")

end FilesBody

/-- A call of the route: its parameters, what `requireSession` and `apiRoute` found, and what
`assertLinuxGuestFiles` says. The body is what the schema lets through, `none` if nothing. -/
structure TicketRequest where
  kind : GuestKind
  hostId : Text
  node : Text
  vmid : Text
  session : Option SessionUser
  /-- `hostIdFromApiPath`. -/
  pathHost : Option String
  body : Option FilesBody
  hosts : TransferAnswers
  linux : Except AppError Unit

namespace TicketRequest

/-- The guest of the parameters. -/
def guest (req : TicketRequest) (vmid : Nat) : GuestScope :=
  ⟨String.ofList req.hostId, req.kind, vmid⟩

def input (req : TicketRequest) (user : SessionUser) (vmid : Nat) (body : FilesBody)
    (mode : GuestTransferMode) : TicketInput where
  userId := user.id.toList
  hostId := req.hostId
  kind := req.kind
  node := req.node
  vmid := vmid
  path := body.path
  target := body.target.getD []
  port := body.port
  username := body.username.getD []
  password := body.password
  privateKey := body.privateKey
  passphrase := body.passphrase
  mode := mode.name
  expiresAt := none

/-- What `createGuestTransferTicket` is called with; nothing for another operation. -/
def ticketInput (req : TicketRequest) : Except Thrown (Option TicketInput) :=
  match req.session with
  | none => .error (.app (unauthorizedError "Authentication required"))
  | some user =>
      let read := guestFilePermission req.kind .read
      let write := guestFilePermission req.kind .write
      let asked := (routeVmid req.vmid).map req.guest
      if !userHasAnyPermission user.holder [read, write] req.pathHost asked then
        .error (.app forbidden)
      else
        match routeVmid req.vmid with
        | none => .error (.app (validationError "Invalid VMID"))
        | some vmid =>
            match assertGuestAccess user (req.guest vmid), req.body with
            | .error error, _ => .error (.app error)
            | .ok (), none => .error (.app (validationError "Validation failed"))
            | .ok (), some body =>
                if !body.refined then .error (.app (validationError "SSH-Zugangsdaten fehlen"))
                else if !userHasPermission user.holder (body.permission req.kind)
                    (some (String.ofList req.hostId)) (some (req.guest vmid)) then
                  .error (.app forbidden)
                else if body.route req.kind = "agent" && req.kind ≠ .vm then
                  .error (.app (validationError
                    "Der QEMU Agent gibt es nur bei VMs. LXC braucht SSH im Container."))
                else
                  match req.hosts.host user (String.ofList req.hostId), req.linux with
                  | .fails, _ => .error (.error "Internal server error")
                  | .gives none, _ => .error (.app (notFoundError "Host not found"))
                  | .gives (some _), .error error => .error (.app error)
                  | .gives (some _), .ok () =>
                      if body.op ≠ "transfer-ticket" then .ok none
                      else if body.route req.kind ≠ "sftp" then
                        .error (.app (validationError "Stream-Transfer nur per SFTP"))
                      else
                        match body.mode.bind transferMode with
                        | none => .error (.app (validationError "Transfer-Modus fehlt"))
                        | some mode => .ok (some (req.input user vmid body mode))

end TicketRequest

/-! ## Taking a ticket over HTTP -/

/-- `path.replace(/\/+$/, "") || "/"`. -/
def withoutSlashes (path : Text) : Text :=
  let rest := path.rdropWhile (· = '/')
  if rest = [] then ['/'] else rest

def isGuestFileTransferPath (pathname : Text) : Bool :=
  let path := withoutSlashes (pathname.takeWhile (· ≠ '?'))
  (["/files/upload", "/files/download", "/guest-files/upload", "/guest-files/download"] :
    List Text).any (endsWith path)

/-- What a URL of a transfer names. -/
structure TransferTarget where
  hostId : Text
  kind : GuestKind
  node : Text
  vmid : Text
  mode : GuestTransferMode
deriving DecidableEq, Repr

/-- `HOST_FILES.exec(path)`: the host, the kind, the node, the number and the mode. -/
def hostFiles (path : Text) : Option TransferTarget :=
  match split '/' path with
  | [[], api, hosts, hostId, kind, node, vmid, files, mode] =>
      match (if kind = "vms" then some GuestKind.vm else if kind = "lxc" then some .lxc else none),
          transferMode mode with
      | some kind, some mode =>
          if api = "api" && hosts = "hosts" && files = "files" && hostId ≠ [] && node ≠ [] &&
              vmid ≠ [] then some ⟨hostId, kind, node, vmid, mode⟩
          else none
      | _, _ => none
  | _ => none

/-- No target, the target of a URL, or a `URIError`. -/
def matchHostFileTransfer (url : Text) : Option (Answer TransferTarget) :=
  let pathname := url.takeWhile (· ≠ '?')
  if !isGuestFileTransferPath pathname then none
  else
    match hostFiles (withoutSlashes pathname) with
    | none => none
    | some raw =>
        match decodeURIComponent raw.hostId, decodeURIComponent raw.node with
        | some hostId, some node => some (.gives { raw with hostId, node })
        | _, _ => some .fails

namespace TransferAnswers

/-- The answers as `handleUploadSocket` gets them; `take` takes a ticket for the user's uploads. -/
def upload (answers : TransferAnswers) (take : Text → SessionUser → Option GuestTransferTicket) :
    UploadAnswers SessionUser GuestTransferTicket where
  appUrl := answers.appUrl
  allowedOrigins := answers.allowedOrigins
  sessions := answers.sessions
  ticket := take
  permits := fun user ticket => permitsTransfer user .upload ticket.guest
  guestAccess := fun user ticket =>
    canAccessGuest user.toAccessScope ticket.guest.hostId ticket.kind ticket.vmid
  host := fun user ticket =>
    match answers.host user ticket.guest.hostId with
    | .gives origin => .gives (origin.map fun _ => ())
    | .fails => .fails

end TransferAnswers

/-- Whether `assertSameOrigin(request)` returns. -/
def assertSameOrigin (reader : UrlReader) (answers : TransferAnswers) (req : NodeRequest) : Bool :=
  let allowed (origin : Text) : Bool :=
    isAllowedOrigin reader (answers.upload fun _ _ => none) req.toUpgradeRequest origin
  if req.method ∈ (["GET", "HEAD", "OPTIONS"] : List Text) then true
  else if req.origin.getD [] ≠ [] then allowed (req.origin.getD [])
  else
    let fetchSite := req.fetchSite.map toLowerCase
    if fetchSite = some "cross-site" then false
    else if fetchSite ∈ ([some "same-origin", some "same-site", some "none"] :
        List (Option Text)) then true
    else if req.referer.getD [] = [] then true
    else
      match reader.newUrl none (req.referer.getD []) with
      | none => false
      | some url => url.origin ≠ [] && allowed url.origin

/-- How `handleNodeGuestFileTransfer` ends: the request is left to the next handler, its promise is
rejected, an error is answered, or the ticket is good; a `HEAD` ends there, and else the stream
starts. -/
inductive NodeEnding : Type
  | passed
  | rejected
  | refused (error : Thrown)
  | probed (ticket : GuestTransferTicket)
  | streams (ticket : GuestTransferTicket) (origin : HostOrigin)
deriving DecidableEq, Repr

/-- What `takeGuestTransferTicket` is called with, and the parameters of the URL. -/
structure NodeTake where
  ticketId : Text
  user : SessionUser
  target : TransferTarget
  vmid : Nat

/-- The methods that a mode is asked for with. -/
def GuestTransferMode.methods : GuestTransferMode → List Text
  | .upload => ["PUT"]
  | .download => ["GET", "HEAD"]

/-- `handleNodeGuestFileTransfer` up to the ticket. -/
def nodeTake (reader : UrlReader) (answers : TransferAnswers) (req : NodeRequest) :
    Except NodeEnding NodeTake :=
  match matchHostFileTransfer req.target with
  | none => .error .passed
  | some .fails => .error .rejected
  | some (.gives target) =>
      if toUpperCase req.method ∉ target.mode.methods then .error .passed
      else
        match headerRequest reader req.toUpgradeRequest with
        | none => .error (.refused (.error "Invalid URL"))
        | some url =>
            if !assertSameOrigin reader answers req then
              .error (.refused (.app ⟨"CSRF", "Invalid origin", 403⟩))
            else
              match cookieValue req.toUpgradeRequest sessionCookie with
              | none => .error (.refused (.error "URI malformed"))
              | some token =>
                  match getSessionFromToken answers.sessions token, routeVmid target.vmid with
                  | .fails, _ => .error (.refused (.error "Internal server error"))
                  | .gives none, _ =>
                      .error (.refused (.app (unauthorizedError "Authentication required")))
                  | .gives (some _), none =>
                      .error (.refused (.app (validationError "Invalid VMID")))
                  | .gives (some user), some vmid =>
                      let guest : GuestScope := ⟨String.ofList target.hostId, target.kind, vmid⟩
                      if !permitsTransfer user target.mode guest then
                        .error (.refused (.app forbidden))
                      else
                        let ticketId := trim ((url.searchParams.lookup ("ticket" : Text)).getD [])
                        if ticketId = [] || 80 < utf16Length ticketId then
                          .error (.refused
                            (.app (notFoundError "Transfer abgelaufen oder ungültig")))
                        else .ok ⟨ticketId, user, target, vmid⟩

/-- `handleNodeGuestFileTransfer` with its ticket. -/
def nodeStream (answers : TransferAnswers) (req : NodeRequest) (taken : NodeTake)
    (ticket : GuestTransferTicket) : NodeEnding :=
  if ticket.hostId ≠ taken.target.hostId ∨ ticket.kind ≠ taken.target.kind ∨
      ticket.node ≠ taken.target.node ∨ ticket.vmid ≠ taken.vmid then
    .refused (.app (notFoundError "Transfer abgelaufen oder ungültig"))
  else
    match assertGuestAccess taken.user ticket.guest with
    | .error error => .refused (.app error)
    | .ok () =>
        if taken.target.mode = .download && toUpperCase req.method = "HEAD" then .probed ticket
        else
          match answers.host taken.user (String.ofList taken.target.hostId) with
          | .fails => .refused (.error "Internal server error")
          | .gives none => .refused (.app (notFoundError "Host not found"))
          | .gives (some origin) => .streams ticket origin

def handleNodeGuestFileTransfer (reader : UrlReader) (answers : TransferAnswers)
    (req : NodeRequest) (started checked : Rat) (tickets : Tickets) : NodeEnding × Tickets :=
  match nodeTake reader answers req with
  | .error ending => (ending, tickets)
  | .ok taken =>
      match takeGuestTransferTicket taken.ticketId taken.user.id.toList taken.target.mode started
          checked tickets with
      | (.error error, tickets) => (.refused (.app error), tickets)
      | (.ok ticket, tickets) => (nodeStream answers req taken ticket, tickets)

/-! ## Taking a ticket over a WebSocket -/

/-- The ticket that `handleUploadSocket` takes, and the user it takes it for. -/
def socketTake {Session Ticket : Type} (reader : UrlReader) (answers : UploadAnswers Session Ticket)
    (req : UpgradeRequest) : Option (Text × Session) :=
  match req.url reader with
  | none => none
  | some url =>
      if !isGuestFileUploadWsPath url.pathname || headerRequest reader req = none ||
          req.origin.getD [] = [] ||
          !isAllowedOrigin reader answers req (req.origin.getD []) then none
      else
        match uploadSession answers req with
        | none => none
        | some session =>
            let ticketId := trim ((url.searchParams.lookup ("ticket" : Text)).getD [])
            if ticketId = [] || 80 < utf16Length ticketId then none else some (ticketId, session)

theorem closeSoon_ne_accepted {code : Nat} {reason : Text} : closeSoon code reason ≠ .accepted := by
  unfold closeSoon closeQuietly
  split <;> exact nofun

theorem openUpload_eq_accepted {Session Ticket : Type} {answers : UploadAnswers Session Ticket}
    {session : Session} {ticket : Ticket}
    (accepted : openUpload answers session ticket = .accepted) :
    answers.permits session ticket = true ∧ answers.guestAccess session ticket = true ∧
      answers.host session ticket = .gives (some ()) := by
  unfold openUpload at accepted
  split at accepted
  · exact absurd accepted closeSoon_ne_accepted
  · next permits =>
    split at accepted
    · exact absurd accepted closeSoon_ne_accepted
    · next access =>
      rw [Bool.not_eq_true', Bool.not_eq_false] at permits access
      refine ⟨permits, access, ?_⟩
      split at accepted
      · next found => exact found
      · exact absurd accepted closeSoon_ne_accepted
      · exact absurd accepted closeSoon_ne_accepted

/-- An upload that is accepted has taken its ticket. -/
theorem handleUploadSocket_eq_accepted {Session Ticket : Type} {reader : UrlReader}
    {answers : UploadAnswers Session Ticket} {req : UpgradeRequest}
    (accepted : handleUploadSocket reader answers req = .accepted) :
    ∃ ticketId session ticket, socketTake reader answers req = some (ticketId, session) ∧
      answers.ticket ticketId session = some ticket ∧
      openUpload answers session ticket = .accepted := by
  unfold handleUploadSocket at accepted
  cases parsed : req.url reader with
  | none =>
      rw [parsed] at accepted
      cases accepted
  | some url =>
      rw [parsed] at accepted
      dsimp only at accepted
      split at accepted
      · exact absurd accepted closeSoon_ne_accepted
      · next path =>
        split at accepted
        · cases accepted
        · next request built =>
          split at accepted
          · exact absurd accepted closeSoon_ne_accepted
          · next origin =>
            split at accepted
            · exact absurd accepted closeSoon_ne_accepted
            · next session found =>
              split at accepted
              · exact absurd accepted closeSoon_ne_accepted
              · next short =>
                split at accepted
                · exact absurd accepted closeSoon_ne_accepted
                · next ticket taken =>
                  refine ⟨_, session, ticket, ?_, taken, accepted⟩
                  unfold socketTake
                  rw [parsed, built, found]
                  dsimp only
                  rw [if_neg short, if_neg]
                  simp only [Bool.or_eq_true, not_or, decide_eq_true_eq] at origin ⊢
                  exact ⟨⟨⟨path, nofun⟩, origin.1⟩, origin.2⟩

/-! ## Runs -/

/-- A request that gives a ticket out, with the id that `randomBytes` gives, or one that takes a
ticket. -/
inductive TransferEvent : Type
  | issue (req : TicketRequest) (id : Text) (started written : Rat)
  | node (answers : TransferAnswers) (req : NodeRequest) (started checked : Rat)
  | socket (answers : TransferAnswers) (req : UpgradeRequest) (started checked : Rat)

/-- The ticket of an upload over a WebSocket. -/
def socketTicket (started checked : Rat) (tickets : Tickets) (ticketId : Text)
    (user : SessionUser) : Option GuestTransferTicket :=
  (takeGuestTransferTicket ticketId user.id.toList .upload started checked tickets).1.toOption

namespace TransferEvent

variable (reader : UrlReader)

/-- The tickets after a request. -/
def apply (tickets : Tickets) : TransferEvent → Tickets
  | issue req id started written =>
      match req.ticketInput with
      | .ok (some input) => (createGuestTransferTicket input id started written tickets).2
      | _ => tickets
  | node answers req started checked =>
      (handleNodeGuestFileTransfer reader answers req started checked tickets).2
  | socket answers req started checked =>
      match socketTake reader (answers.upload (socketTicket started checked tickets)) req with
      | some (ticketId, user) =>
          (takeGuestTransferTicket ticketId user.id.toList .upload started checked tickets).2
      | none => tickets

/-- The request starts to stream what the ticket says. -/
def Streams (tickets : Tickets) (ticket : GuestTransferTicket) : TransferEvent → Prop
  | issue .. => False
  | node answers req started checked =>
      ∃ origin, (handleNodeGuestFileTransfer reader answers req started checked tickets).1 =
        .streams ticket origin
  | socket answers req started checked =>
      let lookups := answers.upload (socketTicket started checked tickets)
      handleUploadSocket reader lookups req = .accepted ∧
        ∃ ticketId user, socketTake reader lookups req = some (ticketId, user) ∧
          socketTicket started checked tickets ticketId user = some ticket

/-- The cookie of the request has the session of the user. -/
def SignedIn (user : SessionUser) : TransferEvent → Prop
  | issue req _ _ _ => req.session = some user
  | node answers req _ _ =>
      ∃ token, cookieValue req.toUpgradeRequest sessionCookie = some (some token) ∧
        answers.sessions token = .gives (some user)
  | socket answers req _ _ =>
      ∃ token, cookieValue req sessionCookie = some (some token) ∧
        answers.sessions token = .gives (some user)

/-- What the URL asks for is what the ticket is for. -/
def AsksFor (ticket : GuestTransferTicket) : TransferEvent → Prop
  | issue .. => False
  | node _ req _ _ =>
      ∃ target, matchHostFileTransfer req.target = some (.gives target) ∧
        target.hostId = ticket.hostId ∧ target.kind = ticket.kind ∧ target.node = ticket.node ∧
        routeVmid target.vmid = some ticket.vmid ∧ target.mode = ticket.mode
  | socket .. => ticket.mode = .upload

/-- The clock when the ticket is looked at. -/
def checked : TransferEvent → Rat
  | issue _ _ _ written => written
  | node _ _ _ checked => checked
  | socket _ _ _ checked => checked

/-- The call of the ticket functions that a request makes. -/
def ticketCall : TransferEvent → Option TicketCall
  | issue req id started written =>
      match req.ticketInput with
      | .ok (some input) => some (.create input id started written)
      | _ => none
  | node answers req started checked =>
      match nodeTake reader answers req with
      | .ok taken =>
          some (.take taken.ticketId taken.user.id.toList taken.target.mode started checked)
      | .error _ => none
  | socket answers req started checked =>
      match socketTake reader (answers.upload fun _ _ => none) req with
      | some (ticketId, user) => some (.take ticketId user.id.toList .upload started checked)
      | none => none

end TransferEvent

/-- The tickets after the requests. -/
def heldTickets (reader : UrlReader) (events : List TransferEvent) : Tickets :=
  events.foldl (TransferEvent.apply reader) Record.empty

/-- The user has the permission that the mode of the ticket needs, and access to its guest. -/
structure MayTransfer (user : SessionUser) (ticket : GuestTransferTicket) : Prop where
  permission : userHasPermission user.holder
    (guestFilePermission ticket.kind ticket.mode.access) (some (String.ofList ticket.hostId))
    (some ticket.guest) = true
  access : canAccessGuest user.toAccessScope (String.ofList ticket.hostId) ticket.kind
    ticket.vmid = true

/-! ## Requests as calls of the ticket functions -/

section

variable {reader : UrlReader} {answers : TransferAnswers} {req : NodeRequest} {user : SessionUser}
  {ticket : GuestTransferTicket} {tickets : Tickets} {started checked : Rat} {taken : NodeTake}
  {events : List TransferEvent} {e : TransferEvent}

/-- What is taken does not depend on what is given for it. -/
theorem socketTake_upload {upload : UpgradeRequest}
    {take : Text → SessionUser → Option GuestTransferTicket} :
    socketTake reader (answers.upload take) upload =
      socketTake reader (answers.upload fun _ _ => none) upload :=
  rfl

theorem apply_eq (e : TransferEvent) :
    e.apply reader tickets = ((e.ticketCall reader).map (·.apply tickets)).getD tickets := by
  cases e with
  | issue req id started written =>
      rw [TransferEvent.apply, TransferEvent.ticketCall]
      cases req.ticketInput with
      | error error => rfl
      | ok input => cases input <;> rfl
  | node answers req started checked =>
      rw [TransferEvent.apply, TransferEvent.ticketCall, handleNodeGuestFileTransfer]
      cases nodeTake reader answers req with
      | error ending => rfl
      | ok taken =>
          dsimp only [Option.map_some, Option.getD_some, TicketCall.apply]
          cases takeGuestTransferTicket taken.ticketId taken.user.id.toList taken.target.mode
              started checked tickets with
          | mk result rest => cases result <;> rfl
  | socket answers req started checked =>
      rw [TransferEvent.apply, TransferEvent.ticketCall, socketTake_upload]
      cases socketTake reader (answers.upload fun _ _ => none) req <;> rfl

/-- The requests do to the tickets what their calls do. -/
theorem heldTickets_eq (events : List TransferEvent) :
    heldTickets reader events = ticketsAfter (events.filterMap (·.ticketCall reader)) := by
  induction events using List.reverseRecOn with
  | nil => rfl
  | append_singleton events e ih =>
      rw [heldTickets, List.foldl_append, List.foldl_cons, List.foldl_nil, ← heldTickets, ih,
        apply_eq, List.filterMap_append]
      cases made : e.ticketCall reader with
      | none =>
          rw [List.filterMap_cons_none made, List.filterMap_nil, List.append_nil]
          rfl
      | some call =>
          rw [List.filterMap_cons_some made, List.filterMap_nil, ticketsAfter_snoc]
          rfl

/-! ## What a stream has passed -/

theorem permitsTransfer_iff {mode : GuestTransferMode} {guest : GuestScope} :
    permitsTransfer user mode guest = true ↔
      userHasPermission user.holder (guestFilePermission guest.kind mode.access)
        (some guest.hostId) (some guest) = true := by
  rw [permitsTransfer, userHasAnyPermission, List.any_cons, List.any_nil, Bool.or_false]

theorem getSessionFromToken_gives {Session : Type} {sessions : Text → Answer (Option Session)}
    {token : Option Text} {session : Session}
    (found : getSessionFromToken sessions token = .gives (some session)) :
    ∃ text, token = some text ∧ sessions text = .gives (some session) := by
  cases token with
  | none => cases found
  | some text =>
      rw [getSessionFromToken] at found
      split at found
      · cases found
      · exact ⟨text, rfl, found⟩

theorem uploadSession_eq_some {Session Ticket : Type} {upload : UploadAnswers Session Ticket}
    {session : Session} {req : UpgradeRequest} (found : uploadSession upload req = some session) :
    ∃ token, cookieValue req sessionCookie = some (some token) ∧
      upload.sessions token = .gives (some session) := by
  unfold uploadSession at found
  split at found
  · cases found
  · next token cookie =>
    split at found
    · next given =>
      rw [found] at given
      obtain ⟨text, rfl, gives⟩ := getSessionFromToken_gives given
      exact ⟨text, cookie, gives⟩
    · cases found

theorem assertGuestAccess_ok {guest : GuestScope} (done : assertGuestAccess user guest = .ok ()) :
    canAccessGuest user.toAccessScope guest.hostId guest.kind guest.vmid = true := by
  unfold assertGuestAccess at done
  split at done
  · next access => exact access
  · cases done

/-- What is asked before the ticket is taken. -/
theorem nodeTake_eq_ok (asked : nodeTake reader answers req = .ok taken) :
    matchHostFileTransfer req.target = some (.gives taken.target) ∧
      routeVmid taken.target.vmid = some taken.vmid ∧
      (∃ token, cookieValue req.toUpgradeRequest sessionCookie = some (some token) ∧
        answers.sessions token = .gives (some taken.user)) ∧
      permitsTransfer taken.user taken.target.mode
        ⟨String.ofList taken.target.hostId, taken.target.kind, taken.vmid⟩ = true := by
  unfold nodeTake at asked
  split at asked
  · cases asked
  · cases asked
  · next target named =>
    split at asked
    · cases asked
    · split at asked
      · cases asked
      · split at asked
        · cases asked
        · split at asked
          · cases asked
          · next token cookie =>
            split at asked
            · cases asked
            · cases asked
            · cases asked
            · next user vmid found number =>
              dsimp only at asked
              split at asked
              · cases asked
              · next permits =>
                split at asked
                · cases asked
                · cases asked
                  rw [Bool.not_eq_true', Bool.not_eq_false] at permits
                  obtain ⟨text, rfl, gives⟩ := getSessionFromToken_gives found
                  exact ⟨named, number, ⟨text, cookie, gives⟩, permits⟩

/-- Nothing is streamed before a ticket is taken. -/
theorem nodeTake_refuses {ending : NodeEnding} {origin : HostOrigin}
    (refused : nodeTake reader answers req = .error ending) :
    ending ≠ .streams ticket origin := by
  rintro rfl
  unfold nodeTake at refused
  grind

/-- What a stream has passed after its ticket was taken. -/
theorem nodeStream_eq_streams {given : GuestTransferTicket} {origin : HostOrigin}
    (streams : nodeStream answers req taken given = .streams ticket origin) :
    given = ticket ∧ given.hostId = taken.target.hostId ∧ given.kind = taken.target.kind ∧
      given.node = taken.target.node ∧ given.vmid = taken.vmid ∧
      canAccessGuest taken.user.toAccessScope given.guest.hostId given.kind given.vmid =
        true := by
  unfold nodeStream at streams
  split at streams
  · cases streams
  · next same =>
    simp only [not_or, not_not] at same
    obtain ⟨host, kind, node, vmid⟩ := same
    split at streams
    · cases streams
    · next access =>
      split at streams
      · cases streams
      · split at streams
        · cases streams
        · cases streams
        · cases streams
          exact ⟨rfl, host, kind, node, vmid, assertGuestAccess_ok access⟩

/-- A stream over HTTP has taken its ticket, which is for what the URL names. -/
theorem handleNodeGuestFileTransfer_streams {origin : HostOrigin}
    (streams : (handleNodeGuestFileTransfer reader answers req started checked tickets).1 =
      .streams ticket origin) :
    ∃ taken, nodeTake reader answers req = .ok taken ∧
      (takeGuestTransferTicket taken.ticketId taken.user.id.toList taken.target.mode started checked
        tickets).1 = .ok ticket ∧
      ticket.hostId = taken.target.hostId ∧ ticket.kind = taken.target.kind ∧
      ticket.node = taken.target.node ∧ ticket.vmid = taken.vmid ∧
      canAccessGuest taken.user.toAccessScope ticket.guest.hostId ticket.kind ticket.vmid =
        true := by
  unfold handleNodeGuestFileTransfer at streams
  split at streams
  · next ending refused => exact absurd streams (nodeTake_refuses refused)
  · next taken asked =>
    split at streams
    · cases streams
    · next found rest took =>
      obtain ⟨rfl, host, kind, node, vmid, access⟩ := nodeStream_eq_streams streams
      exact ⟨taken, asked, congrArg Prod.fst took, host, kind, node, vmid, access⟩

/-- A stream has taken its ticket for a user who may transfer what it is for. -/
theorem TransferEvent.Streams.took (streams : e.Streams reader tickets ticket) :
    ∃ user ticketId started, e.SignedIn user ∧ MayTransfer user ticket ∧ e.AsksFor ticket ∧
      e.ticketCall reader =
        some (.take ticketId user.id.toList ticket.mode started e.checked) ∧
      (takeGuestTransferTicket ticketId user.id.toList ticket.mode started e.checked tickets).1 =
        .ok ticket := by
  cases e with
  | issue => exact streams.elim
  | node answers req started checked =>
      obtain ⟨origin, streams⟩ := streams
      obtain ⟨taken, asked, took, host, kind, node, vmid, access⟩ :=
        handleNodeGuestFileTransfer_streams streams
      obtain ⟨named, number, signedIn, permits⟩ :=
        nodeTake_eq_ok asked
      have mode : ticket.mode = taken.target.mode :=
        (takeGuestTransferTicket_eq_ok_iff.mp took).2.2.2.1
      rw [permitsTransfer_iff, ← host, ← kind, ← vmid, ← mode] at permits
      refine ⟨taken.user, taken.ticketId, started, signedIn, ⟨permits, access⟩,
        ⟨taken.target, named, host.symm, kind.symm, node.symm, vmid ▸ number, mode.symm⟩, ?_, ?_⟩
      · rw [TransferEvent.ticketCall, asked, mode]
        rfl
      · rw [mode]
        exact took
  | socket answers req started checked =>
      obtain ⟨accepted, ticketId, user, took, found⟩ := streams
      obtain ⟨_, _, _, again, same, passed⟩ := handleUploadSocket_eq_accepted accepted
      cases took.symm.trans again
      cases found.symm.trans same
      obtain ⟨permits, access, -⟩ := openUpload_eq_accepted passed
      have done : (takeGuestTransferTicket ticketId user.id.toList .upload started checked
          tickets).1 = .ok ticket := by
        unfold socketTicket at found
        generalize (takeGuestTransferTicket ticketId user.id.toList .upload started checked
          tickets).1 = result at found ⊢
        cases result with
        | error error => cases found
        | ok given =>
            cases found
            rfl
      have mode : ticket.mode = .upload := (takeGuestTransferTicket_eq_ok_iff.mp done).2.2.2.1
      have signedIn : (TransferEvent.socket answers req started checked).SignedIn user := by
        rw [socketTake_upload] at took
        unfold socketTake at took
        split at took
        · cases took
        · split at took
          · cases took
          · split at took
            · cases took
            · next session cookie =>
              dsimp only at took
              split at took
              · cases took
              · cases took
                exact uploadSession_eq_some cookie
      refine ⟨user, ticketId, started, signedIn,
        ⟨?_, access⟩, mode, ?_, ?_⟩
      · rw [mode]
        exact permitsTransfer_iff.mp permits
      · rw [socketTake_upload] at took
        rw [TransferEvent.ticketCall, took, mode]
        rfl
      · rw [mode]
        exact done

/-! ## What a ticket was given out for -/

theorem eq_of_ticketInput {asked : TicketRequest} {input : TicketInput}
    (given : asked.ticketInput = .ok (some input)) :
    ∃ issuer body vmid mode, asked.session = some issuer ∧ asked.body = some body ∧
      routeVmid asked.vmid = some vmid ∧ body.mode = some (mode.name) ∧
      body.op = ("transfer-ticket" : Text) ∧ body.route asked.kind = ("sftp" : Text) ∧
      input = asked.input issuer vmid body mode ∧
      userHasPermission issuer.holder (guestFilePermission asked.kind mode.access)
        (some (String.ofList asked.hostId)) (some (asked.guest vmid)) = true ∧
      canAccessGuest issuer.toAccessScope (String.ofList asked.hostId) asked.kind vmid = true := by
  unfold TicketRequest.ticketInput at given
  split at given
  · cases given
  · next issuer session =>
    dsimp only at given
    split at given
    · cases given
    · split at given
      · cases given
      · next vmid number =>
        split at given
        · cases given
        · cases given
        · next body access sent =>
          split at given
          · cases given
          · split at given
            · cases given
            · next permits =>
              split at given
              · cases given
              · split at given
                · cases given
                · cases given
                · cases given
                · split at given
                  · cases given
                  · next transfer =>
                    split at given
                    · cases given
                    · next sftp =>
                      split at given
                      · cases given
                      · next mode found =>
                        rw [not_not] at transfer sftp
                        cases given
                        obtain ⟨text, asks, parsed⟩ := Option.bind_eq_some_iff.mp found
                        rw [transferMode_eq_some_iff] at parsed
                        rw [parsed] at asks
                        refine ⟨issuer, body, vmid, mode, session, sent, number, asks, transfer,
                          sftp, rfl, ?_, assertGuestAccess_ok access⟩
                        rw [Bool.not_eq_true', Bool.not_eq_false] at permits
                        have needs : body.permission asked.kind =
                            guestFilePermission asked.kind mode.access := by
                          unfold FilesBody.permission FilesBody.mutating
                          rw [transfer, asks]
                          cases mode <;> rfl
                        rw [needs] at permits
                        exact permits

/-- A call that puts a ticket into the map is a request for it. -/
theorem issue_of_made {call : TicketCall} (calls : e.ticketCall reader = some call)
    (made : call.made = some ticket) :
    ∃ asked id started written input, e = .issue asked id started written ∧
      asked.ticketInput = .ok (some input) ∧ CreatedAs input id written ticket := by
  obtain ⟨input, id, started, written, rfl, stored⟩ := exists_of_made made
  cases e with
  | issue asked id' started' written' =>
      rw [TransferEvent.ticketCall] at calls
      split at calls
      · next given given' =>
        cases calls
        exact ⟨asked, _, _, _, input, rfl, given', createdAs_of_ticketRow stored⟩
      · cases calls
  | node answers req started' checked =>
      rw [TransferEvent.ticketCall] at calls
      split at calls <;> cases calls
  | socket answers req started' checked =>
      rw [TransferEvent.ticketCall] at calls
      split at calls <;> cases calls

/-! ## Every run -/

/-- In every run of requests, whatever changes in between, a request that starts to stream is signed
in as a user who may transfer now what the ticket is for, and asks for it; and not longer than the
ticket lasts before, the same user asked for the ticket, had the permission then, and named the
path, the target and the credentials that are used. -/
theorem streams_authorised (reader : UrlReader) (past : List TransferEvent) (e : TransferEvent)
    (ticket : GuestTransferTicket) (streams : e.Streams reader (heldTickets reader past) ticket) :
    ∃ user, e.SignedIn user ∧ MayTransfer user ticket ∧ e.AsksFor ticket ∧
      ∃ first asked id started written rest issuer, ∃ body : FilesBody,
        past = first ++ .issue asked id started written :: rest ∧
        e.checked < written + guestTransferTicketTtlMs ∧ asked.session = some issuer ∧
        issuer.id = user.id ∧ MayTransfer issuer ticket ∧ asked.body = some body ∧
        body.op = ("transfer-ticket" : Text) ∧ body.mode = some ticket.mode.name ∧
        CreatedAs (asked.input issuer ticket.vmid body ticket.mode) id written ticket := by
  obtain ⟨user, ticketId, _, signedIn, may, asksFor, -, took⟩ := streams.took
  rw [takeGuestTransferTicket_eq_ok_iff, heldTickets_eq] at took
  obtain ⟨held, -, own, -, lasts⟩ := took
  refine ⟨user, signedIn, may, asksFor, ?_⟩
  obtain ⟨before, call, after, place, ⟨made, -⟩, -⟩ := get?_ticketsAfter.mp held
  have member : call ∈ past.filterMap (·.ticketCall reader) := by
    rw [place]
    exact List.mem_append_right before List.mem_cons_self
  obtain ⟨event, inPast, calls⟩ := List.mem_filterMap.mp member
  obtain ⟨asked, id, started, written, input, rfl, given, created⟩ := issue_of_made calls made
  obtain ⟨first, rest, split⟩ := List.append_of_mem inPast
  obtain ⟨issuer, body, vmid, mode, session, sent, number, asks, transfer, -, rfl, permits,
    access⟩ := eq_of_ticketInput given
  have sameMode : ticket.mode = mode :=
    Option.some.inj ((transferMode_eq_some_iff.mpr created.mode.symm).symm.trans
      (transferMode_eq_some_iff.mpr rfl))
  have sameVmid : ticket.vmid = vmid := created.vmid
  have sameHost : ticket.hostId = asked.hostId := created.hostId
  have sameKind : ticket.kind = asked.kind := created.kind
  have sameUser : issuer.id = user.id :=
    String.toList_inj.mp (created.userId.symm.trans own)
  rw [created.expiresAt] at lasts
  rw [← sameMode, ← sameVmid] at created permits
  rw [← sameVmid] at access
  refine ⟨first, asked, id, started, written, rest, issuer, body, split, lasts, session, sameUser,
    ⟨?_, ?_⟩, sent, transfer, sameMode ▸ asks, created⟩
  · rw [TicketRequest.guest, ← sameHost, ← sameKind] at permits
    exact permits
  · rw [← sameHost, ← sameKind] at access
    exact access

end

/-! ## One download -/

/-- A user who may read the files of containers. -/
def filesReader : SessionUser where
  id := "u1"
  rolePermissions := ["lxc.files.read"]
  allowedHostIds := none
  allowedGuests := none
  hostPermissions := none
  guestPermissions := none

/-- Every session is his, and every host is there. -/
def readerAnswers : TransferAnswers where
  appUrl := []
  allowedOrigins := []
  sessions := fun _ => .gives (some filesReader)
  hosts := fun _ => .gives (some .localHost)

def noteTicket : TransferEvent :=
  .issue
    { kind := .lxc, hostId := "h1", node := "pve", vmid := "101", session := some filesReader,
      pathHost := some "h1",
      body := some ⟨"transfer-ticket", some "download", none, some "10.0.0.8", none, some "root",
        some "secret", none, none, "/root/../note"⟩,
      hosts := readerAnswers, linux := .ok () }
    "t1" 0 1

def noteDownload : TransferEvent :=
  .node readerAnswers
    { target := "/api/hosts/h1/lxc/pve/101/files/download?ticket=t1"
      host := some "localhost", origin := none, cookie := some "pm_session=x",
      authorization := none, forwardedProto := none, forwardedHost := none, method := "GET",
      fetchSite := none, referer := none }
    10 1000

theorem streams_authorised_note :
    ∃ user, noteDownload.SignedIn user ∧ MayTransfer user noteRow ∧ noteDownload.AsksFor noteRow ∧
      ∃ first asked id started written rest issuer, ∃ body : FilesBody,
        [noteTicket] = first ++ .issue asked id started written :: rest ∧
        noteDownload.checked < written + guestTransferTicketTtlMs ∧
        asked.session = some issuer ∧ issuer.id = user.id ∧ MayTransfer issuer noteRow ∧
        asked.body = some body ∧ body.op = ("transfer-ticket" : Text) ∧
        body.mode = some noteRow.mode.name ∧
        CreatedAs (asked.input issuer noteRow.vmid body noteRow.mode) id written noteRow :=
  streams_authorised localReader [noteTicket] noteDownload noteRow
    ⟨.localHost, by decide +kernel⟩

end Proxora
