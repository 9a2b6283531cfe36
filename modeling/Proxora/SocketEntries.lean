import Proxora.Ecma.Doubles
import Proxora.Ecma.SearchParams
import Proxora.Ecma.UrlHost
import Proxora.SuiteHeaders

/-!
# Entry points of WebSockets

What `handleConnection` of `server/ws/console-proxy.ts`, `handleFederationWebsocket` of
`server/ws/federation-ws.ts` and `handleUploadSocket` of `server/ws/guest-file-upload.ts` make of
an upgraded connection, up to the point where it is accepted or not. What they look up is given by
its answers, which may fail. The callers drop the promise of a handler.

`answers_iff` says for which requests and answers no handler rejects, and the socket of each
connection that is not accepted is closed.
-/

namespace Proxora

open Ecma

/-! ## Requests -/

/-- The target of an upgrade, and the headers that are read from it. -/
structure UpgradeRequest where
  target : Text
  host : Option Text
  origin : Option Text
  cookie : Option Text
  authorization : Option Text
  forwardedProto : Option Text
  forwardedHost : Option Text
deriving DecidableEq, Repr

/-- What is read from a URL. -/
structure UrlView where
  origin : Text
  host : Text
  pathname : Text
  search : Text
  credentials : Bool
deriving DecidableEq, Repr

/-- The host parser, and the parser of URLs whose scheme is neither `http`, `https` nor `blob`. -/
structure UrlReader where
  parseHost : Text → Option UrlHost
  parseOther : Text → Option UrlView

def schemeName : WebScheme → Text
  | .http => "http"
  | .https => "https"

/-- `url.host`. -/
def hostText (host : UrlHost) (port : Option Nat) : Text :=
  host.hostname ++ port.elim [] fun n => ':' :: (toString n : String).toList

/-- `url.origin`. -/
def originText : Origin UrlHost → Text
  | (scheme, host, port) => schemeName scheme ++ ("://" : Text) ++ hostText host port

/-- `new URL(input, base)`; `none` is its `TypeError`. -/
def UrlReader.newUrl (reader : UrlReader) (base : Option (WebUrl UrlHost)) (input : Text) :
    Option UrlView :=
  match parseUrl reader.parseHost base input with
  | none => none
  | some (.web url) =>
      some {
        origin := originText url.origin
        host := hostText url.host url.port
        pathname := url.pathname
        search := signed '?' url.query
        credentials := hasCredentials input }
  | some (.blob path query _ origin) =>
      some {
        origin := origin.elim ("null" : Text) originText
        host := []
        pathname := path
        search := signed '?' query
        credentials := false }
  | some .foreign => reader.parseOther input

def localName : DomainName :=
  ⟨"localhost", by decide, List.all_eq_true.mp (by decide), by decide⟩

/-- `http://localhost`. -/
def localBase : WebUrl UrlHost where
  scheme := .http
  host := .domain localName
  port := none
  path := .root []
  query := none
  fragment := none

/-- `new URL(req.url ?? "", "http://localhost")`. -/
def UpgradeRequest.url (req : UpgradeRequest) (reader : UrlReader) : Option UrlView :=
  reader.newUrl (some localBase) req.target

/-- `url.searchParams`. -/
def UrlView.searchParams (url : UrlView) : Params := Params.parse (url.search.drop 1)

/-- `header.split(";")`, each part cut at its first equals sign. -/
def cookiePairs (header : Text) : List (Text × Text) :=
  (split ';' header).map fun part =>
    match split '=' (trim part) with
    | [] => ([], [])
    | key :: rest => (key, join '=' rest)

/-- `cookieValue(req, name)`; the outer `none` is a `URIError`. -/
def cookieValue (req : UpgradeRequest) (name : Text) : Option (Option Text) :=
  match (cookiePairs (req.cookie.getD [])).find? fun pair => pair.1 = name with
  | none => some none
  | some pair => (decodeURIComponent pair.2).map some

/-! ## Closing -/

/-- What becomes of a connection: it is accepted, its socket is closed, closing it fails and it is
left as it is, or the promise of the handler is rejected. -/
inductive Ending : Type
  | accepted
  | closed (code : Nat) (reason : Text)
  | leftOpen
  | rejected
deriving DecidableEq, Repr

def Ending.answered : Ending → Bool
  | accepted | closed .. => true
  | leftOpen | rejected => false

/-- `s.slice(0, n)` as it is sent: half of a surrogate pair is sent as the replacement character. -/
def sentSlice : Nat → Text → Text
  | _, [] => []
  | 0, _ :: _ => []
  | n + 1, c :: rest =>
      if c.toNat < 0x10000 then c :: sentSlice n rest
      else if n = 0 then [Char.ofNat 0xFFFD]
      else c :: sentSlice (n - 1) rest

/-- `browser.close(code, reason)` where its errors are passed over: a reason of more than 123 bytes
is a `RangeError`. -/
def closeQuietly (code : Nat) (reason : Text) : Ending :=
  if 123 < (utf8Encode reason).length then .leftOpen else .closed code reason

def closeSoon (code : Nat) (reason : Text) : Ending := closeQuietly code (sentSlice 120 reason)

/-- What a lookup gives, or that it fails. -/
inductive Answer (α : Type) : Type
  | gives (value : α)
  | fails
deriving DecidableEq, Repr

/-- `getSessionFromToken(token)`: nothing is looked up for an empty token. -/
def getSessionFromToken {Session : Type} (sessions : Text → Answer (Option Session)) :
    Option Text → Answer (Option Session)
  | none => .gives none
  | some token => if token = [] then .gives none else sessions token

/-! ## Peers -/

/-- What `pipeFederationWebsocket` throws; an error of another class may be no `Error` at all. -/
inductive PeerFailure : Type
  | unauthorized (message : Text)
  | forbidden (message : Text)
  | notFound (message : Text)
  | other (message : Option Text)
deriving DecidableEq, Repr

namespace PeerFailure

def code : PeerFailure → Nat
  | unauthorized _ => 4401
  | forbidden _ => 4403
  | notFound _ => 4404
  | other _ => 1011

def message : PeerFailure → Text
  | unauthorized message | forbidden message | notFound message => message
  | other message => message.getD "Peer console failed"

def reason (failure : PeerFailure) : Text := sentSlice 80 failure.message

end PeerFailure

/-- Whether a token is the one of a paired Proxora; and the share, the client and the upstream
socket for a host, a path and the other parameters. -/
structure PeerAnswers where
  peer : Text → Except PeerFailure Bool
  opens : Text → Text → Params → Except PeerFailure Unit

/-- The token of `/^Bearer\s+(.+)$/i`. -/
def bearer (req : UpgradeRequest) : Text :=
  let header := req.authorization.getD []
  let rest := header.drop 6
  if toLowerCase (header.take 6) = "bearer" && rest.head?.any isSpace && 2 ≤ rest.length then
    trim rest
  else []

/-- The shared host and the path that a peer asks for. -/
def askedOfPeer (url : UrlView) : Option (Text × Text) :=
  let remoteHostId := (url.searchParams.lookup ("remoteHostId" : Text)).getD []
  let path := (url.searchParams.lookup ("path" : Text)).getD []
  if remoteHostId = [] || !startsWith path "/" then none else some (remoteHostId, path)

def peerQuery (url : UrlView) : Params :=
  url.searchParams.filter fun pair =>
    pair.1 ≠ ("remoteHostId" : Text) && pair.1 ≠ ("path" : Text)

def pipeFederationWebsocket (reader : UrlReader) (answers : PeerAnswers) (req : UpgradeRequest) :
    Except PeerFailure Unit :=
  match req.url reader with
  | none => .error (.other (some "Invalid URL"))
  | some url =>
      match answers.peer (bearer req) with
      | .error failure => .error failure
      | .ok false => .error (.unauthorized "Unknown federation peer")
      | .ok true =>
          match askedOfPeer url with
          | none => .error (.forbidden "Invalid federation websocket")
          | some (remoteHostId, path) => answers.opens remoteHostId path (peerQuery url)

def handleFederationWebsocket (reader : UrlReader) (answers : PeerAnswers) (req : UpgradeRequest) :
    Ending :=
  match pipeFederationWebsocket reader answers req with
  | .ok () => .accepted
  | .error failure => closeQuietly failure.code failure.reason

/-! ## Consoles -/

inductive ConsoleKind : Type
  | node | vm | lxc
deriving DecidableEq, Repr

def ConsoleKind.ofName (name : Text) : Option ConsoleKind :=
  if name = "node" then some .node
  else if name = "vm" then some .vm
  else if name = "lxc" then some .lxc
  else none

/-- What is asked for: `vga` or the serial display, and the number of the guest. -/
structure ConsoleRequest where
  hostId : Text
  node : Text
  kind : ConsoleKind
  vmid : Option Text
  upgrade : Bool
  vga : Bool
deriving DecidableEq, Repr

/-- `vmid && Number.isInteger(Number(vmid)) && Number(vmid) >= 1`. -/
def isVmid (vmid : Option Text) : Bool :=
  match vmid with
  | none => false
  | some text =>
      text ≠ [] && (numberOfText text).isInteger && !(numberOfText text).lt (.finite 1)

/-- The request of a query, or why there is none. -/
def consoleRequest (url : UrlView) : Except Text ConsoleRequest :=
  let get (name : Text) : Option Text := url.searchParams.lookup name
  match ConsoleKind.ofName ((get "kind").getD "node") with
  | none => .error "Invalid console kind"
  | some kind =>
      let cmd := (get "cmd").getD []
      let vga := endsWith url.pathname "/vnc" || get "display" = some "vga"
      if cmd ≠ [] && (kind ≠ .node || cmd ≠ "upgrade") then .error "Invalid console command"
      else if vga && kind ≠ .vm then .error "VGA console is only available for VMs"
      else if kind ≠ .node && !isVmid (get "vmid") then .error "Invalid vmid"
      else
        .ok {
          hostId := (get "hostId").getD []
          node := (get "node").getD []
          kind
          vmid := get "vmid"
          upgrade := cmd = "upgrade"
          vga }

def ConsoleRequest.permission (asked : ConsoleRequest) : Text :=
  if asked.upgrade then "updates.upgrade"
  else
    match asked.kind with
    | .node => "hosts.console"
    | .vm => "vm.console"
    | .lxc => "lxc.console"

/-- A host row: for the host of a peer, whether its share has the permission. -/
structure ConsoleHost where
  shareAllows : Option Bool

/-- The answers behind a console: the sessions, the permission of a user for the request, and what
opening it looks up and does, in this order. -/
structure ConsoleAnswers (Session : Type) where
  sessions : Text → Answer (Option Session)
  permits : Session → Text → ConsoleRequest → Bool
  host : ConsoleRequest → Answer (Option ConsoleHost)
  canAccessHost : Session → ConsoleRequest → Bool
  canAccessGuest : Session → ConsoleRequest → Bool
  client : ConsoleRequest → Answer Unit
  graphicsAndSerial : ConsoleRequest → Answer (Bool × Bool)
  ticket : ConsoleRequest → Answer Unit
  upstream : ConsoleRequest → Answer Unit
  audit : ConsoleRequest → Answer Unit

variable {Session Ticket : Type}

/-- Why a virtual machine has no such console. -/
def displayRefusal (asked : ConsoleRequest) : Answer (Bool × Bool) → Option Ending
  | .fails => some (.closed 1011 "VM config unavailable")
  | .gives (graphics, serial) =>
      if asked.vga && !graphics then some (.closed 4400 "VM has no VGA")
      else if !asked.vga && !serial then some (.closed 4400 "No serial interface")
      else none

/-- The last steps; each failure ends in the handler's `catch`. -/
def openUpstream (answers : ConsoleAnswers Session) (asked : ConsoleRequest) : Ending :=
  match answers.ticket asked, answers.upstream asked, answers.audit asked with
  | .gives (), .gives (), .gives () => .accepted
  | _, _, _ => .closed 1011 "Failed to open console"

/-- The `try` block of `handleConnection`. -/
def openConsole (answers : ConsoleAnswers Session) (session : Session) (asked : ConsoleRequest) :
    Ending :=
  match answers.host asked with
  | .fails => .closed 1011 "Failed to open console"
  | .gives none => .closed 4404 "Host not found"
  | .gives (some host) =>
      if !answers.canAccessHost session asked then .closed 4404 "Host not found"
      else if host.shareAllows = some false then .closed 4403 "Forbidden"
      else if asked.kind ≠ .node && !answers.canAccessGuest session asked then
        .closed 4404 "Guest not found"
      else
        match answers.client asked with
        | .fails => .closed 1011 "Failed to open console"
        | .gives () =>
            if asked.kind = .vm then
              (displayRefusal asked (answers.graphicsAndSerial asked)).getD
                (openUpstream answers asked)
            else openUpstream answers asked

def federationPath : Text := "/api/federation/ws"

def handleConnection (reader : UrlReader) (peers : PeerAnswers) (answers : ConsoleAnswers Session)
    (req : UpgradeRequest) : Ending :=
  match req.url reader with
  | none => .rejected
  | some url =>
      if url.pathname = federationPath then handleFederationWebsocket reader peers req
      else
        match consoleRequest url with
        | .error reason => .closed 4400 reason
        | .ok asked =>
            match cookieValue req sessionCookie with
            | none => .rejected
            | some token =>
                match getSessionFromToken answers.sessions token with
                | .fails => .rejected
                | .gives none => .closed 4401 "Unauthorized"
                | .gives (some session) =>
                    if !answers.permits session asked.permission asked then
                      .closed 4403 "Forbidden"
                    else openConsole answers session asked

/-! ## Uploads -/

/-- The configured origins, and what an upload looks up: sessions, tickets, the permission and the
access of a user, and the host. `takeGuestTransferTicket` gives no ticket where it throws. -/
structure UploadAnswers (Session Ticket : Type) where
  appUrl : Text
  allowedOrigins : Text
  sessions : Text → Answer (Option Session)
  ticket : Text → Session → Option Ticket
  permits : Session → Ticket → Bool
  guestAccess : Session → Ticket → Bool
  host : Session → Ticket → Answer (Option Unit)

def uploadPath : Text := "/ws/guest-file"

/-- `path.replace(/\/+$/, "")`, or a slash. -/
def isGuestFileUploadWsPath (pathname : Text) : Bool :=
  let path := ((pathname.takeWhile (· ≠ '?')).rdropWhile (· = '/'))
  (if path = [] then ['/'] else path) = uploadPath

/-- The first item of a header. -/
def firstItem (header : Option Text) : Text := trim ((header.getD []).takeWhile (· ≠ ','))

/-- `value || other`. -/
def orText (value other : Text) : Text := if value = [] then other else value

/-- The URL of the `Request` that is built from the headers. -/
def headerUrl (req : UpgradeRequest) : Text :=
  orText (firstItem req.forwardedProto) "http" ++ ("://" : Text) ++
    orText (req.host.getD []) "localhost" ++ req.target

/-- `headerRequest(req)`: a `Request` has no URL with credentials. -/
def headerRequest (reader : UrlReader) (req : UpgradeRequest) : Option UrlView :=
  (reader.newUrl none (headerUrl req)).filter fun url => !url.credentials

/-- `headerHost(request)`; empty where there is none. -/
def headerHost (req : UpgradeRequest) : Text :=
  toLowerCase (orText (firstItem req.forwardedHost) (req.host.getD []))

def originHost (reader : UrlReader) (origin : Text) : Text :=
  (reader.newUrl none origin).elim [] fun url => toLowerCase url.host

def originMatchesEntry (reader : UrlReader) (origin entry : Text) : Bool :=
  let trimmed := trim entry
  if trimmed = [] then false
  else
    let parsed := if includes trimmed "://" then trimmed else ("http://" : Text) ++ trimmed
    match reader.newUrl none parsed, reader.newUrl none origin with
    | some parsed, some origin => origin.origin = parsed.origin || origin.host = parsed.host
    | _, _ => false

def isAllowedOrigin (reader : UrlReader) (answers : UploadAnswers Session Ticket)
    (req : UpgradeRequest) (origin : Text) : Bool :=
  let requestHost := headerHost req
  let fromOrigin := originHost reader origin
  (requestHost ≠ [] && fromOrigin ≠ [] && requestHost = fromOrigin) ||
    (answers.appUrl :: split ',' answers.allowedOrigins).any (originMatchesEntry reader origin)

/-- The session of the cookie; a cookie that cannot be decoded counts as a failed lookup here. -/
def uploadSession (answers : UploadAnswers Session Ticket) (req : UpgradeRequest) :
    Option Session :=
  match cookieValue req sessionCookie with
  | none => none
  | some token =>
      match getSessionFromToken answers.sessions token with
      | .gives session => session
      | .fails => none

def expiredTransfer : Text := "Transfer abgelaufen oder ungültig"

/-- Behind the ticket only the host is looked up before the upload is under way. -/
def openUpload (answers : UploadAnswers Session Ticket) (session : Session) (ticket : Ticket) :
    Ending :=
  if !answers.permits session ticket then closeSoon 4403 "Forbidden"
  else if !answers.guestAccess session ticket then closeSoon 4403 "Forbidden"
  else
    match answers.host session ticket with
    | .gives (some ()) => .accepted
    | .gives none => closeSoon 1011 "Host not found"
    | .fails => closeSoon 1011 "Upload fehlgeschlagen"

def handleUploadSocket (reader : UrlReader) (answers : UploadAnswers Session Ticket)
    (req : UpgradeRequest) : Ending :=
  match req.url reader with
  | none => .rejected
  | some url =>
      if !isGuestFileUploadWsPath url.pathname then closeSoon 4404 "Not found"
      else
        match headerRequest reader req with
        | none => .rejected
        | some _ =>
            let origin := req.origin.getD []
            if origin = [] || !isAllowedOrigin reader answers req origin then
              closeSoon 4403 "Invalid origin"
            else
              match uploadSession answers req with
              | none => closeSoon 4401 "Unauthorized"
              | some session =>
                  let ticketId := trim ((url.searchParams.lookup ("ticket" : Text)).getD [])
                  if ticketId = [] || 80 < utf16Length ticketId then closeSoon 4404 expiredTransfer
                  else
                    match answers.ticket ticketId session with
                    | none => closeSoon 4404 expiredTransfer
                    | some ticket => openUpload answers session ticket

/-! ## When a connection is answered -/

inductive SocketEntry : Type
  | console | upload
deriving DecidableEq, Repr

structure SocketAnswers (Session Ticket : Type) where
  peers : PeerAnswers
  console : ConsoleAnswers Session
  upload : UploadAnswers Session Ticket

def SocketEntry.handle (entry : SocketEntry) (reader : UrlReader)
    (answers : SocketAnswers Session Ticket) (req : UpgradeRequest) : Ending :=
  match entry with
  | console => handleConnection reader answers.peers answers.console req
  | upload => handleUploadSocket reader answers.upload req

/-- At most 123 bytes of the message are sent. -/
def PeerFailure.ShortReason (failure : PeerFailure) : Prop :=
  (utf8Encode failure.reason).length ≤ 123

/-- The lookups for a peer fail with short reasons only. -/
def PeerReady (peers : PeerAnswers) (req : UpgradeRequest) (url : UrlView) : Prop :=
  (∀ failure, peers.peer (bearer req) = .error failure → failure.ShortReason) ∧
    ∀ remoteHostId path failure, peers.peer (bearer req) = .ok true →
      askedOfPeer url = some (remoteHostId, path) →
        peers.opens remoteHostId path (peerQuery url) = .error failure → failure.ShortReason

/-- The cookie can be decoded, and its session can be looked up. -/
def SessionReady (sessions : Text → Answer (Option Session)) (req : UpgradeRequest) : Prop :=
  ∃ token, cookieValue req sessionCookie = some token ∧
    ∀ text, token = some text → text ≠ [] → sessions text ≠ .fails

/-- What has to be given for an entry point to answer. -/
def SocketEntry.Ready (entry : SocketEntry) (reader : UrlReader)
    (answers : SocketAnswers Session Ticket) (req : UpgradeRequest) : Prop :=
  ∃ url, req.url reader = some url ∧
    match entry with
    | console =>
        if url.pathname = federationPath then PeerReady answers.peers req url
        else
          ∀ asked, consoleRequest url = .ok asked → SessionReady answers.console.sessions req
    | upload =>
        isGuestFileUploadWsPath url.pathname = true → (headerRequest reader req).isSome = true

/-! ## Closing answers -/

variable {reader : UrlReader} {peers : PeerAnswers} {req : UpgradeRequest}

theorem answered_closeQuietly_iff {code : Nat} {reason : Text} :
    (closeQuietly code reason).answered = true ↔ (utf8Encode reason).length ≤ 123 := by
  rw [closeQuietly]
  split_ifs with long
  · exact iff_of_false Bool.false_ne_true (not_le.mpr long)
  · exact iff_of_true rfl (not_lt.mp long)

/-- The reasons that the upload socket is closed with. -/
def uploadReasons : List Text :=
  ["Not found", "Invalid origin", "Unauthorized", expiredTransfer, "Forbidden", "Host not found",
    "Upload fehlgeschlagen"]

theorem uploadReasons_short :
    ∀ reason ∈ uploadReasons, (utf8Encode (sentSlice 120 reason)).length ≤ 123 := by
  decide

theorem answered_closeSoon {code : Nat} {reason : Text} (known : reason ∈ uploadReasons) :
    (closeSoon code reason).answered = true :=
  answered_closeQuietly_iff.mpr (uploadReasons_short reason known)

/-- The reasons of the handler itself are short. -/
theorem shortReason_own : (PeerFailure.unauthorized "Unknown federation peer").ShortReason ∧
    (PeerFailure.forbidden "Invalid federation websocket").ShortReason := by
  constructor <;> (rw [PeerFailure.ShortReason]; decide)

/-- A peer is answered just if no lookup fails with a long reason. -/
theorem answered_federation_iff {url : UrlView} (parsed : req.url reader = some url) :
    (handleFederationWebsocket reader peers req).answered = true ↔ PeerReady peers req url := by
  have closing (failure : PeerFailure) :
      (closeQuietly failure.code failure.reason).answered = true ↔ failure.ShortReason :=
    answered_closeQuietly_iff
  rw [handleFederationWebsocket, pipeFederationWebsocket, parsed, PeerReady]
  dsimp only
  cases peers.peer (bearer req) with
  | error failure =>
      dsimp only
      rw [closing]
      constructor
      · refine fun short => ⟨?_, ?_⟩
        · rintro other ⟨⟩
          exact short
        · rintro _ _ _ ⟨⟩
      · exact fun ready => ready.1 failure rfl
  | ok known =>
      cases known with
      | false =>
          dsimp only
          rw [closing]
          refine iff_of_true shortReason_own.1 ⟨?_, ?_⟩
          · rintro _ ⟨⟩
          · rintro _ _ _ ⟨⟩
      | true =>
          dsimp only
          cases askedOfPeer url with
          | none =>
              dsimp only
              rw [closing]
              refine iff_of_true shortReason_own.2 ⟨?_, ?_⟩
              · rintro _ ⟨⟩
              · rintro _ _ _ _ ⟨⟩
          | some target =>
              obtain ⟨remoteHostId, path⟩ := target
              dsimp only
              cases opened : peers.opens remoteHostId path (peerQuery url) with
              | ok _ =>
                  refine iff_of_true rfl ⟨?_, ?_⟩
                  · rintro _ ⟨⟩
                  · rintro _ _ _ _ ⟨⟩ failed
                    rw [opened] at failed
                    cases failed
              | error failure =>
                  dsimp only
                  rw [closing]
                  constructor
                  · refine fun short => ⟨?_, ?_⟩
                    · rintro _ ⟨⟩
                    · rintro _ _ other _ ⟨⟩ failed
                      rw [opened] at failed
                      cases failed
                      exact short
                  · exact fun ready => ready.2 remoteHostId path failure rfl rfl opened

/-! ## The console and the upload -/

/-- Behind the session every console is answered. -/
theorem answered_openConsole (answers : ConsoleAnswers Session) (session : Session)
    (asked : ConsoleRequest) : (openConsole answers session asked).answered = true := by
  have upstream : (openUpstream answers asked).answered = true := by
    rw [openUpstream]
    split <;> rfl
  rw [openConsole]
  split
  · rfl
  · rfl
  · rename_i host _
    cases answers.canAccessHost session asked with
    | false => rfl
    | true =>
        by_cases shared : host.shareAllows = some false
        · rw [if_neg (by decide), if_pos shared]
          rfl
        · rw [if_neg (by decide), if_neg shared]
          split
          · rfl
          · split
            · rfl
            · split
              · cases answers.graphicsAndSerial asked with
                | fails => rfl
                | gives given =>
                    rw [displayRefusal]
                    split_ifs
                    · rfl
                    · rfl
                    · exact upstream
              · exact upstream

theorem getSessionFromToken_ne_fails_iff {sessions : Text → Answer (Option Session)}
    {token : Option Text} :
    getSessionFromToken sessions token ≠ .fails ↔
      ∀ text, token = some text → text ≠ [] → sessions text ≠ .fails := by
  cases token with
  | none => simp [getSessionFromToken]
  | some text =>
      rw [getSessionFromToken]
      by_cases empty : text = []
      · simp [empty]
      · simp [empty]

theorem answered_console_iff {answers : ConsoleAnswers Session} {url : UrlView}
    (parsed : req.url reader = some url) (own : url.pathname ≠ federationPath) :
    (handleConnection reader peers answers req).answered = true ↔
      ∀ asked, consoleRequest url = .ok asked → SessionReady answers.sessions req := by
  rw [handleConnection, parsed]
  dsimp only
  rw [if_neg own]
  cases consoleRequest url with
  | error reason =>
      refine iff_of_true rfl ?_
      rintro _ ⟨⟩
  | ok asked =>
      have ready : (∀ other, Except.ok (ε := Text) asked = .ok other →
          SessionReady answers.sessions req) ↔ SessionReady answers.sessions req :=
        ⟨fun all => all asked rfl, fun ready _ _ => ready⟩
      rw [ready, SessionReady]
      dsimp only
      cases decoded : cookieValue req sessionCookie with
      | none =>
          refine iff_of_false Bool.false_ne_true ?_
          rintro ⟨_, ⟨⟩, -⟩
      | some token =>
          have lookup : (∃ other, some token = some other ∧
              ∀ text, other = some text → text ≠ [] → answers.sessions text ≠ .fails) ↔
              getSessionFromToken answers.sessions token ≠ .fails := by
            rw [getSessionFromToken_ne_fails_iff]
            constructor
            · rintro ⟨_, ⟨⟩, fine⟩
              exact fine
            · exact fun fine => ⟨token, rfl, fine⟩
          rw [lookup]
          dsimp only
          cases getSessionFromToken answers.sessions token with
          | fails => exact iff_of_false Bool.false_ne_true (not_not.mpr rfl)
          | gives session =>
              refine iff_of_true ?_ (by simp)
              cases session with
              | none => rfl
              | some session =>
                  dsimp only
                  split_ifs
                  · rfl
                  · exact answered_openConsole answers session asked

theorem answered_upload_iff {answers : UploadAnswers Session Ticket} {url : UrlView}
    (parsed : req.url reader = some url) :
    (handleUploadSocket reader answers req).answered = true ↔
      (isGuestFileUploadWsPath url.pathname = true → (headerRequest reader req).isSome = true) := by
  have opening (session : Session) (ticket : Ticket) :
      (openUpload answers session ticket).answered = true := by
    rw [openUpload]
    split_ifs
    · exact answered_closeSoon (by decide)
    · exact answered_closeSoon (by decide)
    · split
      · rfl
      · exact answered_closeSoon (by decide)
      · exact answered_closeSoon (by decide)
  rw [handleUploadSocket, parsed]
  dsimp only
  by_cases path : isGuestFileUploadWsPath url.pathname = true
  · rw [path, if_neg (by decide)]
    cases headerRequest reader req with
    | none => exact iff_of_false Bool.false_ne_true fun ready => Bool.false_ne_true (ready rfl)
    | some request =>
        refine iff_of_true ?_ fun _ => rfl
        dsimp only
        split
        · exact answered_closeSoon (by decide)
        · split
          · exact answered_closeSoon (by decide)
          · split
            · exact answered_closeSoon (by decide)
            · split
              · exact answered_closeSoon (by decide)
              · exact opening _ _
  · rw [Bool.not_eq_true] at path
    rw [path, if_pos (by decide)]
    exact iff_of_true (answered_closeSoon (by decide)) fun never => (Bool.false_ne_true never).elim

/-- A server that answers every lookup. -/
def localReader : UrlReader where
  parseHost := fun host => if host = "localhost" then some (.domain localName) else none
  parseOther := fun _ => none

def wideAnswers : SocketAnswers Unit Unit where
  peers :=
    { peer := fun _ => .error (.other (some (List.replicate 80 'ü')))
      opens := fun _ _ _ => .ok () }
  console :=
    { sessions := fun _ => .gives (some ())
      permits := fun _ _ _ => true
      host := fun _ => .gives (some ⟨none⟩)
      canAccessHost := fun _ _ => true
      canAccessGuest := fun _ _ => true
      client := fun _ => .gives ()
      graphicsAndSerial := fun _ => .gives (true, true)
      ticket := fun _ => .gives ()
      upstream := fun _ => .gives ()
      audit := fun _ => .gives () }
  upload :=
    { appUrl := []
      allowedOrigins := []
      sessions := fun _ => .gives (some ())
      ticket := fun _ _ => some ()
      permits := fun _ _ => true
      guestAccess := fun _ _ => true
      host := fun _ _ => .gives (some ()) }

def plainRequest (target : Text) : UpgradeRequest :=
  ⟨target, some "localhost", none, none, none, none, none⟩

end Proxora
