import Proxora.HostClients

/-!
# Clients after changes of rows

The operations that change the rows of hosts and peers, next to the calls of
`clientForHost`: `createProxoraPeer`, `updateProxoraPeer`, `importWireguardInvite`
and `deletePeer` of `server/services/wireguard-service.ts`, `createHost`,
`updateHost` and `deleteHost` of `host-service.ts`, and the writes of
`syncPeerHosts` of `federation-service.ts`.

`uses_current_rows` says when a client is the one that the rows prescribe: the
exception is an invite that changes the token of a peer whose hosts have clients.
-/

namespace Proxora

open Ecma Runs

/-- What an operation can throw. -/
inductive RowError : Type
  | app (error : AppError)
  | uniqueViolation
deriving DecidableEq, Repr

/-- The values that are drawn for a new row. -/
structure NewRow where
  id : String
  iv : Text
  createdAt : Int
deriving DecidableEq, Repr

/-- The rows, and the cache of clients. -/
structure HostClients where
  hosts : ConnectionRows
  peers : PeerRows
  clients : HostClientCache

/-! ## Peers -/

/-- `interfaceIpv4(cidr)`, as a test. -/
def isInterfaceIpv4 (cidr : Text) : Bool :=
  let words := split '.' (addressHost cidr)
  words.length = 4 && words.all fun word =>
    1 ≤ word.length && word.length ≤ 3 && word.all Char.isDigit

/-- `/^[a-zA-Z0-9][a-zA-Z0-9.-]{0,250}$/`. -/
def isHostName : Text → Bool
  | [] => false
  | c :: rest =>
      c.isAlphanum && rest.length ≤ 250 && rest.all fun c => c.isAlphanum || c = '.' || c = '-'

def isReachableHost (value : Text) : Bool :=
  let host := addressHost value
  isInterfaceIpv4 host || isHostName host

structure ProxoraPeerInput where
  name : Text
  address : Text
  proxoraPort : Int
  pairingSecret : Text
deriving DecidableEq, Repr

/-- The argument of `updateProxoraPeer`. -/
structure ProxoraPeerUpdate where
  name : Option Text
  address : Option Text
  proxoraPort : Option Int
  pairingSecret : Option Text
deriving DecidableEq, Repr

/-- The columns that `updateProxoraPeer` writes. -/
structure ProxoraPeerData where
  name : Option Text
  address : Option Text
  proxoraPort : Option Int
  inboundTokenHash : Option Text
  encryptedInboundToken : Option Text
  encryptedOutboundToken : Option Text
deriving DecidableEq, Repr

def ProxoraPeerData.write (data : ProxoraPeerData) (peer : WireguardPeer) : WireguardPeer where
  id := peer.id
  name := data.name.getD peer.name
  kind := peer.kind
  publicKey := peer.publicKey
  address := data.address.getD peer.address
  proxoraPort := data.proxoraPort.getD peer.proxoraPort
  inboundTokenHash := data.inboundTokenHash.getD peer.inboundTokenHash
  encryptedInboundToken := data.encryptedInboundToken.getD peer.encryptedInboundToken
  encryptedOutboundToken := data.encryptedOutboundToken.getD peer.encryptedOutboundToken
  createdAt := peer.createdAt

theorem ProxoraPeerData.write_id (data : ProxoraPeerData) (peer : WireguardPeer) :
    (data.write peer).id = peer.id := rfl

/-- The test after the write of `updateProxoraPeer`. -/
def ProxoraPeerData.movesPeer (data : ProxoraPeerData) : Bool :=
  data.address.isSome || data.proxoraPort.isSome || data.encryptedOutboundToken.any (· ≠ [])

/-- The head of the rows in the order `createdAt: "desc"`. -/
def newest : List WireguardPeer → Option WireguardPeer
  | [] => none
  | peer :: rest =>
      match newest rest with
      | some other => if peer.createdAt < other.createdAt then some other else some peer
      | none => some peer

/-- A `WireguardInvite`, as far as it is read. -/
structure WireguardInvite where
  name : Text
  token : Text
  publicKey : Option Text
  address : Option Text
deriving DecidableEq, Repr

/-- The row of an imported invite. -/
def WireguardInvite.write (invite : WireguardInvite) (encryptedOutboundToken : Text)
    (peer : WireguardPeer) : WireguardPeer where
  id := peer.id
  name := invite.name
  kind := .proxora
  publicKey := invite.publicKey.getD []
  address :=
    if peer.address = [] then trim ((split '/' (invite.address.getD [])).headD []) else peer.address
  proxoraPort := peer.proxoraPort
  inboundTokenHash := peer.inboundTokenHash
  encryptedInboundToken := peer.encryptedInboundToken
  encryptedOutboundToken := encryptedOutboundToken
  createdAt := peer.createdAt

theorem WireguardInvite.write_id (invite : WireguardInvite) (encryptedOutboundToken : Text)
    (peer : WireguardPeer) : (invite.write encryptedOutboundToken peer).id = peer.id := rfl

/-! ## Hosts -/

/-- `/:\d+$/`. -/
def endsInPort (s : Text) : Bool :=
  match s.reverse.dropWhile Char.isDigit with
  | ':' :: _ => (s.reverse.takeWhile Char.isDigit) ≠ []
  | _ => false

def normalizeUrl (url : Text) : Text :=
  let trimmed := trim url
  if hasHttpScheme trimmed then dropSlashes trimmed
  else if endsInPort trimmed then "https://" ++ trimmed
  else "https://" ++ trimmed ++ ":8006"

structure HostInput where
  name : Text
  url : Text
  authType : AuthType
  username : Text
  tokenId : Option Text
  secret : Text
  allowInsecureTls : Option Bool
deriving DecidableEq, Repr

/-- The argument of `updateHost`; a `tokenId` may be given as null. -/
structure HostUpdate where
  name : Option Text
  url : Option Text
  authType : Option AuthType
  username : Option Text
  tokenId : Option (Option Text)
  secret : Option Text
  allowInsecureTls : Option Bool
deriving DecidableEq, Repr

/-- A text of the input that is given and not empty. -/
def given (field : Option Text) : Option Text := field.filter (· ≠ [])

/-- The row after `updateHost`. -/
def HostUpdate.write (crypto : Crypto) (input : HostUpdate) (iv : Text) (host : ConnectionRow) :
    ConnectionRow where
  id := host.id
  name := (given input.name).getD host.name
  origin := host.origin
  url := ((given input.url).map normalizeUrl).getD host.url
  authType := input.authType.getD host.authType
  username := ((given input.username).map normalizeProxmoxUsername).getD host.username
  tokenId := if input.authType = some .password then none else input.tokenId.getD host.tokenId
  encryptedSecret := ((given input.secret).map (crypto.encryptSecret iv)).getD host.encryptedSecret
  allowInsecureTls := input.allowInsecureTls.getD host.allowInsecureTls
  peerId := host.peerId
  remoteHostId := host.remoteHostId

theorem HostUpdate.write_id (crypto : Crypto) (input : HostUpdate) (iv : Text)
    (host : ConnectionRow) : (input.write crypto iv host).id = host.id := rfl

/-- The write of `syncPeerHosts` to a row that is there. -/
def ConnectionRow.rename (name : Text) (host : ConnectionRow) : ConnectionRow where
  id := host.id
  name := name
  origin := host.origin
  url := host.url
  authType := host.authType
  username := host.username
  tokenId := host.tokenId
  encryptedSecret := host.encryptedSecret
  allowInsecureTls := host.allowInsecureTls
  peerId := host.peerId
  remoteHostId := host.remoteHostId

theorem ConnectionRow.rename_id (name : Text) (host : ConnectionRow) :
    (host.rename name).id = host.id := rfl

/-- The row that `createHost` writes. -/
def HostInput.row (crypto : Crypto) (input : HostInput) (new : NewRow) : ConnectionRow where
  id := new.id
  name := input.name
  origin := .localHost
  url := normalizeUrl input.url
  authType := input.authType
  username := normalizeProxmoxUsername input.username
  tokenId := if input.authType = .password then none else input.tokenId
  encryptedSecret := crypto.encryptSecret new.iv input.secret
  allowInsecureTls := input.allowInsecureTls.getD false
  peerId := none
  remoteHostId := none

/-- The row that `syncPeerHosts` creates for a host that a peer shares. -/
def sharedHostRow (crypto : Crypto) (peerId remoteHostId : String) (name : Text) (new : NewRow) :
    ConnectionRow where
  id := new.id
  name := name
  origin := .peer
  url := ("federation://" ++ peerId ++ "/" ++ remoteHostId : String)
  authType := .apiToken
  username := "peer@pve"
  tokenId := some "federation"
  encryptedSecret := crypto.encryptSecret new.iv "federation"
  allowInsecureTls := true
  peerId := some peerId
  remoteHostId := some remoteHostId

namespace HostClients

variable (crypto : Crypto) (s : HostClients)

/-! ## Operations -/

def insertPeer (row : WireguardPeer) : Except RowError HostClients :=
  if s.peers.rows.any (·.inboundTokenHash = row.inboundTokenHash) then .error .uniqueViolation
  else
    match s.peers.insert row with
    | some peers => .ok { s with peers }
    | none => .error .uniqueViolation

def insertHost (row : ConnectionRow) : Except RowError HostClients :=
  match s.hosts.insert row with
  | some hosts => .ok { s with hosts }
  | none => .error .uniqueViolation

def createProxoraPeer (input : ProxoraPeerInput) (new : NewRow) : Except RowError HostClients := do
  let host := trim input.address
  if host ≠ [] && !isReachableHost host then throw (.app (validationError "Invalid Proxora IP"))
  let port := if 1 ≤ input.proxoraPort ∧ input.proxoraPort ≤ 65535 then input.proxoraPort else 3000
  let secret := trim input.pairingSecret
  if utf16Length secret < 12 then
    throw (.app (validationError "Pairing secret must be at least 12 characters"))
  let hash := crypto.sha256 secret
  if s.peers.rows.any (·.inboundTokenHash = hash) then
    throw (.app (validationError "This pairing secret is already used"))
  let encrypted := crypto.encryptSecret new.iv secret
  s.insertPeer
    { id := new.id
      name := trim input.name
      kind := .proxora
      publicKey := []
      address := host
      proxoraPort := port
      inboundTokenHash := hash
      encryptedInboundToken := encrypted
      encryptedOutboundToken := encrypted
      createdAt := new.createdAt }

/-- The columns that `updateProxoraPeer` has to write. -/
def proxoraPeerData (peerId : String) (input : ProxoraPeerUpdate) (iv : Text) :
    Except RowError ProxoraPeerData := do
  let host := input.address.map trim
  if host.any fun host => host ≠ [] && !isReachableHost host then
    throw (.app (validationError "Invalid Proxora IP"))
  if input.proxoraPort.any fun port => port < 1 || 65535 < port then
    throw (.app (validationError "Invalid port"))
  let secret := input.pairingSecret.map trim
  if secret.any fun secret => utf16Length secret < 12 then
    throw (.app (validationError "Pairing secret must be at least 12 characters"))
  let hash := secret.map crypto.sha256
  if hash.any fun hash => s.peers.rows.any fun clash => clash.inboundTokenHash = hash && clash.id ≠ peerId then
    throw (.app (validationError "This pairing secret is already used"))
  return {
    name := given (input.name.map trim)
    address := host
    proxoraPort := input.proxoraPort
    inboundTokenHash := hash
    encryptedInboundToken := secret.map (crypto.encryptSecret iv)
    encryptedOutboundToken := secret.map (crypto.encryptSecret iv) }

/-- The ids of the hosts of a peer. -/
def hostsOf (peerId : String) : List String :=
  (s.hosts.rows.filter (·.peerId = some peerId)).map (·.id)

/-- The write of `updateProxoraPeer`, and the loop after it. -/
def writePeer (peerId : String) (data : ProxoraPeerData) : HostClients where
  hosts := s.hosts
  peers := s.peers.update peerId data.write data.write_id
  clients := if data.movesPeer then s.clients.invalidateAll (s.hostsOf peerId) else s.clients

def updateProxoraPeer (peerId : String) (input : ProxoraPeerUpdate) (iv : Text) :
    Except RowError HostClients := do
  match s.peers.find peerId with
  | none => throw (.app (notFoundError "Peer not found"))
  | some peer =>
      if peer.kind ≠ .proxora then
        throw (.app (validationError "Only Proxora peers can be updated"))
      let data ← proxoraPeerData crypto s peerId input iv
      return s.writePeer peerId data

/-- The peer with the key of an invite. -/
def existingKey (invite : WireguardInvite) : Option WireguardPeer :=
  (given invite.publicKey).bind fun publicKey =>
    s.peers.rows.find? fun peer => peer.publicKey = publicKey && peer.kind = .proxora

/-- The newest peer that waits for an invite. -/
def waiting : Option WireguardPeer :=
  newest (s.peers.rows.filter fun peer =>
    peer.kind = .proxora && peer.encryptedOutboundToken = [])

/-- `importWireguardInvite` of a parsed invite; `inbound` is the random token. -/
def importWireguardInvite (invite : Option WireguardInvite) (iv inbound : Text) (new : NewRow) :
    Except RowError Text × HostClients :=
  match invite with
  | none => (.error (.app (validationError "Invalid invite")), s)
  | some invite =>
      match s.existingKey invite <|> s.waiting with
      | some peer =>
          ((crypto.decryptSecret peer.encryptedInboundToken).mapError .app,
            { s with
              peers := s.peers.update peer.id
                (invite.write (crypto.encryptSecret iv invite.token)) (invite.write_id _) })
      | none =>
          let row : WireguardPeer :=
            { id := new.id
              name := invite.name
              kind := .proxora
              publicKey := invite.publicKey.getD []
              address := trim ((split '/' (invite.address.getD [])).headD [])
              proxoraPort := 3000
              inboundTokenHash := crypto.sha256 inbound
              encryptedInboundToken := crypto.encryptSecret new.iv inbound
              encryptedOutboundToken := crypto.encryptSecret iv invite.token
              createdAt := new.createdAt }
          match s.insertPeer row with
          | .ok after => ((crypto.decryptSecret row.encryptedInboundToken).mapError .app, after)
          | .error e => (.error e, s)

/-- `deletePeer`; the hosts of the peer go with it. -/
def deletePeer (id : String) : Except RowError HostClients :=
  match s.peers.find id with
  | none => .error (.app (notFoundError "Peer not found"))
  | some _ =>
      .ok { s with
        peers := s.peers.restrict (·.id ≠ id)
        hosts := s.hosts.restrict (·.peerId ≠ some id) }

def createHost (input : HostInput) (new : NewRow) : Except RowError HostClients := do
  let url := normalizeUrl input.url
  if s.hosts.rows.any fun row => row.name = input.name || row.url = url then
    throw (.app ⟨"CONFLICT", "A host with this name or URL already exists", 409⟩)
  if input.authType = .apiToken ∧ given input.tokenId = none then
    throw (.app (validationError "Token ID is required for API token authentication"))
  s.insertHost (input.row crypto new)

/-- `getHostOrThrow` and `assertLocalHost`. -/
def localHost (id : String) (user : SessionUser) : Except RowError ConnectionRow :=
  match s.hosts.find id with
  | none => .error (.app (notFoundError "Host not found"))
  | some host =>
      if !canAccessHost user.toAccessScope host.id then
        .error (.app (notFoundError "Host not found"))
      else if host.origin = .peer then
        .error (.app (forbiddenError
          "This host is shared by a peer and cannot be administered here"))
      else .ok host

def updateHost (id : String) (input : HostUpdate) (user : SessionUser) (iv : Text) :
    Except RowError HostClients := do
  let host ← s.localHost id user
  return { s with
    hosts := s.hosts.update host.id (input.write crypto iv) (input.write_id crypto iv)
    clients := s.clients.invalidate host.id }

def deleteHost (id : String) (user : SessionUser) : Except RowError HostClients := do
  let host ← s.localHost id user
  return { s with
    hosts := s.hosts.restrict (·.id ≠ host.id)
    clients := s.clients.invalidate host.id }

/-- The hosts that a peer no longer shares are dropped. -/
def dropUnshared (peerId : String) (remoteIds : List String) : HostClients where
  hosts := s.hosts.restrict fun row =>
    !(row.peerId = some peerId && row.origin = .peer &&
      (nonEmpty row.remoteHostId).any (!remoteIds.contains ·))
  peers := s.peers
  clients := s.clients

/-- The upsert for a host that a peer shares; of an earlier row it changes no
column but the name. -/
def upsertShared (peerId remoteHostId : String) (name : Text) (new : NewRow) :
    Except RowError HostClients :=
  match s.hosts.rows.find? fun row =>
      row.peerId = some peerId && row.remoteHostId = some remoteHostId with
  | some row =>
      .ok { s with
        hosts := s.hosts.update row.id (ConnectionRow.rename name) (ConnectionRow.rename_id name) }
  | none => s.insertHost (sharedHostRow crypto peerId remoteHostId name new)

end HostClients

/-! ## Runs -/

inductive HostClientEvent : Type
  | createProxoraPeer (input : ProxoraPeerInput) (new : NewRow)
  | updateProxoraPeer (peerId : String) (input : ProxoraPeerUpdate) (iv : Text)
  | importWireguardInvite (invite : Option WireguardInvite) (iv inbound : Text) (new : NewRow)
  | deletePeer (peerId : String)
  | createHost (input : HostInput) (new : NewRow)
  | updateHost (hostId : String) (input : HostUpdate) (user : SessionUser) (iv : Text)
  | deleteHost (hostId : String) (user : SessionUser)
  | dropUnshared (peerId : String) (remoteIds : List String)
  | upsertShared (peerId remoteHostId : String) (name : Text) (new : NewRow)
  | clientForHost (hostId : String)
  | invalidate (hostId : String)

namespace HostClients

/-- The state after an operation; a failed one leaves it. -/
def completed (s : HostClients) (outcome : Except RowError HostClients) : HostClients :=
  match outcome with
  | .ok after => after
  | .error _ => s

/-- No row and no client goes by the id of a new host. -/
def IsNewHost (s : HostClients) (id : String) : Prop :=
  s.hosts.find id = none ∧ s.clients.clients id = none

instance (s : HostClients) (id : String) : Decidable (s.IsNewHost id) :=
  inferInstanceAs (Decidable (_ ∧ _))

def step (crypto : Crypto) (s : HostClients) : HostClientEvent → Option HostClients
  | .createProxoraPeer input new => some (s.completed (createProxoraPeer crypto s input new))
  | .updateProxoraPeer peerId input iv =>
      some (s.completed (updateProxoraPeer crypto s peerId input iv))
  | .importWireguardInvite invite iv inbound new =>
      some (importWireguardInvite crypto s invite iv inbound new).2
  | .deletePeer peerId => some (s.completed (s.deletePeer peerId))
  | .createHost input new =>
      if s.IsNewHost new.id then some (s.completed (createHost crypto s input new)) else none
  | .updateHost hostId input user iv =>
      some (s.completed (updateHost crypto s hostId input user iv))
  | .deleteHost hostId user => some (s.completed (s.deleteHost hostId user))
  | .dropUnshared peerId remoteIds => some (s.dropUnshared peerId remoteIds)
  | .upsertShared peerId remoteHostId name new =>
      if s.IsNewHost new.id then
        some (s.completed (upsertShared crypto s peerId remoteHostId name new))
      else none
  | .clientForHost hostId =>
      (s.hosts.find hostId).map fun host =>
        { s with clients := (clientForHost crypto s.peers s.clients host).2 }
  | .invalidate hostId => some { s with clients := s.clients.invalidate hostId }

/-- The client of every host is the one that the current rows prescribe. -/
def UsesCurrentRows (crypto : Crypto) (s : HostClients) : Prop :=
  ∀ hostId host, s.hosts.find hostId = some host → ∀ client,
    (clientForHost crypto s.peers s.clients host).1 = .ok client →
      prescribed crypto s.peers host = .ok client.config

/-- What the cache has for a host is what the current rows prescribe. -/
def Coherent (crypto : Crypto) (s : HostClients) : Prop :=
  ∀ hostId host, s.hosts.find hostId = some host → InLine crypto s.peers s.clients host

/-- An invite for a peer whose hosts have clients brings the token that the peer
has. -/
def KeepsToken (crypto : Crypto) (s : HostClients) : HostClientEvent → Prop
  | .importWireguardInvite (some invite) iv _ _ => ∀ peer ∈ s.existingKey invite,
      (∀ hostId ∈ s.hostsOf peer.id, s.clients.clients hostId = none) ∨
        crypto.decryptSecret (crypto.encryptSecret iv invite.token) = outboundToken crypto peer
  | _ => True

instance (crypto : Crypto) (s : HostClients) : ∀ e, Decidable (KeepsToken crypto s e)
  | .importWireguardInvite (some invite) iv _ _ =>
      inferInstanceAs (Decidable (∀ peer ∈ s.existingKey invite,
        (∀ hostId ∈ s.hostsOf peer.id, s.clients.clients hostId = none) ∨
          crypto.decryptSecret (crypto.encryptSecret iv invite.token) = outboundToken crypto peer))
  | .importWireguardInvite none _ _ _ | .createProxoraPeer _ _ | .updateProxoraPeer _ _ _
  | .deletePeer _ | .createHost _ _ | .updateHost _ _ _ _ | .deleteHost _ _ | .dropUnshared _ _
  | .upsertShared _ _ _ _ | .clientForHost _ | .invalidate _ => inferInstanceAs (Decidable True)

/-! ## What an operation keeps -/

variable {crypto : Crypto} {s t : HostClients}

/-- Where the cache is coherent, the clients are the prescribed ones. -/
theorem Coherent.usesCurrentRows (coherent : Coherent crypto s) : UsesCurrentRows crypto s := by
  intro hostId host found client result
  exact clientForHost_prescribed (coherent hostId host found) result

/-- The entries that stay are those of rows that stay, and what was prescribed
for them still is. -/
theorem Coherent.of_frame (coherent : Coherent crypto s)
    (frame : ∀ hostId host entry, t.hosts.find hostId = some host →
      t.clients.hit host = some entry →
      ∃ old, s.hosts.find hostId = some old ∧ s.clients.hit old = some entry ∧
        ∀ config, prescribed crypto s.peers old = .ok config →
          prescribed crypto t.peers host = .ok config) :
    Coherent crypto t := by
  intro hostId host found entry hit
  obtain ⟨old, before, earlier, kept⟩ := frame hostId host entry found hit
  exact kept _ (coherent hostId old before entry earlier)

/-- Hosts and clients stay, and so do the peers that can be reached. -/
theorem Coherent.of_peers (coherent : Coherent crypto s) (hosts : t.hosts = s.hosts)
    (clients : t.clients = s.clients)
    (kept : ∀ peerId target, s.peers.target crypto peerId = some target →
      t.peers.target crypto peerId = some target) : Coherent crypto t := by
  apply coherent.of_frame
  intro hostId host entry found hit
  rw [hosts] at found
  rw [clients] at hit
  refine ⟨host, found, hit, fun config before => ?_⟩
  exact prescribed_mono (fun peerId target _ => kept peerId target) before

theorem Coherent.insertPeer {row : WireguardPeer} (coherent : Coherent crypto s)
    (done : s.insertPeer row = .ok t) : Coherent crypto t := by
  unfold HostClients.insertPeer at done
  split at done
  · cases done
  · split at done
    · next peers inserted =>
      cases done
      refine coherent.of_peers rfl rfl fun peerId target reached => ?_
      obtain ⟨peer, found, rest⟩ := PeerRows.target_eq_some.mp reached
      refine PeerRows.target_eq_some.mpr ⟨peer, ?_, rest⟩
      rw [KeyedRows.find_insert inserted]
      split
      · next same =>
        rw [same, KeyedRows.find_of_insert inserted] at found
        cases found
      · exact found
    · cases done

theorem Coherent.createProxoraPeer {input : ProxoraPeerInput} {new : NewRow}
    (coherent : Coherent crypto s) (done : createProxoraPeer crypto s input new = .ok t) :
    Coherent crypto t := by
  unfold HostClients.createProxoraPeer at done
  dsimp only at done
  split at done
  · cases done
  · split at done
    · cases done
    · split at done
      · cases done
      · exact coherent.insertPeer done

/-- A peer that is written without being moved is reached as before. -/
theorem peerTarget_write {data : ProxoraPeerData} {peer : WireguardPeer}
    (stays : data.movesPeer = false) (token : ∀ text ∈ data.encryptedOutboundToken, text ≠ []) :
    (data.write peer).hasAddress = peer.hasAddress ∧
      peerTarget crypto (data.write peer) = peerTarget crypto peer := by
  unfold ProxoraPeerData.movesPeer at stays
  simp only [Bool.or_eq_false_iff, Option.isSome_eq_false_iff, Option.isNone_iff_eq_none] at stays
  obtain ⟨⟨address, port⟩, noToken⟩ := stays
  have noText : data.encryptedOutboundToken = none := by
    cases written : data.encryptedOutboundToken with
    | none => rfl
    | some text =>
        rw [written] at noToken
        have empty := token text written
        simp [empty] at noToken
  unfold WireguardPeer.hasAddress peerTarget outboundToken peerHttpBase ProxoraPeerData.write
  rw [address, port, noText]
  exact ⟨rfl, rfl⟩

theorem mem_hostsOf {hostId peerId : String} {host : ConnectionRow}
    (found : s.hosts.find hostId = some host) (peer : host.peerId = some peerId) :
    host.id ∈ s.hostsOf peerId := by
  have member := KeyedRows.mem_of_find found
  exact List.mem_map.mpr ⟨host, List.mem_filter.mpr ⟨member, decide_eq_true peer⟩, rfl⟩

theorem Coherent.writePeer {peerId : String} {data : ProxoraPeerData}
    (coherent : Coherent crypto s) (token : ∀ text ∈ data.encryptedOutboundToken, text ≠ []) :
    Coherent crypto (s.writePeer peerId data) := by
  cases moves : data.movesPeer with
  | true =>
      apply coherent.of_frame
      intro hostId host entry found hit
      dsimp only [HostClients.writePeer] at found hit
      rw [moves, if_pos rfl, HostClientCache.hit_invalidateAll] at hit
      split at hit
      · cases hit
      · next other =>
        refine ⟨host, found, hit, fun config before => ?_⟩
        refine prescribed_mono (fun otherId target peer reached => ?_) before
        obtain ⟨row, inPeers, rest⟩ := PeerRows.target_eq_some.mp reached
        refine PeerRows.target_eq_some.mpr ⟨row, ?_, rest⟩
        dsimp only [HostClients.writePeer]
        rw [KeyedRows.find_update, if_neg, inPeers]
        intro same
        rw [same] at peer
        exact other (mem_hostsOf found peer)
  | false =>
      have clients : (s.writePeer peerId data).clients = s.clients := by
        dsimp only [HostClients.writePeer]
        rw [moves]
        rfl
      refine coherent.of_peers rfl clients fun otherId target reached => ?_
      obtain ⟨row, inPeers, address, connection⟩ := PeerRows.target_eq_some.mp reached
      dsimp only [HostClients.writePeer]
      rw [PeerRows.target_eq_some, KeyedRows.find_update, inPeers]
      split
      · obtain ⟨sameAddress, sameTarget⟩ := peerTarget_write moves token
        exact ⟨_, rfl, sameAddress.trans address, sameTarget.trans connection⟩
      · exact ⟨row, rfl, address, connection⟩

theorem proxoraPeerData_token {peerId : String} {input : ProxoraPeerUpdate} {iv : Text}
    {data : ProxoraPeerData} (done : proxoraPeerData crypto s peerId input iv = .ok data) :
    ∀ text ∈ data.encryptedOutboundToken, text ≠ [] := by
  unfold proxoraPeerData at done
  dsimp only at done
  split at done
  · cases done
  · split at done
    · cases done
    · split at done
      · cases done
      · split at done
        · cases done
        · cases done
          intro text member
          obtain ⟨secret, -, same⟩ := Option.map_eq_some_iff.mp member
          rw [← same]
          exact crypto.encryptSecret_ne_nil iv secret

theorem Coherent.updateProxoraPeer {peerId : String} {input : ProxoraPeerUpdate} {iv : Text}
    (coherent : Coherent crypto s) (done : updateProxoraPeer crypto s peerId input iv = .ok t) :
    Coherent crypto t := by
  unfold HostClients.updateProxoraPeer at done
  split at done
  · cases done
  · split at done
    · cases done
    · cases written : proxoraPeerData crypto s peerId input iv with
      | error e =>
          rw [written] at done
          cases done
      | ok data =>
          rw [written] at done
          cases done
          exact coherent.writePeer (proxoraPeerData_token written)

theorem newest_mem {rows : List WireguardPeer} {peer : WireguardPeer}
    (found : newest rows = some peer) : peer ∈ rows := by
  induction rows generalizing peer with
  | nil => cases found
  | cons first rest ih =>
      unfold newest at found
      split at found
      · next other inRest =>
        split at found
        · cases found
          exact List.mem_cons_of_mem first (ih inRest)
        · cases found
          exact List.mem_cons_self
      · cases found
        exact List.mem_cons_self

theorem existingKey_find {invite : WireguardInvite} {peer : WireguardPeer}
    (found : s.existingKey invite = some peer) : s.peers.find peer.id = some peer := by
  obtain ⟨publicKey, -, first⟩ := Option.bind_eq_some_iff.mp found
  exact KeyedRows.find_of_mem (List.mem_of_find?_eq_some first)

theorem waiting_find {peer : WireguardPeer} (found : s.waiting = some peer) :
    s.peers.find peer.id = some peer ∧ peer.encryptedOutboundToken = [] := by
  obtain ⟨member, test⟩ := List.mem_filter.mp (newest_mem found)
  rw [Bool.and_eq_true] at test
  exact ⟨KeyedRows.find_of_mem member, of_decide_eq_true test.2⟩

/-- An invite that brings the token of the peer leaves a peer that can be reached
as it is. -/
theorem peerTarget_invite {invite : WireguardInvite} {iv : Text} {peer : WireguardPeer}
    (address : peer.hasAddress = true)
    (token : crypto.decryptSecret (crypto.encryptSecret iv invite.token) =
      outboundToken crypto peer) :
    (invite.write (crypto.encryptSecret iv invite.token) peer).hasAddress = true ∧
      peerTarget crypto (invite.write (crypto.encryptSecret iv invite.token) peer) =
        peerTarget crypto peer := by
  have some : peer.address ≠ [] := of_decide_eq_true address
  have sameAddress : (invite.write (crypto.encryptSecret iv invite.token) peer).address =
      peer.address := if_neg some
  have sameToken : outboundToken crypto
      (invite.write (crypto.encryptSecret iv invite.token) peer) = outboundToken crypto peer :=
    (if_neg (crypto.encryptSecret_ne_nil iv invite.token)).trans token
  have sameBase : peerHttpBase (invite.write (crypto.encryptSecret iv invite.token) peer) =
      peerHttpBase peer := by
    unfold peerHttpBase
    rw [sameAddress]
    rfl
  constructor
  · unfold WireguardPeer.hasAddress
    rw [sameAddress]
    exact address
  · unfold peerTarget
    rw [sameToken, sameBase]

/-- A peer without a token cannot be reached. -/
theorem peerTarget_waiting {peer : WireguardPeer} {target : Text × Text}
    (waits : peer.encryptedOutboundToken = []) : peerTarget crypto peer ≠ .ok target := by
  unfold peerTarget outboundToken
  rw [if_pos waits]
  intro reached
  cases reached

theorem Coherent.writeInvite {invite : WireguardInvite} {iv : Text} {peer : WireguardPeer}
    (coherent : Coherent crypto s) (inPeers : s.peers.find peer.id = some peer)
    (fine : (∀ hostId ∈ s.hostsOf peer.id, s.clients.clients hostId = none) ∨
      peer.encryptedOutboundToken = [] ∨
      crypto.decryptSecret (crypto.encryptSecret iv invite.token) = outboundToken crypto peer) :
    Coherent crypto { s with
      peers := s.peers.update peer.id
        (invite.write (crypto.encryptSecret iv invite.token)) (invite.write_id _) } := by
  apply coherent.of_frame
  intro hostId host entry found hit
  refine ⟨host, found, hit, fun config before => ?_⟩
  refine prescribed_mono (fun otherId target named reached => ?_) before
  obtain ⟨row, inRows, address, connection⟩ := PeerRows.target_eq_some.mp reached
  rw [PeerRows.target_eq_some, KeyedRows.find_update, inRows]
  by_cases same : otherId = peer.id
  · rw [same] at inRows named
    have row_eq : row = peer := Option.some.inj (inRows.symm.trans inPeers)
    rw [if_pos same, row_eq]
    rw [row_eq] at address connection
    rcases fine with none | waits | token
    · have absent := none host.id (mem_hostsOf found named)
      have cached := (HostClientCache.hit_eq_some.mp hit).1
      rw [absent] at cached
      cases cached
    · exact absurd connection (peerTarget_waiting waits)
    · have kept := peerTarget_invite address token
      exact ⟨_, rfl, kept.1, kept.2.trans connection⟩
  · rw [if_neg same]
    exact ⟨row, rfl, address, connection⟩

theorem Coherent.importWireguardInvite {invite : Option WireguardInvite} {iv inbound : Text}
    {new : NewRow} (coherent : Coherent crypto s)
    (keeps : KeepsToken crypto s (.importWireguardInvite invite iv inbound new)) :
    Coherent crypto (importWireguardInvite crypto s invite iv inbound new).2 := by
  unfold HostClients.importWireguardInvite
  cases invite with
  | none => exact coherent
  | some invite =>
      dsimp only
      cases existing : s.existingKey invite with
      | some peer =>
          exact coherent.writeInvite (existingKey_find existing)
            ((keeps peer existing).imp_right .inr)
      | none =>
          cases waits : s.waiting with
          | some peer =>
              have facts := waiting_find waits
              exact coherent.writeInvite facts.1 (.inr (.inl facts.2))
          | none =>
              dsimp only [Option.orElse_eq_orElse, Option.orElse_none]
              split
              · next after inserted => exact coherent.insertPeer inserted
              · exact coherent

/-- A smaller host table with the same peers, and no client that was not there. -/
theorem Coherent.of_fewer (coherent : Coherent crypto s) (peers : t.peers = s.peers)
    (hosts : ∀ hostId host, t.hosts.find hostId = some host → s.hosts.find hostId = some host)
    (clients : ∀ host entry, t.clients.hit host = some entry → s.clients.hit host = some entry) :
    Coherent crypto t := by
  apply coherent.of_frame
  intro hostId host entry found hit
  refine ⟨host, hosts hostId host found, clients host entry hit, fun config before => ?_⟩
  rw [peers]
  exact before

theorem find_of_restrict {test : ConnectionRow → Bool} {hostId : String} {host : ConnectionRow}
    (found : (s.hosts.restrict test).find hostId = some host) :
    s.hosts.find hostId = some host := by
  rw [KeyedRows.find_restrict, Option.filter_eq_some_iff] at found
  exact found.1

theorem hit_of_invalidate {hostId : String} {host : ConnectionRow} {entry : CachedClient}
    (hit : (s.clients.invalidate hostId).hit host = some entry) :
    s.clients.hit host = some entry := by
  rw [HostClientCache.hit_invalidate] at hit
  split at hit
  · cases hit
  · exact hit

theorem Coherent.deletePeer {peerId : String} (coherent : Coherent crypto s)
    (done : s.deletePeer peerId = .ok t) : Coherent crypto t := by
  unfold HostClients.deletePeer at done
  split at done
  · cases done
  · cases done
    apply coherent.of_frame
    intro hostId host entry found hit
    have before := find_of_restrict found
    refine ⟨host, before, hit, fun config was => ?_⟩
    refine prescribed_mono (fun otherId target named reached => ?_) was
    rw [KeyedRows.find_restrict, Option.filter_eq_some_iff] at found
    have other : otherId ≠ peerId := by
      intro same
      have kept := of_decide_eq_true found.2
      rw [named, same] at kept
      exact kept rfl
    obtain ⟨row, inRows, rest⟩ := PeerRows.target_eq_some.mp reached
    refine PeerRows.target_eq_some.mpr ⟨row, ?_, rest⟩
    have key : row.id = otherId := KeyedRows.key_of_find inRows
    rw [KeyedRows.find_restrict, inRows, Option.filter_some_pos]
    rw [key]
    exact decide_eq_true other

theorem Coherent.insertHost {row : ConnectionRow} (coherent : Coherent crypto s)
    (new : s.clients.clients row.id = none) (done : s.insertHost row = .ok t) :
    Coherent crypto t := by
  unfold HostClients.insertHost at done
  split at done
  · next hosts inserted =>
    cases done
    apply coherent.of_frame
    intro hostId host entry found hit
    rw [KeyedRows.find_insert inserted] at found
    split at found
    · cases found
      have cached := (HostClientCache.hit_eq_some.mp hit).1
      dsimp only at cached
      rw [new] at cached
      cases cached
    · exact ⟨host, found, hit, fun config before => before⟩
  · cases done

theorem Coherent.createHost {input : HostInput} {new : NewRow} (coherent : Coherent crypto s)
    (isNew : s.IsNewHost new.id) (done : createHost crypto s input new = .ok t) :
    Coherent crypto t := by
  unfold HostClients.createHost at done
  dsimp only at done
  split at done
  · cases done
  · split at done
    · cases done
    · exact coherent.insertHost isNew.2 done

/-- A row is written and its client is dropped. -/
theorem Coherent.writeHost {hostId : String} {change : ConnectionRow → ConnectionRow}
    {keeps : ∀ row, (change row).id = row.id} (coherent : Coherent crypto s) :
    Coherent crypto { s with
      hosts := s.hosts.update hostId change keeps
      clients := s.clients.invalidate hostId } := by
  apply coherent.of_frame
  intro otherId host entry found hit
  dsimp only at found hit
  have key : host.id = otherId := KeyedRows.key_of_find found
  rw [HostClientCache.hit_invalidate] at hit
  split at hit
  · cases hit
  · next other =>
    rw [KeyedRows.find_update, if_neg (by rw [← key]; exact other)] at found
    exact ⟨host, found, hit, fun config before => before⟩

theorem Coherent.updateHost {hostId : String} {input : HostUpdate} {user : SessionUser} {iv : Text}
    (coherent : Coherent crypto s)
    (done : updateHost crypto s hostId input user iv = .ok t) : Coherent crypto t := by
  unfold HostClients.updateHost at done
  cases found : s.localHost hostId user with
  | error e =>
      rw [found] at done
      cases done
  | ok host =>
      rw [found] at done
      cases done
      exact coherent.writeHost

theorem Coherent.deleteHost {hostId : String} {user : SessionUser} (coherent : Coherent crypto s)
    (done : s.deleteHost hostId user = .ok t) : Coherent crypto t := by
  unfold HostClients.deleteHost at done
  cases found : s.localHost hostId user with
  | error e =>
      rw [found] at done
      cases done
  | ok host =>
      rw [found] at done
      cases done
      exact coherent.of_fewer rfl (fun _ _ => find_of_restrict) fun _ _ => hit_of_invalidate

/-- A new name changes neither the client of a host nor what is prescribed. -/
theorem prescribed_rename {peers : PeerRows} {host : ConnectionRow} {name : Text}
    {config : ProxmoxConnectionConfig} (before : prescribed crypto peers host = .ok config) :
    prescribed crypto peers (host.rename name) = .ok config := by
  unfold prescribed at *
  split at before
  · next peerHost =>
    have same : (host.rename name).isPeerHost = true := peerHost
    rw [if_pos same]
    have connection := peerHostConfig_eq_ok.mp before
    exact peerHostConfig_eq_ok.mpr connection
  · next localHost =>
    have same : ¬(host.rename name).isPeerHost = true := localHost
    rw [if_neg same]
    exact before

theorem Coherent.renameHost {hostId : String} {name : Text} (coherent : Coherent crypto s) :
    Coherent crypto { s with
      hosts := s.hosts.update hostId (ConnectionRow.rename name)
        (ConnectionRow.rename_id name) } := by
  apply coherent.of_frame
  intro otherId host entry found hit
  rw [KeyedRows.find_update] at found
  split at found
  · obtain ⟨old, inRows, same⟩ := Option.map_eq_some_iff.mp found
    rw [← same] at hit ⊢
    exact ⟨old, inRows, hit, fun config => prescribed_rename⟩
  · exact ⟨host, found, hit, fun config before => before⟩

theorem Coherent.upsertShared {peerId remoteHostId : String} {name : Text} {new : NewRow}
    (coherent : Coherent crypto s) (isNew : s.IsNewHost new.id)
    (done : upsertShared crypto s peerId remoteHostId name new = .ok t) : Coherent crypto t := by
  unfold HostClients.upsertShared at done
  split at done
  · cases done
    exact coherent.renameHost
  · exact coherent.insertHost isNew.2 done

theorem Coherent.clientForHost {hostId : String} {host : ConnectionRow}
    (coherent : Coherent crypto s) (found : s.hosts.find hostId = some host) :
    Coherent crypto
      { s with clients := (clientForHost crypto s.peers s.clients host).2 } := by
  intro otherId other inRows
  refine InLine.clientForHost (coherent otherId other inRows) fun same => ?_
  have key : host.id = hostId := KeyedRows.key_of_find found
  have otherKey : other.id = otherId := KeyedRows.key_of_find inRows
  rw [← otherKey, same, key] at inRows
  exact Option.some.inj (inRows.symm.trans found)

/-! ## Runs -/

theorem Coherent.completed {outcome : Except RowError HostClients} (coherent : Coherent crypto s)
    (kept : ∀ t, outcome = .ok t → Coherent crypto t) : Coherent crypto (s.completed outcome) := by
  cases outcome with
  | ok t => exact kept t rfl
  | error e => exact coherent

/-- **Step lemma.** An event that keeps the tokens of cached peers keeps the
cache coherent. -/
theorem Coherent.step {e : HostClientEvent} (coherent : Coherent crypto s)
    (keeps : KeepsToken crypto s e) (happens : step crypto s e = some t) : Coherent crypto t := by
  cases e with
  | createProxoraPeer input new =>
      cases happens
      exact coherent.completed fun t done => coherent.createProxoraPeer done
  | updateProxoraPeer peerId input iv =>
      cases happens
      exact coherent.completed fun t done => coherent.updateProxoraPeer done
  | importWireguardInvite invite iv inbound new =>
      cases happens
      exact coherent.importWireguardInvite keeps
  | deletePeer peerId =>
      cases happens
      exact coherent.completed fun t done => coherent.deletePeer done
  | createHost input new =>
      dsimp only [HostClients.step] at happens
      split at happens
      · next isNew =>
        cases happens
        exact coherent.completed fun t done => coherent.createHost isNew done
      · cases happens
  | updateHost hostId input user iv =>
      cases happens
      exact coherent.completed fun t done => coherent.updateHost done
  | deleteHost hostId user =>
      cases happens
      exact coherent.completed fun t done => coherent.deleteHost done
  | dropUnshared peerId remoteIds =>
      cases happens
      exact coherent.of_fewer rfl (fun _ _ => find_of_restrict) fun _ _ hit => hit
  | upsertShared peerId remoteHostId name new =>
      dsimp only [HostClients.step] at happens
      split at happens
      · next isNew =>
        cases happens
        exact coherent.completed fun t done => coherent.upsertShared isNew done
      · cases happens
  | clientForHost hostId =>
      obtain ⟨host, found, after⟩ := Option.map_eq_some_iff.mp happens
      rw [← after]
      exact coherent.clientForHost found
  | invalidate hostId =>
      cases happens
      exact coherent.of_fewer rfl (fun _ _ found => found) fun _ _ => hit_of_invalidate

/-- Nothing is cached at the start. -/
def starting (hosts : ConnectionRows) (peers : PeerRows) : HostClients where
  hosts := hosts
  peers := peers
  clients := .empty

theorem coherent_starting (hosts : ConnectionRows) (peers : PeerRows) :
    Coherent crypto (starting hosts peers) := by
  intro hostId host _
  exact inLine_empty

/-- **Which client is used.** While no invite changes the token of a peer whose
hosts have clients, every client is the one that the current rows prescribe. -/
theorem uses_current_rows {hosts : ConnectionRows} {peers : PeerRows}
    (run : Reaches (step crypto) (KeepsToken crypto) (starting hosts peers) s) :
    UsesCurrentRows crypto s := by
  have coherent : Coherent crypto s :=
    run.keeps (coherent_starting hosts peers) fun _ _ _ before keeps happens =>
      before.step keeps happens
  exact coherent.usesCurrentRows

/-! ## Two invites -/

/-- What the cipher makes of three texts, under one key. -/
def sampleTexts : List ((Text × Text) × Text × Text) :=
  [(("AAAAAAAAAAAAAAAB", "token-one"), "yfXcCpecad4ZNd3OProdDA==", "YbnUmSrZX3Br"),
   (("AAAAAAAAAAAAAAAC", "token-two"), "GONvl3vPTT7g8OGcegEx6Q==", "vR5FGNpmrqbW"),
   (("AAAAAAAAAAAAAAAD", "federation"), "QI+DE3M2YlyBOiLkyVjpXA==", "a0Fq1iQXxbPc/A==")]

def sampleCrypto : Crypto where
  encipher := fun iv plaintext => (sampleTexts.lookup (iv, plaintext)).getD ([], [])
  decipher := fun iv tag data =>
    (sampleTexts.find? fun entry => entry.1.1 = iv && entry.2 = (tag, data)).map (·.1.2)
  sha256 := fun text => text

/-- An invite with the key of the peer. -/
def officeInvite (token : Text) : WireguardInvite :=
  ⟨"Office", token, some "AAECAwQFBgcICQoLDA0ODxAREhMUFRYXGBkaGxwdHh8=", some "10.0.0.5"⟩

/-- An invite is imported, the host of the peer gets a client, and a second
invite brings another token. -/
def secondInvite : List HostClientEvent :=
  [.importWireguardInvite (some (officeInvite "token-one")) "AAAAAAAAAAAAAAAB" "inbound"
      ⟨"office", "AAAAAAAAAAAAAAAD", 0⟩,
    .upsertShared "office" "pve" "pve" ⟨"host", "AAAAAAAAAAAAAAAD", 0⟩,
    .clientForHost "host",
    .importWireguardInvite (some (officeInvite "token-two")) "AAAAAAAAAAAAAAAC" "inbound"
      ⟨"second", "AAAAAAAAAAAAAAAD", 1⟩]

/-- The peer moves after its host got a client, and its invite comes again. -/
def movedPeer : List HostClientEvent :=
  [.importWireguardInvite (some (officeInvite "token-one")) "AAAAAAAAAAAAAAAB" "inbound"
      ⟨"office", "AAAAAAAAAAAAAAAD", 0⟩,
    .upsertShared "office" "pve" "pve" ⟨"host", "AAAAAAAAAAAAAAAD", 0⟩,
    .clientForHost "host",
    .updateProxoraPeer "office" ⟨none, some "10.0.0.6", none, none⟩ "AAAAAAAAAAAAAAAB",
    .clientForHost "host",
    .importWireguardInvite (some (officeInvite "token-one")) "AAAAAAAAAAAAAAAB" "inbound"
      ⟨"second", "AAAAAAAAAAAAAAAD", 1⟩,
    .clientForHost "host"]

theorem movedPeer_happens :
    (exec (guarded (step sampleCrypto) (KeepsToken sampleCrypto)) (starting .empty .empty)
      movedPeer).isSome = true := by
  decide

/-- The client of the moved peer is the prescribed one. -/
theorem uses_current_rows_moved :
    UsesCurrentRows sampleCrypto (Option.get _ movedPeer_happens) :=
  uses_current_rows (reaches_of_guarded (Option.some_get movedPeer_happens).symm)

theorem secondInvite_happens :
    (exec (step sampleCrypto) (starting .empty .empty) secondInvite).isSome = true := by
  decide

/-- The host of the peer. -/
def officeHost : ConnectionRow :=
  sharedHostRow sampleCrypto "office" "pve" "pve" ⟨"host", "AAAAAAAAAAAAAAAD", 0⟩

/-- The client goes on with the first token. -/
theorem invite_leaves_stale_client :
    ∃ crypto events s, exec (step crypto) (starting .empty .empty) events = some s ∧
      ¬UsesCurrentRows crypto s := by
  refine ⟨sampleCrypto, secondInvite, Option.get _ secondInvite_happens,
    (Option.some_get secondInvite_happens).symm, fun uses => ?_⟩
  have prescribes := uses "host" officeHost (by decide)
    ⟨federationConfig ("token-one", "http://10.0.0.5:3000") "pve"⟩ (by decide)
  have other : prescribed sampleCrypto (Option.get _ secondInvite_happens).peers officeHost ≠
      .ok (federationConfig ("token-one", "http://10.0.0.5:3000") "pve") := by
    decide
  exact other prescribes

end HostClients

end Proxora
