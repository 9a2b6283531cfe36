import Proxora.Ecma.Text
import Proxora.KeyedRows
import Proxora.Runs
import Proxora.PeerShares

/-!
# Clients of hosts

`clientForHost` of `server/services/host-service.ts`, the cache of
`server/proxmox/client-cache.ts` that it asks, and the operations of
`host-service.ts`, `wireguard-service.ts` and `federation-service.ts` that change
the rows a client is made from.

`coherent` says when the cache is in line with the rows: the exception is an
invite that changes the token of a peer whose hosts have clients.
-/

namespace Proxora

open Ecma Runs

/-! ## Secrets -/

/-- The cipher and the hash of the runtime, under the key of the installation.
Bytes stand as base64 text. -/
structure Crypto where
  encipher : (iv plaintext : Text) → Text × Text
  decipher : (iv tag data : Text) → Option Text
  sha256 : Text → Text

namespace Crypto

def encryptSecret (crypto : Crypto) (iv plaintext : Text) : Text :=
  iv ++ '.' :: (crypto.encipher iv plaintext).1 ++ '.' :: (crypto.encipher iv plaintext).2

def decryptSecret (crypto : Crypto) (payload : Text) : Except AppError Text :=
  match split '.' payload with
  | [iv, tag, data] =>
      match crypto.decipher iv tag data with
      | some plaintext => .ok plaintext
      | none =>
          .error ⟨"CRYPTO_ERROR", "Host credentials could not be decrypted. " ++
            "ENCRYPTION_KEY may have changed — re-enter the password on the host.", 500⟩
  | _ => .error ⟨"CRYPTO_ERROR", "Invalid encrypted payload", 500⟩

theorem encryptSecret_ne_nil (crypto : Crypto) (iv plaintext : Text) :
    crypto.encryptSecret iv plaintext ≠ [] := by
  unfold encryptSecret
  simp

end Crypto

/-! ## Rows -/

inductive AuthType : Type
  | apiToken | password
deriving DecidableEq, Repr

def AuthType.name : AuthType → Text
  | .apiToken => "API_TOKEN"
  | .password => "PASSWORD"

/-- The columns of a `Host` row that a client depends on. -/
structure ConnectionRow where
  id : String
  name : Text
  origin : HostOrigin
  url : Text
  authType : AuthType
  username : Text
  tokenId : Option Text
  encryptedSecret : Text
  allowInsecureTls : Bool
  peerId : Option String
  remoteHostId : Option String
deriving DecidableEq, Repr

/-- The columns of a `WireguardPeer` row that pairing works on. -/
structure WireguardPeer where
  id : String
  name : Text
  kind : WireguardPeerKind
  publicKey : Text
  address : Text
  proxoraPort : Int
  inboundTokenHash : Text
  encryptedInboundToken : Text
  encryptedOutboundToken : Text
  createdAt : Int
deriving DecidableEq, Repr

abbrev ConnectionRows : Type := KeyedRows ConnectionRow ConnectionRow.id
abbrev PeerRows : Type := KeyedRows WireguardPeer WireguardPeer.id

/-- A text column that is neither null nor empty. -/
def nonEmpty (column : Option String) : Option String := column.filter (· ≠ "")

/-! ## Clients -/

structure FederationTarget where
  peerBaseUrl : Text
  token : Text
  remoteHostId : String
deriving DecidableEq, Repr

structure ProxmoxConnectionConfig where
  url : Text
  authType : AuthType
  username : Text
  tokenId : Option Text
  secret : Text
  allowInsecureTls : Bool
  federation : Option FederationTarget
deriving DecidableEq, Repr

/-- A `ProxmoxClient`; its configuration is fixed when it is made. -/
structure ProxmoxClient where
  config : ProxmoxConnectionConfig
deriving DecidableEq, Repr

/-- `s.replace(/\/+$/, "")`. -/
def dropSlashes (s : Text) : Text := (s.reverse.dropWhile (· = '/')).reverse

/-- `/^https?:\/\//i`. -/
def hasHttpScheme (s : Text) : Bool :=
  startsWith (s.map Char.toLower) "http://" || startsWith (s.map Char.toLower) "https://"

def normalizeBaseUrl (url : Text) : Text :=
  let trimmed := dropSlashes (trim url)
  if !hasHttpScheme trimmed then "https://" ++ trimmed else trimmed

/-- `client.http.baseUrl`. -/
def ProxmoxClient.baseUrl (client : ProxmoxClient) : Text := normalizeBaseUrl client.config.url

def normalizeProxmoxUsername (username : Text) : Text :=
  let trimmed := trim username
  if trimmed = [] then trimmed
  else if trimmed.contains '@' then trimmed
  else trimmed ++ "@pam"

def clientConfigFromHost (host : ConnectionRow) (secret : Text) : ProxmoxConnectionConfig where
  url := host.url
  authType := host.authType
  username := normalizeProxmoxUsername host.username
  tokenId := if host.authType = .password then none else host.tokenId
  secret := secret
  allowInsecureTls := host.allowInsecureTls
  federation := none

/-- The head of `address.split("/")`, trimmed. -/
def addressHost (address : Text) : Text := trim ((split '/' (trim address)).headD [])

def peerHttpBase (peer : WireguardPeer) : Except AppError Text :=
  let host := addressHost peer.address
  if host = [] then .error (validationError "Set the colleague's Proxora IP first")
  else
    let port := if 0 < peer.proxoraPort then peer.proxoraPort else 3000
    let wrapped := if host.contains ':' && !startsWith host ['['] then '[' :: host ++ [']'] else host
    .ok ("http://" ++ wrapped ++ ':' :: (toString port : String))

def outboundToken (crypto : Crypto) (peer : WireguardPeer) : Except AppError Text :=
  if peer.encryptedOutboundToken = [] then
    .error (validationError "Peer is not paired yet — import their invite")
  else crypto.decryptSecret peer.encryptedOutboundToken

def hostUnreachableError (hostName : Text) (reason : String) : AppError :=
  ⟨"HOST_UNREACHABLE", "Unable to connect to " ++ String.ofList hostName ++ ": " ++ reason, 503⟩

/-! ## The cache -/

def hostClientFingerprint (host : ConnectionRow) : Text :=
  join (Char.ofNat 0)
    [host.url, host.authType.name, host.username, host.tokenId.getD [],
      if host.allowInsecureTls then ['1'] else ['0'], host.encryptedSecret]

structure CachedClient where
  fingerprint : Text
  client : ProxmoxClient
deriving DecidableEq, Repr

structure HostClientCache where
  clients : String → Option CachedClient

namespace HostClientCache

def empty : HostClientCache where
  clients := fun _ => none

/-- The client that the cache has for a row. -/
def hit (cache : HostClientCache) (host : ConnectionRow) : Option CachedClient :=
  (cache.clients host.id).filter fun entry => entry.fingerprint = hostClientFingerprint host

/-- The cache with a client for a row. -/
def store (cache : HostClientCache) (host : ConnectionRow) (client : ProxmoxClient) :
    HostClientCache where
  clients := Function.update cache.clients host.id (some ⟨hostClientFingerprint host, client⟩)

def get (cache : HostClientCache) (host : ConnectionRow)
    (create : ConnectionRow → Except AppError ProxmoxClient) :
    Except AppError ProxmoxClient × HostClientCache :=
  match cache.hit host with
  | some entry => (.ok entry.client, cache)
  | none =>
      match create host with
      | .error e => (.error e, cache)
      | .ok client => (.ok client, cache.store host client)

def invalidate (cache : HostClientCache) (hostId : String) : HostClientCache where
  clients := Function.update cache.clients hostId none

def invalidateAll (cache : HostClientCache) (hostIds : List String) : HostClientCache :=
  hostIds.foldl invalidate cache

end HostClientCache

/-- A host that is reached through a peer. -/
def ConnectionRow.isPeerHost (host : ConnectionRow) : Bool :=
  host.origin = .peer || startsWith host.url "federation://"

def WireguardPeer.hasAddress (peer : WireguardPeer) : Bool := peer.address ≠ []

/-- The token and the base URL of a peer. -/
def peerTarget (crypto : Crypto) (peer : WireguardPeer) : Except AppError (Text × Text) := do
  let token ← outboundToken crypto peer
  let peerBaseUrl ← peerHttpBase peer
  return (token, peerBaseUrl)

def federationConfig (target : Text × Text) (remoteHostId : String) : ProxmoxConnectionConfig where
  url := target.2
  authType := .apiToken
  username := "peer@pve"
  tokenId := some "federation"
  secret := target.1
  allowInsecureTls := true
  federation := some ⟨target.2, target.1, remoteHostId⟩

/-- The connection of a peer host. -/
def peerHostConfig (crypto : Crypto) (peers : PeerRows) (host : ConnectionRow) :
    Except AppError ProxmoxConnectionConfig :=
  match nonEmpty host.peerId, nonEmpty host.remoteHostId with
  | some peerId, some remoteHostId =>
      match (peers.find peerId).filter (·.hasAddress) with
      | none => .error (hostUnreachableError host.name "Set the colleague's Proxora IP first")
      | some peer => (peerTarget crypto peer).map fun target => federationConfig target remoteHostId
  | _, _ => .error (validationError "Peer host is incomplete")

/-- `clientForHost`, with the cache that it finds and the cache that it leaves. -/
def clientForHost (crypto : Crypto) (peers : PeerRows) (cache : HostClientCache)
    (host : ConnectionRow) : Except AppError ProxmoxClient × HostClientCache :=
  if host.isPeerHost then
    match peerHostConfig crypto peers host with
    | .error e => (.error e, cache)
    | .ok config => cache.get host fun _ => .ok ⟨config⟩
  else
    cache.get host fun row =>
      match crypto.decryptSecret row.encryptedSecret with
      | .error e => .error e
      | .ok secret => .ok ⟨clientConfigFromHost row secret⟩

/-- The connection that the rows prescribe for a host. -/
def prescribed (crypto : Crypto) (peers : PeerRows) (host : ConnectionRow) :
    Except AppError ProxmoxConnectionConfig :=
  if host.isPeerHost then peerHostConfig crypto peers host
  else (crypto.decryptSecret host.encryptedSecret).map (clientConfigFromHost host)

/-- What the cache has for a row is what the rows prescribe. -/
def InLine (crypto : Crypto) (peers : PeerRows) (cache : HostClientCache) (host : ConnectionRow) :
    Prop :=
  ∀ entry, cache.hit host = some entry → prescribed crypto peers host = .ok entry.client.config

/-! ## What is prescribed -/

/-- A peer that can be reached, with its token and its base URL. -/
def PeerRows.target (crypto : Crypto) (peers : PeerRows) (peerId : String) : Option (Text × Text) :=
  ((peers.find peerId).filter (·.hasAddress)).bind fun peer => (peerTarget crypto peer).toOption

section Prescribed

variable {crypto : Crypto} {peers : PeerRows} {host : ConnectionRow}
  {config : ProxmoxConnectionConfig}

theorem PeerRows.target_eq_some {peerId : String} {target : Text × Text} :
    PeerRows.target crypto peers peerId = some target ↔
      ∃ peer, peers.find peerId = some peer ∧ peer.hasAddress = true ∧
        peerTarget crypto peer = .ok target := by
  unfold PeerRows.target
  rw [Option.bind_eq_some_iff]
  refine exists_congr fun peer => ?_
  rw [Option.filter_eq_some_iff, and_assoc]
  cases peerTarget crypto peer <;> simp [Except.toOption]

theorem peerHostConfig_eq_ok :
    peerHostConfig crypto peers host = .ok config ↔
      ∃ peerId remoteHostId target, nonEmpty host.peerId = some peerId ∧
        nonEmpty host.remoteHostId = some remoteHostId ∧
        peers.target crypto peerId = some target ∧
        federationConfig target remoteHostId = config := by
  unfold peerHostConfig PeerRows.target
  cases nonEmpty host.peerId with
  | none => simp
  | some peerId =>
      cases nonEmpty host.remoteHostId with
      | none => simp
      | some remoteHostId =>
          cases found : (peers.find peerId).filter (·.hasAddress) with
          | none => simp [found]
          | some peer =>
              cases reached : peerTarget crypto peer with
              | error e => simp [found, reached, Except.map, Except.toOption]
              | ok target =>
                  obtain ⟨token, peerBaseUrl⟩ := target
                  simp [found, reached, Except.map, Except.toOption]

/-- What is prescribed stays prescribed while the peers that can be reached keep
their token and their base URL. -/
theorem prescribed_mono {old : PeerRows}
    (kept : ∀ peerId target, host.peerId = some peerId →
      old.target crypto peerId = some target → peers.target crypto peerId = some target)
    (before : prescribed crypto old host = .ok config) :
    prescribed crypto peers host = .ok config := by
  unfold prescribed at *
  split at before
  · next peerHost =>
    rw [if_pos peerHost]
    obtain ⟨peerId, remoteHostId, target, peer, remote, reached, same⟩ :=
      peerHostConfig_eq_ok.mp before
    have named : host.peerId = some peerId := (Option.filter_eq_some_iff.mp peer).1
    exact peerHostConfig_eq_ok.mpr
      ⟨peerId, remoteHostId, target, peer, remote, kept peerId target named reached, same⟩
  · next localHost =>
    rw [if_neg localHost]
    exact before

end Prescribed

/-! ## One call -/

section Call

variable {crypto : Crypto} {peers : PeerRows} {cache : HostClientCache} {host other : ConnectionRow}
  {client : ProxmoxClient} {entry : CachedClient} {id : String}

theorem HostClientCache.hit_eq_some :
    cache.hit host = some entry ↔
      cache.clients host.id = some entry ∧ entry.fingerprint = hostClientFingerprint host := by
  rw [hit, Option.filter_eq_some_iff, decide_eq_true_iff]

theorem HostClientCache.hit_empty : empty.hit host = none := rfl

theorem HostClientCache.clients_store : (cache.store host client).clients =
    Function.update cache.clients host.id (some ⟨hostClientFingerprint host, client⟩) := rfl

theorem HostClientCache.clients_invalidate :
    (cache.invalidate id).clients = Function.update cache.clients id none := rfl

theorem HostClientCache.hit_store_self :
    (cache.store host client).hit host = some ⟨hostClientFingerprint host, client⟩ := by
  rw [hit_eq_some, clients_store, Function.update_self]
  exact ⟨rfl, rfl⟩

theorem HostClientCache.hit_store_other (different : other.id ≠ host.id) :
    (cache.store host client).hit other = cache.hit other := by
  rw [hit, hit, clients_store, Function.update_of_ne different]

theorem HostClientCache.hit_invalidate :
    (cache.invalidate id).hit host = if host.id = id then none else cache.hit host := by
  rw [hit, clients_invalidate]
  split
  · next same => rw [same, Function.update_self, Option.filter_none]
  · next different =>
    rw [Function.update_of_ne different]
    rfl

theorem HostClientCache.hit_invalidateAll {ids : List String} :
    (cache.invalidateAll ids).hit host = if host.id ∈ ids then none else cache.hit host := by
  induction ids generalizing cache with
  | nil => rfl
  | cons id rest ih =>
      rw [invalidateAll, List.foldl_cons, ← invalidateAll, ih, hit_invalidate]
      by_cases same : host.id = id <;> simp [same]

theorem inLine_empty : InLine crypto peers .empty host := by
  intro entry found
  rw [HostClientCache.hit_empty] at found
  cases found

/-- A call finds a client, makes the prescribed one or fails. -/
theorem clientForHost_cases (crypto : Crypto) (peers : PeerRows) (cache : HostClientCache)
    (host : ConnectionRow) :
    (∃ entry, cache.hit host = some entry ∧
      clientForHost crypto peers cache host = (.ok entry.client, cache)) ∨
    (∃ config, cache.hit host = none ∧ prescribed crypto peers host = .ok config ∧
      clientForHost crypto peers cache host = (.ok ⟨config⟩, cache.store host ⟨config⟩)) ∨
    ∃ e, clientForHost crypto peers cache host = (.error e, cache) := by
  unfold clientForHost prescribed
  split
  · cases connection : peerHostConfig crypto peers host with
    | error e => exact .inr (.inr ⟨e, rfl⟩)
    | ok config =>
        cases found : cache.hit host with
        | some entry =>
            refine .inl ⟨entry, rfl, ?_⟩
            dsimp only
            rw [HostClientCache.get, found]
        | none =>
            refine .inr (.inl ⟨config, rfl, rfl, ?_⟩)
            dsimp only
            rw [HostClientCache.get, found]
  · cases found : cache.hit host with
    | some entry => exact .inl ⟨entry, rfl, by rw [HostClientCache.get, found]⟩
    | none =>
        cases decrypted : crypto.decryptSecret host.encryptedSecret with
        | error e =>
            refine .inr (.inr ⟨e, ?_⟩)
            rw [HostClientCache.get, found]
            dsimp only
            rw [decrypted]
        | ok secret =>
            refine .inr (.inl ⟨clientConfigFromHost host secret, rfl, rfl, ?_⟩)
            rw [HostClientCache.get, found]
            dsimp only
            rw [decrypted]

/-- Where a connection is prescribed, a call does not fail. -/
theorem clientForHost_succeeds (cache : HostClientCache) {config : ProxmoxConnectionConfig}
    (connection : prescribed crypto peers host = .ok config) :
    ∃ client, (clientForHost crypto peers cache host).1 = .ok client := by
  have get_ok {create : ConnectionRow → Except AppError ProxmoxClient} {made : ProxmoxClient}
      (created : create host = .ok made) : ∃ client, (cache.get host create).1 = .ok client := by
    unfold HostClientCache.get
    cases cache.hit host with
    | some entry => exact ⟨entry.client, rfl⟩
    | none =>
        dsimp only
        rw [created]
        exact ⟨made, rfl⟩
  unfold prescribed at connection
  unfold clientForHost
  split at connection
  · next peerHost =>
    rw [if_pos peerHost, connection]
    exact get_ok rfl
  · next localHost =>
    rw [if_neg localHost]
    cases decrypted : crypto.decryptSecret host.encryptedSecret with
    | error e =>
        rw [decrypted] at connection
        cases connection
    | ok secret => exact get_ok (by rw [decrypted])

/-- Where the cache is in line, a client is the prescribed one. -/
theorem clientForHost_prescribed (inLine : InLine crypto peers cache host)
    (result : (clientForHost crypto peers cache host).1 = .ok client) :
    prescribed crypto peers host = .ok client.config := by
  rcases clientForHost_cases crypto peers cache host with
    ⟨entry, found, call⟩ | ⟨config, -, connection, call⟩ | ⟨e, call⟩
  · rw [call] at result
    cases result
    exact inLine entry found
  · rw [call] at result
    cases result
    exact connection
  · rw [call] at result
    cases result

/-- A call leaves the cache in line for every row that it was in line for. -/
theorem InLine.clientForHost (inLine : InLine crypto peers cache other)
    (key : other.id = host.id → other = host) :
    InLine crypto peers (clientForHost crypto peers cache host).2 other := by
  rcases clientForHost_cases crypto peers cache host with
    ⟨entry, -, call⟩ | ⟨config, -, connection, call⟩ | ⟨e, call⟩
  · rw [call]
    exact inLine
  · rw [call]
    intro entry found
    by_cases same : other.id = host.id
    · rw [key same, HostClientCache.hit_store_self] at found
      cases found
      rw [key same]
      exact connection
    · rw [HostClientCache.hit_store_other same] at found
      exact inLine entry found
  · rw [call]
    exact inLine

end Call

end Proxora
