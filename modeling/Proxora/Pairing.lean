import Proxora.ClientCoherence
import Proxora.Ecma.Base64
import Proxora.Ecma.Json
import Proxora.Ecma.Utf8
import Proxora.Histories
import Proxora.SocketEntries

/-!
# Pairing

Two Proxoras know each other by tokens. A `WireguardPeer` row has the hash of the token that the
colleague brings (inbound) and the token that is sent to him (outbound). `createProxoraPeer` and
`updateProxoraPeer` set both to a secret that both sides type in; an invite carries the inbound
token of a row, and `importWireguardInvite` makes it the outbound token of another.

`hasToken_iff` says which tokens a history leaves. `recognises_iff` says which requests of one
installation another one answers, and as which of its peers; `exchange_pairs` is the exchange of
two invites, with anything else in between.
-/

namespace Proxora

open Ecma Histories

/-! ## Invites -/

/-- A text by its marker, with the value of the JSON that the rest is the base64url of. -/
inductive InviteText : Type
  | v1 (rec : Json Text Double)
  | v2 (rec : Json Text Double)
  | other

namespace InviteText

/-- `String(rec[name] ?? "").trim()`; `none` is a `TypeError`. -/
def readField (rec : Json Text Double) (name : Text) : Option Text :=
  match rec.member name with
  | none | some .null => some []
  | some value => value.text.map trim

/-- `Number(rec.listenPort ?? 51820)`, which only may fail here. -/
def listenPort (rec : Json Text Double) : Option Double :=
  match rec.member ("listenPort" : Text) with
  | none | some .null => some (.finite 51820)
  | some value => Json.number (some value)

/-- The properties that `encodeWireguardInvite` gives to `JSON.stringify`. -/
def inviteProperties (name token : Text) : List (Text × Option (Json Text Double)) :=
  [("v", some (.num (.finite 2))), ("name", some (.str (trim name))), ("token", some (.str token))]

def encodeWireguardInvite (name token : Text) : InviteText :=
  .v2 (Json.ofProperties (inviteProperties name token))

/-- Every error of it says that the invite is invalid. -/
def parseWireguardInvite : InviteText → Option WireguardInvite
  | v2 rec =>
      if !rec.isObject then none
      else do
        let name ← readField rec "name"
        let token ← readField rec "token"
        if name = [] ∨ token = [] then none else some ⟨name, token, none, none⟩
  | v1 rec =>
      if !rec.isObject then none
      else do
        let name ← readField rec "name"
        let token ← readField rec "token"
        let address ← readField rec "address"
        let publicKey ← readField rec "publicKey"
        if name = [] ∨ token = [] then none
        else do
          let _ ← readField rec "endpoint"
          let _ ← listenPort rec
          some ⟨name, token, given (some publicKey), given (some address)⟩
  | other => none

end InviteText

open InviteText

/-! ## Requests -/

/-- A character that is sent in a header. -/
def isHeaderChar (c : Char) : Bool :=
  c = '\t' || 0x20 ≤ c.toNat && c.toNat < 0x100 && c.toNat ≠ 0x7F

/-- The header `Authorization` of a request to a peer; a value that cannot be sent is a
`TypeError`. -/
def authorization (crypto : Crypto) (peer : WireguardPeer) : Option Text :=
  match outboundToken crypto peer with
  | .error _ => none
  | .ok token => if token.all isHeaderChar then some ("Bearer " ++ token) else none

/-- `/^Bearer\s+(.+)$/i.exec(header)?.[1]?.trim() ?? ""`; a header has no line breaks. -/
def bearerMatch (header : Text) : Text :=
  let rest := header.drop 6
  if toLowerCase (header.take 6) = "bearer" && rest.head?.any isSpace && 2 ≤ rest.length then
    trim rest
  else []

theorem bearer_eq (req : UpgradeRequest) : bearer req = bearerMatch (req.authorization.getD []) :=
  rfl

def unauthorizedError (message : String) : AppError := ⟨"UNAUTHORIZED", message, 401⟩

def bearerToken (header : Option Text) : Except AppError Text :=
  let token := bearerMatch (header.getD [])
  if token = [] then .error (unauthorizedError "Federation token required") else .ok token

def findPeerByInboundToken (crypto : Crypto) (peers : PeerRows) (token : Text) :
    Option WireguardPeer :=
  peers.rows.find? fun peer => peer.inboundTokenHash = crypto.sha256 token

/-- The peer that a request comes from. -/
def requireFederationPeer (crypto : Crypto) (peers : PeerRows) (header : Option Text) :
    Except AppError WireguardPeer := do
  let token ← bearerToken header
  match findPeerByInboundToken crypto peers token with
  | none => throw (unauthorizedError "Unknown federation peer")
  | some peer =>
      if peer.kind ≠ .proxora then throw (unauthorizedError "Unknown federation peer")
      return peer

def inviteForPeer (crypto : Crypto) (peers : PeerRows) (instanceName : Text) (peerId : String) :
    Except AppError InviteText :=
  match peers.find peerId with
  | none => .error (notFoundError "Peer not found")
  | some peer =>
      if peer.kind ≠ .proxora then .error (validationError "Only Proxora peers have invites")
      else
        (crypto.decryptSecret peer.encryptedInboundToken).map (encodeWireguardInvite instanceName)

/-! ## Tokens -/

/-- A token as it is stored: without blanks around it, and not empty. -/
def IsToken (token : Text) : Prop := token ≠ [] ∧ trim token = token

instance (token : Text) : Decidable (IsToken token) := inferInstanceAs (Decidable (_ ∧ _))

inductive TokenSide : Type
  | inbound | outbound
deriving DecidableEq, Repr

/-- The column that has the token. -/
def WireguardPeer.encryptedToken (peer : WireguardPeer) : TokenSide → Text
  | .inbound => peer.encryptedInboundToken
  | .outbound => peer.encryptedOutboundToken

/-- The cipher deciphers what it has enciphered, and gives base64 text. -/
structure Crypto.Reliable (crypto : Crypto) : Prop where
  tag : ∀ iv plaintext, '.' ∉ (crypto.encipher iv plaintext).1
  data : ∀ iv plaintext, '.' ∉ (crypto.encipher iv plaintext).2
  deciphers : ∀ iv plaintext, crypto.decipher iv (crypto.encipher iv plaintext).1
    (crypto.encipher iv plaintext).2 = some plaintext

/-- What is drawn is base64 text, and an invite is one that was read from a text. -/
def HostClientEvent.Genuine : HostClientEvent → Prop
  | .createProxoraPeer _ new => '.' ∉ new.iv
  | .updateProxoraPeer _ _ iv => '.' ∉ iv
  | .importWireguardInvite invite iv inbound new =>
      '.' ∉ iv ∧ '.' ∉ new.iv ∧ IsToken inbound ∧
        ∀ read, invite = some read → ∃ text, parseWireguardInvite text = some read
  | _ => True

/-- An event as it can happen. -/
abbrev PairingEvent : Type := { e : HostClientEvent // e.Genuine }

/-! ## Histories -/

namespace HostClients

def empty : HostClients where
  hosts := .empty
  peers := .empty
  clients := .empty

variable (crypto : Crypto)

/-- The rows after an event; an event with an id that is taken does not happen. -/
def next (s : HostClients) (e : PairingEvent) : HostClients := (step crypto s e.val).getD s

/-- The rows after a history that has begun without any. -/
def after (history : List PairingEvent) : HostClients := history.foldl (next crypto) empty

/-- The peer of which the event sets the token, and the token. -/
def tokenSet (side : TokenSide) (s : HostClients) : HostClientEvent → Option (String × Text)
  | .createProxoraPeer input new =>
      if (createProxoraPeer crypto s input new).isOk then
        some (new.id, trim input.pairingSecret)
      else none
  | .updateProxoraPeer peerId input iv =>
      if (updateProxoraPeer crypto s peerId input iv).isOk then
        input.pairingSecret.map fun secret => (peerId, trim secret)
      else none
  | .importWireguardInvite (some invite) iv inbound new =>
      match s.existingKey invite <|> s.waiting, side with
      | some _, .inbound => none
      | some peer, .outbound => some (peer.id, invite.token)
      | none, side =>
          if (importWireguardInvite crypto s (some invite) iv inbound new).1.isOk then
            some (new.id, match side with
              | .inbound => inbound
              | .outbound => invite.token)
          else none
  | _ => none

/-- The event gives the peer the token. -/
def Sets (side : TokenSide) (peerId : String) (token : Text) (past : List PairingEvent)
    (e : PairingEvent) : Prop :=
  tokenSet crypto side (after crypto past) e.val = some (peerId, token)

/-- The event deletes the peer or gives it a token. -/
def Unsets (side : TokenSide) (peerId : String) (past : List PairingEvent) (e : PairingEvent) :
    Prop :=
  e.val = .deletePeer peerId ∨ ∃ token, Sets crypto side peerId token past e

/-- The row of the peer has the token. -/
def HasToken (side : TokenSide) (s : HostClients) (peerId : String) (token : Text) : Prop :=
  ∃ peer, s.peers.find peerId = some peer ∧
    crypto.decryptSecret (peer.encryptedToken side) = .ok token

end HostClients

variable {crypto : Crypto} {s t : HostClients} {side : TokenSide}

/-! ## The cipher -/

theorem Crypto.Reliable.decryptSecret_encryptSecret (reliable : crypto.Reliable) {iv : Text}
    (drawn : '.' ∉ iv) (plaintext : Text) :
    crypto.decryptSecret (crypto.encryptSecret iv plaintext) = .ok plaintext := by
  have pieces : split '.' (crypto.encryptSecret iv plaintext) =
      [iv, (crypto.encipher iv plaintext).1, (crypto.encipher iv plaintext).2] := by
    rw [Crypto.encryptSecret, List.append_assoc, List.cons_append, split_append_cons,
      split_append_cons, split_of_notMem drawn, split_of_notMem (reliable.tag iv plaintext),
      split_of_notMem (reliable.data iv plaintext)]
    rfl
  unfold Crypto.decryptSecret
  rw [pieces]
  dsimp only
  rw [reliable.deciphers]

theorem decryptSecret_nil {token : Text} : crypto.decryptSecret [] ≠ .ok token := by
  intro opened
  cases opened

/-! ## Invites -/

theorem readField_isToken {rec : Json Text Double} {name token : Text}
    (read : readField rec name = some token) (some_text : token ≠ []) : IsToken token := by
  unfold readField at read
  split at read
  · cases read
    exact absurd rfl some_text
  · cases read
    exact absurd rfl some_text
  · obtain ⟨text, -, rfl⟩ := Option.map_eq_some_iff.mp read
    exact ⟨some_text, trim_trim text⟩

theorem isToken_of_parse {text : InviteText} {invite : WireguardInvite}
    (read : parseWireguardInvite text = some invite) : IsToken invite.token := by
  cases text with
  | other => cases read
  | v1 rec =>
      dsimp only [parseWireguardInvite] at read
      split at read
      · cases read
      · obtain ⟨name, -, read⟩ := Option.bind_eq_some_iff.mp read
        obtain ⟨token, field, read⟩ := Option.bind_eq_some_iff.mp read
        obtain ⟨address, -, read⟩ := Option.bind_eq_some_iff.mp read
        obtain ⟨publicKey, -, read⟩ := Option.bind_eq_some_iff.mp read
        split at read
        · cases read
        · next filled =>
          obtain ⟨endpoint, -, read⟩ := Option.bind_eq_some_iff.mp read
          obtain ⟨port, -, read⟩ := Option.bind_eq_some_iff.mp read
          cases read
          exact readField_isToken field fun empty => filled (.inr empty)
  | v2 rec =>
      dsimp only [parseWireguardInvite] at read
      split at read
      · cases read
      · obtain ⟨name, -, read⟩ := Option.bind_eq_some_iff.mp read
        obtain ⟨token, field, read⟩ := Option.bind_eq_some_iff.mp read
        split at read
        · cases read
        · next filled =>
          cases read
          exact readField_isToken field fun empty => filled (.inr empty)

theorem member_inviteProperties {name token key : Text} {value : Option (Json Text Double)}
    (listed : (key, value) ∈ inviteProperties name token) :
    (Json.ofProperties (inviteProperties name token)).member key = value := by
  have names : (["v", "name", "token"] : List Text).Nodup := by decide
  have distinct : ((inviteProperties name token).map Prod.fst).Nodup := names
  exact Json.member_ofProperties distinct listed

theorem readField_inviteProperties {name token : Text} (isToken : IsToken token) :
    readField (Json.ofProperties (inviteProperties name token)) "name" = some (trim name) ∧
      readField (Json.ofProperties (inviteProperties name token)) "token" = some token := by
  constructor
  · unfold readField
    rw [member_inviteProperties (List.mem_cons_of_mem _ List.mem_cons_self)]
    exact congrArg some (trim_trim name)
  · unfold readField
    rw [member_inviteProperties
      (List.mem_cons_of_mem _ (List.mem_cons_of_mem _ List.mem_cons_self))]
    exact congrArg some isToken.2

/-- An invite is read as it was written, unless its name is blank. -/
theorem parse_encode {name token : Text} (isToken : IsToken token) :
    parseWireguardInvite (encodeWireguardInvite name token) =
      if trim name = [] then none else some ⟨trim name, token, none, none⟩ := by
  obtain ⟨first, second⟩ := @readField_inviteProperties name token isToken
  dsimp only [encodeWireguardInvite, parseWireguardInvite]
  rw [first, second]
  change (if trim name = [] ∨ token = [] then none else some _) = _
  simp only [isToken.1, or_false]

/-! ## What an event does -/

/-- The row has the tokens. -/
structure WireguardPeer.Keyed (crypto : Crypto) (peer : WireguardPeer) (tokens : TokenSide → Text) :
    Prop where
  kind : peer.kind = .proxora
  hash : peer.inboundTokenHash = crypto.sha256 (tokens .inbound)
  opens : ∀ side, crypto.decryptSecret (peer.encryptedToken side) = .ok (tokens side)
  isToken : ∀ side, IsToken (tokens side)

/-- The change of a row gives it the tokens of `given` and leaves the others. -/
structure Rekeys (crypto : Crypto) (change : WireguardPeer → WireguardPeer)
    (given : TokenSide → Option Text) : Prop where
  kind : ∀ peer, peer.kind = .proxora → (change peer).kind = .proxora
  hash : ∀ peer, (change peer).inboundTokenHash =
    ((given .inbound).map crypto.sha256).getD peer.inboundTokenHash
  kept : ∀ peer side, given side = none →
    (change peer).encryptedToken side = peer.encryptedToken side
  opens : ∀ peer side token, given side = some token →
    crypto.decryptSecret ((change peer).encryptedToken side) = .ok token
  isToken : ∀ side token, given side = some token → IsToken token

/-- The rows of the peers after an event. -/
inductive PeerEffect (crypto : Crypto) (s : HostClients) (e : HostClientEvent) : PeerRows → Prop
  | none (silent : ∀ side, s.tokenSet crypto side e = none)
      (kept : ∀ peerId, e = .deletePeer peerId → s.peers.find peerId = none) :
      PeerEffect crypto s e s.peers
  | added {row : WireguardPeer} {peers : PeerRows} {tokens : TokenSide → Text}
      (inserted : s.peers.insert row = some peers)
      (free : ∀ other ∈ s.peers.rows, other.inboundTokenHash ≠ row.inboundTokenHash)
      (keyed : row.Keyed crypto tokens)
      (sets : ∀ side, s.tokenSet crypto side e = some (row.id, tokens side))
      (kept : ∀ peerId, e ≠ .deletePeer peerId) : PeerEffect crypto s e peers
  | written {old : WireguardPeer} {change : WireguardPeer → WireguardPeer}
      {given : TokenSide → Option Text} (keeps : ∀ peer, (change peer).id = peer.id)
      (found : s.peers.find old.id = some old) (rekeys : Rekeys crypto change given)
      (free : ∀ token, given .inbound = some token → ∀ other ∈ s.peers.rows,
        other.inboundTokenHash = crypto.sha256 token → other.id = old.id)
      (sets : ∀ side, s.tokenSet crypto side e = (given side).map fun token => (old.id, token))
      (kept : ∀ peerId, e ≠ .deletePeer peerId) :
      PeerEffect crypto s e (s.peers.update old.id change keeps)
  | dropped {peerId : String} (deletes : e = .deletePeer peerId) :
      PeerEffect crypto s e (s.peers.restrict (·.id ≠ peerId))

theorem insertPeer_eq_ok {row : WireguardPeer} (done : s.insertPeer row = .ok t) :
    s.peers.insert row = some t.peers ∧
      ∀ other ∈ s.peers.rows, other.inboundTokenHash ≠ row.inboundTokenHash := by
  unfold HostClients.insertPeer at done
  split at done
  · cases done
  · next free =>
    split at done
    · next peers inserted =>
      cases done
      refine ⟨inserted, fun other member same => free ?_⟩
      exact List.any_eq_true.mpr ⟨other, member, decide_eq_true same⟩
    · cases done

/-- A secret that is long enough is a token once it is trimmed. -/
theorem isToken_of_length {secret : Text} (long : ¬utf16Length (trim secret) < 12) :
    IsToken (trim secret) := by
  refine ⟨fun empty => long ?_, trim_trim secret⟩
  rw [empty]
  decide

theorem createProxoraPeer_effect (reliable : crypto.Reliable) {input : ProxoraPeerInput}
    {new : NewRow} (drawn : '.' ∉ new.iv)
    (done : HostClients.createProxoraPeer crypto s input new = .ok t) :
    PeerEffect crypto s (.createProxoraPeer input new) t.peers := by
  have sets : ∀ side, s.tokenSet crypto side (.createProxoraPeer input new) =
      some (new.id, trim input.pairingSecret) := by
    intro side
    rw [HostClients.tokenSet, done]
    rfl
  unfold HostClients.createProxoraPeer at done
  dsimp only at done
  split at done
  · cases done
  · split at done
    · cases done
    · next long =>
      split at done
      · cases done
      · obtain ⟨inserted, free⟩ := insertPeer_eq_ok done
        refine .added inserted free (?_ : WireguardPeer.Keyed crypto _ fun _ =>
          trim input.pairingSecret) sets nofun
        refine ⟨rfl, rfl, fun side => ?_, fun _ => isToken_of_length long⟩
        cases side <;> exact reliable.decryptSecret_encryptSecret drawn _

/-- What `updateProxoraPeer` has checked, and the columns of tokens that it writes. -/
theorem proxoraPeerData_eq_ok {peerId : String} {input : ProxoraPeerUpdate} {iv : Text}
    {data : ProxoraPeerData} (done : s.proxoraPeerData crypto peerId input iv = .ok data) :
    (∀ secret, input.pairingSecret = some secret → ¬utf16Length (trim secret) < 12 ∧
      ∀ other ∈ s.peers.rows, other.inboundTokenHash = crypto.sha256 (trim secret) →
        other.id = peerId) ∧
      data.inboundTokenHash = (input.pairingSecret.map trim).map crypto.sha256 ∧
      data.encryptedInboundToken = (input.pairingSecret.map trim).map (crypto.encryptSecret iv) ∧
      data.encryptedOutboundToken =
        (input.pairingSecret.map trim).map (crypto.encryptSecret iv) := by
  unfold HostClients.proxoraPeerData at done
  dsimp only at done
  split at done
  · cases done
  · split at done
    · cases done
    · split at done
      · cases done
      · next long =>
        split at done
        · cases done
        · next free =>
          cases done
          refine ⟨fun secret given => ⟨fun short => long ?_, fun other member same => ?_⟩,
            rfl, rfl, rfl⟩
          · rw [given]
            exact decide_eq_true short
          · by_contra apart
            apply free
            rw [given]
            refine List.any_eq_true.mpr ⟨other, member, ?_⟩
            rw [Bool.and_eq_true]
            exact ⟨decide_eq_true same, decide_eq_true apart⟩

theorem rekeys_write (reliable : crypto.Reliable) {iv : Text} (drawn : '.' ∉ iv)
    {data : ProxoraPeerData} {secret : Option Text}
    (hash : data.inboundTokenHash = secret.map crypto.sha256)
    (inbound : data.encryptedInboundToken = secret.map (crypto.encryptSecret iv))
    (outbound : data.encryptedOutboundToken = secret.map (crypto.encryptSecret iv))
    (isToken : ∀ token, secret = some token → IsToken token) :
    Rekeys crypto data.write fun _ => secret := by
  refine ⟨fun _ proxora => proxora, fun peer => ?_, fun peer side none => ?_,
    fun peer side token given => ?_, fun _ => isToken⟩
  · rw [ProxoraPeerData.write, hash]
  · cases side with
    | inbound => rw [WireguardPeer.encryptedToken, ProxoraPeerData.write, inbound, none]; rfl
    | outbound => rw [WireguardPeer.encryptedToken, ProxoraPeerData.write, outbound, none]; rfl
  · cases side with
    | inbound =>
        rw [WireguardPeer.encryptedToken, ProxoraPeerData.write, inbound, given]
        exact reliable.decryptSecret_encryptSecret drawn token
    | outbound =>
        rw [WireguardPeer.encryptedToken, ProxoraPeerData.write, outbound, given]
        exact reliable.decryptSecret_encryptSecret drawn token

theorem updateProxoraPeer_effect (reliable : crypto.Reliable) {peerId : String}
    {input : ProxoraPeerUpdate} {iv : Text} (drawn : '.' ∉ iv)
    (done : s.updateProxoraPeer crypto peerId input iv = .ok t) :
    PeerEffect crypto s (.updateProxoraPeer peerId input iv) t.peers := by
  have sets : ∀ side, s.tokenSet crypto side (.updateProxoraPeer peerId input iv) =
      (input.pairingSecret.map trim).map fun token => (peerId, token) := by
    intro side
    rw [HostClients.tokenSet, done, Option.map_map]
    rfl
  unfold HostClients.updateProxoraPeer at done
  cases found : s.peers.find peerId with
  | none =>
      rw [found] at done
      cases done
  | some old =>
      rw [found] at done
      dsimp only at done
      have key : old.id = peerId := KeyedRows.key_of_find found
      split at done
      · cases done
      · cases written : s.proxoraPeerData crypto peerId input iv with
        | error e =>
            rw [written] at done
            cases done
        | ok data =>
            rw [written] at done
            cases done
            obtain ⟨checked, hash, inbound, outbound⟩ := proxoraPeerData_eq_ok written
            subst key
            refine .written data.write_id found
              (rekeys_write reliable drawn hash inbound outbound ?_) ?_ sets nofun
            · intro token given
              obtain ⟨secret, typed, rfl⟩ := Option.map_eq_some_iff.mp given
              exact isToken_of_length (checked secret typed).1
            · intro token given
              obtain ⟨secret, typed, rfl⟩ := Option.map_eq_some_iff.mp given
              exact (checked secret typed).2

/-- What an invite gives to a row. -/
def WireguardInvite.tokens (invite : WireguardInvite) : TokenSide → Option Text
  | .inbound => none
  | .outbound => some invite.token

theorem rekeys_invite (reliable : crypto.Reliable) {iv : Text} (drawn : '.' ∉ iv)
    {invite : WireguardInvite} (isToken : IsToken invite.token) :
    Rekeys crypto (invite.write (crypto.encryptSecret iv invite.token)) invite.tokens := by
  refine ⟨fun _ _ => rfl, fun _ => rfl, fun peer side none => ?_, fun peer side token given => ?_,
    fun side token given => ?_⟩
  · cases side with
    | inbound => rfl
    | outbound => cases none
  · cases side with
    | inbound => cases given
    | outbound =>
        cases given
        exact reliable.decryptSecret_encryptSecret drawn invite.token
  · cases side with
    | inbound => cases given
    | outbound =>
        cases given
        exact isToken

/-- The row that is created for an invite. -/
def WireguardInvite.newRow (crypto : Crypto) (invite : WireguardInvite) (iv inbound : Text)
    (new : NewRow) : WireguardPeer where
  id := new.id
  name := invite.name
  kind := .proxora
  publicKey := invite.publicKey.getD []
  address := trim ((split '/' (invite.address.getD [])).headD [])
  proxoraPort := 3000
  inboundTokenHash := crypto.sha256 inbound
  encryptedInboundToken := crypto.encryptSecret new.iv inbound
  encryptedOutboundToken := crypto.encryptSecret iv invite.token
  createdAt := new.createdAt

def WireguardInvite.newTokens (invite : WireguardInvite) (inbound : Text) : TokenSide → Text
  | .inbound => inbound
  | .outbound => invite.token

theorem keyed_newRow (reliable : crypto.Reliable) {invite : WireguardInvite} {iv inbound : Text}
    {new : NewRow} (drawn : '.' ∉ iv) (drawnNew : '.' ∉ new.iv) (random : IsToken inbound)
    (isToken : IsToken invite.token) :
    (invite.newRow crypto iv inbound new).Keyed crypto (invite.newTokens inbound) := by
  refine ⟨rfl, rfl, fun side => ?_, fun side => ?_⟩
  · cases side with
    | inbound => exact reliable.decryptSecret_encryptSecret drawnNew inbound
    | outbound => exact reliable.decryptSecret_encryptSecret drawn invite.token
  · cases side with
    | inbound => exact random
    | outbound => exact isToken

/-- The row that an invite is written to is stored. -/
theorem target_find {invite : WireguardInvite} {peer : WireguardPeer}
    (target : (s.existingKey invite <|> s.waiting) = some peer) :
    s.peers.find peer.id = some peer := by
  cases existing : s.existingKey invite with
  | some other =>
      rw [existing] at target
      cases target
      exact HostClients.existingKey_find existing
  | none =>
      rw [existing] at target
      exact (HostClients.waiting_find target).1

theorem importWireguardInvite_target {invite : WireguardInvite} {peer : WireguardPeer}
    {iv inbound : Text} {new : NewRow}
    (target : (s.existingKey invite <|> s.waiting) = some peer) :
    s.importWireguardInvite crypto (some invite) iv inbound new =
      ((crypto.decryptSecret peer.encryptedInboundToken).mapError .app,
        { s with
          peers := s.peers.update peer.id
            (invite.write (crypto.encryptSecret iv invite.token)) (invite.write_id _) }) := by
  simp only [HostClients.importWireguardInvite, target]

theorem tokenSet_target {invite : WireguardInvite} {peer : WireguardPeer} {iv inbound : Text}
    {new : NewRow} (target : (s.existingKey invite <|> s.waiting) = some peer) :
    s.tokenSet crypto side (.importWireguardInvite (some invite) iv inbound new) =
      (invite.tokens side).map fun token => (peer.id, token) := by
  simp only [HostClients.tokenSet, target]
  cases side <;> rfl

/-- Without a row for the invite one is created, if its id and its hash are not taken. -/
theorem importWireguardInvite_new (reliable : crypto.Reliable) {invite : WireguardInvite}
    {iv inbound : Text} {new : NewRow} (drawnNew : '.' ∉ new.iv)
    (target : (s.existingKey invite <|> s.waiting) = none) :
    s.importWireguardInvite crypto (some invite) iv inbound new =
      ((s.insertPeer (invite.newRow crypto iv inbound new)).map fun _ => inbound,
        s.completed (s.insertPeer (invite.newRow crypto iv inbound new))) := by
  have opened := reliable.decryptSecret_encryptSecret drawnNew inbound
  cases inserts : s.insertPeer (invite.newRow crypto iv inbound new) <;>
    unfold WireguardInvite.newRow at inserts <;>
    simp only [HostClients.importWireguardInvite, target, opened, inserts] <;>
    rfl

theorem importWireguardInvite_effect (reliable : crypto.Reliable)
    {invite : Option WireguardInvite} {iv inbound : Text} {new : NewRow}
    (genuine : (HostClientEvent.importWireguardInvite invite iv inbound new).Genuine) :
    PeerEffect crypto s (.importWireguardInvite invite iv inbound new)
      (s.importWireguardInvite crypto invite iv inbound new).2.peers := by
  obtain ⟨drawn, drawnNew, random, parsed⟩ := genuine
  cases invite with
  | none => exact .none (fun _ => rfl) nofun
  | some invite =>
      obtain ⟨text, read⟩ := parsed invite rfl
      have isToken := isToken_of_parse read
      cases target : s.existingKey invite <|> s.waiting with
      | some peer =>
          rw [importWireguardInvite_target target]
          exact .written (invite.write_id _) (target_find target)
            (rekeys_invite reliable drawn isToken) nofun (fun _ => tokenSet_target target) nofun
      | none =>
          have result :=
            @importWireguardInvite_new _ s reliable invite iv inbound new drawnNew target
          cases inserts : s.insertPeer (invite.newRow crypto iv inbound new) with
          | error e =>
              rw [inserts] at result
              rw [result]
              refine .none (fun side => ?_) nofun
              simp only [HostClients.tokenSet, target, result]
              rfl
          | ok after =>
              rw [inserts] at result
              rw [result]
              obtain ⟨inserted, free⟩ := insertPeer_eq_ok inserts
              refine .added inserted free (keyed_newRow reliable drawn drawnNew random isToken)
                (fun side => ?_) nofun
              simp only [HostClients.tokenSet, target, result]
              cases side <;> rfl

theorem deletePeer_effect {peerId : String} :
    PeerEffect crypto s (.deletePeer peerId) (s.completed (s.deletePeer peerId)).peers := by
  unfold HostClients.deletePeer
  cases found : s.peers.find peerId with
  | none =>
      refine .none (fun _ => rfl) fun other same => ?_
      cases same
      exact found
  | some peer => exact .dropped rfl

theorem insertHost_peers {row : ConnectionRow} (done : s.insertHost row = .ok t) :
    t.peers = s.peers := by
  unfold HostClients.insertHost at done
  split at done
  · cases done
    rfl
  · cases done

/-- What changes no peer. -/
theorem PeerEffect.of_peers {e : HostClientEvent} (same : t.peers = s.peers)
    (silent : ∀ side, s.tokenSet crypto side e = .none) (kept : ∀ peerId, e ≠ .deletePeer peerId) :
    PeerEffect crypto s e t.peers := by
  rw [same]
  exact .none silent fun peerId deletes => absurd deletes (kept peerId)

theorem createHost_peers {input : HostInput} {new : NewRow}
    (done : s.createHost crypto input new = .ok t) : t.peers = s.peers := by
  unfold HostClients.createHost at done
  dsimp only at done
  split at done
  · cases done
  · split at done
    · cases done
    · exact insertHost_peers done

theorem updateHost_peers {hostId : String} {input : HostUpdate} {user : SessionUser} {iv : Text}
    (done : s.updateHost crypto hostId input user iv = .ok t) : t.peers = s.peers := by
  unfold HostClients.updateHost at done
  cases found : s.localHost hostId user with
  | error e =>
      rw [found] at done
      cases done
  | ok host =>
      rw [found] at done
      cases done
      rfl

theorem deleteHost_peers {hostId : String} {user : SessionUser}
    (done : s.deleteHost hostId user = .ok t) : t.peers = s.peers := by
  unfold HostClients.deleteHost at done
  cases found : s.localHost hostId user with
  | error e =>
      rw [found] at done
      cases done
  | ok host =>
      rw [found] at done
      cases done
      rfl

theorem upsertShared_peers {peerId remoteHostId : String} {name : Text} {new : NewRow}
    (done : s.upsertShared crypto peerId remoteHostId name new = .ok t) : t.peers = s.peers := by
  unfold HostClients.upsertShared at done
  split at done
  · cases done
    rfl
  · exact insertHost_peers done

/-- An operation on hosts. -/
theorem completed_peers {outcome : Except RowError HostClients}
    (same : ∀ t, outcome = .ok t → t.peers = s.peers) : (s.completed outcome).peers = s.peers := by
  cases outcome with
  | error e => rfl
  | ok t => exact same t rfl

/-- **Inversion.** What an event does to the peers. -/
theorem next_effect (reliable : crypto.Reliable) (s : HostClients) (e : PairingEvent) :
    PeerEffect crypto s e.val (s.next crypto e).peers := by
  obtain ⟨e, genuine⟩ := e
  unfold HostClients.next
  cases e with
  | createProxoraPeer input new =>
      dsimp only [HostClients.step, Option.getD_some]
      cases done : s.createProxoraPeer crypto input new with
      | ok t => exact createProxoraPeer_effect reliable genuine done
      | error e =>
          refine .none (fun side => ?_) nofun
          rw [HostClients.tokenSet, done]
          rfl
  | updateProxoraPeer peerId input iv =>
      dsimp only [HostClients.step, Option.getD_some]
      cases done : s.updateProxoraPeer crypto peerId input iv with
      | ok t => exact updateProxoraPeer_effect reliable genuine done
      | error e =>
          refine .none (fun side => ?_) nofun
          rw [HostClients.tokenSet, done]
          rfl
  | importWireguardInvite invite iv inbound new =>
      exact importWireguardInvite_effect reliable genuine
  | deletePeer peerId => exact deletePeer_effect
  | createHost input new =>
      refine .of_peers ?_ (fun _ => rfl) nofun
      dsimp only [HostClients.step]
      split
      · exact completed_peers fun _ => createHost_peers
      · rfl
  | updateHost hostId input user iv =>
      exact .of_peers (completed_peers fun _ => updateHost_peers) (fun _ => rfl) nofun
  | deleteHost hostId user =>
      exact .of_peers (completed_peers fun _ => deleteHost_peers) (fun _ => rfl) nofun
  | dropUnshared peerId remoteIds => exact .of_peers rfl (fun _ => rfl) nofun
  | upsertShared peerId remoteHostId name new =>
      refine .of_peers ?_ (fun _ => rfl) nofun
      dsimp only [HostClients.step]
      split
      · exact completed_peers fun _ => upsertShared_peers
      · rfl
  | clientForHost hostId =>
      refine .of_peers ?_ (fun _ => rfl) nofun
      dsimp only [HostClients.step]
      cases s.hosts.find hostId <;> rfl
  | invalidate hostId => exact .of_peers rfl (fun _ => rfl) nofun

/-! ## Runs -/

/-- No two rows have one hash, and every row has its tokens. -/
structure PeersKeyed (crypto : Crypto) (peers : PeerRows) : Prop where
  apart : ∀ {p q : String} {one other : WireguardPeer}, peers.find p = some one →
    peers.find q = some other → one.inboundTokenHash = other.inboundTokenHash → p = q
  keyed : ∀ {p : String} {peer : WireguardPeer}, peers.find p = some peer →
    ∃ tokens, peer.Keyed crypto tokens

theorem Rekeys.keyed {change : WireguardPeer → WireguardPeer} {given : TokenSide → Option Text}
    {peer : WireguardPeer} {tokens : TokenSide → Text} (rekeys : Rekeys crypto change given)
    (before : peer.Keyed crypto tokens) :
    (change peer).Keyed crypto fun side => (given side).getD (tokens side) := by
  refine ⟨rekeys.kind peer before.kind, ?_, fun side => ?_, fun side => ?_⟩
  · rw [rekeys.hash, before.hash]
    cases given .inbound <;> rfl
  · cases here : given side with
    | none =>
        rw [rekeys.kept peer side here]
        exact before.opens side
    | some token => exact rekeys.opens peer side token here
  · cases here : given side with
    | none => exact before.isToken side
    | some token => exact rekeys.isToken side token here

theorem PeersKeyed.of_effect {e : HostClientEvent} {peers : PeerRows}
    (before : PeersKeyed crypto s.peers) (effect : PeerEffect crypto s e peers) :
    PeersKeyed crypto peers := by
  cases effect with
  | none silent kept => exact before
  | @added row peers tokens inserted free keyed sets kept =>
      have fresh : ∀ {q : String} {other : WireguardPeer}, s.peers.find q = some other →
          other.inboundTokenHash ≠ row.inboundTokenHash := fun found =>
        free _ (KeyedRows.mem_of_find found)
      constructor
      · intro p q one other foundOne foundOther same
        rw [KeyedRows.find_insert inserted] at foundOne foundOther
        split at foundOne
        · next here =>
          cases foundOne
          split at foundOther
          · next there => rw [here, there]
          · exact absurd same.symm (fresh foundOther)
        · split at foundOther
          · cases foundOther
            exact absurd same (fresh foundOne)
          · exact before.apart foundOne foundOther same
      · intro p peer found
        rw [KeyedRows.find_insert inserted] at found
        split at found
        · cases found
          exact ⟨tokens, keyed⟩
        · exact before.keyed found
  | @written old change given keeps found rekeys free sets kept =>
      have distinct : ∀ {q : String} {other : WireguardPeer}, s.peers.find q = some other →
          (change old).inboundTokenHash = other.inboundTokenHash → old.id = q := by
        intro q other foundOther same
        rw [rekeys.hash] at same
        cases here : given .inbound with
        | none =>
            rw [here] at same
            exact before.apart found foundOther same
        | some token =>
            rw [here] at same
            have own := free token here other (KeyedRows.mem_of_find foundOther) same.symm
            rw [← own]
            exact KeyedRows.key_of_find foundOther
      constructor
      · intro p q one other foundOne foundOther same
        rw [KeyedRows.find_update] at foundOne foundOther
        split at foundOne
        · next here =>
          rw [here, found] at foundOne
          cases foundOne
          split at foundOther
          · next there => rw [here, there]
          · rw [here]
            exact distinct foundOther same
        · split at foundOther
          · next there =>
            rw [there, found] at foundOther
            cases foundOther
            rw [there]
            exact (distinct foundOne same.symm).symm
          · exact before.apart foundOne foundOther same
      · intro p peer foundPeer
        rw [KeyedRows.find_update] at foundPeer
        split at foundPeer
        · next here =>
          rw [here, found] at foundPeer
          cases foundPeer
          obtain ⟨tokens, keyed⟩ := before.keyed found
          exact ⟨_, rekeys.keyed keyed⟩
        · exact before.keyed foundPeer
  | @dropped peerId deletes =>
      have stored : ∀ {q : String} {peer : WireguardPeer},
          (s.peers.restrict (·.id ≠ peerId)).find q = some peer → s.peers.find q = some peer := by
        intro q peer found
        rw [KeyedRows.find_restrict, Option.filter_eq_some_iff] at found
        exact found.1
      exact ⟨fun one other => before.apart (stored one) (stored other),
        fun found => before.keyed (stored found)⟩

/-- **Step lemma.** A peer has a token when the event gives it that token, or it had it and the
event neither deletes the peer nor gives it one. -/
theorem hasToken_effect {e : HostClientEvent} {p : String} {token : Text}
    (effect : PeerEffect crypto s e t.peers) :
    t.HasToken crypto side p token ↔ s.tokenSet crypto side e = some (p, token) ∨
      s.HasToken crypto side p token ∧
        ¬(e = .deletePeer p ∨ ∃ other, s.tokenSet crypto side e = some (p, other)) := by
  unfold HostClients.HasToken
  generalize t.peers = peers at effect
  cases effect with
  | none silent kept =>
      rw [silent side]
      constructor
      · intro held
        refine .inr ⟨held, fun ended => ?_⟩
        rcases ended with deletes | ⟨other, given⟩
        · obtain ⟨peer, found, -⟩ := held
          rw [kept p deletes] at found
          cases found
        · cases given
      · intro held
        rcases held with given | ⟨held, -⟩
        · cases given
        · exact held
  | @added row peers tokens inserted free keyed sets kept =>
      rw [sets side, KeyedRows.find_insert inserted]
      by_cases same : p = row.id
      · rw [if_pos same, same]
        constructor
        · intro held
          obtain ⟨peer, found, opened⟩ := held
          cases found
          rw [keyed.opens side] at opened
          cases opened
          exact .inl rfl
        · intro held
          rcases held with given | ⟨-, none⟩
          · cases given
            exact ⟨row, rfl, keyed.opens side⟩
          · exact absurd (.inr ⟨tokens side, rfl⟩) none
      · rw [if_neg same]
        constructor
        · intro held
          refine .inr ⟨held, fun ended => ?_⟩
          rcases ended with deletes | ⟨other, given⟩
          · exact kept p deletes
          · cases given
            exact same rfl
        · intro held
          rcases held with given | ⟨held, -⟩
          · cases given
            exact absurd rfl same
          · exact held
  | @written old change given keeps found rekeys free sets kept =>
      rw [sets side, KeyedRows.find_update]
      by_cases same : p = old.id
      · rw [if_pos same, same, found]
        cases here : given side with
        | none =>
            rw [Option.map_none]
            constructor
            · intro held
              obtain ⟨peer, row, opened⟩ := held
              cases row
              rw [rekeys.kept old side here] at opened
              refine .inr ⟨⟨old, rfl, opened⟩, fun ended => ?_⟩
              rcases ended with deletes | ⟨other, none⟩
              · exact kept old.id deletes
              · cases none
            · intro held
              rcases held with none | ⟨⟨peer, row, opened⟩, -⟩
              · cases none
              · cases row
                rw [← rekeys.kept old side here] at opened
                exact ⟨change old, rfl, opened⟩
        | some set =>
            rw [Option.map_some]
            constructor
            · intro held
              obtain ⟨peer, row, opened⟩ := held
              cases row
              rw [rekeys.opens old side set here] at opened
              cases opened
              exact .inl rfl
            · intro held
              rcases held with own | ⟨-, none⟩
              · cases own
                exact ⟨change old, rfl, rekeys.opens old side _ here⟩
              · exact absurd (.inr ⟨set, rfl⟩) none
      · rw [if_neg same]
        have other : ∀ set, (given side).map (fun set => (old.id, set)) ≠ some (p, set) := by
          intro set own
          obtain ⟨given, -, pair⟩ := Option.map_eq_some_iff.mp own
          cases pair
          exact same rfl
        constructor
        · intro held
          refine .inr ⟨held, fun ended => ?_⟩
          rcases ended with deletes | ⟨set, own⟩
          · exact kept p deletes
          · exact other set own
        · intro held
          rcases held with own | ⟨held, -⟩
          · exact absurd own (other token)
          · exact held
  | @dropped peerId deletes =>
      rw [deletes, KeyedRows.find_restrict]
      have silent : s.tokenSet crypto side (.deletePeer peerId) = none := rfl
      rw [silent]
      constructor
      · intro held
        obtain ⟨peer, row, opened⟩ := held
        rw [Option.filter_eq_some_iff] at row
        refine .inr ⟨⟨peer, row.1, opened⟩, fun ended => ?_⟩
        rcases ended with same | ⟨set, none⟩
        · cases same
          exact of_decide_eq_true row.2 (KeyedRows.key_of_find row.1)
        · cases none
      · intro held
        rcases held with none | ⟨⟨peer, row, opened⟩, kept⟩
        · cases none
        · refine ⟨peer, Option.filter_eq_some_iff.mpr ⟨row, decide_eq_true fun same => kept ?_⟩,
            opened⟩
          rw [← same, KeyedRows.key_of_find row]
          exact .inl rfl

namespace HostClients

variable {history past later : List PairingEvent}

theorem after_snoc (e : PairingEvent) :
    after crypto (past ++ [e]) = (after crypto past).next crypto e := by
  rw [after, List.foldl_append, List.foldl_cons, List.foldl_nil, ← after]

/-- **Run lemma.** Every history keeps the peers apart, each with its tokens. -/
theorem peersKeyed_after (reliable : crypto.Reliable) (history : List PairingEvent) :
    PeersKeyed crypto (after crypto history).peers := by
  induction history using List.reverseRecOn with
  | nil => exact ⟨nofun, nofun⟩
  | append_singleton past e ih =>
      rw [after_snoc]
      exact ih.of_effect (next_effect reliable _ e)

/-- A peer has a token when it was given and neither deleted nor given another one since. -/
theorem hasToken_iff (reliable : crypto.Reliable) {p : String} {token : Text}
    (history : List PairingEvent) :
    (after crypto history).HasToken crypto side p token ↔
      Since (Sets crypto side p token) (Unsets crypto side p) history := by
  refine iff_since (fun past => (after crypto past).HasToken crypto side p token) ?_ ?_ history
  · intro held
    obtain ⟨peer, found, -⟩ := held
    cases found
  · intro past e
    rw [after_snoc]
    exact hasToken_effect (next_effect reliable _ e)

end HostClients

/-! ## Requests -/

theorem bearerMatch_append {token : Text} (isToken : IsToken token) :
    bearerMatch ("Bearer " ++ token) = token := by
  have front : ("Bearer " ++ token : Text).take 6 = "Bearer" := rfl
  have back : ("Bearer " ++ token : Text).drop 6 = ' ' :: token := rfl
  have word : toLowerCase ("Bearer" : Text) = "bearer" := by decide
  have long : 2 ≤ (' ' :: token).length := by
    rw [List.length_cons]
    have := List.length_pos_of_ne_nil isToken.1
    omega
  unfold bearerMatch
  rw [front, back, word]
  dsimp only
  rw [trim_cons_space rfl, isToken.2, decide_eq_true long]
  rfl

theorem outboundToken_of_keyed {peer : WireguardPeer} {tokens : TokenSide → Text}
    (keyed : peer.Keyed crypto tokens) : outboundToken crypto peer = .ok (tokens .outbound) := by
  have opened : crypto.decryptSecret peer.encryptedOutboundToken = .ok (tokens .outbound) :=
    keyed.opens .outbound
  unfold outboundToken
  rw [if_neg, opened]
  intro empty
  rw [empty] at opened
  exact decryptSecret_nil opened

theorem authorization_eq_some {peer : WireguardPeer} {tokens : TokenSide → Text} {header : Text}
    (keyed : peer.Keyed crypto tokens) :
    authorization crypto peer = some header ↔
      (tokens .outbound).all isHeaderChar = true ∧ "Bearer " ++ tokens .outbound = header := by
  unfold authorization
  rw [outboundToken_of_keyed keyed]
  dsimp only
  split
  · next sent => simp [sent]
  · next unsent => simp [unsent]

/-- A token is the inbound token of the one row that has its hash. -/
theorem findPeerByInboundToken_eq_some {peers : PeerRows} (keyed : PeersKeyed crypto peers)
    {token : Text} {answer : WireguardPeer} :
    findPeerByInboundToken crypto peers token = some answer ↔
      peers.find answer.id = some answer ∧ answer.inboundTokenHash = crypto.sha256 token := by
  unfold findPeerByInboundToken
  constructor
  · intro found
    have hash := List.find?_some found
    exact ⟨KeyedRows.find_of_mem (List.mem_of_find?_eq_some found), of_decide_eq_true hash⟩
  · intro held
    obtain ⟨stored, hash⟩ := held
    cases found : peers.rows.find? fun peer => peer.inboundTokenHash = crypto.sha256 token with
    | none =>
        exact absurd (decide_eq_true hash)
          (List.find?_eq_none.mp found answer (KeyedRows.mem_of_find stored))
    | some other =>
        have known := KeyedRows.find_of_mem (List.mem_of_find?_eq_some found)
        have same := List.find?_some found
        rw [keyed.apart known stored ((of_decide_eq_true same).trans hash.symm)] at known
        exact known.symm.trans stored

theorem requireFederationPeer_eq_ok {peers : PeerRows} (keyed : PeersKeyed crypto peers)
    {token : Text} (isToken : IsToken token) {answer : WireguardPeer} :
    requireFederationPeer crypto peers (some ("Bearer " ++ token)) = .ok answer ↔
      peers.find answer.id = some answer ∧ answer.inboundTokenHash = crypto.sha256 token := by
  rw [← findPeerByInboundToken_eq_some keyed]
  have brought : bearerToken (some ("Bearer " ++ token)) = .ok token := by
    unfold bearerToken
    rw [Option.getD_some, bearerMatch_append isToken, if_neg isToken.1]
  unfold requireFederationPeer
  rw [brought]
  dsimp only [bind, Except.bind]
  cases found : findPeerByInboundToken crypto peers token with
  | none => exact iff_of_false nofun nofun
  | some other =>
      obtain ⟨stored, -⟩ := (findPeerByInboundToken_eq_some keyed).mp found
      obtain ⟨tokens, own⟩ := keyed.keyed stored
      dsimp only
      rw [if_neg (not_not.mpr own.kind)]
      exact ⟨fun same => congrArg some (Except.ok.inj same),
        fun same => congrArg Except.ok (Option.some.inj same)⟩

/-! ## Installations -/

section Sites

variable {Site : Type} [DecidableEq Site] (crypto : Site → Crypto)

/-- The events at one installation. -/
def eventsAt (site : Site) (history : List (Site × PairingEvent)) : List PairingEvent :=
  history.filterMap fun event => if event.1 = site then some event.2 else none

def rowsAt (history : List (Site × PairingEvent)) (site : Site) : HostClients :=
  HostClients.after (crypto site) (eventsAt site history)

/-- A request that `b` sends to its peer `q` is one of the peer `p` to `a`. -/
def Recognises (history : List (Site × PairingEvent)) (a : Site) (p : String) (b : Site)
    (q : String) : Prop :=
  ∃ peer header answer, (rowsAt crypto history b).peers.find q = some peer ∧
    authorization (crypto b) peer = some header ∧
    requireFederationPeer (crypto a) (rowsAt crypto history a).peers (some header) = .ok answer ∧
    answer.id = p

/-- The site neither deletes the peer nor gives it a token of that side. -/
def Undisturbed (past later : List (Site × PairingEvent)) (site : Site) (side : TokenSide)
    (p : String) : Prop :=
  ¬ Happened (HostClients.Unsets (crypto site) side p) (eventsAt site past) (eventsAt site later)

variable {crypto} {history past later : List (Site × PairingEvent)} {a b site : Site} {p q : String}

theorem eventsAt_append :
    eventsAt site (past ++ later) = eventsAt site past ++ eventsAt site later :=
  List.filterMap_append

theorem rowsAt_snoc (e : PairingEvent) :
    rowsAt crypto (past ++ [(site, e)]) site = (rowsAt crypto past site).next (crypto site) e := by
  have single : eventsAt site [(site, e)] = [e] := by
    rw [eventsAt, List.filterMap_cons, if_pos rfl, List.filterMap_nil]
  rw [rowsAt, eventsAt_append, single, HostClients.after_snoc, ← rowsAt]

theorem hasToken_append (reliable : (crypto site).Reliable) {token : Text}
    (held : (rowsAt crypto past site).HasToken (crypto site) side p token)
    (undisturbed : Undisturbed crypto past later site side p) :
    (rowsAt crypto (past ++ later) site).HasToken (crypto site) side p token := by
  unfold rowsAt at *
  rw [HostClients.hasToken_iff reliable] at held
  rw [HostClients.hasToken_iff reliable, eventsAt_append]
  exact held.append undisturbed

theorem isToken_of_hasToken (reliable : (crypto site).Reliable) {token : Text}
    (held : (rowsAt crypto past site).HasToken (crypto site) side p token) : IsToken token := by
  have keyed := HostClients.peersKeyed_after reliable (eventsAt site past)
  obtain ⟨peer, found, opened⟩ := held
  obtain ⟨tokens, own⟩ := keyed.keyed found
  rw [Except.ok.inj (opened.symm.trans (own.opens side))]
  exact own.isToken side

theorem recognises_iff_tokens (reliable : ∀ site, (crypto site).Reliable) :
    Recognises crypto history a p b q ↔
      ∃ inbound outbound, (rowsAt crypto history a).HasToken (crypto a) .inbound p inbound ∧
        (rowsAt crypto history b).HasToken (crypto b) .outbound q outbound ∧
        outbound.all isHeaderChar = true ∧
        (crypto a).sha256 outbound = (crypto a).sha256 inbound := by
  have keyedA := HostClients.peersKeyed_after (reliable a) (eventsAt a history)
  have keyedB := HostClients.peersKeyed_after (reliable b) (eventsAt b history)
  rw [← rowsAt] at keyedA keyedB
  constructor
  · intro recognised
    obtain ⟨peer, header, answer, stored, sent, answered, rfl⟩ := recognised
    obtain ⟨tokens, own⟩ := keyedB.keyed stored
    obtain ⟨chars, rfl⟩ := (authorization_eq_some own).mp sent
    obtain ⟨known, hash⟩ := (requireFederationPeer_eq_ok keyedA (own.isToken .outbound)).mp answered
    obtain ⟨others, his⟩ := keyedA.keyed known
    exact ⟨others .inbound, tokens .outbound, ⟨answer, known, his.opens .inbound⟩,
      ⟨peer, stored, own.opens .outbound⟩, chars, hash.symm.trans his.hash⟩
  · intro tokens
    obtain ⟨inbound, outbound, ⟨answer, known, opened⟩, ⟨peer, stored, read⟩, chars, hash⟩ := tokens
    obtain ⟨own, keyed⟩ := keyedB.keyed stored
    obtain ⟨others, his⟩ := keyedA.keyed known
    have sends : outbound = own .outbound := Except.ok.inj (read.symm.trans (keyed.opens .outbound))
    have brings : inbound = others .inbound :=
      Except.ok.inj (opened.symm.trans (his.opens .inbound))
    have id : answer.id = p := KeyedRows.key_of_find known
    subst sends brings id
    exact ⟨peer, _, answer, stored, (authorization_eq_some keyed).mpr ⟨chars, rfl⟩,
      (requireFederationPeer_eq_ok keyedA (keyed.isToken .outbound)).mpr
        ⟨known, his.hash.trans hash.symm⟩, rfl⟩

/-- In every history of any installations, a request that `b` sends to its peer `q` is taken for
one of the peer `p` of `a` exactly when the token that `b` last gave `q` to send, by a secret or an
invite, is one that a header can carry and has the hash of the token that `a` last gave `p`, by a
secret or drawn for an invite; neither row having been deleted since. -/
theorem recognises_iff (crypto : Site → Crypto) (reliable : ∀ site, (crypto site).Reliable)
    (history : List (Site × PairingEvent)) (a b : Site) (p q : String) :
    Recognises crypto history a p b q ↔
      ∃ inbound outbound,
        Since (HostClients.Sets (crypto a) .inbound p inbound)
          (HostClients.Unsets (crypto a) .inbound p) (eventsAt a history) ∧
        Since (HostClients.Sets (crypto b) .outbound q outbound)
          (HostClients.Unsets (crypto b) .outbound q) (eventsAt b history) ∧
        outbound.all isHeaderChar = true ∧
        (crypto a).sha256 outbound = (crypto a).sha256 inbound := by
  rw [recognises_iff_tokens reliable]
  refine exists_congr fun inbound => exists_congr fun outbound => ?_
  rw [rowsAt, rowsAt, HostClients.hasToken_iff (reliable a), HostClients.hasToken_iff (reliable b)]

/-! ## Exchanging invites -/

/-- The invite of a peer brings its inbound token. -/
theorem hasToken_of_invite (reliable : (crypto site).Reliable) {name : Text} {text : InviteText}
    (gives : inviteForPeer (crypto site) (rowsAt crypto past site).peers name p = .ok text) :
    ∃ token, (rowsAt crypto past site).HasToken (crypto site) .inbound p token ∧
      IsToken token ∧ text = encodeWireguardInvite name token := by
  have keyed := HostClients.peersKeyed_after reliable (eventsAt site past)
  rw [← rowsAt] at keyed
  unfold inviteForPeer at gives
  cases found : (rowsAt crypto past site).peers.find p with
  | none =>
      rw [found] at gives
      cases gives
  | some peer =>
      rw [found] at gives
      dsimp only at gives
      obtain ⟨tokens, own⟩ := keyed.keyed found
      have opened : (crypto site).decryptSecret peer.encryptedInboundToken = .ok (tokens .inbound) :=
        own.opens .inbound
      rw [if_neg (not_not.mpr own.kind), opened] at gives
      cases gives
      exact ⟨tokens .inbound, ⟨peer, found, own.opens .inbound⟩, own.isToken .inbound, rfl⟩

/-- The answer to an invite brings the inbound token of the row that the invite was written to. -/
theorem hasToken_of_answer {crypto : Crypto} (reliable : crypto.Reliable)
    {invite : Option WireguardInvite} {iv inbound token back : Text} {new : NewRow}
    {e : PairingEvent} (imports : e.val = .importWireguardInvite invite iv inbound new)
    (row : s.tokenSet crypto .outbound e.val = some (q, token))
    (answers : (s.importWireguardInvite crypto invite iv inbound new).1 = .ok back) :
    (s.next crypto e).HasToken crypto .inbound q back := by
  rw [hasToken_effect (next_effect reliable s e)]
  have genuine := e.property
  rw [imports] at row genuine ⊢
  cases invite with
  | none => cases row
  | some invite =>
      cases target : s.existingKey invite <|> s.waiting with
      | some peer =>
          rw [importWireguardInvite_target target] at answers
          rw [tokenSet_target target] at row ⊢
          cases row
          refine .inr ⟨⟨peer, target_find target, ?_⟩, fun ended => ?_⟩
          · cases opened : crypto.decryptSecret peer.encryptedInboundToken with
            | error e =>
                rw [opened] at answers
                cases answers
            | ok token =>
                rw [opened] at answers
                cases answers
                exact opened
          · rcases ended with deletes | ⟨other, given⟩
            · cases deletes
            · cases given
      | none =>
          have result := @importWireguardInvite_new _ s reliable invite iv inbound new genuine.2.1
            target
          rw [result] at answers
          cases inserts : s.insertPeer (invite.newRow crypto iv inbound new) with
          | error e =>
              rw [inserts] at answers
              cases answers
          | ok after =>
              rw [inserts] at answers result
              cases answers
              refine .inl ?_
              simp only [HostClients.tokenSet, target, result] at row ⊢
              cases row
              rfl

/-- An imported invite gives its token to the row that it is written to. -/
theorem token_of_tokenSet {crypto : Crypto} {invite : WireguardInvite} {iv inbound token : Text}
    {new : NewRow}
    (row : s.tokenSet crypto .outbound (.importWireguardInvite (some invite) iv inbound new) =
      some (q, token)) : token = invite.token := by
  cases target : s.existingKey invite <|> s.waiting with
  | some peer =>
      rw [tokenSet_target target] at row
      cases row
      rfl
  | none =>
      simp only [HostClients.tokenSet, target] at row
      split at row
      · cases row
        rfl
      · cases row

/-- The token of an invite, imported at `b`, is what `b` sends, and what `a` takes it for. -/
theorem recognises_of_imported (reliable : ∀ site, (crypto site).Reliable) {token : Text}
    {e : PairingEvent} (held : (rowsAt crypto past a).HasToken (crypto a) .inbound p token)
    {between : List (Site × PairingEvent)}
    (row : (rowsAt crypto (past ++ between) b).tokenSet (crypto b) .outbound e.val = some (q, token))
    (chars : token.all isHeaderChar = true)
    (kept : Undisturbed crypto past (between ++ (b, e) :: later) a .inbound p)
    (keeps : Undisturbed crypto (past ++ between ++ [(b, e)]) later b .outbound q) :
    Recognises crypto (past ++ (between ++ (b, e) :: later)) a p b q := by
  have given : (rowsAt crypto (past ++ between ++ [(b, e)]) b).HasToken (crypto b) .outbound q
      token := by
    rw [rowsAt_snoc]
    exact (hasToken_effect (next_effect (reliable b) _ e)).mpr (.inl row)
  have sends := hasToken_append (reliable b) given keeps
  rw [List.append_assoc, List.append_assoc, List.singleton_append] at sends
  exact (recognises_iff_tokens reliable).mpr
    ⟨token, token, hasToken_append (reliable a) held kept, sends, chars, rfl⟩

variable (crypto) in
/-- At the site the event imports the text: its token goes to the row, and the answer brings
`back`. -/
def ImportsAs (past : List (Site × PairingEvent)) (site : Site) (e : PairingEvent)
    (text : InviteText) (p : String) (token back : Text) : Prop :=
  ∃ iv inbound new, e.val = .importWireguardInvite (parseWireguardInvite text) iv inbound new ∧
    (rowsAt crypto past site).tokenSet (crypto site) .outbound e.val = some (p, token) ∧
    ((rowsAt crypto past site).importWireguardInvite (crypto site) (parseWireguardInvite text) iv
      inbound new).1 = .ok back

/-- What is imported is what was written. -/
theorem ImportsAs.token_eq {e : PairingEvent} {name given token back : Text}
    (isToken : IsToken given)
    (imports : ImportsAs crypto past site e (encodeWireguardInvite name given) p token back) :
    token = given := by
  obtain ⟨iv, inbound, new, event, row, -⟩ := imports
  rw [event, parse_encode isToken] at row
  split at row
  · cases row
  · exact token_of_tokenSet row

end Sites

/-! ## Two installations -/

/-- A cipher without a key. -/
def plainCrypto : Crypto where
  encipher := fun _ plaintext => (['t'], base64Encode (utf8Encode plaintext))
  decipher := fun _ _ data => some (utf8Text (base64Decode data))
  sha256 := id

theorem plainCrypto_reliable : plainCrypto.Reliable where
  tag := fun _ _ => (by decide : '.' ∉ ['t'])
  data := by
    intro iv plaintext member
    have digit : ∀ n < 64, base64Char n ≠ '.' := by
      intro n six same
      have value := (base64_char n six).1
      rw [same] at value
      cases value
    exact @forall_mem_base64Encode (· ≠ '.') digit (by decide) _ '.' member rfl
  deciphers := by
    intro iv plaintext
    dsimp only [plainCrypto]
    rw [base64Decode_base64Encode, utf8Text_utf8Encode]

/-- The secret is typed in for a new peer. -/
def typedIn (id : String) : PairingEvent :=
  ⟨.createProxoraPeer ⟨"Lab", "10.88.0.3", 3000, "a shared secret"⟩ ⟨id, "iv", 0⟩,
    (by decide : '.' ∉ ("iv" : Text))⟩

theorem recognises_iff_typed : Recognises (fun _ : Bool => plainCrypto)
    [(true, typedIn "p"), (false, typedIn "q")] true "p" false "q" := by
  refine (recognises_iff (fun _ => plainCrypto) (fun _ => plainCrypto_reliable)
    [(true, typedIn "p"), (false, typedIn "q")] true false "p" "q").mpr
    ⟨"a shared secret", "a shared secret", ⟨[], typedIn "p", [], rfl, ?_, not_happened_nil⟩,
      ⟨[], typedIn "q", [], rfl, ?_, not_happened_nil⟩, by decide, rfl⟩
  · rfl
  · rfl

/-- An invite is imported; the row that is created for it gets the token `inbound`. -/
def imported (token inbound : Text) (id : String) (isToken : IsToken token ∧ IsToken inbound) :
    PairingEvent :=
  ⟨.importWireguardInvite (some ⟨"Lab", token, none, none⟩) "iv" inbound ⟨id, "iv", 0⟩,
    (by decide : '.' ∉ ("iv" : Text)), (by decide : '.' ∉ ("iv" : Text)), isToken.2, by
      intro read same
      cases same
      refine ⟨encodeWireguardInvite "Lab" token, (parse_encode isToken.1).trans ?_⟩
      rfl⟩

def firstImport : PairingEvent := imported "a shared secret" "drawn by b" "q" (by decide)
def answerImport : PairingEvent := imported "drawn by b" "drawn by a" "r" (by decide)

theorem parse_lab {token : Text} (isToken : IsToken token) :
    parseWireguardInvite (encodeWireguardInvite "Lab" token) = some ⟨"Lab", token, none, none⟩ :=
  parse_encode isToken

end Proxora
