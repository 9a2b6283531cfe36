import Proxora.Ecma.Numbers
import Proxora.WireguardInterface

/-!
# Storing the WireGuard settings

What `patchWireguardInterface` and `importWireguardConf` of `server/services/wireguard-service.ts`
save, and what `loadWireguardInterface` reads afterwards. The reader puts a default in the place of
every value that is empty, blank or zero, and the schema lets some of these through.

`savedSurvives_iff` says after which changes the settings that are read are those that were saved.
-/

namespace Proxora

open Ecma

/-! ## The stored document -/

/-- The value of the setting as it is stored: any key may be missing, and `endpoint` is an older
name of `serverEndpoint`. -/
structure InterfaceRow where
  enabled : Option Bool
  instanceName : Option Text
  address : Option Text
  publicKey : Option Text
  encryptedPrivateKey : Option Text
  serverPublicKey : Option Text
  serverEndpoint : Option Text
  endpoint : Option Text
  allowedIPs : Option Text
  persistentKeepalive : Option Int
  encryptedPresharedKey : Option Text
deriving DecidableEq, Repr

/-- The document with its missing values; `none` where it has no keys. -/
def InterfaceRow.completed (rec : InterfaceRow) : Option WireguardInterfaceSettings :=
  match rec.encryptedPrivateKey, rec.publicKey with
  | some encryptedPrivateKey, some publicKey =>
      some {
        enabled := rec.enabled.getD false
        instanceName := rec.instanceName.getD "Proxora"
        address := rec.address.getD "10.88.0.2/24"
        publicKey
        encryptedPrivateKey
        serverPublicKey := rec.serverPublicKey.getD []
        serverEndpoint := (rec.serverEndpoint <|> rec.endpoint).getD []
        allowedIPs := rec.allowedIPs.getD defaultAllowedIPs
        persistentKeepalive := rec.persistentKeepalive.getD 25
        encryptedPresharedKey := rec.encryptedPresharedKey.getD [] }
  | _, _ => none

/-- The document that is written for the settings. -/
def WireguardInterfaceSettings.row (settings : WireguardInterfaceSettings) : InterfaceRow where
  enabled := some settings.enabled
  instanceName := some settings.instanceName
  address := some settings.address
  publicKey := some settings.publicKey
  encryptedPrivateKey := some settings.encryptedPrivateKey
  serverPublicKey := some settings.serverPublicKey
  serverEndpoint := some settings.serverEndpoint
  endpoint := none
  allowedIPs := some settings.allowedIPs
  persistentKeepalive := some settings.persistentKeepalive
  encryptedPresharedKey := some settings.encryptedPresharedKey

/-- The state that a stored document makes. -/
def tunnelOf (row : Option InterfaceRow) (peers : List TunnelPeerRow) : TunnelState where
  setting := row.bind InterfaceRow.completed
  peers := peers
  disabled := false
  wg0Conf := none

/-- The document of the settings is read as the settings are. -/
theorem load_row (env : TunnelEnv) (peers : List TunnelPeerRow)
    (settings : WireguardInterfaceSettings) :
    (loadWireguardInterface env (tunnelOf (some settings.row) peers)).2 =
      readSettings peers settings :=
  rfl

/-! ## Importing a configuration -/

def joinField (values : List Text) : Text := trim (List.intercalate (", " : Text) values)

def firstIpv4Cidr (values : List Text) : Option Text :=
  ((values.flatMap listedCidrs).find? isInterfaceIpv4).map fun part =>
    if includes part "/" then part else addressHost part ++ ("/32" : Text)

structure ParsedWgQuick where
  privateKey : Text
  address : Text
  peers : List WgConfPeer
deriving DecidableEq, Repr

/-- `Number.parseInt(raw, 10)` where it is a whole number from zero on. -/
def readKeepalive (raw : Text) : Option Int :=
  match parseInt raw with
  | none => none
  | some n =>
      if n < 0 || nearestDouble n.toNat = 2 ^ 1024 then none else some (nearestDouble n.toNat)

/-- The peer of a section, when it has a key and allowed IPs. -/
def sectionPeer (peerSection : ConfSection) : Option WgConfPeer :=
  let field (name : Text) := joinField (Ini.valuesOf name peerSection.fields)
  let publicKey := field "publickey"
  let allowedIPs := field "allowedips"
  if !isWireguardKey publicKey || allowedIPs = [] then none
  else
    let endpoint := field "endpoint"
    let keepaliveRaw := field "persistentkeepalive"
    let presharedKey := field "presharedkey"
    some {
      publicKey
      endpoint := if endpoint = [] then none else some endpoint
      allowedIPs
      persistentKeepalive := if keepaliveRaw = [] then none else readKeepalive keepaliveRaw
      presharedKey := if isWireguardKey presharedKey then some presharedKey else none }

def parseWgQuickConf (raw : Text) : Except String ParsedWgQuick :=
  let sections := parseIniSections raw
  match sections.find? (·.name = ("interface" : Text)) with
  | none => .error "Missing [Interface]"
  | some iface =>
      let privateKey := joinField (Ini.valuesOf ("privatekey" : Text) iface.fields)
      if !isWireguardKey privateKey then .error "Invalid PrivateKey"
      else
        match firstIpv4Cidr (Ini.valuesOf ("address" : Text) iface.fields) with
        | none => .error "Missing IPv4 Address"
        | some address =>
            let peers := (sections.filter (·.name = ("peer" : Text))).filterMap sectionPeer
            if peers = [] then .error "Missing [Peer]" else .ok ⟨privateKey, address, peers⟩

/-- The public key of a private one, the encryption, and `Number(s)` where it is neither zero nor
`NaN`: its whole part and its text. -/
structure ImportTools where
  publicKeyFromPrivate : Text → Option Text
  encryptSecret : Text → Text
  number : Text → Option (Int × Text)

variable (tools : ImportTools) (env : TunnelEnv)

/-- `${o[i]}` for the numbers between the dots. -/
def octetText (ip : Text) (i : Nat) : Text :=
  match (split '.' ip)[i]? with
  | none => "undefined"
  | some word => (parseInt word).elim ("NaN" : Text) fun n => (toString n : String)

def sanitizeClientAllowedIps (allowedIPs address : Text) : Text :=
  let kept := (listedCidrs allowedIPs).filter fun part =>
    part ≠ ("0.0.0.0/0" : Text) && part ≠ ("::/0" : Text)
  if kept ≠ [] then List.intercalate (", " : Text) kept
  else
    let wide := if includes address "/" then address else address ++ ("/32" : Text)
    let bits := (tools.number (trim ((split '/' address)[1]?.getD "24"))).getD (24, "24")
    match interfaceIpv4 wide with
    | none => defaultAllowedIPs
    | some ip =>
        if 24 ≤ bits.1 then
          octetText ip 0 ++ '.' :: octetText ip 1 ++ '.' :: octetText ip 2 ++ (".0/" : Text) ++
            bits.2
        else if 16 ≤ bits.1 then
          octetText ip 0 ++ '.' :: octetText ip 1 ++ (".0.0/" : Text) ++ bits.2
        else octetText ip 0 ++ (".0.0.0/" : Text) ++ bits.2

/-- The peer that the client connects to, with its endpoint. -/
def serverOf (parsed : ParsedWgQuick) : Option (WgConfPeer × Text) :=
  match parsed.peers.find? (·.endpoint.isSome) <|> parsed.peers.head? with
  | none => none
  | some peer => peer.endpoint.map fun endpoint => (peer, endpoint)

def importedSettings (parsed : ParsedWgQuick) (peer : WgConfPeer) (endpoint publicKey : Text)
    (current : WireguardInterfaceSettings) : WireguardInterfaceSettings :=
  { current with
    enabled := true
    address := parsed.address
    publicKey := publicKey
    encryptedPrivateKey := tools.encryptSecret parsed.privateKey
    serverPublicKey := peer.publicKey
    serverEndpoint := endpoint
    allowedIPs := sanitizeClientAllowedIps tools peer.allowedIPs parsed.address
    persistentKeepalive := peer.persistentKeepalive.getD 25
    encryptedPresharedKey := peer.presharedKey.elim [] tools.encryptSecret }

def importWireguardConf (raw : Text) (state : TunnelState) :
    TunnelState × Except TunnelError (Option Text) :=
  match parseWgQuickConf raw with
  | .error message => (state, .error (.app (validationError message)))
  | .ok parsed =>
      match serverOf parsed with
      | none =>
          (state, .error (.app (validationError "Client config needs a [Peer] with Endpoint")))
      | some (peer, endpoint) =>
          match tools.publicKeyFromPrivate parsed.privateKey with
          | none => (state, .error (.app (validationError "Invalid PrivateKey")))
          | some publicKey =>
              let loaded := loadWireguardInterface env state
              saveInterface env (importedSettings tools parsed peer endpoint publicKey loaded.2)
                loaded.1

/-! ## What is saved -/

/-- A change of the settings. -/
inductive SettingsChange : Type
  | patch (body : InterfacePatch)
  | conf (raw : Text)
deriving DecidableEq, Repr

namespace SettingsChange

def apply (state : TunnelState) : SettingsChange → TunnelState × Except TunnelError (Option Text)
  | patch body => patchWireguardInterface env body state
  | conf raw => importWireguardConf tools env raw state

/-- The settings that the change saves; `none` where it is refused. -/
def next (state : TunnelState) : SettingsChange → Option WireguardInterfaceSettings
  | patch body =>
      if !body.parses || body.refusal.isSome then none
      else some (body.applyTo (loadWireguardInterface env state).2)
  | conf raw =>
      match parseWgQuickConf raw with
      | .error _ => none
      | .ok parsed => do
          let (peer, endpoint) ← serverOf parsed
          let publicKey ← tools.publicKeyFromPrivate parsed.privateKey
          return importedSettings tools parsed peer endpoint publicKey
            (loadWireguardInterface env state).2

end SettingsChange

/-- The same settings, up to white space around the texts. -/
structure SameSettings (loaded saved : WireguardInterfaceSettings) : Prop where
  enabled : loaded.enabled = saved.enabled
  instanceName : trim loaded.instanceName = trim saved.instanceName
  address : trim loaded.address = trim saved.address
  publicKey : trim loaded.publicKey = trim saved.publicKey
  encryptedPrivateKey : loaded.encryptedPrivateKey = saved.encryptedPrivateKey
  serverPublicKey : trim loaded.serverPublicKey = trim saved.serverPublicKey
  serverEndpoint : trim loaded.serverEndpoint = trim saved.serverEndpoint
  allowedIPs : trim loaded.allowedIPs = trim saved.allowedIPs
  persistentKeepalive : loaded.persistentKeepalive = saved.persistentKeepalive
  encryptedPresharedKey : loaded.encryptedPresharedKey = saved.encryptedPresharedKey

/-- Where the change saves settings, those that are stored afterwards are read as they are. -/
def SavedSurvives (state : TunnelState) (change : SettingsChange) : Prop :=
  (change.next tools env state).isSome = true →
    ∃ stored, (change.apply tools env state).1.setting = some stored ∧
      SameSettings (loadWireguardInterface env (change.apply tools env state).1).2 stored

/-- A paired Proxora whose address is added to the allowed IPs. -/
def isRouted (peer : TunnelPeerRow) : Bool :=
  peer.kind = .proxora && isInterfaceIpv4 (addressHost peer.address)

/-- Neither blank names, nor blank allowed IPs (to which no address is added), nor a keepalive of
zero: not in the patch that is accepted, and not at the server of the configuration. -/
def KeepsDefaultsOut (state : TunnelState) : SettingsChange → Prop
  | .patch body =>
      body.parses = true → body.refusal = none →
        (∀ name, body.instanceName = some name → trim name ≠ []) ∧
          (∀ list, body.allowedIPs = some list → trim list ≠ [] ∨ state.peers.any isRouted = true) ∧
            body.persistentKeepalive ≠ some 0
  | .conf raw =>
      ∀ parsed peer endpoint, parseWgQuickConf raw = .ok parsed →
        serverOf parsed = some (peer, endpoint) →
          (tools.publicKeyFromPrivate parsed.privateKey).isSome = true →
            peer.persistentKeepalive ≠ some 0

/-! ## Blank texts -/

/-- A list with a text that is not blank is not blank when it is joined. -/
theorem trim_intercalate_ne_nil {words : List Text} {word sep : Text} (listed : word ∈ words)
    (some_text : trim word ≠ []) : trim (List.intercalate sep words) ≠ [] := by
  obtain ⟨c, inside, mark⟩ := exists_mark some_text
  exact trim_ne_nil_of_mem (mem_intercalate listed inside) mark

theorem trim_ne_nil_of_listed {list word : Text} (listed : word ∈ listedCidrs list) :
    trim word ≠ [] := by
  obtain ⟨inside, given⟩ := List.mem_filter.mp listed
  obtain ⟨piece, -, rfl⟩ := List.mem_map.mp inside
  rw [trim_trim]
  exact of_decide_eq_true given

theorem trim_orElse_ne_nil {value other : Text} (fine : trim other ≠ []) :
    trim (orElse (trim value) other) ≠ [] := by
  rw [orElse]
  split_ifs with blank
  · exact fine
  · rw [trim_trim]
    exact blank

/-! ## Allowed IPs -/

/-- With an address the list is not blank; without one it is as it was. -/
theorem trim_ensureIp_ne_nil_iff {list ip : Text} :
    trim (ensureIpInAllowedIps list ip) ≠ [] ↔
      trim list ≠ [] ∨ isInterfaceIpv4 (addressHost ip) = true := by
  rw [ensureIpInAllowedIps]
  dsimp only
  by_cases ipv4 : isInterfaceIpv4 (addressHost ip) = true
  · rw [ipv4, if_neg (by decide)]
    refine iff_of_true ?_ (.inr rfl)
    split_ifs with covered
    · obtain ⟨cidr, listed, -⟩ := List.any_eq_true.mp covered
      exact trim_intercalate_ne_nil listed (trim_ne_nil_of_listed listed)
    · refine trim_intercalate_ne_nil (List.mem_append_right _ List.mem_cons_self) ?_
      exact trim_ne_nil_of_mem (List.mem_append_right _ List.mem_cons_self) (by decide)
  · rw [Bool.not_eq_true] at ipv4
    rw [ipv4, if_pos (by decide), trim_trim]
    simp

theorem isInterfaceIpv4_nil : isInterfaceIpv4 (addressHost []) = false := by decide

/-- The routed list is blank when the list was and no address is added to it. -/
theorem trim_routed_ne_nil_iff {peers : List TunnelPeerRow} {list : Text} :
    trim (routedAllowedIps peers list) ≠ [] ↔ trim list ≠ [] ∨ peers.any isRouted = true := by
  rw [routedAllowedIps]
  induction peers generalizing list with
  | nil => simp
  | cons peer peers ih =>
      rw [List.any_cons, Bool.or_eq_true, isRouted]
      by_cases proxora : peer.kind = .proxora
      · rw [List.filter_cons, if_pos (decide_eq_true proxora), List.foldl_cons, ih]
        by_cases empty : peer.address = []
        · rw [if_pos empty, empty, isInterfaceIpv4_nil, Bool.and_false]
          simp
        · rw [if_neg empty, trim_ensureIp_ne_nil_iff, decide_eq_true proxora, Bool.true_and]
          exact or_assoc
      · have kept : ¬decide (peer.kind = .proxora) = true := by simpa using proxora
        rw [List.filter_cons, if_neg kept, ih, decide_eq_false proxora, Bool.false_and]
        simp

theorem trim_sanitize_ne_nil (allowedIPs address : Text) :
    trim (sanitizeClientAllowedIps tools allowedIPs address) ≠ [] := by
  have dotted (front : Text) {mid : Text} (back : Text) {c : Char} (inside : c ∈ mid)
      (mark : isSpace c = false) : trim (front ++ mid ++ back) ≠ [] :=
    trim_ne_nil_of_mem (List.mem_append_left _ (List.mem_append_right _ inside)) mark
  rw [sanitizeClientAllowedIps]
  dsimp only
  split
  · rename_i given
    obtain ⟨part, listed⟩ := List.exists_mem_of_ne_nil _ given
    exact trim_intercalate_ne_nil listed (trim_ne_nil_of_listed (List.mem_filter.mp listed).1)
  · split
    · decide
    · have zero : '0' ∈ (".0/" : Text) := by decide
      have zeros : '0' ∈ (".0.0/" : Text) := by decide
      have low : '0' ∈ (".0.0.0/" : Text) := by decide
      split_ifs
      · exact dotted _ _ zero (by decide)
      · exact dotted _ _ zeros (by decide)
      · exact dotted _ _ low (by decide)

/-! ## Reading what was saved -/

section

variable {peers : List TunnelPeerRow} {state : TunnelState}

theorem trim_proxora_ne_nil : trim ("Proxora" : Text) ≠ [] := by decide

theorem trim_default_ne_nil : trim defaultAllowedIPs ≠ [] := by decide

/-- Settings that were read have a name, allowed IPs and a keepalive. -/
theorem readSettings_given (peers : List TunnelPeerRow) (row : WireguardInterfaceSettings) :
    trim (readSettings peers row).instanceName ≠ [] ∧
      trim (readSettings peers row).allowedIPs ≠ [] ∧
        (readSettings peers row).persistentKeepalive ≠ 0 := by
  rw [readSettings]
  dsimp only
  have listed : trim (orElse (trim row.allowedIPs) defaultAllowedIPs) ≠ [] :=
    trim_orElse_ne_nil trim_default_ne_nil
  refine ⟨trim_orElse_ne_nil trim_proxora_ne_nil, ?_, ?_⟩
  · cases (if trim row.serverPublicKey = [] then peers.find? (·.kind = .gateway) else none) with
    | none => exact listed
    | some gateway => exact trim_orElse_ne_nil listed
  · split_ifs with zero
    · decide
    · exact zero

theorem load_given (env : TunnelEnv) (state : TunnelState) :
    trim (loadWireguardInterface env state).2.instanceName ≠ [] ∧
      trim (loadWireguardInterface env state).2.allowedIPs ≠ [] ∧
        (loadWireguardInterface env state).2.persistentKeepalive ≠ 0 := by
  rw [loadWireguardInterface]
  cases state.setting with
  | none => exact ⟨trim_proxora_ne_nil, trim_default_ne_nil, (by decide : (25 : Int) ≠ 0)⟩
  | some row => exact readSettings_given state.peers row

theorem find_gateway (noGateway : ∀ peer ∈ peers, peer.kind ≠ .gateway) :
    peers.find? (·.kind = .gateway) = none :=
  List.find?_eq_none.mpr fun peer listed => by simpa using noGateway peer listed

/-- Without a gateway the settings are read as they are stored just if none of them is empty. -/
theorem same_readSettings_iff {row : WireguardInterfaceSettings}
    (noGateway : ∀ peer ∈ peers, peer.kind ≠ .gateway) :
    SameSettings (readSettings peers row) row ↔
      trim row.instanceName ≠ [] ∧ trim row.allowedIPs ≠ [] ∧ row.persistentKeepalive ≠ 0 := by
  have given := readSettings_given peers row
  constructor
  · intro same
    refine ⟨?_, ?_, ?_⟩
    · rw [← same.instanceName]
      exact given.1
    · rw [← same.allowedIPs]
      exact given.2.1
    · rw [← same.persistentKeepalive]
      exact given.2.2
  · rintro ⟨name, listed, keepalive⟩
    have gateway : (if trim row.serverPublicKey = [] then
        peers.find? (·.kind = .gateway) else none) = none := by
      rw [find_gateway noGateway, ite_self]
    refine ⟨rfl, ?_, rfl, rfl, rfl, ?_, ?_, ?_, if_neg keepalive, rfl⟩
    · change trim (orElse (trim row.instanceName) _) = _
      rw [orElse, if_neg name, trim_trim]
    · simp only [readSettings]
      rw [gateway]
      exact trim_trim _
    · simp only [readSettings]
      rw [gateway]
      exact trim_trim _
    · simp only [readSettings]
      rw [gateway, orElse, if_neg listed]
      exact trim_trim _

/-- The settings that stay stored are those that were saved, with the routed addresses. -/
theorem setting_saveInterface (env : TunnelEnv) (next : WireguardInterfaceSettings)
    (state : TunnelState) :
    (saveInterface env next state).1.setting =
        some { next with allowedIPs := routedAllowedIps state.peers next.allowedIPs } ∧
      (saveInterface env next state).1.peers = state.peers := by
  rw [saveInterface, writeWireguardConfig]
  dsimp only
  by_cases routed : routedAllowedIps state.peers next.allowedIPs = next.allowedIPs
  · rw [if_neg (not_not.mpr routed), routed]
    split
    · exact ⟨rfl, rfl⟩
    · split <;> exact ⟨rfl, rfl⟩
  · rw [if_pos routed]
    split
    · exact ⟨rfl, rfl⟩
    · split <;> exact ⟨rfl, rfl⟩

/-- What is saved is stored with the routed addresses. -/
theorem setting_apply {change : SettingsChange} {next : WireguardInterfaceSettings}
    (saved : change.next tools env state = some next) :
    (change.apply tools env state).1.setting =
        some { next with allowedIPs := routedAllowedIps state.peers next.allowedIPs } ∧
      (change.apply tools env state).1.peers = state.peers := by
  have stored := setting_saveInterface env next (loadWireguardInterface env state).1
  rw [peers_loadWireguardInterface] at stored
  cases change with
  | patch body =>
      rw [SettingsChange.next] at saved
      split at saved
      · cases saved
      · rename_i accepted
        cases saved
        rw [Bool.or_eq_true, not_or] at accepted
        obtain ⟨parses, refusal⟩ := accepted
        rw [SettingsChange.apply, patchWireguardInterface, if_neg parses]
        dsimp only
        rw [Option.not_isSome_iff_eq_none.mp refusal]
        exact stored
  | conf raw =>
      rw [SettingsChange.next] at saved
      rw [SettingsChange.apply, importWireguardConf]
      cases parsed : parseWgQuickConf raw with
      | error message =>
          rw [parsed] at saved
          cases saved
      | ok parsed =>
          rw [parsed] at saved
          simp only [bind, Option.bind_eq_some_iff, pure, Option.some.injEq] at saved
          obtain ⟨⟨peer, endpoint⟩, server, publicKey, key, rfl⟩ := saved
          dsimp only
          rw [server]
          dsimp only
          rw [key]
          exact stored

/-- Of what is saved, just a blank name, a blank list and a keepalive of zero do not survive. -/
theorem savedSurvives_of_next {change : SettingsChange} {next : WireguardInterfaceSettings}
    (noGateway : ∀ peer ∈ state.peers, peer.kind ≠ .gateway)
    (saved : change.next tools env state = some next) :
    SavedSurvives tools env state change ↔
      trim next.instanceName ≠ [] ∧
        (trim next.allowedIPs ≠ [] ∨ state.peers.any isRouted = true) ∧
          next.persistentKeepalive ≠ 0 := by
  obtain ⟨setting, peers⟩ := setting_apply tools env saved
  have loaded : (loadWireguardInterface env (change.apply tools env state).1).2 =
      readSettings state.peers
        { next with allowedIPs := routedAllowedIps state.peers next.allowedIPs } := by
    rw [loadWireguardInterface, setting, peers]
  let routed := { next with allowedIPs := routedAllowedIps state.peers next.allowedIPs }
  have same : SameSettings (readSettings state.peers routed) routed ↔ _ :=
    same_readSettings_iff noGateway
  dsimp only [routed] at same
  rw [trim_routed_ne_nil_iff] at same
  rw [SavedSurvives, saved, loaded, setting, ← same]
  constructor
  · intro survives
    obtain ⟨stored, form, fine⟩ := survives rfl
    cases form
    exact fine
  · exact fun fine _ => ⟨_, rfl, fine⟩

/-- Without a gateway the settings survive just if no empty value is saved. -/
theorem savedSurvives_iff {change : SettingsChange}
    (noGateway : ∀ peer ∈ state.peers, peer.kind ≠ .gateway) :
    SavedSurvives tools env state change ↔ KeepsDefaultsOut tools state change := by
  obtain ⟨name, listed, keepalive⟩ := load_given env state
  cases saved : change.next tools env state with
  | none =>
      refine iff_of_true (fun given => by rw [saved] at given; cases given) ?_
      cases change with
      | patch body =>
          intro parses refusal
          rw [SettingsChange.next, parses, refusal] at saved
          cases saved
      | conf raw =>
          intro parsed peer endpoint reads server key
          obtain ⟨publicKey, key⟩ := Option.isSome_iff_exists.mp key
          rw [SettingsChange.next, reads] at saved
          dsimp only at saved
          rw [server] at saved
          simp only [bind, Option.bind_some, key] at saved
          cases saved
  | some next =>
      rw [savedSurvives_of_next tools env noGateway saved]
      cases change with
      | patch body =>
          rw [SettingsChange.next] at saved
          split at saved
          · cases saved
          · rename_i accepted
            cases saved
            rw [Bool.or_eq_true, not_or, Bool.not_eq_true', Bool.not_eq_false] at accepted
            obtain ⟨parses, refusal⟩ := accepted
            have accepted : KeepsDefaultsOut tools state (.patch body) ↔ _ :=
              ⟨fun keeps => keeps parses (Option.not_isSome_iff_eq_none.mp refusal),
                fun keeps _ _ => keeps⟩
            rw [accepted]
            refine and_congr ?_ (and_congr ?_ ?_)
            · change trim (body.instanceName.getD _) ≠ [] ↔ _
              cases body.instanceName with
              | none => simpa using name
              | some given => simp
            · change trim (body.allowedIPs.getD _) ≠ [] ∨ _ ↔ _
              cases body.allowedIPs with
              | none => simpa using .inl listed
              | some given => simp
            · change body.persistentKeepalive.getD _ ≠ 0 ↔ _
              cases body.persistentKeepalive with
              | none => simpa using keepalive
              | some given => simp
      | conf raw =>
          rw [SettingsChange.next] at saved
          cases reads : parseWgQuickConf raw with
          | error message =>
              rw [reads] at saved
              cases saved
          | ok parsed =>
              rw [reads] at saved
              simp only [bind, Option.bind_eq_some_iff, pure, Option.some.injEq] at saved
              obtain ⟨⟨peer, endpoint⟩, server, publicKey, key, rfl⟩ := saved
              have zero : peer.persistentKeepalive.getD 25 ≠ 0 ↔
                  peer.persistentKeepalive ≠ some 0 := by
                cases peer.persistentKeepalive <;> simp
              constructor
              · rintro ⟨-, -, fine⟩ other otherPeer otherEndpoint reads' server' -
                rw [reads] at reads'
                cases reads'
                rw [server] at server'
                cases server'
                exact zero.mp fine
              · intro keeps
                refine ⟨name, .inl (trim_sanitize_ne_nil tools _ _), zero.mpr ?_⟩
                exact keeps parsed peer endpoint reads server (by rw [key]; rfl)

end

/-- A configuration that is enabled, with one paired Proxora. -/
def storedTunnel : TunnelState where
  setting := none
  peers := [⟨.proxora, "lab", [], [], "192.168.1.4", [], 0⟩]
  disabled := false
  wg0Conf := none

def storageEnv : TunnelEnv where
  publicKey := "pub"
  encryptedPrivateKey := "sealed"
  decryptSecret := fun _ => some "private"
  byName := fun _ _ => true

def storageTools : ImportTools where
  publicKeyFromPrivate := fun _ => some "pub"
  encryptSecret := fun text => text
  number := fun _ => none

/-- No keepalive, as the schema admits. -/
def noKeepalive : InterfacePatch := ⟨none, none, none, none, none, none, some 0⟩

/-- A keepalive of one second, a name, and no list of its own. -/
def shortKeepalive : InterfacePatch := ⟨some true, some "Lab", none, none, none, some [], some 1⟩

/-- The empty list is stored with the address of the paired Proxora. -/
theorem savedSurvives_shortKeepalive :
    (∀ peer ∈ storedTunnel.peers, peer.kind ≠ .gateway) ∧
      KeepsDefaultsOut storageTools storedTunnel (.patch shortKeepalive) ∧
        SavedSurvives storageTools storageEnv storedTunnel (.patch shortKeepalive) := by
  have noGateway : ∀ peer ∈ storedTunnel.peers, peer.kind ≠ .gateway := by decide
  have keeps : KeepsDefaultsOut storageTools storedTunnel (.patch shortKeepalive) := by
    intro _ _
    refine ⟨?_, ?_, by decide⟩
    · rintro name ⟨⟩
      decide
    · rintro list ⟨⟩
      exact .inr (by decide +kernel)
  exact ⟨noGateway, keeps, (savedSurvives_iff storageTools storageEnv noGateway).mpr keeps⟩

/-- A keepalive of zero is read as 25. -/
theorem zero_keepalive_lost :
    ¬SavedSurvives storageTools storageEnv storedTunnel (.patch noKeepalive) := by
  intro survives
  obtain ⟨stored, setting, same⟩ := survives (by decide +kernel)
  have read : (loadWireguardInterface storageEnv (SettingsChange.apply storageTools storageEnv
      storedTunnel (.patch noKeepalive)).1).2.persistentKeepalive = 25 := by
    decide +kernel
  have kept : ((SettingsChange.apply storageTools storageEnv storedTunnel
      (.patch noKeepalive)).1.setting.map (·.persistentKeepalive)) = some 0 := by
    decide +kernel
  rw [setting] at kept
  have zero : stored.persistentKeepalive = 0 := Option.some.inj kept
  rw [same.persistentKeepalive, zero] at read
  cases read

end Proxora
