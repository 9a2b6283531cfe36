import Proxora.WireguardConf

/-!
# Changing the WireGuard interface

`patchWireguardInterface`, `addGatewayPeer` and `writeWireguardConfig` of
`server/services/wireguard-service.ts`, on the setting `wireguard`, the rows of peers and
the two files of the configuration directory.

`written_decodes_iff` says which accepted changes leave a `wg0.conf` that says what was
configured: one whose values stay on their lines.  The schemas let line breaks through.
-/

namespace Proxora

open Ecma

/-! ## The settings -/

structure WireguardInterfaceSettings where
  enabled : Bool
  instanceName : Text
  address : Text
  publicKey : Text
  encryptedPrivateKey : Text
  serverPublicKey : Text
  serverEndpoint : Text
  allowedIPs : Text
  persistentKeepalive : Int
  encryptedPresharedKey : Text
deriving DecidableEq, Repr

/-- The columns of a `WireguardPeer` row that the configuration is made of. -/
structure TunnelPeerRow where
  kind : WireguardPeerKind
  name : Text
  publicKey : Text
  endpoint : Text
  address : Text
  allowedIPs : Text
  persistentKeepalive : Int
deriving DecidableEq, Repr

/-- The setting, the rows in the order of their creation, and the files `disabled` and
`wg0.conf`. -/
structure TunnelState where
  setting : Option WireguardInterfaceSettings
  peers : List TunnelPeerRow
  disabled : Bool
  wg0Conf : Option Text
deriving DecidableEq, Repr

/-- The key pair that would be generated (the private key encrypted), the decryption, and
the database's order of names. -/
structure TunnelEnv where
  publicKey : Text
  encryptedPrivateKey : Text
  decryptSecret : Text → Option Text
  byName : TunnelPeerRow → TunnelPeerRow → Bool

inductive TunnelError : Type
  | schema
  | decryption
  | app (error : AppError)
deriving DecidableEq, Repr

/-- `value || other`. -/
def orElse (value other : Text) : Text := if value = [] then other else value

def defaultAllowedIPs : Text := "10.88.0.0/24"

def defaultInterfaceSettings (env : TunnelEnv) : WireguardInterfaceSettings where
  enabled := false
  instanceName := "Proxora"
  address := "10.88.0.2/24"
  publicKey := env.publicKey
  encryptedPrivateKey := env.encryptedPrivateKey
  serverPublicKey := []
  serverEndpoint := []
  allowedIPs := defaultAllowedIPs
  persistentKeepalive := 25
  encryptedPresharedKey := []

/-- The settings as they are read from the row. -/
def readSettings (peers : List TunnelPeerRow) (row : WireguardInterfaceSettings) :
    WireguardInterfaceSettings :=
  let serverPublicKey := trim row.serverPublicKey
  let serverEndpoint := trim row.serverEndpoint
  let allowedIPs := orElse (trim row.allowedIPs) defaultAllowedIPs
  let gateway := if serverPublicKey = [] then peers.find? (·.kind = .gateway) else none
  { row with
    instanceName := orElse (trim row.instanceName) "Proxora"
    serverPublicKey := gateway.elim serverPublicKey (·.publicKey)
    serverEndpoint := gateway.elim serverEndpoint fun peer => orElse peer.endpoint serverEndpoint
    allowedIPs := gateway.elim allowedIPs fun peer => orElse (trim peer.allowedIPs) allowedIPs
    persistentKeepalive := if row.persistentKeepalive = 0 then 25 else row.persistentKeepalive }

def loadWireguardInterface (env : TunnelEnv) (state : TunnelState) :
    TunnelState × WireguardInterfaceSettings :=
  match state.setting with
  | none =>
      ({ state with setting := some (defaultInterfaceSettings env) }, defaultInterfaceSettings env)
  | some row => (state, readSettings state.peers row)

/-! ## Writing the configuration -/

/-- The allowed IPs with the addresses of the paired Proxoras. -/
def routedAllowedIps (peers : List TunnelPeerRow) (allowedIPs : Text) : Text :=
  (peers.filter (·.kind = .proxora)).foldl
    (fun allowed peer =>
      if peer.address = [] then allowed else ensureIpInAllowedIps allowed peer.address)
    allowedIPs

def serverPeer (settings : WireguardInterfaceSettings) (psk : Option Text) : List WgConfPeer :=
  if settings.serverPublicKey ≠ [] && settings.serverEndpoint ≠ [] then
    [{ publicKey := settings.serverPublicKey
       endpoint := some settings.serverEndpoint
       allowedIPs := orElse settings.allowedIPs defaultAllowedIPs
       persistentKeepalive := some settings.persistentKeepalive
       presharedKey := psk }]
  else []

def gatewayPeer (row : TunnelPeerRow) : List WgConfPeer :=
  let allowedIps := peerAllowedIps row.address row.allowedIPs
  if allowedIps = [] then []
  else
    [{ publicKey := row.publicKey
       endpoint := some row.endpoint
       allowedIPs := allowedIps
       persistentKeepalive :=
         some (if row.persistentKeepalive = 0 then 25 else row.persistentKeepalive)
       presharedKey := none }]

/-- What the configuration is written from; `none` when a secret cannot be decrypted. -/
def wgConfOf (env : TunnelEnv) (peers : List TunnelPeerRow)
    (settings : WireguardInterfaceSettings) : Option WgConf := do
  let privateKey ← env.decryptSecret settings.encryptedPrivateKey
  let gateways :=
    (peers.filter (·.kind = .gateway)).insertionSort fun a b => env.byName a b = true
  let psk ←
    if settings.encryptedPresharedKey = [] then some none
    else (env.decryptSecret settings.encryptedPresharedKey).map some
  return {
    privateKey
    address := settings.address
    peers := serverPeer settings psk ++ gateways.flatMap gatewayPeer
    mtu := none }

/-- `writeWireguardConfig(settings)`: the state after it, and the text that it wrote. -/
def writeWireguardConfig (env : TunnelEnv) (settings : WireguardInterfaceSettings)
    (state : TunnelState) : TunnelState × Except TunnelError (Option Text) :=
  let allowed := routedAllowedIps state.peers settings.allowedIPs
  let routed := { settings with allowedIPs := allowed }
  let stored :=
    if allowed ≠ settings.allowedIPs then { state with setting := some routed } else state
  if !settings.enabled then ({ stored with disabled := true }, .ok none)
  else
    match wgConfOf env state.peers routed with
    | none => ({ stored with disabled := false }, .error .decryption)
    | some conf =>
        ({ stored with disabled := false, wg0Conf := some (buildWg0Conf conf) },
          .ok (some (buildWg0Conf conf)))

def saveInterface (env : TunnelEnv) (next : WireguardInterfaceSettings) (state : TunnelState) :
    TunnelState × Except TunnelError (Option Text) :=
  writeWireguardConfig env next { state with setting := some next }

/-! ## The requests -/

/-- The body that `interfacePatchSchema` reads. -/
structure InterfacePatch where
  enabled : Option Bool
  instanceName : Option Text
  address : Option Text
  serverPublicKey : Option Text
  serverEndpoint : Option Text
  allowedIPs : Option Text
  persistentKeepalive : Option Int
deriving DecidableEq, Repr

/-- A string of the given lengths, where there is one. -/
def lengthWithin (least most : Nat) (value : Option Text) : Bool :=
  value.all fun text => least ≤ utf16Length text && utf16Length text ≤ most

namespace InterfacePatch

def parses (patch : InterfacePatch) : Bool :=
  lengthWithin 1 80 patch.instanceName && lengthWithin 7 48 patch.address &&
    lengthWithin 0 64 patch.serverPublicKey && lengthWithin 0 200 patch.serverEndpoint &&
    lengthWithin 0 400 patch.allowedIPs &&
    patch.persistentKeepalive.all fun n => 0 ≤ n && n ≤ 120

/-- What `patchWireguardInterface` refuses after the schema. -/
def refusal (patch : InterfacePatch) : Option AppError :=
  if patch.address.any fun address => address ≠ [] && !isInterfaceIpv4 address then
    some (validationError "WireGuard address must be IPv4 CIDR, e.g. 10.88.0.2/24")
  else if patch.serverPublicKey.any fun key => trim key ≠ [] && !isWireguardKey key then
    some (validationError "Invalid WireGuard server public key")
  else none

/-- `{ ...current, ...patch }`. -/
def applyTo (patch : InterfacePatch) (current : WireguardInterfaceSettings) :
    WireguardInterfaceSettings :=
  { current with
    enabled := patch.enabled.getD current.enabled
    instanceName := patch.instanceName.getD current.instanceName
    address := patch.address.getD current.address
    serverPublicKey := patch.serverPublicKey.getD current.serverPublicKey
    serverEndpoint := patch.serverEndpoint.getD current.serverEndpoint
    allowedIPs := patch.allowedIPs.getD current.allowedIPs
    persistentKeepalive := patch.persistentKeepalive.getD current.persistentKeepalive }

end InterfacePatch

/-- The body that `gatewaySchema` reads. -/
structure GatewayInput where
  name : Text
  publicKey : Text
  endpoint : Text
  allowedIPs : Text
deriving DecidableEq, Repr

namespace GatewayInput

def parses (body : GatewayInput) : Bool :=
  lengthWithin 1 80 (some body.name) && body.publicKey ≠ [] &&
    lengthWithin 1 200 (some body.endpoint) && lengthWithin 1 400 (some body.allowedIPs)

def refusal (body : GatewayInput) : Option AppError :=
  if !isWireguardKey body.publicKey then some (validationError "Invalid WireGuard public key")
  else none

def applyTo (body : GatewayInput) (current : WireguardInterfaceSettings) :
    WireguardInterfaceSettings :=
  { current with
    serverPublicKey := trim body.publicKey
    serverEndpoint := trim body.endpoint
    allowedIPs := orElse (trim body.allowedIPs) current.allowedIPs }

end GatewayInput

def patchWireguardInterface (env : TunnelEnv) (patch : InterfacePatch) (state : TunnelState) :
    TunnelState × Except TunnelError (Option Text) :=
  if !patch.parses then (state, .error .schema)
  else
    let loaded := loadWireguardInterface env state
    match patch.refusal with
    | some error => (loaded.1, .error (.app error))
    | none => saveInterface env (patch.applyTo loaded.2) loaded.1

def addGatewayPeer (env : TunnelEnv) (body : GatewayInput) (state : TunnelState) :
    TunnelState × Except TunnelError (Option Text) :=
  if !body.parses then (state, .error .schema)
  else
    match body.refusal with
    | some error => (state, .error (.app error))
    | none =>
        let loaded := loadWireguardInterface env state
        saveInterface env (body.applyTo loaded.2) loaded.1

/-- A change of the interface or of its server. -/
inductive InterfaceChange : Type
  | patch (body : InterfacePatch)
  | gateway (body : GatewayInput)
deriving DecidableEq, Repr

namespace InterfaceChange

def apply (env : TunnelEnv) (state : TunnelState) :
    InterfaceChange → TunnelState × Except TunnelError (Option Text)
  | patch body => patchWireguardInterface env body state
  | gateway body => addGatewayPeer env body state

/-- The settings that the change asks for. -/
def settings (env : TunnelEnv) (state : TunnelState) :
    InterfaceChange → WireguardInterfaceSettings
  | patch body => body.applyTo (loadWireguardInterface env state).2
  | gateway body => body.applyTo (loadWireguardInterface env state).2

/-- The configuration that these settings and the rows prescribe. -/
def configured (env : TunnelEnv) (state : TunnelState) (change : InterfaceChange) :
    Option WgConf :=
  let settings := change.settings env state
  wgConfOf env state.peers
    { settings with allowedIPs := routedAllowedIps state.peers settings.allowedIPs }

end InterfaceChange

/-! ## What is written -/

/-- The text that is written is that of the configuration of the settings. -/
theorem writeWireguardConfig_text {env : TunnelEnv} {settings : WireguardInterfaceSettings}
    {state : TunnelState} {text : Text}
    (written : (writeWireguardConfig env settings state).2 = .ok (some text)) :
    ∃ conf, wgConfOf env state.peers
        { settings with allowedIPs := routedAllowedIps state.peers settings.allowedIPs } =
          some conf ∧ text = buildWg0Conf conf ∧
      (writeWireguardConfig env settings state).1.wg0Conf = some text := by
  unfold writeWireguardConfig at written ⊢
  dsimp only at written ⊢
  by_cases off : (!settings.enabled) = true
  · rw [if_pos off] at written
    cases written
  · rw [if_neg off] at written ⊢
    cases prescribed : wgConfOf env state.peers
        { settings with allowedIPs := routedAllowedIps state.peers settings.allowedIPs } with
    | none =>
        rw [prescribed] at written
        cases written
    | some conf =>
        rw [prescribed] at written
        cases written
        exact ⟨conf, rfl, rfl, rfl⟩

theorem peers_loadWireguardInterface (env : TunnelEnv) (state : TunnelState) :
    (loadWireguardInterface env state).1.peers = state.peers := by
  unfold loadWireguardInterface
  split <;> rfl

theorem saveInterface_text {env : TunnelEnv} {next : WireguardInterfaceSettings}
    {state : TunnelState} {text : Text}
    (written : (saveInterface env next (loadWireguardInterface env state).1).2 =
      .ok (some text)) :
    ∃ conf, wgConfOf env state.peers
        { next with allowedIPs := routedAllowedIps state.peers next.allowedIPs } = some conf ∧
      text = buildWg0Conf conf ∧
      (saveInterface env next (loadWireguardInterface env state).1).1.wg0Conf = some text := by
  obtain ⟨conf, prescribed, rest⟩ := writeWireguardConfig_text written
  dsimp only at prescribed
  rw [peers_loadWireguardInterface] at prescribed
  exact ⟨conf, prescribed, rest⟩

theorem InterfaceChange.text_of_apply {env : TunnelEnv} {state : TunnelState}
    {change : InterfaceChange} {text : Text}
    (written : (change.apply env state).2 = .ok (some text)) :
    ∃ conf, change.configured env state = some conf ∧ text = buildWg0Conf conf ∧
      (change.apply env state).1.wg0Conf = some text := by
  cases change with
  | patch body =>
      unfold InterfaceChange.apply patchWireguardInterface at written ⊢
      dsimp only at written ⊢
      by_cases refused : (!body.parses) = true
      · rw [if_pos refused] at written
        cases written
      · rw [if_neg refused] at written ⊢
        cases accepted : body.refusal with
        | some error =>
            rw [accepted] at written
            cases written
        | none =>
            rw [accepted] at written
            exact saveInterface_text written
  | gateway body =>
      unfold InterfaceChange.apply addGatewayPeer at written ⊢
      dsimp only at written ⊢
      by_cases refused : (!body.parses) = true
      · rw [if_pos refused] at written
        cases written
      · rw [if_neg refused] at written ⊢
        cases accepted : body.refusal with
        | some error =>
            rw [accepted] at written
            cases written
        | none =>
            rw [accepted] at written
            exact saveInterface_text written

/-- The `wg0.conf` that an accepted change writes is read as what was configured exactly
when the configured values stay on their lines and every configured peer names allowed
IPs. -/
theorem written_decodes_iff {env : TunnelEnv} {state : TunnelState} {change : InterfaceChange}
    {text : Text} (written : (change.apply env state).2 = .ok (some text)) :
    (change.apply env state).1.wg0Conf = some text ∧
      ∃ conf, change.configured env state = some conf ∧
        (parseIniSections text = conf.sections ↔ conf.Safe) := by
  obtain ⟨conf, configured, rfl, file⟩ := InterfaceChange.text_of_apply written
  exact ⟨file, conf, configured, parse_eq_sections_iff conf⟩

/-- A tunnel to one server. -/
def namedTunnel : TunnelState where
  setting := some
    { enabled := true
      instanceName := "Proxora"
      address := "10.88.0.2/24"
      publicKey := "pub"
      encryptedPrivateKey := "YWFhYWFhYWFhYWFhYWFhYWFhYWFhYWFhYWFhYWFhYWE="
      serverPublicKey := "YmJiYmJiYmJiYmJiYmJiYmJiYmJiYmJiYmJiYmJiYmI="
      serverEndpoint := "vpn.example.org:51820"
      allowedIPs := "10.88.0.0/24"
      persistentKeepalive := 25
      encryptedPresharedKey := [] }
  peers := []
  disabled := false
  wg0Conf := none

def namedTunnelEnv : TunnelEnv where
  publicKey := "pub"
  encryptedPrivateKey := "cHJpdg=="
  decryptSecret := some
  byName _ _ := true

def addressPatch (address : Text) : InterfacePatch where
  enabled := none
  instanceName := none
  address := some address
  serverPublicKey := none
  serverEndpoint := none
  allowedIPs := none
  persistentKeepalive := none

/-- `wg0.conf` of this tunnel with the given lines of the interface. -/
def namedText (interface : String) : Text :=
  ("[Interface]\nPrivateKey = YWFhYWFhYWFhYWFhYWFhYWFhYWFhYWFhYWFhYWFhYWE=\n" : Text) ++
    (interface : Text) ++
    ("\nMTU = 1280\n\n[Peer]\nPublicKey = YmJiYmJiYmJiYmJiYmJiYmJiYmJiYmJiYmJiYmJiYmI=\n" : Text) ++
    ("Endpoint = vpn.example.org:51820\nAllowedIPs = 10.88.0.0/24\n" : Text) ++
    ("PersistentKeepalive = 25\n" : Text)

theorem written_decodes_named :
    (InterfaceChange.apply namedTunnelEnv namedTunnel
      (.patch (addressPatch "10.88.0.3/24"))).1.wg0Conf =
        some (namedText "Address = 10.88.0.3/24") ∧
      ∃ conf, InterfaceChange.configured namedTunnelEnv namedTunnel
        (.patch (addressPatch "10.88.0.3/24")) = some conf ∧
        (parseIniSections (namedText "Address = 10.88.0.3/24") = conf.sections ↔ conf.Safe) :=
  written_decodes_iff (by decide +kernel)

/-- An address with line breaks writes the directives that stand after them. -/
theorem address_writes_directives :
    (InterfaceChange.apply namedTunnelEnv namedTunnel
      (.patch (addressPatch "10.88.0.2/24\nDNS = 1.1.1.1\nPostUp = reboot"))).2 =
        .ok (some (namedText "Address = 10.88.0.2/24\nDNS = 1.1.1.1\nPostUp = reboot")) ∧
      (InterfaceChange.configured namedTunnelEnv namedTunnel (.patch
        (addressPatch "10.88.0.2/24\nDNS = 1.1.1.1\nPostUp = reboot"))).any (fun conf =>
          parseIniSections (namedText "Address = 10.88.0.2/24\nDNS = 1.1.1.1\nPostUp = reboot") ≠
            conf.sections) = true ∧
      (parseIniSections
        (namedText "Address = 10.88.0.2/24\nDNS = 1.1.1.1\nPostUp = reboot")).head?.map
          (fun given => Ini.valuesOf ("postup" : Text) given.fields) =
        some [("reboot" : Text)] := by
  decide +kernel

end Proxora
