import Proxora.Ecma.Json
import Proxora.HostCaches
import Proxora.InventoryCache
import Proxora.SuggestedAddresses

/-!
# Taken identities

`assertGuestIdentityFree` of `server/services/guest-ips.ts` with all that it collects, and
`parseGuestConfigIps` of `lib/create-ip.ts`. Whatever fails on the way counts as an empty answer,
and at most sixty configurations are read for a host; `identity_of_free` says what a success means.
-/

namespace Proxora

open Ecma

/-! ## Configurations -/

abbrev GuestConfigRecord : Type := List (Text × Json Text Double)

def ipv4Host (cidr : Text) : Option Text :=
  let host := trim ((trim cidr).takeWhile (· ≠ '/'))
  if isIpv4 host then some host else none

/-- `/^(net|ipconfig)\d+$/i`. -/
def isNetKey (key : Text) : Bool :=
  let numbered (name : Text) : Bool :=
    startsWith (key.map Char.toLower) name && key.drop name.length ≠ [] &&
      (key.drop name.length).all Char.isDigit
  numbered "net" || numbered "ipconfig"

/-- The group of `/(?:^|,)ip=([^,]*)/i`. -/
def ipOption (value : Text) : Option Text :=
  ((split ',' value).find? fun part => startsWith (part.map Char.toLower) "ip=").map (·.drop 3)

/-- One pass of `parseGuestConfigIps`. -/
def entryIp : Text × Json Text Double → Option Text
  | (key, .str value) =>
      if isNetKey key then
        let raw := trim ((ipOption value).getD [])
        if raw = [] || toLowerCase raw = "dhcp" || toLowerCase raw = "manual" then none
        else ipv4Host raw
      else none
  | _ => none

def parseGuestConfigIps (config : GuestConfigRecord) : List Text := config.filterMap entryIp

/-! ## Hosts -/

structure GuestListItem where
  vmid : Nat
  node : Text
  template : Bool
deriving DecidableEq

structure GuestInventory where
  vms : List GuestListItem
  containers : List GuestListItem

/-- A guest with its configuration. -/
structure HostedGuest extends GuestListItem where
  kind : GuestKind
  config : GuestConfigRecord

/-- A host, and how it answers: what a fetch under way gives, whether its guests can be listed and
their configurations read, and what the cache of addresses has when they are looked up. -/
structure ScopeHost where
  id : Text
  origin : HostOrigin
  guests : List HostedGuest
  client : Option ProxmoxClient
  running : Option (Option GuestInventory)
  lists : Bool
  reads : GuestKind → Text → Nat → Bool
  ips : KeyedEntries (List Text)
  now : Int

/-- A guest of `listedGuests`. -/
structure ListedGuest extends GuestListItem where
  kind : GuestKind
deriving DecidableEq

def GuestInventory.listed (inventory : GuestInventory) : List ListedGuest :=
  inventory.vms.map (⟨·, .vm⟩) ++ inventory.containers.map (⟨·, .lxc⟩)

namespace ScopeHost

def inventory (h : ScopeHost) : GuestInventory where
  vms := (h.guests.filter (·.kind = .vm)).map (·.toGuestListItem)
  containers := (h.guests.filter (·.kind = .lxc)).map (·.toGuestListItem)

/-- `loadHostInventory`. -/
def load (cache : InventoryState GuestInventory) (h : ScopeHost) (client : ProxmoxClient) :
    Option GuestInventory :=
  match cache.hit (cacheKey h.id client.baseUrl) none h.now with
  | some entry => some entry.inventory
  | none =>
      match h.running with
      | some answer => answer
      | none => if h.lists then some h.inventory else none

/-- `client.vms.config` and `client.lxc.config`. -/
def config (h : ScopeHost) (g : ListedGuest) : Option GuestConfigRecord :=
  if h.reads g.kind g.node g.vmid then
    (h.guests.find? fun guest => guest.kind = g.kind && guest.node = g.node &&
      guest.vmid = g.vmid).map (·.config)
  else none

/-- `peekGuestIpCache`. -/
def cached (h : ScopeHost) (client : ProxmoxClient) (g : ListedGuest) : Option (List Text) :=
  (peekGuestIpCache h.ips client g.kind g.node g.vmid h.now).1.map (·.data)

end ScopeHost

/-! ## What is collected -/

def guestIpConfigLimit : Nat := 60

section Collect

variable (cache : InventoryState GuestInventory) (h : ScopeHost) (client : ProxmoxClient)

def listedGuests : List ListedGuest :=
  match h.load cache client with
  | some inventory => inventory.listed
  | none => []

def collectUsedVmids : List Nat := ((listedGuests cache h client).map (·.vmid)).filter (0 < ·)

/-- `pending`. -/
def pendingGuests (guests : List ListedGuest) : List ListedGuest :=
  guests.filter fun g => g.node ≠ [] && g.vmid ≠ 0 && !g.template

/-- `missing`. -/
def uncached (guests : List ListedGuest) : List ListedGuest :=
  (pendingGuests guests).filter fun g => (h.cached client g).isNone

def collectUsedGuestIps : List Nat × List Text :=
  let listed := listedGuests cache h client
  let toFetch := (uncached h client listed).take guestIpConfigLimit
  let ips := (pendingGuests listed).flatMap (fun g => (h.cached client g).getD []) ++
    toFetch.flatMap fun g => ((h.config g).map parseGuestConfigIps).getD []
  (collectUsedVmids cache h client, ips.eraseDups)

end Collect

/-- `lib/guest-identity.ts`. -/
def hostsInGuestIdentityScope (target : ScopeHost) (all : List ScopeHost) : List ScopeHost :=
  if target.origin = .peer then all.filter (·.id = target.id)
  else all.filter (·.origin = .localHost)

def forEachHostInScope {T : Type} (target : ScopeHost) (all : List ScopeHost)
    (fn : ScopeHost → ProxmoxClient → T) (empty : T) : List T :=
  let scopedIds := (hostsInGuestIdentityScope target all).map (·.id)
  (all.filter (·.id ∈ scopedIds)).map fun h =>
    match h.client with
    | some client => fn h client
    | none => empty

def mergeUsedGuestSets (parts : List (List Nat × List Text)) : List Nat × List Text :=
  (((parts.flatMap (·.1)).filter (0 < ·)).eraseDups,
    ((parts.flatMap (·.2)).filter (· ≠ [])).eraseDups)

def collectUsedVmidsForHost (cache : InventoryState GuestInventory) (target : ScopeHost)
    (all : List ScopeHost) : List Nat :=
  (mergeUsedGuestSets ((forEachHostInScope target all (collectUsedVmids cache) []).map
    (·, []))).1

def collectUsedGuestIpsForHost (cache : InventoryState GuestInventory) (target : ScopeHost)
    (all : List ScopeHost) : List Nat × List Text :=
  mergeUsedGuestSets (forEachHostInScope target all (collectUsedGuestIps cache) ([], []))

inductive IdentityConflict : Type
  | vmid
  | ip
deriving DecidableEq

def identityConflict (used : List Nat × List Text) (vmid : Nat) (ip : Option Text) :
    Option IdentityConflict :=
  if vmid ∈ used.1 then some .vmid
  else
    match ip with
    | some ip => if ip ≠ [] ∧ ip ∈ used.2 then some .ip else none
    | none => none

def assertGuestIdentityFree (cache : InventoryState GuestInventory) (all : List ScopeHost)
    (target : ScopeHost) (vmid : Nat) (ip : Option Text) : Except String Unit :=
  let used :=
    if ip.getD [] ≠ [] then collectUsedGuestIpsForHost cache target all
    else (collectUsedVmidsForHost cache target all, [])
  match identityConflict used vmid ip with
  | some .vmid => .error ("VMID " ++ toString vmid ++ " ist bereits vergeben")
  | some .ip => .error ("IPv4 " ++ String.ofList (ip.getD []) ++ " ist bereits vergeben")
  | none => .ok ()

/-! ## What is meant -/

/-- A `net` or `ipconfig` entry has the address as its `ip`. -/
def NamesAddress (config : GuestConfigRecord) (address : Text) : Prop :=
  ∃ key value raw, (key, Json.str value) ∈ config ∧ isNetKey key = true ∧
    ipOption value = some raw ∧ ipv4Host raw = some address

/-- The addresses of a listed guest that are looked at: what the cache has, or what its
configuration names when it is among the first sixty that the cache does not have. -/
inductive SeenAddress (h : ScopeHost) (client : ProxmoxClient) (listed : List ListedGuest)
    (g : ListedGuest) (address : Text) : Prop
  | cached {addresses : List Text} (found : h.cached client g = some addresses)
      (member : address ∈ addresses)
  | read {config : GuestConfigRecord} (missing : h.cached client g = none)
      (early : g ∈ (uncached h client listed).take guestIpConfigLimit)
      (answer : h.config g = some config) (named : NamesAddress config address)

/-- Numbers without needless zeros, and no blanks around them. -/
structure PlainAddress (address : Text) : Prop where
  trimmed : trim address = address
  parts : ∀ part ∈ split '.' address, part = (toString (digitsValue part) : String).toList

def SameAddress (a b : Text) : Prop := ∃ x, ipv4Number a = some x ∧ ipv4Number b = some x

/-! ## Addresses -/

/-- The text of a number. -/
def dotted (x : Nat) : Text :=
  join '.' [(toString (x / 16777216) : String).toList, (toString (x / 65536 % 256) : String).toList,
    (toString (x / 256 % 256) : String).toList, (toString (x % 256) : String).toList]

theorem PlainAddress.eq_dotted {address : Text} (plain : PlainAddress address) {x : Nat}
    (number : ipv4Number address = some x) : address = dotted x := by
  have ipv4 : isIpv4 address = true := by
    rw [ipv4Number] at number
    split at number
    · assumption
    · cases number
  obtain ⟨a, b, c, d, parts, first, second, third, fourth⟩ :=
    split_of_isIpv4 ipv4 plain.trimmed
  have texts := plain.parts
  rw [parts] at texts
  rw [ipv4Number, if_pos ipv4, plain.trimmed, parts] at number
  have value : ((digitsValue a * 256 + digitsValue b) * 256 + digitsValue c) * 256 +
      digitsValue d = x := Option.some.inj number
  have small := second.small
  have small' := third.small
  have small'' := fourth.small
  have whole : join '.' [a, b, c, d] = address := by
    rw [← parts, join_split]
  rw [← whole, dotted, texts a (by simp), texts b (by simp), texts c (by simp), texts d (by simp)]
  rw [show x / 16777216 = digitsValue a by omega, show x / 65536 % 256 = digitsValue b by omega,
    show x / 256 % 256 = digitsValue c by omega, show x % 256 = digitsValue d by omega]

/-- Plain addresses with one number are one text. -/
theorem SameAddress.eq {a b : Text} (same : SameAddress a b) (first : PlainAddress a)
    (second : PlainAddress b) : a = b := by
  obtain ⟨x, left, right⟩ := same
  rw [first.eq_dotted left, second.eq_dotted right]

/-- An address has a dot, and what stands for none has not. -/
theorem dot_mem_of_ipv4Host {raw address : Text} (found : ipv4Host raw = some address) :
    '.' ∈ raw := by
  rw [ipv4Host] at found
  split at found
  · next ipv4 =>
      by_contra free
      have none : '.' ∉ trim (trim ((trim raw).takeWhile (· ≠ '/'))) := fun inside =>
        free (mem_of_mem_trim ((List.takeWhile_prefix _).subset
          (mem_of_mem_trim (mem_of_mem_trim inside))))
      rw [isIpv4, split_of_notMem none] at ipv4
      cases ipv4
  · cases found

theorem ipv4Host_trim (raw : Text) : ipv4Host (trim raw) = ipv4Host raw := by
  rw [ipv4Host, trim_trim]
  rfl

/-- What stands for no address has no dot. -/
theorem toLowerCase_ne_of_ipv4Host {raw address word : Text}
    (found : ipv4Host raw = some address) (free : '.' ∉ word) : toLowerCase (trim raw) ≠ word := by
  rintro rfl
  have inside := dot_mem_of_ipv4Host ((ipv4Host_trim raw).trans found)
  exact free (List.mem_flatMap.mpr ⟨'.', inside, by decide⟩)

theorem entryIp_eq_some_iff {key value address : Text} :
    entryIp (key, .str value) = some address ↔
      isNetKey key = true ∧ ∃ raw, ipOption value = some raw ∧ ipv4Host raw = some address := by
  rw [entryIp]
  by_cases named : isNetKey key = true
  · rw [if_pos named]
    cases option : ipOption value with
    | none =>
        refine iff_of_false ?_ ?_
        · exact nofun
        · rintro ⟨-, raw, found, -⟩
          cases found
    | some raw =>
        dsimp only [Option.getD_some]
        split
        · next nothing =>
            refine iff_of_false nofun ?_
            rintro ⟨-, same, found, host⟩
            obtain rfl := Option.some.inj found
            rw [Bool.or_eq_true, Bool.or_eq_true, decide_eq_true_eq, decide_eq_true_eq,
              decide_eq_true_eq] at nothing
            rcases nothing with (empty | dhcp) | manual
            · have inside := dot_mem_of_ipv4Host ((ipv4Host_trim raw).trans host)
              rw [empty] at inside
              cases inside
            · exact toLowerCase_ne_of_ipv4Host host (by decide) dhcp
            · exact toLowerCase_ne_of_ipv4Host host (by decide) manual
        · rw [ipv4Host_trim]
          exact ⟨fun host => ⟨named, raw, rfl, host⟩,
            fun ⟨_, same, found, host⟩ => Option.some.inj found ▸ host⟩
  · rw [if_neg named]
    exact iff_of_false nofun fun both => named both.1

/-- What `parseGuestConfigIps` finds. -/
theorem mem_parseGuestConfigIps {config : GuestConfigRecord} {address : Text} :
    address ∈ parseGuestConfigIps config ↔ NamesAddress config address := by
  rw [parseGuestConfigIps, List.mem_filterMap]
  constructor
  · rintro ⟨⟨key, value⟩, member, found⟩
    cases value with
    | str value =>
        obtain ⟨named, raw, option, host⟩ := entryIp_eq_some_iff.mp found
        exact ⟨key, value, raw, member, named, option, host⟩
    | _ => cases found
  · rintro ⟨key, value, raw, member, named, option, host⟩
    exact ⟨(key, .str value), member, entryIp_eq_some_iff.mpr ⟨named, raw, option, host⟩⟩

/-! ## Collecting -/

variable {cache : InventoryState GuestInventory} {h target : ScopeHost} {all : List ScopeHost}
  {client : ProxmoxClient} {inventory : GuestInventory} {g : ListedGuest} {address : Text}

theorem listedGuests_of_load (loaded : h.load cache client = some inventory) :
    listedGuests cache h client = inventory.listed := by
  rw [listedGuests, loaded]

theorem mem_collectUsedVmids (loaded : h.load cache client = some inventory)
    (member : g ∈ inventory.listed) (some : g.vmid ≠ 0) :
    g.vmid ∈ collectUsedVmids cache h client := by
  rw [collectUsedVmids, listedGuests_of_load loaded, List.mem_filter]
  exact ⟨List.mem_map_of_mem (f := fun g : ListedGuest => g.vmid) member,
    decide_eq_true (Nat.pos_of_ne_zero some)⟩

/-- Everything that is looked at is collected. -/
theorem mem_collectUsedGuestIps (loaded : h.load cache client = some inventory)
    (member : g ∈ pendingGuests inventory.listed)
    (seen : SeenAddress h client inventory.listed g address) :
    address ∈ (collectUsedGuestIps cache h client).2 := by
  simp only [collectUsedGuestIps, listedGuests_of_load loaded, List.mem_eraseDups,
    List.mem_append, List.mem_flatMap]
  cases seen with
  | cached found inside =>
      refine .inl ⟨g, member, ?_⟩
      rw [found]
      exact inside
  | read missing early answer named =>
      refine .inr ⟨g, early, ?_⟩
      rw [answer]
      exact mem_parseGuestConfigIps.mpr named

theorem mem_forEachHostInScope {T : Type} {fn : ScopeHost → ProxmoxClient → T} {empty : T}
    (inScope : h ∈ hostsInGuestIdentityScope target all) (connected : h.client = some client) :
    fn h client ∈ forEachHostInScope target all fn empty := by
  have listed : h ∈ all := by
    rw [hostsInGuestIdentityScope] at inScope
    split at inScope
    · exact List.mem_of_mem_filter inScope
    · exact List.mem_of_mem_filter inScope
  rw [forEachHostInScope, List.mem_map]
  refine ⟨h, List.mem_filter.mpr ⟨listed, ?_⟩, by rw [connected]⟩
  exact decide_eq_true (List.mem_map_of_mem (f := fun h : ScopeHost => h.id) inScope)

theorem mem_mergeUsedGuestSets_vmids {parts : List (List Nat × List Text)}
    {part : List Nat × List Text} (listed : part ∈ parts) {vmid : Nat} (member : vmid ∈ part.1)
    (some : vmid ≠ 0) : vmid ∈ (mergeUsedGuestSets parts).1 := by
  rw [mergeUsedGuestSets, List.mem_eraseDups, List.mem_filter]
  exact ⟨List.mem_flatMap.mpr ⟨part, listed, member⟩, decide_eq_true (Nat.pos_of_ne_zero some)⟩

theorem mem_mergeUsedGuestSets_ips {parts : List (List Nat × List Text)}
    {part : List Nat × List Text} (listed : part ∈ parts) (member : address ∈ part.2)
    (some : address ≠ []) : address ∈ (mergeUsedGuestSets parts).2 := by
  rw [mergeUsedGuestSets, List.mem_eraseDups, List.mem_filter]
  exact ⟨List.mem_flatMap.mpr ⟨part, listed, member⟩, decide_eq_true some⟩

/-! ## The check -/

/-- A success is no conflict with what was collected. -/
theorem no_conflict {vmid : Nat} {ip : Option Text}
    (free : assertGuestIdentityFree cache all target vmid ip = .ok ()) :
    identityConflict
      (if ip.getD [] ≠ [] then collectUsedGuestIpsForHost cache target all
        else (collectUsedVmidsForHost cache target all, [])) vmid ip = none := by
  rw [assertGuestIdentityFree] at free
  split at free
  · cases free
  · cases free
  · assumption

theorem identityConflict_eq_none {used : List Nat × List Text} {vmid : Nat} {ip : Option Text}
    (none : identityConflict used vmid ip = none) :
    vmid ∉ used.1 ∧ ∀ asked, ip = some asked → asked ≠ [] → asked ∉ used.2 := by
  simp only [identityConflict] at none
  split at none
  · cases none
  · next free =>
      refine ⟨free, ?_⟩
      rintro asked rfl given member
      dsimp only at none
      rw [if_pos ⟨given, member⟩] at none
      cases none

/-- Both ways of collecting have every listed vmid. -/
theorem vmid_collected (inScope : h ∈ hostsInGuestIdentityScope target all)
    (connected : h.client = some client) (loaded : h.load cache client = some inventory)
    (member : g ∈ inventory.listed) (some : g.vmid ≠ 0) (ip : Option Text) :
    g.vmid ∈ (if ip.getD [] ≠ [] then collectUsedGuestIpsForHost cache target all
      else (collectUsedVmidsForHost cache target all, [])).1 := by
  have collected := mem_collectUsedVmids loaded member some
  have withIps : collectUsedGuestIps cache h client ∈
      forEachHostInScope target all (collectUsedGuestIps cache) ([], []) :=
    mem_forEachHostInScope inScope connected
  have withoutIps : collectUsedVmids cache h client ∈
      forEachHostInScope target all (collectUsedVmids cache) [] :=
    mem_forEachHostInScope inScope connected
  split
  · exact mem_mergeUsedGuestSets_vmids withIps collected some
  · exact mem_mergeUsedGuestSets_vmids (List.mem_map_of_mem (f := (·, [])) withoutIps) collected
      some

/-- **What a success means.** On every host of the scope that could be connected and listed, no
listed guest has the vmid, and no address that is looked at is the one asked for. -/
theorem identity_of_free {vmid : Nat} {ip : Option Text}
    (free : assertGuestIdentityFree cache all target vmid ip = .ok ())
    (inScope : h ∈ hostsInGuestIdentityScope target all) (connected : h.client = some client)
    (loaded : h.load cache client = some inventory) :
    (vmid ≠ 0 → ∀ g ∈ inventory.listed, g.vmid ≠ vmid) ∧
      ∀ asked, ip = some asked → ∀ g ∈ pendingGuests inventory.listed, ∀ address,
        SeenAddress h client inventory.listed g address → PlainAddress address →
          PlainAddress asked → ¬SameAddress address asked := by
  obtain ⟨vmids, ips⟩ := identityConflict_eq_none (no_conflict free)
  constructor
  · rintro some g member rfl
    exact vmids (vmid_collected inScope connected loaded member some ip)
  · rintro asked rfl g member address seen first second same
    obtain rfl := same.eq first second
    have some : address ≠ [] := by
      rintro rfl
      obtain ⟨x, number, -⟩ := same
      cases number
    have collected : address ∈ (collectUsedGuestIpsForHost cache target all).2 :=
      mem_mergeUsedGuestSets_ips (mem_forEachHostInScope inScope connected)
        (mem_collectUsedGuestIps loaded member seen) some
    apply ips address rfl some
    rw [Option.getD_some, if_pos some]
    exact collected

def clientAt (url : Text) : ProxmoxClient := ⟨⟨url, .apiToken, "root@pam", none, [], true, none⟩⟩

def webGuest : HostedGuest where
  vmid := 100
  node := "pve"
  template := false
  kind := .lxc
  config := [("net0", .str "name=eth0,ip=10.0.0.8/24")]

/-- A host with one guest that answers everything; nothing is cached. -/
def lab (guest : HostedGuest) : ScopeHost where
  id := "lab"
  origin := .localHost
  guests := [guest]
  client := some (clientAt "https://10.0.0.3:8006")
  running := none
  lists := true
  reads := fun _ _ _ => true
  ips := fun _ => none
  now := 0

/-- The host on which a guest is made. -/
def desk : ScopeHost :=
  { lab webGuest with
    id := "desk"
    guests := []
    client := some (clientAt "https://10.0.0.2:8006") }

theorem identity_of_free_242 :
    (∀ g ∈ (lab webGuest).inventory.listed, g.vmid ≠ 242) ∧
      ∀ g ∈ pendingGuests (lab webGuest).inventory.listed, ∀ address,
        SeenAddress (lab webGuest) (clientAt "https://10.0.0.3:8006")
          (lab webGuest).inventory.listed g address →
          PlainAddress address → ¬SameAddress address "10.0.0.9" := by
  have free : assertGuestIdentityFree InventoryState.empty [desk, lab webGuest] desk 242
      (some "10.0.0.9") = .ok () := rfl
  have inScope : lab webGuest ∈ hostsInGuestIdentityScope desk [desk, lab webGuest] :=
    List.mem_cons_of_mem _ List.mem_cons_self
  have plain : PlainAddress "10.0.0.9" := by
    refine ⟨by decide, ?_⟩
    decide
  obtain ⟨vmids, ips⟩ := identity_of_free free inScope rfl rfl
  exact ⟨vmids (by decide), fun g listed address seen first =>
    ips _ rfl g listed address seen first plain⟩

/-- A guest of the scope has the vmid or the address, and the check succeeds. -/
def Missed (cache : InventoryState GuestInventory) (h : ScopeHost) (vmid : Nat)
    (ip : Option Text) : Prop :=
  assertGuestIdentityFree cache [desk, h] desk vmid ip = .ok () ∧
    h ∈ hostsInGuestIdentityScope desk [desk, h] ∧
    ∃ g ∈ h.guests, g.vmid = vmid ∨ ∃ asked address, ip = some asked ∧
      NamesAddress g.config address ∧ SameAddress address asked

theorem webGuest_names : NamesAddress webGuest.config "10.0.0.8" :=
  ⟨"net0", "name=eth0,ip=10.0.0.8/24", "10.0.0.8/24", List.mem_cons_self, rfl, rfl, rfl⟩

/-- Each way to be missed: the host cannot be connected or listed; its list or the addresses of the
guest are cached; the guest is a template, has no node, comes behind sixty others or cannot be read;
or its address is written in another way. -/
theorem missed_identities :
    Missed InventoryState.empty { lab webGuest with client := none } 100 none ∧
    Missed InventoryState.empty { lab webGuest with lists := false } 100 none ∧
    Missed { InventoryState.empty with cache := fun _ => some ⟨⟨[], []⟩, 0, 0⟩ } (lab webGuest) 100
      none ∧
    Missed InventoryState.empty { lab webGuest with ips := fun _ => some ⟨"lab", [], 0⟩ } 242
      (some "10.0.0.8") ∧
    Missed InventoryState.empty (lab { webGuest with template := true }) 242 (some "10.0.0.8") ∧
    Missed InventoryState.empty (lab { webGuest with node := [] }) 242 (some "10.0.0.8") ∧
    Missed InventoryState.empty
      { lab webGuest with
        guests := (List.range 60).map (fun n => { webGuest with vmid := 300 + n, config := [] }) ++
          [webGuest] }
      242 (some "10.0.0.8") ∧
    Missed InventoryState.empty { lab webGuest with reads := fun _ _ _ => false } 242
      (some "10.0.0.8") ∧
    Missed InventoryState.empty (lab webGuest) 242 (some "10.0.0.08") := by
  have one : SameAddress "10.0.0.8" "10.0.0.8" := ⟨167772168, by decide, by decide⟩
  have zero : SameAddress "10.0.0.8" "10.0.0.08" :=
    ⟨167772168, by decide, by decide⟩
  have used (asked : Text) (same : SameAddress "10.0.0.8" asked) :
      ∃ asked' address, some asked = some asked' ∧ NamesAddress webGuest.config address ∧
        SameAddress address asked' :=
    ⟨asked, "10.0.0.8", rfl, webGuest_names, same⟩
  refine ⟨⟨rfl, ?_, _, List.mem_cons_self, .inl rfl⟩, ⟨rfl, ?_, _, List.mem_cons_self, .inl rfl⟩,
    ⟨rfl, ?_, _, List.mem_cons_self, .inl rfl⟩, ⟨rfl, ?_, _, List.mem_cons_self, .inr (used _ one)⟩,
    ⟨rfl, ?_, _, List.mem_cons_self, .inr (used _ one)⟩,
    ⟨rfl, ?_, _, List.mem_cons_self, .inr (used _ one)⟩,
    ⟨rfl, ?_, webGuest, List.mem_append_right _ List.mem_cons_self, .inr (used _ one)⟩,
    ⟨rfl, ?_, _, List.mem_cons_self, .inr (used _ one)⟩,
    ⟨rfl, ?_, _, List.mem_cons_self, .inr (used _ zero)⟩⟩
  all_goals exact List.mem_cons_of_mem _ List.mem_cons_self

end Proxora
