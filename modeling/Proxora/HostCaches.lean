import Proxora.HostClients

/-!
# Caches of what hosts answer

The guest-IP cache of `server/services/guest-ip-cache.ts`, the disk cache of
`guest-disk.ts` and the volume lists of `storage-content.ts`.  All three are
shared by the hosts, with keys that begin with the base URL of a client.  An
entry notes the host it was stored for.

`reads_own_iff` says for which hosts a read never returns what was stored for
another one; `shares_baseUrl` that the hosts of one peer are not among them.
-/

namespace Proxora

open Ecma Runs

/-- An entry of a cache, and the host that it was stored for. -/
structure HostEntry (Data : Type) where
  hostId : String
  data : Data
  storedAt : Int
deriving DecidableEq, Repr

/-- A `Map` from keys to entries. -/
abbrev KeyedEntries (Data : Type) : Type := Text → Option (HostEntry Data)

/-- The kinds of volumes that `collectStorageVolumes` lists. -/
inductive VolumeContent : Type
  | vztmpl | iso
deriving DecidableEq, Repr

def VolumeContent.name : VolumeContent → Text
  | .vztmpl => "vztmpl"
  | .iso => "iso"

structure DiskUsage where
  used : Nat
  total : Nat
deriving DecidableEq, Repr

structure VolumeList where
  storages : List Text
  volids : List Text
deriving DecidableEq, Repr

/-! ## Guest IPs -/

def ttlFullMs : Int := 10 * 60000
def ttlEmptyMs : Int := 5 * 60000

def ipTtlMs (ips : List Text) : Int := if ips ≠ [] then ttlFullMs else ttlEmptyMs

def ipCacheKey (client : ProxmoxClient) (kind : GuestKind) (node : Text) (vmid : Nat) : Text :=
  client.baseUrl ++ ':' :: (kind.name : Text) ++ ':' :: node ++ ':' :: (toString vmid : String)

def peekGuestIpCache (cache : KeyedEntries (List Text)) (client : ProxmoxClient) (kind : GuestKind)
    (node : Text) (vmid : Nat) (now : Int) :
    Option (HostEntry (List Text)) × KeyedEntries (List Text) :=
  match cache (ipCacheKey client kind node vmid) with
  | none => (none, cache)
  | some hit =>
      if ipTtlMs hit.data ≤ now - hit.storedAt then
        (none, Function.update cache (ipCacheKey client kind node vmid) none)
      else (some hit, cache)

def uniqueGuestIps (ips : List Text) : List Text := ((ips.map trim).filter (· ≠ [])).eraseDups

def rememberGuestIpCache (cache : KeyedEntries (List Text)) (hostId : String)
    (client : ProxmoxClient) (kind : GuestKind) (node : Text) (vmid : Nat) (ips : List Text)
    (now : Int) : KeyedEntries (List Text) :=
  Function.update cache (ipCacheKey client kind node vmid)
    (some ⟨hostId, uniqueGuestIps ips, now⟩)

/-! ## Disks -/

def diskTtlMs : Int := 90000

def diskCacheKey (client : ProxmoxClient) (node : Text) (vmid : Nat) : Text :=
  client.baseUrl ++ ':' :: node ++ ':' :: (toString vmid : String)

def peekVmDiskCache (cache : KeyedEntries DiskUsage) (client : ProxmoxClient) (node : Text)
    (vmid : Nat) (now : Int) : Option (HostEntry DiskUsage) :=
  (cache (diskCacheKey client node vmid)).filter fun hit => now - hit.storedAt < diskTtlMs

/-- `vmDiskFromAgent` while it waits for the guest agent. -/
structure DiskCall where
  hostId : String
  client : ProxmoxClient
  node : Text
  vmid : Nat
deriving DecidableEq, Repr

/-- The rest of `vmDiskFromAgent`; the agent may not answer. -/
def DiskCall.finish (call : DiskCall) (cache : KeyedEntries DiskUsage) (usage : Option DiskUsage)
    (now : Int) : KeyedEntries DiskUsage :=
  match usage with
  | none => cache
  | some usage =>
      Function.update cache (diskCacheKey call.client call.node call.vmid)
        (some ⟨call.hostId, usage, now⟩)

/-! ## Volumes -/

def volumeListTtlMs : Int := 20000

def volumeCacheKey (client : ProxmoxClient) (content : VolumeContent) : Text :=
  client.baseUrl ++ ':' :: content.name

/-- What `collectStorageVolumes` finds in its cache. -/
def peekVolumeList (cache : KeyedEntries VolumeList) (client : ProxmoxClient)
    (content : VolumeContent) (now : Int) : Option (HostEntry VolumeList) :=
  (cache (volumeCacheKey client content)).filter fun hit => now - hit.storedAt < volumeListTtlMs

/-- `collectStorageVolumes` while it waits for the host. -/
structure VolumeCall where
  hostId : String
  client : ProxmoxClient
  content : VolumeContent
deriving DecidableEq, Repr

/-- The rest of `collectStorageVolumes`, with the storages and the volumes that
the host lists. -/
def VolumeCall.finish (call : VolumeCall) (cache : KeyedEntries VolumeList)
    (storages volids : List Text) (now : Int) : KeyedEntries VolumeList :=
  Function.update cache (volumeCacheKey call.client call.content)
    (some ⟨call.hostId, ⟨storages.eraseDups, volids.eraseDups⟩, now⟩)

/-- `clearVolumeListCache`. -/
def clearVolumeListCache (cache : KeyedEntries VolumeList) (client : Option ProxmoxClient) :
    KeyedEntries VolumeList :=
  fun key =>
    match client with
    | none => none
    | some client => if startsWith key (client.baseUrl ++ [':']) then none else cache key

/-! ## Runs -/

/-- A set of hosts, with the peers that share some of them. -/
structure HostSet where
  crypto : Crypto
  hosts : ConnectionRows
  peers : PeerRows

/-- The caches, and the calls that wait for an answer. -/
structure HostCaches where
  clients : HostClientCache
  ips : KeyedEntries (List Text)
  disks : KeyedEntries DiskUsage
  volumes : KeyedEntries VolumeList
  diskCalls : List DiskCall
  volumeCalls : List VolumeCall

inductive HostCacheEvent : Type
  | rememberIps (hostId : String) (kind : GuestKind) (node : Text) (vmid : Nat) (ips : List Text)
      (now : Int)
  | peekIps (hostId : String) (kind : GuestKind) (node : Text) (vmid : Nat) (now : Int)
  | clearIps
  | vmDisk (hostId : String) (node : Text) (vmid : Nat) (now : Int)
  | agentAnswered (call : Nat) (usage : Option DiskUsage) (now : Int)
  | clearDisks
  | collectVolumes (hostId : String) (content : VolumeContent) (now : Int)
  | volumesListed (call : Nat) (storages volids : List Text) (now : Int)
  | clearVolumes (hostId : String)
  | clearAllVolumes

namespace HostCaches

def empty : HostCaches where
  clients := .empty
  ips := fun _ => none
  disks := fun _ => none
  volumes := fun _ => none
  diskCalls := []
  volumeCalls := []

/-- What is done with the client of a host, if there is one. -/
def withClient (set : HostSet) (s : HostCaches) (hostId : String)
    (use : ProxmoxClient → HostCaches → HostCaches) : Option HostCaches :=
  (set.hosts.find hostId).map fun host =>
    match clientForHost set.crypto set.peers s.clients host with
    | (.ok client, clients) => use client { s with clients }
    | (.error _, clients) => { s with clients }

def step (set : HostSet) (s : HostCaches) : HostCacheEvent → Option HostCaches
  | .rememberIps hostId kind node vmid ips now =>
      s.withClient set hostId fun client s =>
        { s with ips := rememberGuestIpCache s.ips hostId client kind node vmid ips now }
  | .peekIps hostId kind node vmid now =>
      s.withClient set hostId fun client s =>
        { s with ips := (peekGuestIpCache s.ips client kind node vmid now).2 }
  | .clearIps => some { s with ips := fun _ => none }
  | .vmDisk hostId node vmid now =>
      s.withClient set hostId fun client s =>
        match peekVmDiskCache s.disks client node vmid now with
        | some _ => s
        | none => { s with diskCalls := s.diskCalls ++ [⟨hostId, client, node, vmid⟩] }
  | .agentAnswered n usage now =>
      (s.diskCalls[n]?).map fun call =>
        { s with
          disks := call.finish s.disks usage now
          diskCalls := s.diskCalls.eraseIdx n }
  | .clearDisks => some { s with disks := fun _ => none }
  | .collectVolumes hostId content now =>
      s.withClient set hostId fun client s =>
        match peekVolumeList s.volumes client content now with
        | some _ => s
        | none => { s with volumeCalls := s.volumeCalls ++ [⟨hostId, client, content⟩] }
  | .volumesListed n storages volids now =>
      (s.volumeCalls[n]?).map fun call =>
        { s with
          volumes := call.finish s.volumes storages volids now
          volumeCalls := s.volumeCalls.eraseIdx n }
  | .clearVolumes hostId =>
      s.withClient set hostId fun client s =>
        { s with volumes := clearVolumeListCache s.volumes (some client) }
  | .clearAllVolumes => some { s with volumes := clearVolumeListCache s.volumes none }

/-- The client that a call for a host gets. -/
def clientOf (set : HostSet) (s : HostCaches) (hostId : String) : Option ProxmoxClient :=
  (set.hosts.find hostId).bind fun host =>
    (clientForHost set.crypto set.peers s.clients host).1.toOption

/-- A read for a host returns what was stored for it. -/
structure ReadsOwn (set : HostSet) (s : HostCaches) : Prop where
  ips : ∀ hostId client, s.clientOf set hostId = some client → ∀ kind node vmid now entry,
    (peekGuestIpCache s.ips client kind node vmid now).1 = some entry → entry.hostId = hostId
  disks : ∀ hostId client, s.clientOf set hostId = some client → ∀ node vmid now entry,
    peekVmDiskCache s.disks client node vmid now = some entry → entry.hostId = hostId
  volumes : ∀ hostId client, s.clientOf set hostId = some client → ∀ content now entry,
    peekVolumeList s.volumes client content now = some entry → entry.hostId = hostId

end HostCaches

/-- The base URL of the client of a host. -/
def HostSet.baseUrl (set : HostSet) (hostId : String) : Option Text :=
  (set.hosts.find hostId).bind fun host =>
    (prescribed set.crypto set.peers host).toOption.map fun config =>
      (ProxmoxClient.mk config).baseUrl

/-- No base URL is that of another host, or that of another host and a colon
with something after it. -/
def HostSet.Distinguished (set : HostSet) : Prop :=
  ∀ a b u v, set.baseUrl a = some u → set.baseUrl b = some v → a ≠ b →
    u ≠ v ∧ ¬u ++ [':'] <+: v

/-! ## Keys -/

/-- Two keys are the same only if their base URLs collide. -/
theorem baseUrls_of_same_key {u v x y : Text} (same : u ++ ':' :: x = v ++ ':' :: y) :
    u = v ∨ u ++ [':'] <+: v ∨ v ++ [':'] <+: u := by
  have key {u v x y : Text} (same : u ++ ':' :: x = v ++ ':' :: y) (shorter : u <+: v) :
      u = v ∨ u ++ [':'] <+: v := by
    obtain ⟨rest, longer⟩ := shorter
    rw [← longer] at same ⊢
    rw [List.append_assoc, List.append_cancel_left_eq] at same
    cases rest with
    | nil => exact .inl (List.append_nil u).symm
    | cons c rest =>
        rw [List.cons_append, List.cons.injEq] at same
        rw [← same.1]
        exact .inr ⟨rest, List.append_assoc u [':'] rest⟩
  have left : u <+: u ++ ':' :: x := List.prefix_append u _
  have right : v <+: u ++ ':' :: x := by
    rw [same]
    exact List.prefix_append v _
  rcases List.prefix_or_prefix_of_prefix left right with shorter | shorter
  · rcases key same shorter with equal | within
    · exact .inl equal
    · exact .inr (.inl within)
  · rcases key same.symm shorter with equal | within
    · exact .inl equal.symm
    · exact .inr (.inr within)

section Peek

variable {client : ProxmoxClient} {kind : GuestKind} {content : VolumeContent} {node : Text}
  {vmid : Nat} {now : Int}

theorem ipCacheKey_eq : ipCacheKey client kind node vmid =
    client.baseUrl ++ ':' :: ((kind.name : Text) ++ ':' :: node ++ ':' :: (toString vmid : String)) := by
  simp [ipCacheKey]

theorem diskCacheKey_eq : diskCacheKey client node vmid =
    client.baseUrl ++ ':' :: (node ++ ':' :: (toString vmid : String)) := by
  simp [diskCacheKey]

theorem peekGuestIpCache_found {cache : KeyedEntries (List Text)} {entry : HostEntry (List Text)}
    (read : (peekGuestIpCache cache client kind node vmid now).1 = some entry) :
    cache (ipCacheKey client kind node vmid) = some entry := by
  unfold peekGuestIpCache at read
  split at read
  · cases read
  · next hit found =>
    split at read
    · cases read
    · cases read
      exact found

theorem peekGuestIpCache_fewer {cache : KeyedEntries (List Text)} {key : Text}
    {entry : HostEntry (List Text)}
    (held : (peekGuestIpCache cache client kind node vmid now).2 key = some entry) :
    cache key = some entry := by
  unfold peekGuestIpCache at held
  split at held
  · exact held
  · split at held
    · exact (update_none_eq_some held).2
    · exact held

theorem peekVmDiskCache_found {cache : KeyedEntries DiskUsage} {entry : HostEntry DiskUsage}
    (read : peekVmDiskCache cache client node vmid now = some entry) :
    cache (diskCacheKey client node vmid) = some entry :=
  (Option.filter_eq_some_iff.mp read).1

theorem peekVolumeList_found {cache : KeyedEntries VolumeList} {entry : HostEntry VolumeList}
    (read : peekVolumeList cache client content now = some entry) :
    cache (volumeCacheKey client content) = some entry :=
  (Option.filter_eq_some_iff.mp read).1

end Peek

/-- Every entry has a key that begins with the base URL of its host. -/
def OwnKeys {Data : Type} (baseUrl : String → Option Text) (cache : KeyedEntries Data) : Prop :=
  ∀ key entry, cache key = some entry →
    ∃ url rest, baseUrl entry.hostId = some url ∧ key = url ++ ':' :: rest

section OwnKeys

variable {Data : Type} {baseUrl : String → Option Text} {cache : KeyedEntries Data} {key : Text}
  {entry : HostEntry Data} {url rest : Text}

theorem OwnKeys.none : OwnKeys baseUrl (fun _ => none : KeyedEntries Data) := by
  intro key entry held
  cases held

theorem OwnKeys.store (own : OwnKeys baseUrl cache) (url_eq : baseUrl entry.hostId = some url) :
    OwnKeys baseUrl (Function.update cache (url ++ ':' :: rest) (some entry)) := by
  intro key other held
  rcases update_eq_some held with ⟨same, written⟩ | ⟨-, earlier⟩
  · rw [written]
    exact ⟨url, rest, url_eq, same⟩
  · exact own key other earlier

theorem OwnKeys.mono {smaller : KeyedEntries Data} (own : OwnKeys baseUrl cache)
    (fewer : ∀ key entry, smaller key = some entry → cache key = some entry) :
    OwnKeys baseUrl smaller := by
  intro key entry held
  exact own key entry (fewer key entry held)

end OwnKeys

/-- **Reads.** Between distinguished hosts an entry is found by its own host only. -/
theorem HostSet.Distinguished.owner {Data : Type} {set : HostSet} {cache : KeyedEntries Data}
    {reader : String} {u rest : Text} {entry : HostEntry Data} (distinguished : set.Distinguished)
    (own : OwnKeys set.baseUrl cache) (url : set.baseUrl reader = some u)
    (found : cache (u ++ ':' :: rest) = some entry) : entry.hostId = reader := by
  obtain ⟨v, x, ownerUrl, same⟩ := own _ _ found
  by_contra other
  have forth := distinguished _ _ _ _ url ownerUrl (Ne.symm other)
  have back := distinguished _ _ _ _ ownerUrl url other
  rcases baseUrls_of_same_key same with equal | within | within
  · exact forth.1 equal
  · exact forth.2 within
  · exact back.2 within

/-! ## What a run keeps -/

namespace HostCaches

variable {set : HostSet} {s t : HostCaches} {hostId : String} {client : ProxmoxClient}

/-- The entries have own keys, and the clients are the prescribed ones. -/
structure Owned (set : HostSet) (s : HostCaches) : Prop where
  clients : ∀ hostId host, set.hosts.find hostId = some host →
    InLine set.crypto set.peers s.clients host
  ips : OwnKeys set.baseUrl s.ips
  disks : OwnKeys set.baseUrl s.disks
  volumes : OwnKeys set.baseUrl s.volumes
  diskCalls : ∀ call ∈ s.diskCalls, set.baseUrl call.hostId = some call.client.baseUrl
  volumeCalls : ∀ call ∈ s.volumeCalls, set.baseUrl call.hostId = some call.client.baseUrl

theorem owned_empty : Owned set empty where
  clients := fun _ _ _ => inLine_empty
  ips := .none
  disks := .none
  volumes := .none
  diskCalls := fun _ member => by cases member
  volumeCalls := fun _ member => by cases member

/-- The client of a host has its base URL. -/
theorem Owned.clientOf (owned : Owned set s) (client_eq : s.clientOf set hostId = some client) :
    set.baseUrl hostId = some client.baseUrl := by
  obtain ⟨host, found, call⟩ := Option.bind_eq_some_iff.mp client_eq
  have result : (clientForHost set.crypto set.peers s.clients host).1 = .ok client := by
    cases outcome : (clientForHost set.crypto set.peers s.clients host).1 with
    | error e =>
        rw [outcome] at call
        cases call
    | ok other =>
        rw [outcome] at call
        cases call
        rfl
  have connection := clientForHost_prescribed (owned.clients hostId host found) result
  unfold HostSet.baseUrl
  rw [found, Option.bind_some, connection]
  rfl

/-- Between distinguished hosts reads are own. -/
theorem Owned.readsOwn (owned : Owned set s) (distinguished : set.Distinguished) :
    ReadsOwn set s where
  ips := by
    intro hostId client client_eq kind node vmid now entry read
    have found := peekGuestIpCache_found read
    rw [ipCacheKey_eq] at found
    exact distinguished.owner owned.ips (owned.clientOf client_eq) found
  disks := by
    intro hostId client client_eq node vmid now entry read
    have found := peekVmDiskCache_found read
    rw [diskCacheKey_eq] at found
    exact distinguished.owner owned.disks (owned.clientOf client_eq) found
  volumes := by
    intro hostId client client_eq content now entry read
    have found := peekVolumeList_found read
    exact distinguished.owner owned.volumes (owned.clientOf client_eq) found

/-- What is done with the client of a host keeps the caches owned, when it does so
for a client with the base URL of the host. -/
theorem Owned.withClient {use : ProxmoxClient → HostCaches → HostCaches} (owned : Owned set s)
    (happens : s.withClient set hostId use = some t)
    (kept : ∀ client s, Owned set s → set.baseUrl hostId = some client.baseUrl →
      Owned set (use client s)) : Owned set t := by
  obtain ⟨host, found, after⟩ := Option.map_eq_some_iff.mp happens
  have inLine : ∀ otherId other, set.hosts.find otherId = some other → InLine set.crypto set.peers
      (clientForHost set.crypto set.peers s.clients host).2 other := by
    intro otherId other inRows
    refine (owned.clients otherId other inRows).clientForHost fun same => ?_
    have inHosts := KeyedRows.find_of_mem (KeyedRows.mem_of_find found)
    have inOthers := KeyedRows.find_of_mem (KeyedRows.mem_of_find inRows)
    rw [same, inHosts] at inOthers
    exact (Option.some.inj inOthers).symm
  have before : Owned set
      { s with clients := (clientForHost set.crypto set.peers s.clients host).2 } :=
    { owned with clients := inLine }
  cases call : clientForHost set.crypto set.peers s.clients host with
  | mk outcome clients =>
      rw [call] at after before
      cases outcome with
      | error e =>
          rw [← after]
          exact before
      | ok client =>
          rw [← after]
          refine kept client _ before (owned.clientOf ?_)
          unfold HostCaches.clientOf
          rw [found, Option.bind_some, call]
          rfl

/-- **Step lemma.** -/
theorem Owned.step {e : HostCacheEvent} (owned : Owned set s) (happens : step set s e = some t) :
    Owned set t := by
  cases e with
  | rememberIps hostId kind node vmid ips now =>
      dsimp only [HostCaches.step] at happens
      refine owned.withClient happens fun client s before url => ?_
      refine { before with ips := ?_ }
      dsimp only [rememberGuestIpCache]
      rw [ipCacheKey_eq]
      exact before.ips.store url
  | peekIps hostId kind node vmid now =>
      dsimp only [HostCaches.step] at happens
      refine owned.withClient happens fun client s before _ => ?_
      exact { before with ips := before.ips.mono fun _ _ => peekGuestIpCache_fewer }
  | clearIps =>
      cases happens
      exact { owned with ips := .none }
  | vmDisk hostId node vmid now =>
      dsimp only [HostCaches.step] at happens
      refine owned.withClient happens fun client s before url => ?_
      split
      · exact before
      · refine { before with diskCalls := ?_ }
        intro call member
        rcases List.mem_append.mp member with earlier | added
        · exact before.diskCalls call earlier
        · rw [List.mem_singleton.mp added]
          exact url
  | agentAnswered n usage now =>
      obtain ⟨call, waits, after⟩ := Option.map_eq_some_iff.mp happens
      rw [← after]
      have url := owned.diskCalls call (List.mem_of_getElem? waits)
      refine { owned with
        disks := ?_
        diskCalls := fun other member => owned.diskCalls other (List.mem_of_mem_eraseIdx member) }
      cases usage with
      | none => exact owned.disks
      | some usage =>
          dsimp only [DiskCall.finish]
          rw [diskCacheKey_eq]
          exact owned.disks.store url
  | clearDisks =>
      cases happens
      exact { owned with disks := .none }
  | collectVolumes hostId content now =>
      dsimp only [HostCaches.step] at happens
      refine owned.withClient happens fun client s before url => ?_
      split
      · exact before
      · refine { before with volumeCalls := ?_ }
        intro call member
        rcases List.mem_append.mp member with earlier | added
        · exact before.volumeCalls call earlier
        · rw [List.mem_singleton.mp added]
          exact url
  | volumesListed n storages volids now =>
      obtain ⟨call, waits, after⟩ := Option.map_eq_some_iff.mp happens
      rw [← after]
      have url := owned.volumeCalls call (List.mem_of_getElem? waits)
      refine { owned with
        volumes := owned.volumes.store url
        volumeCalls := fun other member =>
          owned.volumeCalls other (List.mem_of_mem_eraseIdx member) }
  | clearVolumes hostId =>
      dsimp only [HostCaches.step] at happens
      refine owned.withClient happens fun client s before _ => ?_
      refine { before with volumes := before.volumes.mono fun key entry held => ?_ }
      dsimp only [clearVolumeListCache] at held
      split at held
      · cases held
      · exact held
  | clearAllVolumes =>
      cases happens
      exact { owned with volumes := .none }

theorem owned_of_run (run : Reaches (step set) Unrestricted empty s) : Owned set s :=
  run.keeps owned_empty fun _ _ _ owned _ happens => owned.step happens

/-! ## Hosts whose reads mix -/

/-- A host with a base URL has a client with it. -/
theorem Owned.exists_client {u : Text} (owned : Owned set s) (url : set.baseUrl hostId = some u) :
    ∃ client, s.clientOf set hostId = some client ∧ client.baseUrl = u := by
  obtain ⟨host, found, made⟩ := Option.bind_eq_some_iff.mp url
  cases connection : prescribed set.crypto set.peers host with
  | error e =>
      rw [connection] at made
      cases made
  | ok config =>
      obtain ⟨client, result⟩ := clientForHost_succeeds s.clients connection
      have client_eq : s.clientOf set hostId = some client := by
        unfold HostCaches.clientOf
        rw [found, Option.bind_some, result]
        rfl
      have same := owned.clientOf client_eq
      rw [url] at same
      exact ⟨client, client_eq, (Option.some.inj same).symm⟩

theorem withClient_eq (use : ProxmoxClient → HostCaches → HostCaches)
    (client_eq : s.clientOf set hostId = some client) :
    ∃ clients, s.withClient set hostId use = some (use client { s with clients }) := by
  obtain ⟨host, found, result⟩ := Option.bind_eq_some_iff.mp client_eq
  unfold HostCaches.withClient
  rw [found, Option.map_some]
  cases call : clientForHost set.crypto set.peers s.clients host with
  | mk outcome clients =>
      rw [call] at result
      cases outcome with
      | error e => cases result
      | ok other =>
          cases result
          exact ⟨clients, rfl⟩

/-- The agent of a guest of one host answers, and the answer is read for the other. -/
theorem exists_mixed_read {a b : String} {u v : Text} (urlA : set.baseUrl a = some u)
    (urlB : set.baseUrl b = some v) (different : a ≠ b) (collide : u = v ∨ u ++ [':'] <+: v) :
    ∃ s, Reaches (step set) Unrestricted empty s ∧ ¬ReadsOwn set s := by
  obtain ⟨node, sameKey⟩ : ∃ node : Text, u ++ ':' :: (node ++ ':' :: (toString 100 : String)) =
      v ++ ':' :: (("pve" : Text) ++ ':' :: (toString 100 : String)) := by
    rcases collide with equal | ⟨rest, within⟩
    · exact ⟨"pve", by rw [equal]⟩
    · exact ⟨rest ++ ':' :: "pve", by simp [← within]⟩
  obtain ⟨clientB, clientB_eq, baseB⟩ := owned_empty.exists_client urlB
  obtain ⟨clients, asked⟩ := withClient_eq (fun client s =>
    match peekVmDiskCache s.disks client "pve" 100 0 with
    | some _ => s
    | none => { s with diskCalls := s.diskCalls ++ [⟨b, client, "pve", 100⟩] }) clientB_eq
  have waits : step set empty (.vmDisk b "pve" 100 0) =
      some { empty with clients, diskCalls := [⟨b, clientB, "pve", 100⟩] } := asked
  have answered : step set { empty with clients, diskCalls := [⟨b, clientB, "pve", 100⟩] }
      (.agentAnswered 0 (some ⟨1, 2⟩) 0) = some { empty with
        clients
        disks := Function.update (fun _ => none) (diskCacheKey clientB "pve" 100)
          (some ⟨b, ⟨1, 2⟩, 0⟩) } := rfl
  have first : Reaches (step set) Unrestricted empty _ := Reaches.start.next trivial waits
  have run := first.next trivial answered
  refine ⟨_, run, fun own => different ?_⟩
  obtain ⟨clientA, clientA_eq, baseA⟩ := (owned_of_run run).exists_client urlA
  have key : diskCacheKey clientA node 100 = diskCacheKey clientB "pve" 100 := by
    rw [diskCacheKey_eq, diskCacheKey_eq, baseA, baseB]
    exact sameKey
  refine (own.disks a clientA clientA_eq node 100 0 ⟨b, ⟨1, 2⟩, 0⟩ ?_).symm
  unfold peekVmDiskCache
  dsimp only
  rw [key, Function.update_self]
  rfl

/-- **Which hosts are kept apart.** The reads of a set of hosts never mix, in
whatever order they and the writes come, exactly when the base URLs of the hosts
are distinguished. -/
theorem reads_own_iff :
    (∀ s, Reaches (step set) Unrestricted empty s → ReadsOwn set s) ↔ set.Distinguished := by
  constructor
  · intro own a b u v urlA urlB different
    constructor
    · intro equal
      obtain ⟨s, run, mixed⟩ := exists_mixed_read urlA urlB different (.inl equal)
      exact mixed (own s run)
    · intro within
      obtain ⟨s, run, mixed⟩ := exists_mixed_read urlA urlB different (.inr within)
      exact mixed (own s run)
  · intro distinguished s run
    exact (owned_of_run run).readsOwn distinguished

/-! ## Hosts of one peer -/

theorem peer_baseUrl {host : ConnectionRow} {peerId : String} {u : Text}
    (found : set.hosts.find hostId = some host) (peerHost : host.isPeerHost = true)
    (peer : host.peerId = some peerId) (url : set.baseUrl hostId = some u) :
    ∃ target, PeerRows.target set.crypto set.peers peerId = some target ∧
      u = normalizeBaseUrl target.2 := by
  unfold HostSet.baseUrl at url
  rw [found, Option.bind_some, prescribed, if_pos peerHost] at url
  cases connection : peerHostConfig set.crypto set.peers host with
  | error e =>
      rw [connection] at url
      cases url
  | ok config =>
      rw [connection] at url
      cases url
      obtain ⟨otherId, remoteHostId, target, named, -, reached, same⟩ :=
        peerHostConfig_eq_ok.mp connection
      have id_eq := (Option.filter_eq_some_iff.mp named).1
      rw [peer] at id_eq
      cases id_eq
      refine ⟨target, reached, ?_⟩
      rw [← same]
      rfl

/-- Two hosts that one peer shares have one base URL. -/
theorem shares_baseUrl {a b : String} {hostA hostB : ConnectionRow} {peerId : String} {u v : Text}
    (foundA : set.hosts.find a = some hostA) (foundB : set.hosts.find b = some hostB)
    (peerHostA : hostA.isPeerHost = true) (peerHostB : hostB.isPeerHost = true)
    (peerA : hostA.peerId = some peerId) (peerB : hostB.peerId = some peerId)
    (urlA : set.baseUrl a = some u) (urlB : set.baseUrl b = some v) : u = v := by
  obtain ⟨target, reached, baseA⟩ := peer_baseUrl foundA peerHostA peerA urlA
  obtain ⟨other, again, baseB⟩ := peer_baseUrl foundB peerHostB peerB urlB
  rw [reached] at again
  cases again
  rw [baseA, baseB]

/-- A host that a peer shares. -/
def sharedHost (id remoteHostId : String) : ConnectionRow where
  id := id
  name := "pve"
  origin := .peer
  url := ("federation://office/" ++ remoteHostId : String)
  authType := .apiToken
  username := "peer@pve"
  tokenId := some "federation"
  encryptedSecret := "AAAAAAAAAAAAAAAD.QI+DE3M2YlyBOiLkyVjpXA==.a0Fq1iQXxbPc/A=="
  allowInsecureTls := true
  peerId := some "office"
  remoteHostId := some remoteHostId

/-- Two hosts of one peer, under a cipher that has its token. -/
def officeHosts : HostSet where
  crypto :=
    { encipher := fun _ _ => ("yfXcCpecad4ZNd3OProdDA==", "YbnUmSrZX3Br")
      decipher := fun _ _ _ => some "token-one"
      sha256 := fun text => text }
  hosts := ⟨[sharedHost "one" "pve1", sharedHost "two" "pve2"], by decide⟩
  peers :=
    ⟨[{ id := "office"
        name := "Office"
        kind := .proxora
        publicKey := []
        address := "10.0.0.5"
        proxoraPort := 3000
        inboundTokenHash := []
        encryptedInboundToken := []
        encryptedOutboundToken := "AAAAAAAAAAAAAAAB.yfXcCpecad4ZNd3OProdDA==.YbnUmSrZX3Br"
        createdAt := 0 }], by decide⟩

/-- What the guest agent says on one host of a peer is read for another. -/
theorem hosts_of_peer_mix :
    ∃ set s, Reaches (step set) Unrestricted empty s ∧ ¬ReadsOwn set s := by
  have urlOne : officeHosts.baseUrl "one" = some "http://10.0.0.5:3000" := by decide
  have urlTwo : officeHosts.baseUrl "two" = some "http://10.0.0.5:3000" := by decide
  exact ⟨officeHosts, exists_mixed_read urlOne urlTwo (by decide) (.inl rfl)⟩

end HostCaches

end Proxora
