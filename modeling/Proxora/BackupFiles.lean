import Proxora.Ecma.Regex
import Proxora.FederationAccess
import Proxora.GuestScope
import Proxora.ProxmoxClient

/-!
# Backup archives

The archive half of `lib/backup.ts` and the two listings of
`server/services/backup-service.ts`: which guest an archive belongs to, which
archives and which guests of a host a user is shown.

`isOrphanBackupFile_iff` says what an orphan is, `mem_listHostBackupGuests` and
`listHostBackupFiles_eq` what a user is shown: guests by kind and VMID, archives
by VMID alone.
-/

namespace Proxora

open Ecma Ecma.Regex

/-! ## Volume ids -/

/-- `BackupKind`. -/
inductive BackupKind : Type
  | guest (kind : GuestKind)
  | unknown
deriving DecidableEq, Repr

structure ParsedBackupVolid where
  storage : Text
  volume : Text
  filename : Text
  kind : BackupKind
  vmid : Option Int
deriving DecidableEq

/-- `/vzdump-qemu-(\d+)/i`. -/
def qemuFile : Regex := .seq (litI "vzdump-qemu-") (.group 1 (plus digit))

/-- `/vzdump-lxc-(\d+)/i`. -/
def lxcFile : Regex := .seq (litI "vzdump-lxc-") (.group 1 (plus digit))

/-- `/(?:^|\/)vm\/(\d+)(?:\/|$)/`, or the same for `ct`. -/
def pbsPath (word : Text) : Regex :=
  cat [.alt .bos (lit "/"), lit word, lit "/", .group 1 (plus digit), .alt (lit "/") .eos]

def pbsVm : Regex := pbsPath "vm"
def pbsCt : Regex := pbsPath "ct"

/-- `Number(match[1])`, where there is a match. -/
def vmidIn (pattern : Regex) (s : Text) : Option Int :=
  (exec pattern s).bind fun found => (found.group 1).map fun digits => numberOfDigits digits

def parseBackupVolid (volid : Text) : ParsedBackupVolid :=
  let raw := trim volid
  let fromColon := raw.dropWhile (· ≠ ':')
  let storage := if fromColon = [] then [] else raw.takeWhile (· ≠ ':')
  let volume := if fromColon = [] then raw else fromColon.tail
  let filename := (split '/' volume).getLastD volume
  match vmidIn qemuFile filename with
  | some vmid => ⟨storage, volume, filename, .guest .vm, some vmid⟩
  | none =>
      match vmidIn lxcFile filename with
      | some vmid => ⟨storage, volume, filename, .guest .lxc, some vmid⟩
      | none =>
          match vmidIn pbsVm volume with
          | some vmid => ⟨storage, volume, filename, .guest .vm, some vmid⟩
          | none =>
              match vmidIn pbsCt volume with
              | some vmid => ⟨storage, volume, filename, .guest .lxc, some vmid⟩
              | none => ⟨storage, volume, filename, .unknown, none⟩

example : parseBackupVolid "local:backup/vzdump-qemu-100-2024_01_01.vma.zst" =
    ⟨"local", "backup/vzdump-qemu-100-2024_01_01.vma.zst", "vzdump-qemu-100-2024_01_01.vma.zst",
      .guest .vm, some 100⟩ := by
  decide

example : parseBackupVolid "pbs:backup/ct/90/2024-01-01T00:00:00Z" =
    ⟨"pbs", "backup/ct/90/2024-01-01T00:00:00Z", "2024-01-01T00:00:00Z", .guest .lxc, some 90⟩ := by
  decide

/-! ## Archives and guests -/

/-- What the tests on an archive read of it. -/
structure BackupRef where
  vmid : Option Int
  kind : BackupKind
deriving DecidableEq

/-- `BackupFile`. -/
structure BackupFile extends BackupRef where
  volid : Text
  node : Text
  storage : Text
  size : Int
  ctime : Int
  notes : Option Text
  format : Option Text
deriving DecidableEq

/-- `BackupGuestRef`. -/
structure BackupGuestRef where
  vmid : Int
  kind : GuestKind
deriving DecidableEq

/-- The test of `backupsForGuest`: the archive is one of this guest. -/
def BackupRef.ofGuest (file : BackupRef) (vmid : Int) (kind : GuestKind) : Bool :=
  file.vmid = some vmid && (file.kind = .guest kind || file.kind = .unknown)

def backupsForGuest (files : List BackupFile) (vmid : Int) (kind : GuestKind) : List BackupFile :=
  files.filter fun file => file.ofGuest vmid kind

def isOrphanBackupFile (file : BackupRef) (guests : List BackupGuestRef) : Bool :=
  match file.vmid with
  | none => false
  | some vmid =>
      if vmid ≤ 0 then false
      else
        let live := guests.filter fun g => g.vmid = vmid
        if live.length = 0 then true
        else
          match file.kind with
          | .unknown => false
          | .guest kind => !live.any fun g => g.kind = kind

def orphanBackupFiles (files : List BackupFile) (guests : List BackupGuestRef) : List BackupFile :=
  files.filter fun file => isOrphanBackupFile file.toBackupRef guests

theorem BackupRef.ofGuest_iff {file : BackupRef} {vmid : Int} {kind : GuestKind} :
    file.ofGuest vmid kind = true ↔
      file.vmid = some vmid ∧ (file.kind = .guest kind ∨ file.kind = .unknown) := by
  simp [BackupRef.ofGuest]

/-- An orphan has a positive VMID and belongs to none of the guests. -/
theorem isOrphanBackupFile_iff {file : BackupRef} {guests : List BackupGuestRef} :
    isOrphanBackupFile file guests = true ↔
      (∃ vmid, file.vmid = some vmid ∧ 0 < vmid) ∧
        ∀ g ∈ guests, file.ofGuest g.vmid g.kind = false := by
  obtain ⟨vmid, kind⟩ := file
  cases vmid with
  | none => simp [isOrphanBackupFile]
  | some vmid =>
      by_cases positive : vmid ≤ 0
      · simp [isOrphanBackupFile, positive, Int.not_lt.mpr positive]
      · have above : 0 < vmid := Int.not_le.mp positive
        cases kind with
        | unknown =>
            simp only [isOrphanBackupFile, if_neg positive, List.length_eq_zero_iff,
              List.filter_eq_nil_iff, BackupRef.ofGuest]
            simp [above, eq_comm]
        | guest kind =>
            simp only [isOrphanBackupFile, if_neg positive, List.length_eq_zero_iff,
              BackupRef.ofGuest]
            split
            · rename_i none
              rw [List.filter_eq_nil_iff] at none
              refine iff_of_true rfl ⟨⟨vmid, rfl, above⟩, fun g member => ?_⟩
              have other := none g member
              rw [decide_eq_true_eq] at other
              simp [Ne.symm other]
            · simp only [Bool.not_eq_true', List.any_eq_false, List.mem_filter, decide_eq_true_eq,
                and_imp, Option.some.injEq, exists_eq_left', above, true_and, Bool.and_eq_false_iff]
              grind

/-! ## What a host has -/

/-- `GuestListItem`, as far as the backups go. -/
structure InventoryGuest where
  vmid : Int
  name : Text
  node : Text
  status : Text
deriving DecidableEq

/-- The guests of `ClusterInventory`. -/
structure Inventory where
  vms : List InventoryGuest
  containers : List InventoryGuest

/-- Every guest of the host by kind and VMID. -/
def Inventory.guests (inventory : Inventory) : List BackupGuestRef :=
  inventory.vms.map (fun g => ⟨g.vmid, .vm⟩) ++ inventory.containers.map (fun g => ⟨g.vmid, .lxc⟩)

/-- A row of a storage's content, as the Proxmox API describes it. -/
structure ContentRow where
  volid : Option Text
  storage : Option Text
  vmid : Option Int
  size : Option Int
  ctime : Option Int
  notes : Option Text
  format : Option Text

/-- What `listStorageContentRows` gives for one row. -/
structure StorageRow where
  node : Text
  storage : Text
  row : ContentRow

/-! ## The listings -/

/-- `BackupGuest`. -/
structure BackupGuest extends BackupGuestRef where
  name : Text
  node : Text
  status : Text

def backupGuest (kind : GuestKind) (g : InventoryGuest) : BackupGuest where
  vmid := g.vmid
  kind := kind
  name := g.name
  node := g.node
  status := g.status

/-- The `guests` of `listHostBackups`. -/
def listHostBackupGuests (user : AccessScope) (hostId : String) (inventory : Inventory) :
    List BackupGuest :=
  ((filterGuestsForUser (·.vmid) user hostId .vm inventory.vms).map (backupGuest .vm) ++
    (filterGuestsForUser (·.vmid) user hostId .lxc inventory.containers).map
      (backupGuest .lxc)).insertionSort fun a b => a.vmid ≤ b.vmid

def backupCtimeMs (ctime : Option Int) : Int :=
  match ctime with
  | none => 0
  | some n => if n ≤ 0 then 0 else if n > 10 ^ 12 then n else n * 1000

/-- The entry of one row. -/
def StorageRow.file (source : StorageRow) (volid : Text) : BackupFile :=
  let parsed := parseBackupVolid volid
  { volid := volid
    node := source.node
    storage :=
      if parsed.storage ≠ [] then parsed.storage else source.row.storage.getD source.storage
    vmid := parsed.vmid.or (source.row.vmid.filter (· ≠ 0))
    kind := parsed.kind
    size := source.row.size.getD 0
    ctime := backupCtimeMs source.row.ctime
    notes := presentText source.row.notes
    format := presentText source.row.format }

/-- The loop over the rows, the volume ids seen so far in `seen`. -/
def collectBackupFiles (seen : List Text) : List StorageRow → List BackupFile
  | [] => []
  | source :: rest =>
      let volid := source.row.volid.getD []
      if volid = [] ∨ volid ∈ seen then collectBackupFiles seen rest
      else source.file volid :: collectBackupFiles (volid :: seen) rest

/-- All the archives on the host, the newest first. -/
def hostBackupFiles (rows : List StorageRow) : List BackupFile :=
  (collectBackupFiles [] rows).insertionSort fun a b => b.ctime ≤ a.ctime

/-- The `files` of `listHostBackupFiles`. -/
def listHostBackupFiles (user : AccessScope) (hostId : String) (rows : List StorageRow) :
    List BackupFile :=
  let files := hostBackupFiles rows
  match user.allowedGuests with
  | none => files
  | some guests =>
      let allowedVmids := (guests.filter fun g => g.hostId = hostId).map (·.vmid)
      files.filter fun file => file.vmid.any fun vmid => allowedVmids.contains vmid

/-! ## What the listings show -/

variable {user : AccessScope} {hostId : String}

/-- A guest of the host that the user sees. -/
theorem mem_filterGuestsForUser {kind : GuestKind} {items : List InventoryGuest}
    {item : InventoryGuest} :
    item ∈ filterGuestsForUser (·.vmid) user hostId kind items ↔
      item ∈ items ∧ canAccessGuest user hostId kind item.vmid = true := by
  unfold filterGuestsForUser canAccessGuest
  split
  · simp
  · split
    · simp
    · simp only [List.mem_filter, List.contains_eq_mem, List.mem_map, List.any_eq_true,
        decide_eq_true_eq, Bool.and_eq_true]
      refine and_congr_right fun _ => exists_congr fun g => ?_
      tauto

theorem mem_guests {inventory : Inventory} {g : BackupGuestRef} :
    g ∈ inventory.guests ↔
      (g.kind = .vm ∧ ∃ item ∈ inventory.vms, item.vmid = g.vmid) ∨
        (g.kind = .lxc ∧ ∃ item ∈ inventory.containers, item.vmid = g.vmid) := by
  obtain ⟨vmid, kind⟩ := g
  simp only [Inventory.guests, List.mem_append, List.mem_map, BackupGuestRef.mk.injEq]
  constructor
  · rintro (⟨item, member, rfl, rfl⟩ | ⟨item, member, rfl, rfl⟩)
    · exact .inl ⟨rfl, item, member, rfl⟩
    · exact .inr ⟨rfl, item, member, rfl⟩
  · rintro (⟨rfl, item, member, rfl⟩ | ⟨rfl, item, member, rfl⟩)
    · exact .inl ⟨item, member, rfl, rfl⟩
    · exact .inr ⟨item, member, rfl, rfl⟩

/-- The overview shows the guests of the inventory that the user may touch. -/
theorem mem_listHostBackupGuests {inventory : Inventory} {g : BackupGuestRef} :
    (∃ shown ∈ listHostBackupGuests user hostId inventory, shown.toBackupGuestRef = g) ↔
      g ∈ inventory.guests ∧ canAccessGuest user hostId g.kind g.vmid = true := by
  rw [mem_guests]
  simp only [listHostBackupGuests, List.mem_insertionSort, List.mem_append, List.mem_map,
    mem_filterGuestsForUser]
  obtain ⟨vmid, kind⟩ := g
  constructor
  · rintro ⟨_, ⟨item, ⟨member, access⟩, rfl⟩ | ⟨item, ⟨member, access⟩, rfl⟩, same⟩
    · cases same
      exact ⟨.inl ⟨rfl, item, member, rfl⟩, access⟩
    · cases same
      exact ⟨.inr ⟨rfl, item, member, rfl⟩, access⟩
  · rintro ⟨⟨rfl, item, member, rfl⟩ | ⟨rfl, item, member, rfl⟩, access⟩
    · exact ⟨_, .inl ⟨item, ⟨member, access⟩, rfl⟩, rfl⟩
    · exact ⟨_, .inr ⟨item, ⟨member, access⟩, rfl⟩, rfl⟩

/-- An allow-list names the VMID on the host, whatever the kind. -/
def AccessScope.namesVmid (user : AccessScope) (hostId : String) (vmid : Option Int) : Bool :=
  match user.allowedGuests with
  | none => true
  | some guests => vmid.any fun v => guests.any fun g => g.hostId = hostId && g.vmid = v

/-- The user is shown the archives of the VMIDs named. -/
theorem listHostBackupFiles_eq (rows : List StorageRow) :
    listHostBackupFiles user hostId rows =
      (hostBackupFiles rows).filter fun file => user.namesVmid hostId file.vmid := by
  unfold listHostBackupFiles AccessScope.namesVmid
  cases user.allowedGuests with
  | none => simp
  | some guests =>
      refine List.filter_congr fun file _ => ?_
      cases file.vmid with
      | none => rfl
      | some vmid =>
          rw [Bool.eq_iff_iff]
          simp [and_assoc]

theorem volid_notMem_seen {seen : List Text} {rows : List StorageRow} {file : BackupFile}
    (member : file ∈ collectBackupFiles seen rows) : file.volid ∉ seen := by
  induction rows generalizing seen with
  | nil => cases member
  | cons source rest ih =>
      rw [collectBackupFiles] at member
      split at member
      · exact ih member
      · rename_i fresh
        rcases List.mem_cons.mp member with rfl | later
        · exact fun known => fresh (.inr known)
        · exact fun known => ih later (List.mem_cons_of_mem _ known)

/-- No volume is collected twice. -/
theorem nodup_volids (seen : List Text) (rows : List StorageRow) :
    ((collectBackupFiles seen rows).map (·.volid)).Nodup := by
  induction rows generalizing seen with
  | nil => exact List.nodup_nil
  | cons source rest ih =>
      rw [collectBackupFiles]
      split
      · exact ih seen
      · refine List.nodup_cons.mpr ⟨fun again => ?_, ih _⟩
        obtain ⟨file, member, same⟩ := List.mem_map.mp again
        exact volid_notMem_seen member (same ▸ List.mem_cons_self)

/-- A volume id names one archive of the host. -/
theorem volid_injOn_hostBackupFiles {rows : List StorageRow} {file other : BackupFile}
    (first : file ∈ hostBackupFiles rows) (second : other ∈ hostBackupFiles rows)
    (same : file.volid = other.volid) : file = other := by
  rw [hostBackupFiles, List.mem_insertionSort] at first second
  exact List.inj_on_of_nodup_map (nodup_volids [] rows) first second same

end Proxora
