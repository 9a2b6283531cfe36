import Proxora.Ecma.SlashPattern
import Proxora.Ecma.Url
import Proxora.Permissions
import Proxora.ProxmoxHttp

/-!
# The Proxmox API classes

The classes under `server/proxmox/`, one constructor for each method.  A path is
kept as the parts of its template: a fixed word, an argument that goes through
`encodeURIComponent`, or a number.
-/

namespace Proxora

open Ecma

/-- A word a template can hold: it is sent as it is and is no dot segment. -/
def isTemplateWord (w : Text) : Bool := w.all uriEncoded && !isDots w

/-- One segment of a path template. -/
inductive PathPart : Type
  | lit (w : String) (word : isTemplateWord w = true := by decide)
  | arg (a : Text)
  | num (n : Nat)

/-- The segment as it is written into the path. -/
def PathPart.text : PathPart → Text
  | .lit w _ => w
  | .arg a => encodeURIComponent a
  | .num n => toString n

/-- The path a template gives. -/
def renderPath (parts : List PathPart) : Text := slashText (parts.map PathPart.text)

/-- A call of an API class, its path as a template. -/
inductive ApiCall : Type
  | get (parts : List PathPart) (query : Option (Record Value))
  | post (parts : List PathPart) (body query : Option (Record Value))
  | put (parts : List PathPart) (body query : Option (Record Value))
  | del (parts : List PathPart) (query : Option (Record Value))

def ApiCall.parts : ApiCall → List PathPart
  | .get parts _ => parts
  | .post parts _ _ => parts
  | .put parts _ _ => parts
  | .del parts _ => parts

/-- The call handed to `ProxmoxHttpClient`. -/
def ApiCall.http : ApiCall → HttpCall
  | .get parts query => .get (renderPath parts) query
  | .post parts body query => .post (renderPath parts) body query
  | .put parts body query => .put (renderPath parts) body query
  | .del parts query => .del (renderPath parts) query

theorem ApiCall.http_path (call : ApiCall) : call.http.path = renderPath call.parts := by
  cases call <;> rfl

/-- `/nodes/${encodeURIComponent(node)}/…`. -/
def nodeParts (node : Text) (rest : List PathPart) : List PathPart :=
  .lit "nodes" :: .arg node :: rest

/-- `qemu` for a VM, `lxc` for a container. -/
def GuestKind.part (kind : GuestKind) : PathPart := kind.pick (.lit "qemu") (.lit "lxc")

/-- `/nodes/${encodeURIComponent(node)}/qemu/${vmid}/…`, or `lxc`. -/
def guestParts (kind : GuestKind) (node : Text) (vmid : Nat) (rest : List PathPart) :
    List PathPart :=
  nodeParts node (kind.part :: .num vmid :: rest)

/-- An object literal as a body or a query. -/
def literal (entries : List (Text × Value)) : Option (Record Value) := some (Record.ofList entries)

/-- An optional string as a value. -/
def optText : Option Text → Value
  | some s => .str s
  | none => .undefined

/-- `compactProxmoxBody` of `lib/lxc-net.ts`. -/
def compactProxmoxBody (body : Record Value) : Record Value :=
  body.filter fun v => !v.isBlank

/-- A parameter as Proxmox gets it, empty when it is not sent. -/
def paramText (params : Record Value) (key : Text) : Text :=
  let v := params.get key
  if v.isNullish then [] else v.toText

/-- Leaving blank parameters out does not change what Proxmox reads. -/
theorem paramText_compact (body : Record Value) (key : Text) :
    paramText (compactProxmoxBody body) key = paramText body key := by
  unfold paramText compactProxmoxBody
  rw [Record.get_filter]
  cases body.get key with
  | str s => cases s <;> rfl
  | _ => rfl

/-! ## Guests -/

/-- The methods that `VmApi` and `LxcApi` share. -/
inductive GuestApi : Type
  | list (node : Text)
  | status (node : Text) (vmid : Nat)
  | config (node : Text) (vmid : Nat)
  | updateConfig (node : Text) (vmid : Nat) (body : Record Value)
  | create (node : Text) (params : Record Value)
  | start (node : Text) (vmid : Nat)
  | stop (node : Text) (vmid : Nat)
  | shutdown (node : Text) (vmid : Nat)
  | reboot (node : Text) (vmid : Nat)
  | delete (node : Text) (vmid : Nat) (purge : Bool)
  | clone (node : Text) (vmid : Nat) (params : Record Value)
  | migrate (node : Text) (vmid : Nat) (params : Record Value)
  | snapshots (node : Text) (vmid : Nat)
  | createSnapshot (node : Text) (vmid : Nat) (snapname : Text) (description : Option Text)
  | deleteSnapshot (node : Text) (vmid : Nat) (snapname : Text)
  | rollbackSnapshot (node : Text) (vmid : Nat) (snapname : Text)
  | resize (node : Text) (vmid : Nat) (disk size : Text)
  | termproxy (node : Text) (vmid : Nat)

/-- The call of a shared method; the two classes differ in `qemu` and `lxc`. -/
def GuestApi.call (kind : GuestKind) : GuestApi → ApiCall
  | .list node => .get (nodeParts node [kind.part]) none
  | .status node vmid => .get (guestParts kind node vmid [.lit "status", .lit "current"]) none
  | .config node vmid => .get (guestParts kind node vmid [.lit "config"]) none
  | .updateConfig node vmid body => .put (guestParts kind node vmid [.lit "config"]) (some body) none
  | .create node params => .post (nodeParts node [kind.part]) (some params) none
  | .start node vmid => .post (guestParts kind node vmid [.lit "status", .lit "start"]) none none
  | .stop node vmid => .post (guestParts kind node vmid [.lit "status", .lit "stop"]) none none
  | .shutdown node vmid =>
      .post (guestParts kind node vmid [.lit "status", .lit "shutdown"]) none none
  | .reboot node vmid => .post (guestParts kind node vmid [.lit "status", .lit "reboot"]) none none
  | .delete node vmid purge =>
      .del (guestParts kind node vmid []) (literal [("purge", .nat (if purge then 1 else 0))])
  | .clone node vmid params => .post (guestParts kind node vmid [.lit "clone"]) (some params) none
  | .migrate node vmid params =>
      .post (guestParts kind node vmid [.lit "migrate"]) (some params) none
  | .snapshots node vmid => .get (guestParts kind node vmid [.lit "snapshot"]) none
  | .createSnapshot node vmid snapname description =>
      .post (guestParts kind node vmid [.lit "snapshot"])
        (literal [("snapname", .str snapname), ("description", optText description)]) none
  | .deleteSnapshot node vmid snapname =>
      .del (guestParts kind node vmid [.lit "snapshot", .arg snapname]) none
  | .rollbackSnapshot node vmid snapname =>
      .post (guestParts kind node vmid [.lit "snapshot", .arg snapname, .lit "rollback"]) none none
  | .resize node vmid disk size =>
      .put (guestParts kind node vmid [.lit "resize"])
        (literal [("disk", .str disk), ("size", .str size)]) none
  | .termproxy node vmid => .post (guestParts kind node vmid [.lit "termproxy"]) none none

/-- The methods that only `VmApi` has. -/
inductive VmApi : Type
  | sendkey (node : Text) (vmid : Nat) (key : Text)
  | reset (node : Text) (vmid : Nat)
  | suspend (node : Text) (vmid : Nat)
  | resume (node : Text) (vmid : Nat)
  | agentFsInfo (node : Text) (vmid : Nat)
  | agentNetworkInterfaces (node : Text) (vmid : Nat)
  | agentFileRead (node : Text) (vmid : Nat) (file : Text)
  | agentFileWrite (node : Text) (vmid : Nat) (file contentBase64 : Text)
  | agentExec (node : Text) (vmid : Nat) (command : List Text)
  | agentExecStatus (node : Text) (vmid pid : Nat)
  | vncproxy (node : Text) (vmid : Nat) (extra : List (Text × Value))
  | spiceproxy (node : Text) (vmid : Nat)

def VmApi.call : VmApi → ApiCall
  | .sendkey node vmid key =>
      .put (guestParts .vm node vmid [.lit "sendkey"]) (literal [("key", .str key)]) none
  | .reset node vmid => .post (guestParts .vm node vmid [.lit "status", .lit "reset"]) none none
  | .suspend node vmid => .post (guestParts .vm node vmid [.lit "status", .lit "suspend"]) none none
  | .resume node vmid => .post (guestParts .vm node vmid [.lit "status", .lit "resume"]) none none
  | .agentFsInfo node vmid => .get (guestParts .vm node vmid [.lit "agent", .lit "get-fsinfo"]) none
  | .agentNetworkInterfaces node vmid =>
      .get (guestParts .vm node vmid [.lit "agent", .lit "network-get-interfaces"]) none
  | .agentFileRead node vmid file =>
      .get (guestParts .vm node vmid [.lit "agent", .lit "file-read"])
        (literal [("file", .str file)])
  | .agentFileWrite node vmid file contentBase64 =>
      .post (guestParts .vm node vmid [.lit "agent", .lit "file-write"])
        (literal [("file", .str file), ("content", .str contentBase64)]) none
  | .agentExec node vmid command =>
      .post (guestParts .vm node vmid [.lit "agent", .lit "exec"])
        (literal [("command", .arr (command.map .str))]) none
  | .agentExecStatus node vmid pid =>
      .get (guestParts .vm node vmid [.lit "agent", .lit "exec-status"]) (literal [("pid", .nat pid)])
  | .vncproxy node vmid extra =>
      .post (guestParts .vm node vmid [.lit "vncproxy"])
        (some ((Record.ofList [("websocket", .nat 1)]).assign extra)) none
  | .spiceproxy node vmid => .post (guestParts .vm node vmid [.lit "spiceproxy"]) none none

/-- `LxcApi.interfaces`, the method that only `LxcApi` has. -/
def lxcInterfaces (node : Text) (vmid : Nat) : ApiCall :=
  .get (guestParts .lxc node vmid [.lit "interfaces"]) none

/-! ## Storage -/

inductive StorageApi : Type
  | list (node : Option Text)
  | status (node storage : Text)
  | content (node storage : Text) (content : Option Text)
  | deleteContent (node storage volume : Text)
  | downloadUrl (node storage content url filename : Text)

/-- `if (node)`: a present, non-empty string. -/
def presentText (s : Option Text) : Option Text := s.filter (· ≠ [])

def StorageApi.call : StorageApi → ApiCall
  | .list node =>
      match presentText node with
      | some node => .get (nodeParts node [.lit "storage"]) none
      | none => .get [.lit "storage"] none
  | .status node storage =>
      .get (nodeParts node [.lit "storage", .arg storage, .lit "status"]) none
  | .content node storage kind =>
      .get (nodeParts node [.lit "storage", .arg storage, .lit "content"])
        ((presentText kind).bind fun kind => literal [("content", .str kind)])
  | .deleteContent node storage volume =>
      .del (nodeParts node [.lit "storage", .arg storage, .lit "content", .arg volume]) none
  | .downloadUrl node storage kind url filename =>
      .post (nodeParts node [.lit "storage", .arg storage, .lit "download-url"])
        (literal [("content", .str kind), ("url", .str url), ("filename", .str filename)]) none

inductive ZfsApi : Type
  | pools (node : Text)
  | poolDetail (node name : Text)
  | disks (node : Text)

def ZfsApi.call : ZfsApi → ApiCall
  | .pools node => .get (nodeParts node [.lit "disks", .lit "zfs"]) none
  | .poolDetail node name => .get (nodeParts node [.lit "disks", .lit "zfs", .arg name]) none
  | .disks node => .get (nodeParts node [.lit "disks", .lit "list"]) none

/-! ## Nodes, tasks and updates -/

inductive NodeApi : Type
  | list
  | status (node : Text)
  | cpuTemperature (node : Text)
  | reboot (node : Text)
  | shutdown (node : Text)
  | version (node : Text)
  | dns (node : Text)
  | network (node : Text)
  | time (node : Text)
  | termproxy (node : Text) (extra : Option (Record Value))
  | clusterStatus
  | nextId
  | aplinfo (node : Text)
  | downloadAppliance (node storage template : Text)

def NodeApi.call : NodeApi → ApiCall
  | .list => .get [.lit "nodes"] none
  | .status node => .get (nodeParts node [.lit "status"]) none
  | .cpuTemperature node =>
      .get (nodeParts node [.lit "hardware", .lit "sensors", .lit "temperature", .lit "cpu"]) none
  | .reboot node =>
      .post (nodeParts node [.lit "status"]) (literal [("command", .str "reboot")]) none
  | .shutdown node =>
      .post (nodeParts node [.lit "status"]) (literal [("command", .str "shutdown")]) none
  | .version node => .get (nodeParts node [.lit "version"]) none
  | .dns node => .get (nodeParts node [.lit "dns"]) none
  | .network node => .get (nodeParts node [.lit "network"]) none
  | .time node => .get (nodeParts node [.lit "time"]) none
  | .termproxy node extra => .post (nodeParts node [.lit "termproxy"]) extra none
  | .clusterStatus => .get [.lit "cluster", .lit "status"] none
  | .nextId => .get [.lit "cluster", .lit "nextid"] none
  | .aplinfo node => .get (nodeParts node [.lit "aplinfo"]) none
  | .downloadAppliance node storage template =>
      .post (nodeParts node [.lit "aplinfo"])
        (literal [("storage", .str storage), ("template", .str template)]) none

inductive TaskApi : Type
  | list (node : Text) (extra : Option (Record Value))
  | status (node upid : Text)
  | log (node upid : Text) (start limit : Nat)
  | stop (node upid : Text)

def TaskApi.call : TaskApi → ApiCall
  | .list node extra => .get (nodeParts node [.lit "tasks"]) extra
  | .status node upid => .get (nodeParts node [.lit "tasks", .arg upid, .lit "status"]) none
  | .log node upid start limit =>
      .get (nodeParts node [.lit "tasks", .arg upid, .lit "log"])
        (literal [("start", .nat start), ("limit", .nat limit)])
  | .stop node upid => .del (nodeParts node [.lit "tasks", .arg upid]) none

inductive UpdateApi : Type
  | list (node : Text)
  | refresh (node : Text)
  | changelog (node name : Text)
  | version (node : Text)

def UpdateApi.call : UpdateApi → ApiCall
  | .list node => .get (nodeParts node [.lit "apt", .lit "update"]) none
  | .refresh node =>
      .post (nodeParts node [.lit "apt", .lit "update"]) (literal [("quiet", .nat 1)]) none
  | .changelog node name =>
      .get (nodeParts node [.lit "apt", .lit "changelog"]) (literal [("name", .str name)])
  | .version node => .get (nodeParts node [.lit "apt", .lit "versions"]) none

/-! ## The cluster -/

inductive ClusterApi : Type
  | status
  | resources (type : Option Text)
  | nextId
  | options

def ClusterApi.call : ClusterApi → ApiCall
  | .status => .get [.lit "cluster", .lit "status"] none
  | .resources type =>
      .get [.lit "cluster", .lit "resources"]
        ((presentText type).bind fun type => literal [("type", .str type)])
  | .nextId => .get [.lit "cluster", .lit "nextid"] none
  | .options => .get [.lit "cluster", .lit "options"] none

inductive BackupApi : Type
  | jobs
  | createJob (params : Record Value)
  | updateJob (id : Text) (params : Record Value)
  | deleteJob (id : Text)
  | start (node : Text) (params : Record Value)
  | restoreVm (node : Text) (params : Record Value)
  | restoreLxc (node : Text) (params : Record Value)

def BackupApi.call : BackupApi → ApiCall
  | .jobs => .get [.lit "cluster", .lit "backup"] none
  | .createJob params => .post [.lit "cluster", .lit "backup"] (some params) none
  | .updateJob id params => .put [.lit "cluster", .lit "backup", .arg id] (some params) none
  | .deleteJob id => .del [.lit "cluster", .lit "backup", .arg id] none
  | .start node params => .post (nodeParts node [.lit "vzdump"]) (some params) none
  | .restoreVm node params => .post (nodeParts node [.lit "qemu"]) (some params) none
  | .restoreLxc node params => .post (nodeParts node [.lit "lxc"]) (some params) none

inductive HaApi : Type
  | resources
  | groups
  | get (sid : Text)
  | create (body : Record Value)
  | update (sid : Text) (body : Record Value)
  | delete (sid : Text)

def HaApi.call : HaApi → ApiCall
  | .resources => .get [.lit "cluster", .lit "ha", .lit "resources"] none
  | .groups => .get [.lit "cluster", .lit "ha", .lit "groups"] none
  | .get sid => .get [.lit "cluster", .lit "ha", .lit "resources", .arg sid] none
  | .create body => .post [.lit "cluster", .lit "ha", .lit "resources"] (some body) none
  | .update sid body => .put [.lit "cluster", .lit "ha", .lit "resources", .arg sid] (some body) none
  | .delete sid => .del [.lit "cluster", .lit "ha", .lit "resources", .arg sid] none

/-- `ReplicationApi.list`. -/
def replicationList : ApiCall := .get [.lit "cluster", .lit "replication"] none

inductive GuestFirewallApi : Type
  | options (kind : GuestKind) (node : Text) (vmid : Nat)
  | setOptions (kind : GuestKind) (node : Text) (vmid : Nat) (body : Record Value)
  | rules (kind : GuestKind) (node : Text) (vmid : Nat)
  | createRule (kind : GuestKind) (node : Text) (vmid : Nat) (body : Record Value)
  | deleteRule (kind : GuestKind) (node : Text) (vmid pos : Nat)

/-- `GuestFirewallApi.prefix`, and what follows it. -/
def firewallParts (kind : GuestKind) (node : Text) (vmid : Nat) (rest : List PathPart) :
    List PathPart :=
  guestParts kind node vmid (.lit "firewall" :: rest)

def GuestFirewallApi.call : GuestFirewallApi → ApiCall
  | .options kind node vmid => .get (firewallParts kind node vmid [.lit "options"]) none
  | .setOptions kind node vmid body =>
      .put (firewallParts kind node vmid [.lit "options"]) (some body) none
  | .rules kind node vmid => .get (firewallParts kind node vmid [.lit "rules"]) none
  | .createRule kind node vmid body =>
      .post (firewallParts kind node vmid [.lit "rules"]) (some body) none
  | .deleteRule kind node vmid pos =>
      .del (firewallParts kind node vmid [.lit "rules", .num pos]) none

/-! ## The client -/

/-- A method call on `ProxmoxClient`. -/
inductive ClientCall : Type
  | version
  | permissions
  | guest (kind : GuestKind) (method : GuestApi)
  | vm (method : VmApi)
  | lxcInterfaces (node : Text) (vmid : Nat)
  | storage (method : StorageApi)
  | zfs (method : ZfsApi)
  | nodes (method : NodeApi)
  | tasks (method : TaskApi)
  | updates (method : UpdateApi)
  | cluster (method : ClusterApi)
  | backup (method : BackupApi)
  | ha (method : HaApi)
  | replicationList
  | firewall (method : GuestFirewallApi)

def ClientCall.call : ClientCall → ApiCall
  | .version => .get [.lit "version"] none
  | .permissions => .get [.lit "access", .lit "permissions"] none
  | .guest kind method => method.call kind
  | .vm method => method.call
  | .lxcInterfaces node vmid => Proxora.lxcInterfaces node vmid
  | .storage method => method.call
  | .zfs method => method.call
  | .nodes method => method.call
  | .tasks method => method.call
  | .updates method => method.call
  | .cluster method => method.call
  | .backup method => method.call
  | .ha method => method.call
  | .replicationList => Proxora.replicationList
  | .firewall method => method.call

theorem ClientCall.parts_ne_nil (client : ClientCall) : client.call.parts ≠ [] := by
  cases client with
  | storage method =>
      cases method with
      | list node =>
          simp only [ClientCall.call, StorageApi.call]
          split <;> exact List.cons_ne_nil _ _
      | _ => exact List.cons_ne_nil _ _
  | version | permissions | lxcInterfaces | replicationList => exact List.cons_ne_nil _ _
  | guest kind method => cases method <;> exact List.cons_ne_nil _ _
  | vm method | zfs method | nodes method | tasks method | updates method | cluster method
  | backup method | ha method | firewall method => cases method <;> exact List.cons_ne_nil _ _

/-- A template starts with a slash. -/
theorem startsWith_renderPath {parts : List PathPart} (some : parts ≠ []) :
    startsWith (renderPath parts) "/" = true := by
  obtain ⟨part, rest, rfl⟩ := List.exists_cons_of_ne_nil some
  rfl

end Proxora
