import Proxora.Ecma.Text
import Proxora.ReadModifyWrite

/-!
# Networks of guests

The setting `guest-ip` with `parseGuestIpNetworks` and `parseGuestIpSettings` of
`lib/create-ip.ts`, and `cachePeerHostNetworks` and `forgetPeerHostNetworks` of
`server/services/guest-ip-settings.ts`. Both load the setting, change some hosts and save the
whole setting again; `networksForHostId` and the sync of a peer's hosts start any number of
them.

`keeps_updates` says that no update is lost when no other call saves between the load and the
save of a call, other than to the hosts that this call writes.
-/

namespace Proxora

open Ecma Runs ReadModifyWrite

/-! ## The setting -/

/-- Four numbers up to 255 of at most three digits, apart by dots. -/
def isIpv4 (value : Text) : Bool :=
  match split '.' (trim value) with
  | [a, b, c, d] => [a, b, c, d].all fun part =>
      part ≠ [] && part.length ≤ 3 && part.all Char.isDigit && numberOfDigits part ≤ 255
  | _ => false

/-- A network that passed `parseGuestIpNetworks`. -/
@[ext]
structure GuestIpNetwork where
  id : Text
  prefixLength : Int
  gateway : Text
  id_ipv4 : trim id = id ∧ isIpv4 id = true
  prefix_bounds : 8 ≤ prefixLength ∧ prefixLength ≤ 32
  gateway_ipv4 : trim gateway = gateway ∧ isIpv4 gateway = true
deriving DecidableEq

/-- An item as it comes in; the prefix is none where it is no whole number, and 24 where it is
missing. -/
structure GuestIpRecord where
  id : Text
  prefixLength : Option Int
  gateway : Text

/-- One pass of `parseGuestIpNetworks`. -/
def GuestIpRecord.parse (item : GuestIpRecord) : Option GuestIpNetwork :=
  match item.prefixLength with
  | some n =>
      if holds : isIpv4 (trim item.id) = true ∧ isIpv4 (trim item.gateway) = true ∧
          8 ≤ n ∧ n ≤ 32 then
        some ⟨trim item.id, n, trim item.gateway, ⟨trim_trim _, holds.1⟩, holds.2.2,
          ⟨trim_trim _, holds.2.1⟩⟩
      else none
  | none => none

def parseGuestIpNetworks (value : List GuestIpRecord) : List GuestIpNetwork :=
  value.filterMap GuestIpRecord.parse

/-- A network as it is stored. -/
def GuestIpNetwork.record (network : GuestIpNetwork) : GuestIpRecord :=
  ⟨network.id, some network.prefixLength, network.gateway⟩

/-- Networks for all hosts and for single ones; no list is empty. -/
@[ext]
structure GuestIpSettings where
  defaults : List GuestIpNetwork
  byHost : Text → Option (List GuestIpNetwork)
  some_default : defaults ≠ []
  some_network : ∀ host nets, byHost host = some nets → nets ≠ []

/-- The stored value of the setting; a missing row is one without entries. -/
structure GuestIpDocument where
  defaults : List GuestIpRecord
  byHost : Text → Option (List GuestIpRecord)

/-- `GUEST_IP_NETWORKS`. -/
def guestIpNetworks : List GuestIpNetwork :=
  [⟨"192.168.178.0", 24, "192.168.178.1", by decide, by decide, by decide⟩,
    ⟨"192.168.1.0", 24, "192.168.1.1", by decide, by decide, by decide⟩,
    ⟨"192.168.2.0", 24, "192.168.2.1", by decide, by decide, by decide⟩]

/-- A list, or none where it is empty. -/
def someNetworks (nets : List GuestIpNetwork) : Option (List GuestIpNetwork) :=
  if nets = [] then none else some nets

theorem someNetworks_eq_some {nets other : List GuestIpNetwork}
    (given : someNetworks nets = some other) : other ≠ [] ∧ nets = other := by
  unfold someNetworks at given
  split at given
  · cases given
  · rename_i proper
    cases given
    exact ⟨proper, rfl⟩

def parseGuestIpSettings (value : GuestIpDocument) : GuestIpSettings where
  defaults := (someNetworks (parseGuestIpNetworks value.defaults)).getD guestIpNetworks
  byHost := fun host =>
    (value.byHost host).bind fun list => someNetworks (parseGuestIpNetworks list)
  some_default := by
    cases given : someNetworks (parseGuestIpNetworks value.defaults) with
    | none => exact List.cons_ne_nil _ _
    | some nets => exact (someNetworks_eq_some given).1
  some_network := by
    intro host nets given
    obtain ⟨list, -, given⟩ := Option.bind_eq_some_iff.mp given
    exact (someNetworks_eq_some given).1

/-- The settings as they are saved. -/
def GuestIpSettings.document (settings : GuestIpSettings) : GuestIpDocument where
  defaults := settings.defaults.map GuestIpNetwork.record
  byHost := fun host => (settings.byHost host).map fun nets => nets.map GuestIpNetwork.record

/-- A stored network passes. -/
theorem parse_record (network : GuestIpNetwork) : network.record.parse = some network := by
  obtain ⟨id, n, gateway, ⟨trimmed, ipv4⟩, bounds, ⟨trimmed', ipv4'⟩⟩ := network
  have holds : isIpv4 (trim id) = true ∧ isIpv4 (trim gateway) = true ∧ 8 ≤ n ∧ n ≤ 32 :=
    ⟨by rwa [trimmed], by rwa [trimmed'], bounds⟩
  exact (dif_pos holds).trans (congrArg some (GuestIpNetwork.ext trimmed rfl trimmed'))

theorem parseGuestIpNetworks_records (nets : List GuestIpNetwork) :
    parseGuestIpNetworks (nets.map GuestIpNetwork.record) = nets := by
  induction nets with
  | nil => rfl
  | cons network nets ih =>
      rw [List.map_cons, parseGuestIpNetworks, List.filterMap_cons, parse_record]
      exact congrArg (network :: ·) ih

/-- What is saved is loaded again. -/
theorem parse_document (settings : GuestIpSettings) :
    parseGuestIpSettings settings.document = settings := by
  ext1
  · simp only [parseGuestIpSettings, GuestIpSettings.document, parseGuestIpNetworks_records]
    rw [someNetworks, if_neg settings.some_default]
    rfl
  · funext host
    simp only [parseGuestIpSettings, GuestIpSettings.document]
    cases held : settings.byHost host with
    | none => rfl
    | some nets =>
        rw [Option.map_some, Option.bind_some, parseGuestIpNetworks_records, someNetworks,
          if_neg (settings.some_network host nets held)]

/-! ## The calls -/

/-- What a call does to the settings, once its first checks let it load them. -/
inductive PeerNetworksJob : Type
  | cache (host : Text) (nets : List GuestIpNetwork) (some_network : nets ≠ [])
  | forget (hosts : List Text)

/-- The job of `cachePeerHostNetworks`; none without valid networks. -/
def cachePeerHostNetworks (localHostId : Text) (networks : List GuestIpRecord) :
    Option PeerNetworksJob :=
  if some_network : parseGuestIpNetworks networks ≠ [] then
    some (.cache localHostId (parseGuestIpNetworks networks) some_network)
  else none

/-- The job of `forgetPeerHostNetworks`; none without hosts. -/
def forgetPeerHostNetworks (localHostIds : List Text) : Option PeerNetworksJob :=
  if localHostIds = [] then none else some (.forget localHostIds)

namespace PeerNetworksJob

/-- The job writes the entry of this host. -/
def Touches (host : Text) : PeerNetworksJob → Prop
  | cache other _ _ => host = other
  | forget hosts => host ∈ hosts

instance (host : Text) : DecidablePred (Touches host)
  | cache other _ _ => inferInstanceAs (Decidable (host = other))
  | forget hosts => inferInstanceAs (Decidable (host ∈ hosts))

/-- The entry that the job leaves for a host that it writes. -/
def entry : PeerNetworksJob → Option (List GuestIpNetwork)
  | cache _ nets _ => some nets
  | forget _ => none

/-- The settings that are saved, from those that were loaded. -/
def apply (job : PeerNetworksJob) (settings : GuestIpSettings) : GuestIpSettings where
  defaults := settings.defaults
  byHost := fun host => if job.Touches host then job.entry else settings.byHost host
  some_default := settings.some_default
  some_network := by
    intro host nets given
    split at given
    · cases job with
      | cache _ _ proper =>
          cases given
          exact proper
      | forget _ => cases given
    · exact settings.some_network host nets given

/-- There is nothing to save: the networks are the same, or no host has an entry. -/
def skips : PeerNetworksJob → GuestIpSettings → Bool
  | cache host nets _, settings => settings.byHost host = some nets
  | forget hosts, settings => hosts.all fun host => settings.byHost host = none

theorem apply_of_skips (job : PeerNetworksJob) (settings : GuestIpSettings)
    (skipped : job.skips settings = true) : job.apply settings = settings := by
  ext1
  · rfl
  · funext host
    simp only [apply]
    split
    · rename_i touched
      cases job with
      | cache other nets _ =>
          rw [show host = other from touched]
          exact (of_decide_eq_true skipped).symm
      | forget hosts => exact (of_decide_eq_true (List.all_eq_true.mp skipped host touched)).symm
    · rfl

end PeerNetworksJob

/-! ## Runs -/

abbrev PeerNetworks := System GuestIpDocument GuestIpSettings PeerNetworksJob

namespace PeerNetworks

def step : PeerNetworks → Event PeerNetworksJob → Option PeerNetworks :=
  System.step parseGuestIpSettings GuestIpSettings.document PeerNetworksJob.apply
    PeerNetworksJob.skips

/-- Every host has the entry of the last job that wrote it, a host that no job wrote the one it
had, and the networks for all hosts are as they were. -/
structure KeepsUpdates (first : GuestIpSettings) (s : PeerNetworks) : Prop where
  cached : ∀ before host nets proper later, s.log = before ++ .cache host nets proper :: later →
    (∀ job ∈ later, ¬job.Touches host) → (parseGuestIpSettings s.row).byHost host = some nets
  forgotten : ∀ before hosts later host, s.log = before ++ .forget hosts :: later →
    host ∈ hosts → (∀ job ∈ later, ¬job.Touches host) →
    (parseGuestIpSettings s.row).byHost host = none
  others : ∀ host, (∀ job ∈ s.log, ¬job.Touches host) →
    (parseGuestIpSettings s.row).byHost host = first.byHost host
  globals : (parseGuestIpSettings s.row).defaults = first.defaults

/-- A call that saves finds the networks for all hosts and the hosts that it does not write as
it loaded them. -/
def Undisturbed (s : PeerNetworks) : Event PeerNetworksJob → Prop
  | .save call => ∀ job loaded, s.calls call = some (job, .saving loaded) →
      loaded.defaults = (parseGuestIpSettings s.row).defaults ∧
        ∀ host, ¬job.Touches host → loaded.byHost host = (parseGuestIpSettings s.row).byHost host
  | _ => True

variable {s t : PeerNetworks} {first : GuestIpSettings} {e : Event PeerNetworksJob}

theorem Undisturbed.fresh (undisturbed : s.Undisturbed e) :
    s.Fresh parseGuestIpSettings PeerNetworksJob.apply e := by
  cases e with
  | save call =>
      intro job loaded held
      obtain ⟨globals, others⟩ := undisturbed job loaded held
      ext1
      · exact globals
      · funext host
        simp only [PeerNetworksJob.apply]
        split
        · rfl
        · rename_i untouched
          exact others host untouched
  | begin _ | load _ | fail _ => trivial

/-- The entry that a list of jobs leaves. -/
theorem byHost_foldl_of_untouched {jobs : List PeerNetworksJob} {host : Text}
    {settings : GuestIpSettings} (untouched : ∀ job ∈ jobs, ¬job.Touches host) :
    (jobs.foldl (fun doc job => job.apply doc) settings).byHost host = settings.byHost host := by
  induction jobs generalizing settings with
  | nil => rfl
  | cons job jobs ih =>
      rw [List.foldl_cons, ih fun other member => untouched other (List.mem_cons_of_mem job member)]
      exact if_neg (untouched job List.mem_cons_self)

theorem byHost_foldl_of_last {before later : List PeerNetworksJob} {job : PeerNetworksJob}
    {host : Text} {settings : GuestIpSettings} (touched : job.Touches host)
    (untouched : ∀ other ∈ later, ¬other.Touches host) :
    ((before ++ job :: later).foldl (fun doc job => job.apply doc) settings).byHost host =
      job.entry := by
  rw [List.foldl_append, List.foldl_cons, byHost_foldl_of_untouched untouched]
  exact if_pos touched

theorem defaults_foldl (jobs : List PeerNetworksJob) (settings : GuestIpSettings) :
    (jobs.foldl (fun doc job => job.apply doc) settings).defaults = settings.defaults := by
  induction jobs generalizing settings with
  | nil => rfl
  | cons job jobs ih => exact ih (job.apply settings)

theorem keepsUpdates_of_serial
    (serial : s.Serial parseGuestIpSettings PeerNetworksJob.apply first) :
    s.KeepsUpdates first where
  cached := by
    intro before host nets proper later form untouched
    rw [serial, form]
    exact byHost_foldl_of_last rfl untouched
  forgotten := by
    intro before hosts later host form member untouched
    rw [serial, form]
    exact byHost_foldl_of_last member untouched
  others := by
    intro host untouched
    rw [serial]
    exact byHost_foldl_of_untouched untouched
  globals := by
    rw [serial]
    exact defaults_foldl s.log first

/-- In a run in which every call that saves finds what it loaded, no update is lost. -/
theorem keeps_updates (row : GuestIpDocument)
    (run : Reaches step Undisturbed (idle row) t) :
    t.KeepsUpdates (parseGuestIpSettings row) := by
  refine keepsUpdates_of_serial (@Reaches.keeps _ _ _ _ _ _ (fun s =>
    System.Serial parseGuestIpSettings PeerNetworksJob.apply (parseGuestIpSettings row) s) run rfl ?_)
  intro s e u serial undisturbed happens
  exact serial.step parse_document PeerNetworksJob.apply_of_skips undisturbed.fresh happens

/-- A setting without entries. -/
def noNetworks : GuestIpDocument := ⟨[], fun _ => none⟩

def oneNetwork : List GuestIpNetwork := guestIpNetworks.take 1

def cacheFor (host : Text) : PeerNetworksJob := .cache host oneNetwork (List.cons_ne_nil _ _)

theorem keeps_updates_one_by_one :
    ∃ t : PeerNetworks, Reaches step Undisturbed (idle noNetworks) t ∧
      t.log = [cacheFor "a", .forget ["b"]] ∧
      t.KeepsUpdates (parseGuestIpSettings noNetworks) := by
  have loaded : Reaches step Undisturbed (idle noNetworks) _ :=
    (Reaches.start.next (e := .begin (cacheFor "a")) trivial rfl).next (e := .load 0) trivial rfl
  have saved := loaded.next (e := Event.save 0)
    (by
      intro job settings held
      cases held
      exact ⟨rfl, fun _ _ => rfl⟩)
    rfl
  have begun := saved.next (e := Event.begin (PeerNetworksJob.forget [("b" : Text)])) trivial rfl
  have done := begun.next (e := Event.load 1) trivial rfl
  exact ⟨_, done, rfl, keeps_updates noNetworks done⟩

/-- Two calls for different hosts load before either saves: the networks of the first are lost. -/
theorem overlapping_calls_lose_networks :
    ¬∀ t : PeerNetworks, Reaches step Unrestricted (idle noNetworks) t →
      (∀ call job stage, t.calls call = some (job, stage) → stage = .finished) →
      t.KeepsUpdates (parseGuestIpSettings noNetworks) := by
  intro keeps
  have run := @reaches_of_exec _ _ step (idle noNetworks) _
    [.begin (cacheFor "a"), .begin (cacheFor "b"), .load 0, .load 1, .save 0, .save 1] rfl
  have kept := keeps _ run ?_
  · have cached := kept.cached [] "a" oneNetwork (List.cons_ne_nil _ _) [cacheFor "b"] rfl
      (by
        intro job member
        obtain rfl := List.mem_singleton.mp member
        decide)
    revert cached
    decide
  · intro call job stage held
    rcases update_eq_some held with ⟨-, rest⟩ | ⟨other, held⟩
    · exact (Prod.mk.inj rest).2
    · rcases update_eq_some held with ⟨-, rest⟩ | ⟨others, held⟩
      · exact (Prod.mk.inj rest).2
      · rcases update_eq_some held with ⟨same, -⟩ | ⟨-, held⟩
        · exact absurd same other
        · rcases update_eq_some held with ⟨same, -⟩ | ⟨-, held⟩
          · exact absurd same others
          · rcases update_eq_some held with ⟨same, -⟩ | ⟨-, held⟩
            · exact absurd same other
            · rcases update_eq_some held with ⟨same, -⟩ | ⟨-, held⟩
              · exact absurd same others
              · cases held

end PeerNetworks

end Proxora
