import Proxora.FederationAccess

/-!
# Read-only shares

What a share of level `view` admits besides reads.  Every rule of
`federationPermission` names a permission for writes of its own, except the
ones that `readDefault` collects: they answer with a view permission without
asking whether the method reads.

* `federationRule_list_view` decides, for a method that does not read, when the
  needed permission is a view permission.
* `writes_need_more_iff` carries this to the share check.
-/

namespace Proxora

open Ecma

/-! ## The rules that do not look at the method -/

/-- The node's own power endpoints, `…/status/reboot` and `…/status/shutdown`. -/
def isNodePower (lower : Text) : Bool :=
  (nodePath ["status", "reboot"]).test lower || (nodePath ["status", "shutdown"]).test lower

/-- The node's consoles. -/
def isNodeShell (lower : Text) : Bool :=
  ((nodePath ["termproxy"]).test lower || (nodePath ["vncshell"]).test lower ||
    (nodePath ["vncwebsocket"]).test lower) && !isUnderGuests lower

/-- The node command endpoint, which is called with `POST`. -/
def isNodeCommand (m lower : Text) : Bool :=
  (nodePath ["status"]).test lower && m = "POST" && !isUnderGuests lower

/-- The path ends in a way that `guestActionPermission` knows by name. -/
def isGuestCommand (lower : Text) : Bool :=
  (guestActionRules .vm).any fun rule => rule.1.test lower

/-- A guest path without a named ending: `DELETE`, `POST` and, off the snapshot
paths, `PUT` have a permission of their own. -/
def guestReadDefault (m lower : Text) : Bool :=
  !isGuestCommand lower && m ≠ "DELETE" && m ≠ "POST" &&
    (m ≠ "PUT" || (insideOrEnd (.word "snapshot")).test lower)

/-- The writes that the backup and storage rules answer. -/
def isStorageWrite (m lower : Text) : Bool :=
  includes lower "/storage/" && m = "DELETE" || includes lower "vzdump" && m = "POST" ||
    includes lower "/storage/" && includes lower "backup" && m = "POST"

/-- Off the guest paths: disks and ZFS whatever the method, tasks except for the
two ways to cancel one. -/
def storageReadDefault (m lower : Text) : Bool :=
  !isStorageWrite m lower &&
    (includes lower "/disks/" || includes lower "/zfs" ||
      includes lower "/tasks" && m ≠ "DELETE" &&
        !((endsIn [.word "status"]).test lower && m = "POST"))

/-- The writes that need no more than a view permission. -/
def readDefault (m lower : Text) : Bool :=
  !isMassPower lower && !includes lower "/apt/" && !isNodeCommand m lower &&
    if isNodePower lower then m ≠ "POST"
    else
      !isNodeShell lower &&
        if isGuestPath .vm lower || isGuestPath .lxc lower then guestReadDefault m lower
        else storageReadDefault m lower

/-! ## The cascade -/

/-- The call needs a view permission, or one of several with a view permission
among them. -/
def FederationNeed.takesView (need : FederationNeed) : Bool := need.list.any shareView.contains

theorem guestActionRules_fst (kind : GuestKind) :
    (guestActionRules kind).map Prod.fst = (guestActionRules .vm).map Prod.fst := by
  cases kind <;> rfl

theorem isGuestCommand_eq (kind : GuestKind) (lower : Text) :
    isGuestCommand lower = (guestActionRules kind).any fun rule => rule.1.test lower := by
  have patterns := congrArg (List.any · (Regex.test · lower)) (guestActionRules_fst kind)
  simp only [List.any_map] at patterns
  exact patterns.symm

theorem guestActionRules_write (kind : GuestKind) :
    ∀ rule ∈ guestActionRules kind, shareView.contains rule.2 = false := by
  cases kind <;> simp [guestActionRules, shareView, GuestKind.pick]

theorem guestActionPermission_view (kind : GuestKind) (m lower : Text) :
    shareView.contains (guestActionPermission kind m lower) = guestReadDefault m lower := by
  rw [guestReadDefault, isGuestCommand_eq kind, guestActionPermission]
  split
  · rename_i rule found
    have matched : rule.1.test lower = true := by simpa using List.find?_some found
    have known : ((guestActionRules kind).any fun rule => rule.1.test lower) = true :=
      List.any_eq_true.mpr ⟨rule, List.mem_of_find?_eq_some found, matched⟩
    rw [guestActionRules_write kind rule (List.mem_of_find?_eq_some found), known]
    rfl
  · rename_i none
    have unknown : ((guestActionRules kind).any fun rule => rule.1.test lower) = false := by
      rw [List.any_eq_false]
      exact List.find?_eq_none.mp none
    rw [unknown]
    generalize (insideOrEnd (.word "snapshot")).test lower = snapshot
    by_cases delete : m = "DELETE"
    · subst delete
      cases kind <;> cases snapshot <;> rfl
    · by_cases post : m = "POST"
      · subst post
        cases kind <;> cases snapshot <;> rfl
      · by_cases put : m = "PUT"
        · subst put
          cases kind <;> cases snapshot <;> rfl
        · simp only [delete, post, put, decide_false, Bool.or_self, if_false, ne_eq, not_false_eq_true]
          cases kind <;> cases snapshot <;> rfl

/-- The rules from storage on. -/
theorem federationStorageRule_view {m lower : Text} (write : isReadMethod m = false) :
    (federationStorageRule m lower).takesView = storageReadDefault m lower := by
  unfold federationStorageRule storageReadDefault isStorageWrite
  simp only [write]
  generalize includes lower "/storage/" = storage
  generalize includes lower "backup" = backup
  generalize includes lower "vzdump" = vzdump
  generalize (Regex.litI "restore").test lower = restore
  generalize includes lower "/disks/" = disks
  generalize includes lower "/zfs" = zfs
  generalize includes lower "/tasks" = tasks
  generalize (endsIn [.word "status"]).test lower = status
  by_cases delete : m = "DELETE"
  · subst delete
    revert storage backup vzdump restore disks zfs tasks status
    decide
  · by_cases post : m = "POST"
    · subst post
      revert storage backup vzdump restore disks zfs tasks status
      decide
    · simp only [ne_eq, delete, post, not_false_eq_true]
      revert storage backup vzdump restore disks zfs tasks status
      decide

/-- The rules from guests on. -/
theorem federationGuestRule_view {m lower : Text} (write : isReadMethod m = false) :
    (federationGuestRule m lower).takesView =
      if isGuestPath .vm lower || isGuestPath .lxc lower then guestReadDefault m lower
      else storageReadDefault m lower := by
  have action : ∀ kind, (FederationNeed.one (guestActionPermission kind m lower)).takesView =
      guestReadDefault m lower := by
    intro kind
    rw [← guestActionPermission_view kind m lower, FederationNeed.takesView, FederationNeed.list,
      List.any_cons, List.any_nil, Bool.or_false]
  have noPost : m = "POST" → guestReadDefault m lower = false := by
    rintro rfl
    simp only [guestReadDefault, ne_eq, not_true_eq_false, decide_false, Bool.and_false,
      Bool.false_and]
  rw [federationGuestRule]
  by_cases vm : (m = "POST" && (nodePath ["qemu"]).test lower) = true
  · rw [if_pos vm]
    rw [Bool.and_eq_true, decide_eq_true_eq] at vm
    have guest : isGuestPath .vm lower = true := by
      simp only [isGuestPath, GuestKind.pick, vm.2, Bool.or_true]
    rw [guest, Bool.true_or, if_pos rfl, noPost vm.1]
    rfl
  rw [if_neg vm]
  by_cases lxc : (m = "POST" && (nodePath ["lxc"]).test lower) = true
  · rw [if_pos lxc]
    rw [Bool.and_eq_true, decide_eq_true_eq] at lxc
    have guest : isGuestPath .lxc lower = true := by
      simp only [isGuestPath, GuestKind.pick, lxc.2, Bool.or_true]
    rw [guest, Bool.or_true, if_pos rfl, noPost lxc.1]
    rfl
  rw [if_neg lxc, write]
  cases isGuestPath .vm lower with
  | true => exact action .vm
  | false =>
      cases isGuestPath .lxc lower with
      | true => exact action .lxc
      | false => exact federationStorageRule_view write

/-- **Which writes need a view permission.** -/
theorem federationRule_view {m lower : Text} (write : isReadMethod m = false)
    (extra : Option FederationExtra) :
    (federationRule m lower extra).takesView = readDefault m lower := by
  rw [federationRule, readDefault, ← isNodeCommand]
  cases isMassPower lower with
  | true => rfl
  | false =>
  cases includes lower "/apt/" with
  | true =>
      simp only [write, Bool.false_eq_true, if_false, if_true]
      split_ifs <;> rfl
  | false =>
  cases isNodeCommand m lower with
  | true =>
      simp only [if_true, Bool.false_eq_true, if_false]
      split_ifs <;> rfl
  | false =>
  simp only [Bool.false_eq_true, if_false, Bool.not_false, Bool.true_and, isNodePower, isNodeShell]
  have power : ∀ p q, shareView.contains p = false → shareView.contains q = true →
      (if m = "POST" then FederationNeed.one p else .one q).takesView = (m ≠ "POST" : Bool) := by
    intro p q writes reads
    by_cases post : m = "POST" <;>
      simp [post, FederationNeed.takesView, FederationNeed.list] <;> simp_all
  rcases Bool.eq_false_or_eq_true ((nodePath ["status", "reboot"]).test lower) with reboot | reboot
  · simp only [reboot, if_true, Bool.true_or]
    exact power _ _ rfl rfl
  rcases Bool.eq_false_or_eq_true ((nodePath ["status", "shutdown"]).test lower) with down | down
  · simp only [reboot, down, if_true, Bool.or_true, Bool.false_eq_true, if_false]
    exact power _ _ rfl rfl
  simp only [reboot, down, Bool.or_self, Bool.false_eq_true, if_false]
  rcases Bool.eq_false_or_eq_true (isUnderGuests lower) with under | under
  · simp only [under, Bool.not_true, Bool.and_false, Bool.false_eq_true, if_false, Bool.not_false,
      Bool.true_and]
    exact federationGuestRule_view write
  simp only [under, Bool.not_false, Bool.and_true]
  rcases Bool.eq_false_or_eq_true ((nodePath ["termproxy"]).test lower) with term | term
  · simp only [term, if_true, Bool.true_or, Bool.not_true, Bool.false_and]
    split_ifs <;> rfl
  rcases Bool.eq_false_or_eq_true ((nodePath ["vncshell"]).test lower) with shell | shell
  · simp only [term, shell, if_true, Bool.or_true, Bool.true_or, Bool.not_true, Bool.false_and,
      Bool.false_eq_true, if_false]
    rfl
  rcases Bool.eq_false_or_eq_true ((nodePath ["vncwebsocket"]).test lower) with socket | socket
  · simp only [term, shell, socket, if_true, Bool.or_true, Bool.not_true, Bool.false_and,
      Bool.false_eq_true, if_false]
    rfl
  simp only [term, shell, socket, Bool.or_self, Bool.false_eq_true, if_false, Bool.not_false,
    Bool.true_and]
  exact federationGuestRule_view write

/-! ## The share check -/

/-- A view share without a list of its own grants the view permissions. -/
theorem effectiveSharePermissions_view : effectiveSharePermissions .view [] = shareView := by
  decide

theorem shareHasPermission_view (need : FederationNeed) :
    shareHasPermission .view [] need.list = need.takesView := by
  rw [Bool.eq_iff_iff, shareHasPermission, effectiveSharePermissions_view, hasAnyPermission_ids,
    FederationNeed.takesView, List.any_eq_true]
  simp only [List.contains_iff_mem]

/-- What a view share without a list of its own admits. -/
theorem assertSharedHost_view (method path : Text) (extra : Option FederationExtra) :
    assertSharedHost (some ⟨.view, [], .localHost⟩) method path extra = .ok () ↔
      (federationPermission method path extra).takesView = true := by
  have check := shareHasPermission_view (federationPermission method path extra)
  unfold assertSharedHost
  simp only [ne_eq, not_true_eq_false, if_false, check]
  cases views : (federationPermission method path extra).takesView with
  | true =>
      have some : federationPermission method path extra ≠ .deny := by
        intro deny
        rw [deny] at views
        cases views
      simp [some]
  | false => simp

/-- A call that changes something is refused to view shares, and its permission
is no view permission, exactly when no read default answers it. -/
theorem writes_need_more_iff {method path : Text} (write : isReadMethod (toUpperCase method) = false)
    (extra : Option FederationExtra) :
    ((federationPermission method path extra = .deny ∨
        ∀ p ∈ (federationPermission method path extra).list, p ∉ shareView) ∧
      assertSharedHost (some ⟨.view, [], .localHost⟩) method path extra ≠ .ok ()) ↔
      readDefault (toUpperCase method) (lowerPath path) = false := by
  rw [← federationRule_view write extra, ← federationPermission, ne_eq, assertSharedHost_view]
  have views : (federationPermission method path extra).takesView = false ↔
      ∀ p ∈ (federationPermission method path extra).list, p ∉ shareView := by
    simp [FederationNeed.takesView]
  constructor
  · rintro ⟨_, refused⟩
    simpa using refused
  · intro none
    exact ⟨Or.inr (views.mp none), by simp [none]⟩

theorem writes_need_more_start :
    ((federationPermission "POST" "/nodes/pve/qemu/100/status/start" none = .deny ∨
        ∀ p ∈ (federationPermission "POST" "/nodes/pve/qemu/100/status/start" none).list,
          p ∉ shareView) ∧
      assertSharedHost (some ⟨.view, [], .localHost⟩) "POST" "/nodes/pve/qemu/100/status/start"
        none ≠ .ok ()) :=
  (writes_need_more_iff (by decide) none).mpr (by decide)

/-- Initialising a disk passes as a read. -/
theorem disk_initgpt_needs_view :
    ¬ ∀ (method path : Text) (extra : Option FederationExtra),
      isReadMethod (toUpperCase method) = false →
      (federationPermission method path extra = .deny ∨
        ∀ p ∈ (federationPermission method path extra).list, p ∉ shareView) ∧
      assertSharedHost (some ⟨.view, [], .localHost⟩) method path extra ≠ .ok () := by
  intro claim
  have admitted : assertSharedHost (some ⟨.view, [], .localHost⟩) "POST"
      "/nodes/pve/disks/initgpt" none = .ok () := by decide
  exact (claim "POST" "/nodes/pve/disks/initgpt" none (by decide)).2 admitted

end Proxora
