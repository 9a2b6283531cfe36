import Proxora.PeerShares

/-!
# The ladder of share levels

A peer of an older version asks `shareAllows` about `federationActionLevel`, a newer
one `shareHasPermission` about `federationPermission`.  `shareAllows_iff` says that the
two decide alike on every call.

The classifier answers with a permission of the host catalog, with the two
permissions of the node's console, or with `deny`; the ladder is then compared
with the three permission sets on those answers.
-/

namespace Proxora

open Ecma

/-- `RANK`. -/
def shareRank : ShareLevel → Nat
  | .view => 1
  | .control => 2
  | .create => 3

/-- `none` stands for `"deny"`. -/
def shareAllows (granted : ShareLevel) (needed : Option ShareLevel) : Bool :=
  match needed with
  | none => false
  | some needed => shareRank granted ≥ shareRank needed

/-- `federationActionLevel` once the permission is known. -/
def FederationNeed.actionLevel (needed : FederationNeed) : Option ShareLevel :=
  if needed = .deny then none
  else if needed.list.any shareCreateOnly.contains then some .create
  else if needed.list.all shareView.contains then some .view
  else if needed.list.any shareDefaultDeny.contains then none
  else some .control

/-- Coarse bucket used by older peers and the share dropdown. -/
def federationActionLevel (method path : Text) (extra : Option FederationExtra) :
    Option ShareLevel :=
  (federationPermission method path extra).actionLevel

/-! ## The ladder and the permission sets -/

/-- Both ladders decide alike on the needed permission. -/
def FederationNeed.DecidesAlike (needed : FederationNeed) : Prop :=
  ∀ level, shareAllows level needed.actionLevel = true ↔
    needed ≠ .deny ∧ shareHasPermission level [] needed.list = true

theorem decidesAlike_deny : FederationNeed.DecidesAlike .deny := by
  intro level
  cases level <;> decide

/-- Without a list of its own a share grants the set of its level. -/
theorem shareHasPermission_level {level : ShareLevel} {needed : List Permission} :
    shareHasPermission level [] needed = true ↔ ∃ p ∈ needed, p ∈ permissionsForShareLevel level :=
  shareHasPermission_iff

/-- On the catalog the three sets are what the ladder says. -/
theorem actionLevel_catalog (level : ShareLevel) :
    ∀ p ∈ hostGrantCatalog.map (·.id),
      shareAllows level (FederationNeed.actionLevel (.one p)) =
        (permissionsForShareLevel level).contains p := by
  cases level <;> decide

theorem decidesAlike_one {p : Permission} (shareable : p.Shareable) :
    FederationNeed.DecidesAlike (.one p) := by
  intro level
  rw [shareHasPermission_level, actionLevel_catalog level p (List.mem_map.mpr shareable),
    List.contains_iff_mem]
  simp only [FederationNeed.list, List.mem_singleton, exists_eq_left, ne_eq, reduceCtorEq,
    not_false_eq_true, true_and]

/-- The console of the node: no level grants either permission. -/
theorem decidesAlike_console :
    FederationNeed.DecidesAlike (.anyOf [.hostsConsole, .updatesUpgrade]) := by
  intro level
  rw [shareHasPermission_level]
  cases level <;> decide

/-! ## What the classifier answers -/

/-- The answers of `federationPermission`. -/
def FederationNeed.Answer (needed : FederationNeed) : Prop :=
  match needed with
  | .deny => True
  | .one p => p.Shareable
  | .anyOf ps => ps = [.hostsConsole, .updatesUpgrade]

theorem FederationNeed.Answer.decidesAlike {needed : FederationNeed} (answer : needed.Answer) :
    needed.DecidesAlike := by
  cases needed with
  | deny => exact decidesAlike_deny
  | one p => exact decidesAlike_one answer
  | anyOf ps => exact answer ▸ decidesAlike_console

instance (p : Permission) : Decidable p.Shareable :=
  inferInstanceAs (Decidable (∃ entry ∈ hostGrantCatalog, entry.id = p))

instance (needed : FederationNeed) : Decidable needed.Answer :=
  match needed with
  | .deny => inferInstanceAs (Decidable True)
  | .one p => inferInstanceAs (Decidable p.Shareable)
  | .anyOf ps => inferInstanceAs (Decidable (ps = [.hostsConsole, .updatesUpgrade]))

theorem guestActionRules_shareable (kind : GuestKind) :
    ∀ rule ∈ guestActionRules kind, rule.2.Shareable := by
  cases kind <;> simp only [guestActionRules, List.forall_mem_cons, GuestKind.pick] <;> decide

theorem guestActionPermission_shareable (kind : GuestKind) (m lower : Text) :
    (guestActionPermission kind m lower).Shareable := by
  rw [guestActionPermission]
  split
  · rename_i rule found
    exact guestActionRules_shareable kind rule (List.mem_of_find?_eq_some found)
  · split_ifs <;> cases kind <;> decide

theorem federationStorageRule_answer (m lower : Text) : (federationStorageRule m lower).Answer := by
  unfold federationStorageRule
  generalize includes lower "/storage/" = storage
  generalize includes lower "backup" = backup
  generalize includes lower "vzdump" = vzdump
  generalize (Regex.litI "restore").test lower = restore
  generalize includes lower "/disks/" = disks
  generalize includes lower "/zfs" = zfs
  generalize includes lower "/tasks" = tasks
  generalize (endsIn [.word "status"]).test lower = status
  generalize isReadMethod m = read
  by_cases delete : m = "DELETE"
  · subst delete
    revert storage backup vzdump restore disks zfs tasks status read
    decide
  · by_cases post : m = "POST"
    · subst post
      revert storage backup vzdump restore disks zfs tasks status read
      decide
    · simp only [delete, post]
      revert storage backup vzdump restore disks zfs tasks status read
      decide

theorem federationGuestRule_answer (m lower : Text) : (federationGuestRule m lower).Answer := by
  rw [federationGuestRule]
  split_ifs
  · decide
  · decide
  · decide
  · exact guestActionPermission_shareable .vm m lower
  · decide
  · exact guestActionPermission_shareable .lxc m lower
  · exact federationStorageRule_answer m lower

/-- **What the classifier answers.** -/
theorem federationPermission_answer (method path : Text) (extra : Option FederationExtra) :
    (federationPermission method path extra).Answer := by
  rw [federationPermission, federationRule]
  split_ifs
  all_goals first | exact federationGuestRule_answer _ _ | decide

/-! ## The two decisions -/

/-- **The coarse and the fine decision agree on every call.** -/
theorem shareAllows_iff (level : ShareLevel) (method path : Text)
    (extra : Option FederationExtra) :
    shareAllows level (federationActionLevel method path extra) = true ↔
      federationPermission method path extra ≠ .deny ∧
        shareHasPermission level [] (federationPermission method path extra).list = true :=
  (federationPermission_answer method path extra).decidesAlike level

end Proxora
