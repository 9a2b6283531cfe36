import Proxora.Permissions

/-!
# The precedence of permission lists

`userHasPermission` reads exactly one of the lists of a user where it is asked about
a host: `decidingList`.  Asked about no host it looks at all of them, so that a check
without a host never refuses what the check with one would allow.
-/

namespace Proxora

/-- The list that decides about a permission on a host, and on a guest of it. -/
def decidingList (holder : PermissionHolder) (required : Permission) (hostId : String)
    (guest : Option GuestScope) : Option (List String) :=
  let role := holder.rolePermissions
  if isHostScopedPermission required = false then role
  else
    let ofGuest :=
      guest.bind fun g =>
        if isGuestActionPermission required then override holder.guestPermissions (guestScopeKey g)
        else none
    (ofGuest.or (override holder.hostPermissions hostId)).or role

variable {holder : PermissionHolder} {required : Permission} {hostId : String}
  {guest : Option GuestScope}

/-- With a host, the permission is looked up in the deciding list. -/
theorem userHasPermission_eq (named : hostId ≠ "") :
    userHasPermission holder required (some hostId) guest =
      hasPermission (decidingList holder required hostId guest) required := by
  have present : (some hostId).filter (· ≠ "") = some hostId :=
    Option.filter_some_pos (decide_eq_true named)
  unfold userHasPermission decidingList
  rw [present]
  dsimp only
  cases isHostScopedPermission required with
  | false => rfl
  | true =>
      cases isGuestActionPermission required with
      | false =>
          cases guest <;> cases override holder.hostPermissions hostId <;> rfl
      | true =>
          cases guest with
          | none => cases override holder.hostPermissions hostId <;> rfl
          | some g =>
              dsimp only [Option.bind_some, if_true]
              cases override holder.guestPermissions (guestScopeKey g) with
              | some granted => rfl
              | none => cases override holder.hostPermissions hostId <;> rfl

/-- An override that grants is one of those that a check without a host looks at. -/
theorem someOverride_of_override {record : Option PermissionRecord} {key : String}
    {granted : List String} (found : override record key = some granted)
    (grants : hasPermission (some granted) required = true) :
    someOverride record required = true := by
  unfold override at found
  obtain ⟨entries, rfl, joined⟩ := Option.bind_eq_some_iff.mp found
  have entry : entries.lookup key = some (some granted) := Option.join_eq_some_iff.mp joined
  obtain ⟨front, back, rfl, -⟩ := List.lookup_eq_some_iff.mp entry
  refine List.any_eq_true.mpr ⟨(key, some granted), ?_, grants⟩
  exact List.mem_append_right front List.mem_cons_self

/-- A check without a host looks at the role and at every override. -/
theorem userHasPermission_none (onHost : isHostScopedPermission required = true) :
    userHasPermission holder required none none =
      (hasPermission holder.rolePermissions required ||
        someOverride holder.hostPermissions required ||
          someOverride holder.guestPermissions required) := by
  unfold userHasPermission
  rw [onHost]
  cases isGuestActionPermission required <;> rfl

/-- A grant of the deciding list is a grant without a host. -/
theorem userHasPermission_none_of_deciding
    (grants : hasPermission (decidingList holder required hostId guest) required = true) :
    userHasPermission holder required none none = true := by
  unfold decidingList at grants
  cases onHost : isHostScopedPermission required with
  | false =>
      rw [onHost] at grants
      unfold userHasPermission
      rw [onHost]
      exact grants
  | true =>
      rw [onHost] at grants
      rw [userHasPermission_none onHost, Bool.or_eq_true, Bool.or_eq_true]
      dsimp only at grants
      cases ofGuest : guest.bind fun g =>
          if isGuestActionPermission required then
            override holder.guestPermissions (guestScopeKey g)
          else none with
      | some granted =>
          rw [ofGuest] at grants
          obtain ⟨g, -, held⟩ := Option.bind_eq_some_iff.mp ofGuest
          split at held
          · exact .inr (someOverride_of_override held grants)
          · cases held
      | none =>
          rw [ofGuest] at grants
          cases ofHost : override holder.hostPermissions hostId with
          | some granted =>
              rw [ofHost] at grants
              exact .inl (.inr (someOverride_of_override ofHost grants))
          | none =>
              rw [ofHost] at grants
              exact .inl (.inl grants)

/-- An empty host id is no host; the guest's override still comes first. -/
theorem userHasPermission_none_of_blank
    (grants : userHasPermission holder required (some "") guest = true) :
    userHasPermission holder required none none = true := by
  have blank : (some "").filter (· ≠ "") = none := by decide
  cases onHost : isHostScopedPermission required with
  | false =>
      unfold userHasPermission at grants ⊢
      rw [onHost] at grants ⊢
      exact grants
  | true =>
      rw [userHasPermission_none onHost, Bool.or_eq_true, Bool.or_eq_true]
      unfold userHasPermission at grants
      rw [onHost, blank, Bool.not_true, if_neg Bool.false_ne_true] at grants
      dsimp only at grants
      split at grants
      · next granted ofGuest =>
        split at ofGuest
        · obtain ⟨g, -, held⟩ := Option.bind_eq_some_iff.mp ofGuest
          exact .inr (someOverride_of_override held grants)
        · cases ofGuest
      · rw [Bool.or_eq_true, Bool.or_eq_true] at grants
        exact grants

/-- What is granted with a host is granted without. -/
theorem userHasPermission_none_of_grant
    (grants : userHasPermission holder required (some hostId) guest = true) :
    userHasPermission holder required none none = true := by
  by_cases named : hostId = ""
  · subst named
    exact userHasPermission_none_of_blank grants
  · rw [userHasPermission_eq named] at grants
    exact userHasPermission_none_of_deciding grants

/-- A host override that takes a permission of the role away, and a guest override that
gives one. -/
def overriddenUser : PermissionHolder where
  rolePermissions := some ["hosts.view", "vm.start"]
  hostPermissions := some [("host", some ["vm.view"])]
  guestPermissions := some [("host:vm:100", some ["vm.stop"])]

end Proxora
