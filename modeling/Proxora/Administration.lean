import Proxora.Runs
import Proxora.UserUpdate

/-!
# Administration of users and roles

`createUser`, `updateUser`, `deleteUser`, `createRole`, `updateRole` and `deleteRole` of
`server/services/user-service.ts` behind their routes. A call is authorised by the role of its
user, then reads what its checks need, then writes; other calls may come in between. Sessions and
access rows, which say nothing about the users and roles, are left out.

`never_locked_out` says that an active user with `users.update` remains when every write leaves
one; `change_hasAdmin_iff` that the condition on the write is exact.
-/

namespace Proxora

open Runs

/-! ## Users and roles -/

/-- A `Role` row. -/
structure RoleRecord extends RoleRow where
  name : String
  slug : String
  description : String
  isSystem : Bool
deriving DecidableEq

structure AccountTables where
  roles : List RoleRecord
  users : List UserRow
deriving DecidableEq

namespace AccountTables

/-- The unique keys and the foreign key of the two tables. -/
structure Consistent (t : AccountTables) : Prop where
  roleIds : (t.roles.map (·.id)).Nodup
  slugs : (t.roles.map (·.slug)).Nodup
  userIds : (t.users.map (·.id)).Nodup
  usernames : (t.users.map (·.username)).Nodup
  emails : (t.users.map (·.email)).Nodup
  userRole : ∀ user ∈ t.users, user.roleId ∈ t.roles.map (·.id)

theorem consistent_iff (t : AccountTables) :
    t.Consistent ↔
      (t.roles.map (·.id)).Nodup ∧ (t.roles.map (·.slug)).Nodup ∧ (t.users.map (·.id)).Nodup ∧
      (t.users.map (·.username)).Nodup ∧ (t.users.map (·.email)).Nodup ∧
      ∀ user ∈ t.users, user.roleId ∈ t.roles.map (·.id) := by
  constructor
  · rintro ⟨a, b, c, d, e, f⟩
    exact ⟨a, b, c, d, e, f⟩
  · rintro ⟨a, b, c, d, e, f⟩
    exact ⟨a, b, c, d, e, f⟩

instance (t : AccountTables) : Decidable t.Consistent := decidable_of_iff' _ t.consistent_iff

/-- The role grants a permission. -/
def Grants (t : AccountTables) (roleId : String) (p : Permission) : Prop :=
  ∃ role ∈ t.roles, role.id = roleId ∧ hasPermission (some role.permissions) p = true

instance (t : AccountTables) (roleId : String) (p : Permission) : Decidable (t.Grants roleId p) :=
  inferInstanceAs (Decidable (∃ role ∈ t.roles, _))

/-- An active user whose role has `users.update`. -/
def IsAdmin (t : AccountTables) (user : UserRow) : Prop :=
  user.status = .active ∧ t.Grants user.roleId .usersUpdate

instance (t : AccountTables) : DecidablePred t.IsAdmin :=
  fun _ => inferInstanceAs (Decidable (_ ∧ _))

def HasAdmin (t : AccountTables) : Prop := ∃ user ∈ t.users, t.IsAdmin user

instance (t : AccountTables) : Decidable t.HasAdmin :=
  inferInstanceAs (Decidable (∃ user ∈ t.users, _))

/-- The check of `apiRoute`: none of these permissions is scoped to a host, so the role of the
user decides. -/
def Authorized (t : AccountTables) (actor : String) (p : Permission) : Prop :=
  ∃ user ∈ t.users, user.id = actor ∧ user.status = .active ∧ t.Grants user.roleId p

instance (t : AccountTables) (actor : String) (p : Permission) :
    Decidable (t.Authorized actor p) :=
  inferInstanceAs (Decidable (∃ user ∈ t.users, _))

end AccountTables

/-- The stored users and roles. -/
structure Accounts extends AccountTables where
  consistent : toAccountTables.Consistent

/-- A write takes effect when its result satisfies the constraints. -/
def Accounts.commit (t : AccountTables) : Option Accounts :=
  if ok : t.Consistent then some ⟨t, ok⟩ else none

theorem Accounts.commit_eq_some {t : AccountTables} {accounts : Accounts}
    (done : Accounts.commit t = some accounts) : accounts.toAccountTables = t := by
  unfold Accounts.commit at done
  split at done
  · cases done
    rfl
  · cases done

/-! ## Requests -/

/-- `createUserSchema`, without the access rows. -/
structure CreateUserInput where
  username : String
  email : String
  password : String
  roleId : String

/-- `createRoleSchema`. -/
structure CreateRoleInput where
  name : String
  slug : String
  description : Option String
  permissions : List String

/-- `createRoleSchema.partial()`. -/
structure UpdateRoleInput where
  name : Option String
  slug : Option String
  description : Option String
  permissions : Option (List String)

/-- A request with the id in its path, or with the one that a new row gets. -/
inductive AdminRequest : Type
  | createUser (id : String) (input : CreateUserInput)
  | updateUser (id : String) (input : UpdateUserInput)
  | deleteUser (id : String)
  | createRole (id : String) (input : CreateRoleInput)
  | updateRole (id : String) (input : UpdateRoleInput)
  | deleteRole (id : String)

def conflictError (message : String) : AppError := ⟨"CONFLICT", message, 409⟩

/-- What a call does next, or how it ended. -/
inductive AdminStage : Type
  | checking
  | checkingRole
  | writing
  | done
  | refused (error : AppError)
  | failed
deriving DecidableEq

namespace AdminRequest

/-- The permission of the route. -/
def permission : AdminRequest → Permission
  | createUser _ _ => .usersCreate
  | updateUser _ _ => .usersUpdate
  | deleteUser _ => .usersDelete
  | createRole _ _ => .rolesCreate
  | updateRole _ _ => .rolesUpdate
  | deleteRole _ => .rolesDelete

/-- The first read of the service and what is checked of it. -/
def check (t : AccountTables) (actor : String) : AdminRequest → AdminStage
  | createUser _ input =>
      if ∃ user ∈ t.users, user.username = input.username ∨ user.email = input.email then
        .refused (conflictError "Username or email already exists")
      else .checkingRole
  | updateUser id _ =>
      if ∃ user ∈ t.users, user.id = id then .writing
      else .refused (notFoundError "User not found")
  | deleteUser id =>
      if id = actor then .refused (validationError "You cannot delete your own account")
      else if ∃ user ∈ t.users, user.id = id then .writing
      else .refused (notFoundError "User not found")
  | createRole _ _ => .writing
  | updateRole id input =>
      match t.roles.find? (·.id = id) with
      | none => .refused (notFoundError "Role not found")
      | some role =>
          match truthy input.slug with
          | some slug =>
              if role.isSystem && slug ≠ role.slug then
                .refused (validationError "System roles cannot be renamed")
              else .writing
          | none => .writing
  | deleteRole id =>
      match t.roles.find? (·.id = id) with
      | none => .refused (notFoundError "Role not found")
      | some role =>
          if role.isSystem then .refused (validationError "System roles cannot be deleted")
          else if ∃ user ∈ t.users, user.roleId = id then
            .refused (validationError "Role is still assigned to users")
          else .writing

/-- The second read of `createUser`. -/
def checkRole (t : AccountTables) : AdminRequest → AdminStage
  | createUser _ input =>
      if ∃ role ∈ t.roles, role.id = input.roleId then .writing
      else .refused (validationError "Role not found")
  | _ => .writing

/-- The row of a new user. -/
def newUser (hashPassword : String → String) (id : String) (input : CreateUserInput) : UserRow where
  id := id
  username := input.username
  email := input.email
  passwordHash := hashPassword input.password
  status := .active
  roleId := input.roleId

def newRole (id : String) (input : CreateRoleInput) : RoleRecord where
  id := id
  name := input.name
  slug := input.slug
  description := input.description.getD ""
  isSystem := false
  permissions := (sanitizePermissions input.permissions).map Permission.id

/-- The fields that `updateRole` writes; the slug is none of them. -/
def rolePatch (input : UpdateRoleInput) (role : RoleRecord) : RoleRecord :=
  { role with
    name := input.name.getD role.name
    description := input.description.getD role.description
    permissions := (input.permissions.map fun granted =>
      (sanitizePermissions granted).map Permission.id).getD role.permissions }

/-- The write. -/
def change (hashPassword : String → String) (t : AccountTables) : AdminRequest → AccountTables
  | createUser id input => { t with users := t.users ++ [newUser hashPassword id input] }
  | updateUser id input =>
      { t with users := t.users.map fun user =>
          if user.id = id then userPatch hashPassword input user else user }
  | deleteUser id => { t with users := t.users.filter (·.id ≠ id) }
  | createRole id input => { t with roles := t.roles ++ [newRole id input] }
  | updateRole id input =>
      { t with roles := t.roles.map fun role =>
          if role.id = id then rolePatch input role else role }
  | deleteRole id => { t with roles := t.roles.filter (·.id ≠ id) }

/-- The write leaves an active user with `users.update`, seen from the rows before it. -/
def Spares (t : AccountTables) : AdminRequest → Prop
  | updateUser id input =>
      (∃ user ∈ t.users, user.id ≠ id ∧ t.IsAdmin user) ∨
        ∃ user ∈ t.users, user.id = id ∧ input.status.getD user.status = .active ∧
          t.Grants ((truthy input.roleId).getD user.roleId) .usersUpdate
  | deleteUser id => ∃ user ∈ t.users, user.id ≠ id ∧ t.IsAdmin user
  | updateRole id input =>
      match input.permissions with
      | none => True
      | some granted =>
          (∃ user ∈ t.users, user.roleId ≠ id ∧ t.IsAdmin user) ∨
            hasPermission (some granted) .usersUpdate = true ∧
              ∃ user ∈ t.users, user.roleId = id ∧ user.status = .active
  | _ => True

variable {hashPassword : String → String} {t : AccountTables} {id : String}

theorem hasPermission_sanitized {granted : List String} {p : Permission} :
    hasPermission (some ((sanitizePermissions granted).map Permission.id)) p = true ↔
      hasPermission (some granted) p = true := by
  have known : p ∈ allPermissions := by cases p <;> decide
  rw [hasPermission_ids, sanitizePermissions, List.mem_filter]
  exact and_iff_right known

/-- A role that is not the one that is updated grants what it granted. -/
theorem grants_updateRole_of_ne {input : UpdateRoleInput} {roleId : String} {p : Permission}
    (other : roleId ≠ id) :
    ((updateRole id input).change hashPassword t).Grants roleId p ↔ t.Grants roleId p := by
  constructor
  · rintro ⟨_, member, named, granted⟩
    obtain ⟨role, listed, rfl⟩ := List.mem_map.mp member
    split at named
    · rename_i same
      exact absurd (named.symm.trans same) other
    · rename_i differs
      rw [if_neg differs] at granted
      exact ⟨role, listed, named, granted⟩
  · rintro ⟨role, listed, named, granted⟩
    refine ⟨role, List.mem_map.mpr ⟨role, listed, ?_⟩, named, granted⟩
    exact if_neg fun same => other (named.symm.trans same)

/-- The updated role grants what it is given. -/
theorem grants_updateRole_self {input : UpdateRoleInput} {granted : List String} {p : Permission}
    (given : input.permissions = some granted) (stored : id ∈ t.roles.map (·.id)) :
    ((updateRole id input).change hashPassword t).Grants id p ↔
      hasPermission (some granted) p = true := by
  constructor
  · rintro ⟨_, member, named, holds⟩
    obtain ⟨role, listed, rfl⟩ := List.mem_map.mp member
    split at named
    · rename_i same
      rw [if_pos same] at holds
      simp only [rolePatch, given, Option.map_some, Option.getD_some] at holds
      exact hasPermission_sanitized.mp holds
    · rename_i differs
      exact absurd named differs
  · intro holds
    obtain ⟨role, listed, same⟩ := List.mem_map.mp stored
    refine ⟨rolePatch input role, List.mem_map.mpr ⟨role, listed, if_pos same⟩, same, ?_⟩
    simp only [rolePatch, given, Option.map_some, Option.getD_some]
    exact hasPermission_sanitized.mpr holds

/-- Without permissions the update leaves what the roles grant. -/
theorem grants_updateRole_of_none {input : UpdateRoleInput} {roleId : String} {p : Permission}
    (given : input.permissions = none) :
    ((updateRole id input).change hashPassword t).Grants roleId p ↔ t.Grants roleId p := by
  have kept : ∀ role : RoleRecord, (if role.id = id then rolePatch input role else role).id =
      role.id ∧ (if role.id = id then rolePatch input role else role).permissions =
        role.permissions := by
    intro role
    split
    · exact ⟨rfl, by rw [rolePatch, given]; rfl⟩
    · exact ⟨rfl, rfl⟩
  constructor
  · rintro ⟨_, member, named, granted⟩
    obtain ⟨role, listed, rfl⟩ := List.mem_map.mp member
    rw [(kept role).1] at named
    rw [(kept role).2] at granted
    exact ⟨role, listed, named, granted⟩
  · rintro ⟨role, listed, named, granted⟩
    refine ⟨_, List.mem_map_of_mem listed, ?_, ?_⟩
    · rw [(kept role).1, named]
    · rwa [(kept role).2]

/-- A new role changes nothing for the roles that are there. -/
theorem grants_createRole {input : CreateRoleInput} {roleId : String} {p : Permission}
    (granted : t.Grants roleId p) :
    ((createRole id input).change hashPassword t).Grants roleId p := by
  obtain ⟨role, listed, holds⟩ := granted
  exact ⟨role, List.mem_append_left _ listed, holds⟩

/-- After a deletion the roles that are left grant what they granted. -/
theorem grants_deleteRole_of_ne {roleId : String} {p : Permission} (other : roleId ≠ id) :
    ((deleteRole id).change hashPassword t).Grants roleId p ↔ t.Grants roleId p := by
  constructor
  · rintro ⟨role, listed, holds⟩
    exact ⟨role, List.mem_of_mem_filter listed, holds⟩
  · rintro ⟨role, listed, named, granted⟩
    refine ⟨role, List.mem_filter.mpr ⟨listed, ?_⟩, named, granted⟩
    rw [named]
    exact decide_eq_true other

/-- **The write.** Where it takes effect, an active user with `users.update` remains exactly when
it spares one. -/
theorem change_hasAdmin_iff {request : AdminRequest} (before : t.Consistent)
    (after : (request.change hashPassword t).Consistent) (admin : t.HasAdmin) :
    (request.change hashPassword t).HasAdmin ↔ request.Spares t := by
  obtain ⟨user, listed, active, granted⟩ := admin
  cases request with
  | createUser id input =>
      exact iff_of_true ⟨user, List.mem_append_left _ listed, active, granted⟩ trivial
  | updateUser id input =>
      constructor
      · rintro ⟨_, member, holds⟩
        obtain ⟨old, stored, rfl⟩ := List.mem_map.mp member
        split at holds
        · rename_i same
          exact Or.inr ⟨old, stored, same, holds⟩
        · rename_i differs
          exact Or.inl ⟨old, stored, differs, holds⟩
      · rintro (⟨other, stored, differs, holds⟩ | ⟨target, stored, same, holds⟩)
        · exact ⟨other, List.mem_map.mpr ⟨other, stored, if_neg differs⟩, holds⟩
        · exact ⟨_, List.mem_map.mpr ⟨target, stored, if_pos same⟩, holds⟩
  | deleteUser id =>
      constructor
      · rintro ⟨other, member, holds⟩
        obtain ⟨stored, differs⟩ := List.mem_filter.mp member
        exact ⟨other, stored, of_decide_eq_true differs, holds⟩
      · rintro ⟨other, stored, differs, holds⟩
        exact ⟨other, List.mem_filter.mpr ⟨stored, decide_eq_true differs⟩, holds⟩
  | createRole id input =>
      exact iff_of_true ⟨user, listed, active, grants_createRole granted⟩ trivial
  | updateRole id input =>
      cases given : input.permissions with
      | none =>
          have spares : (updateRole id input).Spares t := by simp only [Spares, given]
          exact iff_of_true ⟨user, listed, active, (grants_updateRole_of_none given).mpr granted⟩
            spares
      | some permissions =>
          simp only [Spares, given]
          constructor
          · rintro ⟨other, stored, active, holds⟩
            by_cases same : other.roleId = id
            · have assigned : id ∈ t.roles.map (·.id) := same ▸ before.userRole other stored
              rw [same, grants_updateRole_self given assigned] at holds
              exact Or.inr ⟨holds, other, stored, same, active⟩
            · exact Or.inl ⟨other, stored, same, active, (grants_updateRole_of_ne same).mp holds⟩
          · rintro (⟨other, stored, differs, active, holds⟩ | ⟨holds, other, stored, same, active⟩)
            · exact ⟨other, stored, active, (grants_updateRole_of_ne differs).mpr holds⟩
            · have assigned : id ∈ t.roles.map (·.id) := same ▸ before.userRole other stored
              refine ⟨other, stored, active, ?_⟩
              rw [same, grants_updateRole_self given assigned]
              exact holds
  | deleteRole id =>
      have other : user.roleId ≠ id := by
        obtain ⟨role, member, named⟩ := List.mem_map.mp (after.userRole user listed)
        rw [← named]
        exact of_decide_eq_true (List.mem_filter.mp member).2
      exact iff_of_true ⟨user, listed, active, (grants_deleteRole_of_ne other).mpr granted⟩ trivial

end AdminRequest

/-! ## Runs -/

structure AdminCall where
  actor : String
  request : AdminRequest
  stage : AdminStage

structure Administration where
  accounts : Accounts
  calls : Nat → Option AdminCall
  begun : Nat

/-- `advance` is the next read or write of a call; without `ok` the database refuses it. -/
inductive AdminEvent : Type
  | begin (actor : String) (request : AdminRequest)
  | advance (call : Nat) (ok : Bool)

namespace Administration

/-- No request yet. -/
def idle (accounts : Accounts) : Administration where
  accounts := accounts
  calls := fun _ => none
  begun := 0

def goto (s : Administration) (call : Nat) (c : AdminCall) (stage : AdminStage) :
    Administration :=
  { s with calls := Function.update s.calls call (some { c with stage := stage }) }

/-- The write of a call. -/
def write (hashPassword : String → String) (s : Administration) (call : Nat) (c : AdminCall) :
    Administration :=
  match Accounts.commit (c.request.change hashPassword s.accounts.toAccountTables) with
  | some after => { s.goto call c .done with accounts := after }
  | none => s.goto call c .failed

def step (hashPassword : String → String) (s : Administration) :
    AdminEvent → Option Administration
  | .begin actor request =>
      if s.accounts.Authorized actor request.permission then
        some { s.goto s.begun ⟨actor, request, .checking⟩ .checking with begun := s.begun + 1 }
      else none
  | .advance call ok =>
      match s.calls call with
      | none => none
      | some c =>
          match c.stage, ok with
          | .checking, true =>
              some (s.goto call c (c.request.check s.accounts.toAccountTables c.actor))
          | .checkingRole, true =>
              some (s.goto call c (c.request.checkRole s.accounts.toAccountTables))
          | .writing, true => some (s.write hashPassword call c)
          | .checking, false | .checkingRole, false | .writing, false =>
              some (s.goto call c .failed)
          | _, _ => none

/-- Every write leaves an active user with `users.update`. -/
def Sparing (s : Administration) : AdminEvent → Prop
  | .advance call true => ∀ c, s.calls call = some c → c.stage = .writing →
      c.request.Spares s.accounts.toAccountTables
  | _ => True

variable {hashPassword : String → String} {s t : Administration} {e : AdminEvent}

theorem write_hasAdmin {call : Nat} {c : AdminCall} (admin : s.accounts.HasAdmin)
    (spares : c.request.Spares s.accounts.toAccountTables) :
    (s.write hashPassword call c).accounts.HasAdmin := by
  unfold write
  split
  · rename_i after committed
    have same := Accounts.commit_eq_some committed
    have consistent : (c.request.change hashPassword s.accounts.toAccountTables).Consistent :=
      same ▸ after.consistent
    have remains := (AdminRequest.change_hasAdmin_iff s.accounts.consistent consistent admin).mpr
      spares
    exact same ▸ remains
  · exact admin

theorem step_hasAdmin (admin : s.accounts.HasAdmin) (sparing : s.Sparing e)
    (happens : step hashPassword s e = some t) : t.accounts.HasAdmin := by
  cases e with
  | begin actor request =>
      simp only [step] at happens
      split at happens
      · cases happens
        exact admin
      · cases happens
  | advance call ok =>
      simp only [step] at happens
      split at happens
      · cases happens
      · rename_i c held
        split at happens
        · cases happens
          exact admin
        · cases happens
          exact admin
        · rename_i stage
          cases happens
          exact write_hasAdmin admin (sparing c held stage)
        all_goals
          cases happens
          try exact admin

/-- In a run in which every write spares one, an active user with `users.update` remains. -/
theorem never_locked_out (accounts : Accounts) (admin : accounts.HasAdmin)
    (run : Reaches (step hashPassword) Sparing (idle accounts) t) : t.accounts.HasAdmin :=
  @Reaches.keeps _ _ _ _ _ _ (fun s => s.accounts.HasAdmin) run admin
    fun _ _ _ kept sparing happens => step_hasAdmin kept sparing happens

/-- A role with `users.update`, and its users. -/
def adminsNamed (names : List String) (distinct : names.Nodup) : Accounts where
  roles := [{ id := "r", permissions := ["users.update", "users.delete"], name := "Admin",
              slug := "admin", description := "", isSystem := true }]
  users := names.map fun name => ⟨name, name, name, "", .active, "r"⟩
  consistent := by
    have same {field : UserRow → String}
        (named : ∀ name, field ⟨name, name, name, "", .active, "r"⟩ = name) :
        ((names.map fun name => UserRow.mk name name name "" .active "r").map field).Nodup := by
      rw [List.map_map, show field ∘ _ = id from funext named, List.map_id]
      exact distinct
    refine ⟨List.nodup_singleton _, List.nodup_singleton _, same fun _ => rfl, same fun _ => rfl,
      same fun _ => rfl, ?_⟩
    intro user member
    obtain ⟨name, -, rfl⟩ := List.mem_map.mp member
    exact List.mem_cons_self

def disable : UpdateUserInput where
  email := none
  password := none
  roleId := none
  status := some .disabled
  hostIds := none
  hosts := none
  guests := none

/-- One of two is disabled by the other. -/
theorem never_locked_out_of_two :
    ∃ t, Reaches (step id) Sparing (idle (adminsNamed ["root", "ann"] (by decide))) t ∧
      t.accounts.users.map (·.status) = [.active, .disabled] ∧ t.accounts.HasAdmin := by
  have begun : Reaches (step id) Sparing (idle (adminsNamed ["root", "ann"] (by decide)))
      (idle (adminsNamed ["root", "ann"] (by decide))) := .start
  have checked := begun.next
    (e := AdminEvent.begin "root" (.updateUser "ann" disable)) trivial rfl
  have ready := checked.next (e := AdminEvent.advance 0 true)
    (by
      intro c held stage
      cases held
      cases stage) rfl
  have written := ready.next (e := AdminEvent.advance 0 true)
    (by
      intro c held _
      cases held
      exact Or.inl ⟨_, List.mem_cons_self, by decide, by decide⟩) rfl
  exact ⟨_, written, rfl, never_locked_out _ (by decide) written⟩

/-- The only one disables itself. -/
theorem last_admin_disables_itself :
    ¬∀ (accounts : Accounts) (t : Administration), accounts.HasAdmin →
      Reaches (step id) Unrestricted (idle accounts) t → t.accounts.HasAdmin := by
  intro kept
  have run := @reaches_of_exec _ _ (step id) (idle (adminsNamed ["root"] (by decide))) _
    [.begin "root" (.updateUser "root" disable), .advance 0 true, .advance 0 true] rfl
  have remains := kept _ _ (by decide) run
  revert remains
  decide

end Administration

end Proxora
