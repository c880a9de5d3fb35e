import YoutubeFactory.Lib.Except
import YoutubeFactory.Python.Json
import Mathlib.Tactic.ByContra

/-!
# Users, roles and permissions

`app/services/rbac.py` over the tables of `app/models/user.py`, `organization.py` and
`rbac.py`, and the dependencies of `app/dependencies/auth.py`.  A request comes with the
user its access token names: the token is decoded and its session is active.

A table is the list of its rows and rows are never removed from it, so a row's position
is its id.
-/

namespace YoutubeFactory.Access

open Python

abbrev Id := Nat

/-- Seconds since the epoch, UTC. -/
abbrev DateTime := Int

/-! ## Errors -/

/-- The exceptions of `app/exceptions/base.py` that the calls raise. -/
inductive ApiError where
  | unauthorized (message : String)
  | forbidden (message : String) (details : List (String × Json))
  | notFound (message : String) (details : List (String × Json))
  | validation (message : String) (details : List (String × Json))
  | conflict (message : String) (details : List (String × Json))
  /-- A write that breaks a unique constraint. -/
  | integrity

/-! ## Tables -/

structure User where
  isActive : Bool
  isSuperuser : Bool
  deletedAt : Option DateTime

/-- A role with the slugs of its permissions. -/
structure Role where
  slug : String
  organizationId : Option Id
  permissions : List String

structure OrganizationMember where
  organizationId : Id
  userId : Id
  roleId : Id
  deletedAt : Option DateTime

structure AccessDb where
  users : List User
  roles : List Role
  members : List OrganizationMember

/-! ## System roles -/

inductive SystemRole where
  | owner | admin | manager | editor | viewer
deriving DecidableEq, Repr

namespace SystemRole

def slug : SystemRole → String
  | .owner => "owner"
  | .admin => "admin"
  | .manager => "manager"
  | .editor => "editor"
  | .viewer => "viewer"

def all : List SystemRole := [.owner, .admin, .manager, .editor, .viewer]

end SystemRole

/-- `ALL_PERMISSIONS` -/
def allPermissions : List String :=
  ["organization.manage", "organization.delete", "member.manage", "team.manage", "role.manage",
    "billing.read", "billing.manage", "project.create", "project.delete", "channel.manage",
    "video.create", "video.delete", "video.publish", "prompt.edit", "agent.run", "agent.manage",
    "analytics.read", "api_key.manage", "audit.read"]

/-- `DEFAULT_ROLE_PERMISSIONS` -/
def defaultRolePermissions : SystemRole → List String
  | .owner => allPermissions
  | .admin => allPermissions.filter fun p => p ≠ "organization.delete" ∧ p ≠ "billing.manage"
  | .manager =>
      ["team.manage", "project.create", "project.delete", "channel.manage", "video.create",
        "video.delete", "video.publish", "prompt.edit", "agent.run", "agent.manage",
        "analytics.read", "billing.read"]
  | .editor => ["video.create", "video.publish", "prompt.edit", "agent.run", "analytics.read"]
  | .viewer => ["analytics.read"]

/-! ## Permission checks -/

namespace AccessDb

/-- The roles a user has in an organization. -/
def rolesOf (db : AccessDb) (userId organizationId : Id) : List Role :=
  (db.members.filter fun m =>
    m.userId = userId ∧ m.organizationId = organizationId ∧ m.deletedAt = none).filterMap
    fun m => db.roles[m.roleId]?

/-- `get_permissions_for_user` -/
def getPermissionsForUser (db : AccessDb) (userId organizationId : Id) : List String :=
  match (db.rolesOf userId organizationId).head? with
  | none => []
  | some role => role.permissions

/-- `RBACService.require_permission` -/
def requirePermission (db : AccessDb) (userId organizationId : Id) (permission : String) :
    Except ApiError Unit :=
  if permission ∈ db.getPermissionsForUser userId organizationId then .ok ()
  else
    .error (.forbidden "You do not have permission to perform this action."
      [("required", .str permission)])

/-- `get_current_user`, from the user the token names. -/
def getCurrentUser (db : AccessDb) (userId : Id) : Except ApiError User :=
  match db.users[userId]? with
  | none => .error (.unauthorized "User account is not active.")
  | some user =>
      if !user.isActive ∨ user.deletedAt.isSome then
        .error (.unauthorized "User account is not active.")
      else .ok user

/-- The dependency `require_permission`, on the organization of the path. -/
def authorize (db : AccessDb) (userId organizationId : Id) (permission : String) :
    Except ApiError User := do
  let user ← db.getCurrentUser userId
  if user.isSuperuser then return user
  else
    db.requirePermission userId organizationId permission
    return user

/-! ## Who passes -/

variable {db : AccessDb} {userId organizationId : Id} {permission : String}

/-- The user has the permission in the organization. -/
def Holds (db : AccessDb) (userId organizationId : Id) (permission : String) : Prop :=
  permission ∈ db.getPermissionsForUser userId organizationId

instance : Decidable (db.Holds userId organizationId permission) :=
  inferInstanceAs (Decidable (_ ∈ _))

/-- An account that is active and not a superuser's. -/
def Ordinary (db : AccessDb) (userId : Id) : Prop :=
  ∃ user, db.users[userId]? = some user ∧ user.isActive = true ∧ user.deletedAt = none ∧
    user.isSuperuser = false

theorem requirePermission_of_holds (h : db.Holds userId organizationId permission) :
    db.requirePermission userId organizationId permission = .ok () :=
  if_pos h

theorem requirePermission_of_not_holds (h : ¬ db.Holds userId organizationId permission) :
    db.requirePermission userId organizationId permission =
      .error (.forbidden "You do not have permission to perform this action."
        [("required", .str permission)]) :=
  if_neg h

theorem getCurrentUser_of_ordinary (h : db.Ordinary userId) :
    ∃ user, db.getCurrentUser userId = .ok user ∧ user.isSuperuser = false := by
  obtain ⟨user, hrow, hactive, hdeleted, hsuper⟩ := h
  refine ⟨user, ?_, hsuper⟩
  simp [getCurrentUser, hrow, hactive, hdeleted]

theorem row_of_current {user : User} (h : db.getCurrentUser userId = .ok user) :
    db.users[userId]? = some user := by
  unfold getCurrentUser at h
  split at h
  · cases h
  · next hrow =>
      split at h
      · cases h
      · cases h
        exact hrow

/-- Without a role there is no permission. -/
theorem not_holds_of_no_role (h : db.rolesOf userId organizationId = []) :
    ¬ db.Holds userId organizationId permission := by
  simp [Holds, getPermissionsForUser, h]

theorem authorize_of_holds (h : db.Ordinary userId)
    (hholds : db.Holds userId organizationId permission) :
    ∃ user, db.authorize userId organizationId permission = .ok user := by
  obtain ⟨user, hcurrent, hsuper⟩ := getCurrentUser_of_ordinary h
  refine ⟨user, ?_⟩
  simp [authorize, hcurrent, requirePermission_of_holds hholds]

/-- The user is signed in and has the permission in the organization. -/
def May (db : AccessDb) (userId organizationId : Id) (permission : String) : Prop :=
  (∃ user, db.getCurrentUser userId = .ok user) ∧ db.Holds userId organizationId permission

theorem authorize_of_may (h : db.May userId organizationId permission) :
    ∃ user, db.authorize userId organizationId permission = .ok user := by
  obtain ⟨⟨user, hcurrent⟩, hholds⟩ := h
  refine ⟨user, ?_⟩
  simp [authorize, hcurrent, requirePermission_of_holds hholds]

/-- Who passes a check without being a superuser has the permission. -/
theorem may_of_authorize {user : User} (hsuper : ∀ u ∈ db.users[userId]?, u.isSuperuser = false)
    (h : db.authorize userId organizationId permission = .ok user) :
    db.May userId organizationId permission := by
  obtain ⟨current, hcurrent, h⟩ := Except.bind_eq_ok.mp h
  rw [hsuper current (row_of_current hcurrent), if_neg Bool.false_ne_true] at h
  obtain ⟨_, hcheck, -⟩ := Except.bind_eq_ok.mp h
  refine ⟨⟨current, hcurrent⟩, ?_⟩
  by_contra hnot
  rw [requirePermission_of_not_holds hnot] at hcheck
  cases hcheck

/-- Who is no superuser and does not have the permission is refused. -/
theorem authorize_of_not_may (hsuper : ∀ u ∈ db.users[userId]?, u.isSuperuser = false)
    (h : ¬ db.May userId organizationId permission) :
    ∃ e, db.authorize userId organizationId permission = .error e := by
  cases hauthorize : db.authorize userId organizationId permission with
  | error e => exact ⟨e, rfl⟩
  | ok user => exact absurd (may_of_authorize hsuper hauthorize) h

end AccessDb

end YoutubeFactory.Access
