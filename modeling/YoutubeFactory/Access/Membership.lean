import YoutubeFactory.Lib.Run
import YoutubeFactory.Lib.Table
import YoutubeFactory.Access.Rbac
import Mathlib.Data.Set.Insert

/-!
# Membership and invitations

`update_member_role` of `app/api/v1/routes/organizations.py` and the routes of
`invitations.py`, with `OrganizationService` and `InvitationService` below them.  The
address an invitation is sent to is not kept: nothing reads it.

Whoever may manage the members of an organization gives out any of its roles, to
themselves too.  So members who work together stay below what they had together exactly
when none of them manages the members, or they had everything the roles of the
organization give (`no_escalation_iff`).
-/

namespace YoutubeFactory.Access

/-! ## Tables -/

structure Organization where
  name : String
  deletedAt : Option DateTime

inductive InvitationStatus where
  | pending | accepted | revoked | expired
deriving DecidableEq, Repr

structure Invitation where
  organizationId : Id
  roleId : Id
  invitedById : Id
  tokenHash : String
  status : InvitationStatus
  expiresAt : DateTime
  acceptedAt : Option DateTime
  deletedAt : Option DateTime

structure MembershipDb where
  access : AccessDb
  organizations : List Organization
  invitations : List Invitation

/-- What invitations use of the configuration and of `app/security/tokens.py`. -/
structure InvitationSettings where
  expireDays : Nat
  hashToken : String → String

/-! ## Members -/

namespace AccessDb

/-- `RoleRepository.get_org_role`, with the id of the role. -/
def getOrgRole (db : AccessDb) (organizationId : Id) (slug : String) : Option Id :=
  db.roles.findIdx? fun r => r.organizationId = some organizationId ∧ r.slug = slug

/-- `OrganizationMemberRepository.get_membership` -/
def getMembership (db : AccessDb) (organizationId userId : Id) : Option Id :=
  db.members.findIdx? fun m =>
    m.organizationId = organizationId ∧ m.userId = userId ∧ m.deletedAt = none

/-- A member's role is replaced. -/
def setRole (db : AccessDb) (memberId roleId : Id) : AccessDb :=
  { db with members := db.members.modify memberId fun m => { m with roleId } }

/-- `OrganizationMember(...)`, added. -/
def addRow (db : AccessDb) (organizationId userId roleId : Id) : AccessDb :=
  { db with members := db.members ++ [⟨organizationId, userId, roleId, none⟩] }

/-- `OrganizationService.update_member_role` -/
def updateMemberRole (db : AccessDb) (organizationId userId : Id) (roleSlug : String) :
    Except ApiError (Id × AccessDb) :=
  match db.getMembership organizationId userId with
  | none => .error (.notFound "Membership not found." [])
  | some memberId =>
      match db.getOrgRole organizationId roleSlug with
      | none => .error (.notFound s!"Role '{roleSlug}' not found." [])
      | some roleId => .ok (memberId, db.setRole memberId roleId)

/-- `OrganizationService.add_member`.  The constraint on organization and user counts
deleted members too. -/
def addMember (db : AccessDb) (organizationId userId : Id) (roleSlug : String) :
    Except ApiError (Id × AccessDb) :=
  match db.getMembership organizationId userId with
  | some _ => .error (.conflict "User is already a member of this organization." [])
  | none =>
      match db.getOrgRole organizationId roleSlug with
      | none => .error (.notFound s!"Role '{roleSlug}' not found." [])
      | some roleId =>
          if db.members.any fun m => m.organizationId = organizationId ∧ m.userId = userId then
            .error .integrity
          else .ok (db.members.length, db.addRow organizationId userId roleId)

end AccessDb

/-! ## Routes -/

namespace MembershipDb

/-- `OrganizationService.get_or_404` -/
def getOrganization (db : MembershipDb) (organizationId : Id) : Except ApiError Organization :=
  match db.organizations[organizationId]? with
  | none => .error (.notFound "Organization not found." [])
  | some organization =>
      if organization.deletedAt.isSome then .error (.notFound "Organization not found." [])
      else .ok organization

/-- The route `update_member_role`. -/
def updateMemberRole (db : MembershipDb) (callerId organizationId userId : Id)
    (roleSlug : String) : Except ApiError (Id × MembershipDb) := do
  let _ ← db.access.authorize callerId organizationId "member.manage"
  let (memberId, access) ← db.access.updateMemberRole organizationId userId roleSlug
  return (memberId, { db with access })

/-- `InvitationService.invite`, with a fresh token. -/
def invite (db : MembershipDb) (settings : InvitationSettings)
    (organizationId invitedById : Id) (roleSlug token : String) (now : DateTime) :
    Except ApiError (Id × MembershipDb) :=
  match db.access.getOrgRole organizationId roleSlug with
  | none => .error (.notFound s!"Role '{roleSlug}' not found." [])
  | some roleId =>
      if db.invitations.any fun i => i.tokenHash = settings.hashToken token then
        .error .integrity
      else
        let invitation : Invitation :=
          { organizationId
            roleId
            invitedById
            tokenHash := settings.hashToken token
            status := .pending
            expiresAt := now + 86400 * settings.expireDays
            acceptedAt := none
            deletedAt := none }
        .ok (db.invitations.length, { db with invitations := db.invitations ++ [invitation] })

/-- The route `create_invitation`. -/
def createInvitation (db : MembershipDb) (settings : InvitationSettings)
    (callerId organizationId : Id) (roleSlug token : String) (now : DateTime) :
    Except ApiError (Id × MembershipDb) := do
  let _ ← db.access.authorize callerId organizationId "member.manage"
  let _ ← db.getOrganization organizationId
  db.invite settings organizationId callerId roleSlug token now

/-- `InvitationService.revoke` -/
def revoke (db : MembershipDb) (invitationId : Id) : Except ApiError (Unit × MembershipDb) :=
  match db.invitations[invitationId]? with
  | none => .error (.notFound "Invitation not found." [])
  | some invitation =>
      if invitation.deletedAt.isSome then .error (.notFound "Invitation not found." [])
      else
        .ok ((), { db with
          invitations := db.invitations.set invitationId { invitation with status := .revoked } })

/-- The route `revoke_invitation`. -/
def revokeInvitation (db : MembershipDb) (callerId organizationId invitationId : Id) :
    Except ApiError (Unit × MembershipDb) := do
  let _ ← db.access.authorize callerId organizationId "member.manage"
  db.revoke invitationId

/-- `InvitationRepository.get_by_hash`, with the id of the invitation. -/
def invitationByHash (db : MembershipDb) (tokenHash : String) : Option Id :=
  db.invitations.findIdx? fun i => i.tokenHash = tokenHash

/-- Adding the member, where `suppress(ConflictError)` passes over one who is there. -/
def join (access : AccessDb) (organizationId userId : Id) (roleSlug : String) :
    Except ApiError AccessDb :=
  match access.addMember organizationId userId roleSlug with
  | .ok (_, access) => .ok access
  | .error (.conflict _ _) => .ok access
  | .error e => .error e

/-- `InvitationService.accept`.  An expired invitation is marked so in the transaction
that is rolled back. -/
def accept (db : MembershipDb) (settings : InvitationSettings) (token : String) (userId : Id)
    (now later : DateTime) : Except ApiError (Id × MembershipDb) :=
  match db.invitationByHash (settings.hashToken token) with
  | none => .error (.validation "Invalid or already-processed invitation." [])
  | some invitationId =>
      match db.invitations[invitationId]? with
      | none => .error (.validation "Invalid or already-processed invitation." [])
      | some invitation =>
          if invitation.status ≠ .pending then
            .error (.validation "Invalid or already-processed invitation." [])
          else if invitation.expiresAt < now then
            .error (.validation "Invitation has expired." [])
          else
            match db.access.roles[invitation.roleId]? with
            | none => .error (.notFound "Invitation role no longer exists." [])
            | some role => do
                let access ← join db.access invitation.organizationId userId role.slug
                let accepted := { invitation with status := .accepted, acceptedAt := some later }
                return (invitationId,
                  { db with access, invitations := db.invitations.set invitationId accepted })

/-- The route `accept_invitation`. -/
def acceptInvitation (db : MembershipDb) (settings : InvitationSettings) (callerId : Id)
    (token : String) (now later : DateTime) : Except ApiError (Id × MembershipDb) := do
  let _ ← db.access.getCurrentUser callerId
  db.accept settings token callerId now later

end MembershipDb

/-! ## Requests -/

inductive MembershipRequest where
  | updateMemberRole (callerId organizationId userId : Id) (roleSlug : String)
  | createInvitation (callerId organizationId : Id) (roleSlug token : String) (now : DateTime)
  | acceptInvitation (callerId : Id) (token : String) (now later : DateTime)
  | revokeInvitation (callerId organizationId invitationId : Id)

namespace MembershipRequest

/-- The route, with the database it leaves. -/
def serve (settings : InvitationSettings) (db : MembershipDb) :
    MembershipRequest → Except ApiError (Unit × MembershipDb)
  | .updateMemberRole callerId organizationId userId roleSlug =>
      (db.updateMemberRole callerId organizationId userId roleSlug).map fun r => ((), r.2)
  | .createInvitation callerId organizationId roleSlug token now =>
      (db.createInvitation settings callerId organizationId roleSlug token now).map
        fun r => ((), r.2)
  | .acceptInvitation callerId token now later =>
      (db.acceptInvitation settings callerId token now later).map fun r => ((), r.2)
  | .revokeInvitation callerId organizationId invitationId =>
      db.revokeInvitation callerId organizationId invitationId

/-- The request in its transaction. -/
def step (settings : InvitationSettings) (db : MembershipDb) (request : MembershipRequest) :
    MembershipDb :=
  Run.commit db (request.serve settings db)

/-- The request is made by one of the users, or accepts an invitation. -/
def MadeBy (users : Set Id) : MembershipRequest → Prop
  | .updateMemberRole callerId _ _ _ => callerId ∈ users
  | .createInvitation callerId _ _ _ _ => callerId ∈ users
  | .acceptInvitation _ _ _ _ => True
  | .revokeInvitation callerId _ _ => callerId ∈ users

end MembershipRequest

/-! ## What users may do -/

namespace AccessDb

variable {db : AccessDb} {userId organizationId : Id} {permission : String}

/-- The role that a row gives a user in an organization. -/
def roleIn (db : AccessDb) (userId organizationId : Id) (m : OrganizationMember) : Option Role :=
  if m.userId = userId ∧ m.organizationId = organizationId ∧ m.deletedAt = none then
    db.roles[m.roleId]?
  else none

theorem holds_iff :
    db.Holds userId organizationId permission ↔
      ∃ role, db.members.findSome? (db.roleIn userId organizationId) = some role ∧
        permission ∈ role.permissions := by
  have hhead : (db.rolesOf userId organizationId).head? =
      db.members.findSome? (db.roleIn userId organizationId) := by
    rw [rolesOf, List.filterMap_filter, List.head?_filterMap]
    simp only [decide_eq_true_eq]
    rfl
  unfold Holds getPermissionsForUser
  rw [hhead]
  cases db.members.findSome? (db.roleIn userId organizationId) with
  | none => simp
  | some role => simp

/-- Who has no membership may do nothing. -/
theorem not_holds_of_no_membership (h : db.getMembership organizationId userId = none) :
    ¬ db.Holds userId organizationId permission := by
  rw [holds_iff]
  rintro ⟨role, hrole, -⟩
  obtain ⟨m, hm, hgives⟩ := List.exists_of_findSome?_eq_some hrole
  have hnot := List.findIdx?_eq_none_iff.mp h m hm
  unfold roleIn at hgives
  split at hgives
  · next hlive => simp [hlive.1, hlive.2.1, hlive.2.2] at hnot
  · cases hgives

/-- The row of a membership. -/
theorem getMembership_some {memberId : Id}
    (h : db.getMembership organizationId userId = some memberId) :
    ∃ m, db.members[memberId]? = some m ∧ m.organizationId = organizationId ∧
      m.userId = userId ∧ m.deletedAt = none := by
  obtain ⟨hlt, hlive, -⟩ := List.findIdx?_eq_some_iff_getElem.mp h
  exact ⟨_, List.getElem?_eq_getElem hlt, by simpa using hlive⟩

/-- A role of the organization is found by its slug. -/
def Offers (db : AccessDb) (organizationId roleId : Id) : Prop :=
  ∃ slug, db.getOrgRole organizationId slug = some roleId

theorem Offers.row {roleId : Id} (h : db.Offers organizationId roleId) :
    ∃ role, db.roles[roleId]? = some role := by
  obtain ⟨slug, hslug⟩ := h
  obtain ⟨hlt, -⟩ := List.findIdx?_eq_some_iff_getElem.mp hslug
  exact ⟨_, List.getElem?_eq_getElem hlt⟩

/-- The role offered gives the permission. -/
def RoleGives (db : AccessDb) (roleId : Id) (permission : String) : Prop :=
  ∃ role, db.roles[roleId]? = some role ∧ permission ∈ role.permissions

/-- Replacing a role gives what the new role gives and no more. -/
theorem holds_setRole {organizationId' memberId roleId : Id}
    (hoffers : db.Offers organizationId' roleId)
    (h : (db.setRole memberId roleId).Holds userId organizationId permission) :
    db.Holds userId organizationId permission ∨ db.RoleGives roleId permission := by
  rw [holds_iff] at h
  obtain ⟨role, hfirst, hpermission⟩ := h
  obtain ⟨row, hrow⟩ := hoffers.row
  have hgives : ∀ m : OrganizationMember,
      db.roleIn userId organizationId { m with roleId } = none →
        db.roleIn userId organizationId m = none := by
    intro m hnone
    unfold roleIn at hnone ⊢
    split at hnone
    · rw [hrow] at hnone
      cases hnone
    · next hlive => exact if_neg hlive
  have hfirst : (db.members.modify memberId fun m => { m with roleId }).findSome?
      (db.roleIn userId organizationId) = some role := hfirst
  rcases Table.findSome?_modify hgives hfirst with hbefore | ⟨m, -, hgiven⟩
  · exact .inl (holds_iff.mpr ⟨role, hbefore, hpermission⟩)
  · unfold roleIn at hgiven
    split at hgiven
    · exact .inr ⟨role, hgiven, hpermission⟩
    · cases hgiven

/-- Roles in other organizations do not matter. -/
theorem holds_setRole_of_ne {organizationId' memberId roleId userId' : Id}
    (hmember : db.getMembership organizationId' userId' = some memberId)
    (hne : organizationId' ≠ organizationId) :
    (db.setRole memberId roleId).Holds userId organizationId permission ↔
      db.Holds userId organizationId permission := by
  obtain ⟨m, hrow, horganization, -⟩ := getMembership_some hmember
  have hsame : (db.members.modify memberId fun m => { m with roleId }).findSome?
      (db.roleIn userId organizationId) =
      db.members.findSome? (db.roleIn userId organizationId) := by
    refine Table.findSome?_modify_of_eq fun a ha => ?_
    rw [hrow, Option.some.injEq] at ha
    subst ha
    have hother : ¬ m.organizationId = organizationId := horganization ▸ hne
    simp [roleIn, hother]
  rw [holds_iff, holds_iff]
  exact exists_congr fun role => and_congr_left' (by rw [← hsame]; rfl)

/-- The member whose role is replaced has the new role. -/
theorem holds_setRole_self {memberId roleId : Id}
    (hmember : db.getMembership organizationId userId = some memberId)
    (hgives : db.RoleGives roleId permission) :
    (db.setRole memberId roleId).Holds userId organizationId permission := by
  obtain ⟨role, hrole, hpermission⟩ := hgives
  rw [holds_iff]
  refine ⟨role, ?_, hpermission⟩
  show (db.members.modify memberId fun m => { m with roleId }).findSome?
    (db.roleIn userId organizationId) = some role
  obtain ⟨hlt, hlive, hbefore⟩ := List.findIdx?_eq_some_iff_getElem.mp hmember
  have hlive : db.members[memberId].organizationId = organizationId ∧
      db.members[memberId].userId = userId ∧ db.members[memberId].deletedAt = none := by
    simpa using hlive
  refine Table.findSome?_modify_first (List.getElem?_eq_getElem hlt) ?_ ?_
  · unfold roleIn
    rw [if_pos ⟨hlive.2.1, hlive.1, hlive.2.2⟩]
    exact hrole
  · intro i hi m hm
    obtain ⟨hlt', hm⟩ := List.getElem?_eq_some_iff.mp hm
    have hnot := hbefore i hi
    rw [hm] at hnot
    refine if_neg fun hlive' => hnot ?_
    simp [hlive'.1, hlive'.2.1, hlive'.2.2]

/-- Adding a member gives what the role gives and no more. -/
theorem holds_addRow {organizationId' userId' roleId : Id}
    (h : (db.addRow organizationId' userId' roleId).Holds userId organizationId permission) :
    db.Holds userId organizationId permission ∨
      (organizationId' = organizationId ∧ userId' = userId ∧ db.RoleGives roleId permission) := by
  rw [holds_iff] at h
  obtain ⟨role, hfirst, hpermission⟩ := h
  have hfirst :
      (db.members ++ [OrganizationMember.mk organizationId' userId' roleId none]).findSome?
        (db.roleIn userId organizationId) = some role := hfirst
  rw [List.findSome?_append, Option.or_eq_some_iff] at hfirst
  rcases hfirst with hbefore | ⟨-, hnew⟩
  · exact .inl (holds_iff.mpr ⟨role, hbefore, hpermission⟩)
  · obtain ⟨m, hm, hgiven⟩ := List.exists_of_findSome?_eq_some hnew
    rw [List.mem_singleton] at hm
    subst hm
    unfold roleIn at hgiven
    split at hgiven
    · next hlive => exact .inr ⟨hlive.2.1, hlive.1, role, hgiven, hpermission⟩
    · cases hgiven

theorem Offers.congr {db' : AccessDb} {roleId : Id} (hroles : db'.roles = db.roles)
    (h : db'.Offers organizationId roleId) : db.Offers organizationId roleId := by
  unfold Offers getOrgRole at h ⊢
  rw [← hroles]
  exact h

theorem RoleGives.congr {db' : AccessDb} {roleId : Id} (hroles : db'.roles = db.roles)
    (h : db'.RoleGives roleId permission) : db.RoleGives roleId permission := by
  unfold RoleGives at h ⊢
  rw [← hroles]
  exact h

end AccessDb

/-! ## What the requests change -/

section

variable {settings : InvitationSettings} {db db' : MembershipDb}
  {callerId organizationId userId : Id} {token : String} {now later : DateTime}

theorem updateMemberRole_ok {roleSlug : String} {id : Id}
    (h : db.updateMemberRole callerId organizationId userId roleSlug = .ok (id, db')) :
    ∃ user memberId roleId,
      db.access.authorize callerId organizationId "member.manage" = .ok user ∧
      db.access.getMembership organizationId userId = some memberId ∧
      db.access.Offers organizationId roleId ∧
      db' = { db with access := db.access.setRole memberId roleId } := by
  obtain ⟨user, hauthorize, h⟩ := Except.bind_eq_ok.mp h
  obtain ⟨⟨memberId, access⟩, hupdate, h⟩ := Except.bind_eq_ok.mp h
  cases h
  unfold AccessDb.updateMemberRole at hupdate
  cases hmember : db.access.getMembership organizationId userId with
  | none =>
      rw [hmember] at hupdate
      cases hupdate
  | some found =>
      rw [hmember] at hupdate
      dsimp only at hupdate
      cases hrole : db.access.getOrgRole organizationId roleSlug with
      | none =>
          rw [hrole] at hupdate
          cases hupdate
      | some roleId =>
          rw [hrole] at hupdate
          cases hupdate
          exact ⟨user, _, roleId, hauthorize, rfl, ⟨roleSlug, hrole⟩, rfl⟩

theorem invite_ok {roleSlug : String} {id : Id}
    (h : db.invite settings organizationId userId roleSlug token now = .ok (id, db')) :
    ∃ invitation, invitation.organizationId = organizationId ∧
      db' = { db with invitations := db.invitations ++ [invitation] } := by
  unfold MembershipDb.invite at h
  cases hrole : db.access.getOrgRole organizationId roleSlug with
  | none =>
      rw [hrole] at h
      cases h
  | some roleId =>
      rw [hrole] at h
      dsimp only at h
      split at h
      · cases h
      · cases h
        exact ⟨_, rfl, rfl⟩

theorem createInvitation_ok {roleSlug : String} {id : Id}
    (h : db.createInvitation settings callerId organizationId roleSlug token now =
      .ok (id, db')) :
    ∃ user invitation,
      db.access.authorize callerId organizationId "member.manage" = .ok user ∧
      invitation.organizationId = organizationId ∧
      db' = { db with invitations := db.invitations ++ [invitation] } := by
  obtain ⟨user, hauthorize, h⟩ := Except.bind_eq_ok.mp h
  obtain ⟨organization, -, h⟩ := Except.bind_eq_ok.mp h
  obtain ⟨invitation, hinvitation⟩ := invite_ok h
  exact ⟨user, invitation, hauthorize, hinvitation⟩

theorem revoke_ok {invitationId : Id} (h : db.revoke invitationId = .ok ((), db')) :
    ∃ invitation, db.invitations[invitationId]? = some invitation ∧
      db' = { db with
        invitations :=
          db.invitations.set invitationId { invitation with status := .revoked } } := by
  unfold MembershipDb.revoke at h
  cases hrow : db.invitations[invitationId]? with
  | none =>
      rw [hrow] at h
      cases h
  | some invitation =>
      rw [hrow] at h
      dsimp only at h
      split at h
      · cases h
      · cases h
        exact ⟨invitation, rfl, rfl⟩

theorem join_ok {access access' : AccessDb} {roleSlug : String}
    (h : MembershipDb.join access organizationId userId roleSlug = .ok access') :
    access' = access ∨ ∃ roleId, access.Offers organizationId roleId ∧
      access' = access.addRow organizationId userId roleId := by
  unfold MembershipDb.join AccessDb.addMember at h
  cases hmember : access.getMembership organizationId userId with
  | some memberId =>
      rw [hmember] at h
      cases h
      exact .inl rfl
  | none =>
      rw [hmember] at h
      dsimp only at h
      cases hrole : access.getOrgRole organizationId roleSlug with
      | none =>
          rw [hrole] at h
          cases h
      | some roleId =>
          rw [hrole] at h
          dsimp only at h
          split at h
          · next hadd =>
              split at hadd
              · cases hadd
              · cases hadd
                cases h
                exact .inr ⟨roleId, ⟨roleSlug, hrole⟩, rfl⟩
          · cases h
            exact .inl rfl
          · cases h

theorem acceptInvitation_ok {id : Id}
    (h : db.acceptInvitation settings callerId token now later = .ok (id, db')) :
    ∃ invitation accepted access, db.invitations[id]? = some invitation ∧
      invitation.status = .pending ∧ accepted.status = .accepted ∧
      (access = db.access ∨ ∃ roleId, db.access.Offers invitation.organizationId roleId ∧
        access = db.access.addRow invitation.organizationId callerId roleId) ∧
      db' = { db with access, invitations := db.invitations.set id accepted } := by
  obtain ⟨user, -, h⟩ := Except.bind_eq_ok.mp h
  unfold MembershipDb.accept at h
  cases hfound : db.invitationByHash (settings.hashToken token) with
  | none =>
      rw [hfound] at h
      cases h
  | some invitationId =>
      rw [hfound] at h
      dsimp only at h
      cases hrow : db.invitations[invitationId]? with
      | none =>
          rw [hrow] at h
          cases h
      | some invitation =>
          rw [hrow] at h
          dsimp only at h
          by_cases hpending : invitation.status = .pending
          · rw [if_neg (not_not.mpr hpending)] at h
            split at h
            · cases h
            · cases hrole : db.access.roles[invitation.roleId]? with
              | none =>
                  rw [hrole] at h
                  cases h
              | some role =>
                  rw [hrole] at h
                  obtain ⟨access, hjoin, h⟩ := Except.bind_eq_ok.mp h
                  cases h
                  exact ⟨invitation, _, access, hrow, hpending, rfl, join_ok hjoin, rfl⟩
          · rw [if_pos hpending] at h
            cases h

end

/-! ## Members who work together -/

namespace AccessDb

/-- One of the users has the permission. -/
def HeldBy (db : AccessDb) (users : Set Id) (organizationId : Id) (permission : String) : Prop :=
  ∃ v ∈ users, db.Holds v organizationId permission

/-- One of the users is signed in and manages the members. -/
def Manages (db : AccessDb) (users : Set Id) (organizationId : Id) : Prop :=
  ∃ v ∈ users, db.May v organizationId "member.manage"

/-- The users together have whatever the roles of the organization give. -/
def CoversRoles (db : AccessDb) (users : Set Id) (organizationId : Id) : Prop :=
  ∀ roleId, db.Offers organizationId roleId → ∀ permission, db.RoleGives roleId permission →
    db.HeldBy users organizationId permission

/-- One of the users, or someone who is no member: who joins later was invited. -/
def Watched (start : AccessDb) (users : Set Id) (organizationId userId : Id) : Prop :=
  userId ∈ users ∨ start.getMembership organizationId userId = none

/-- The users, and whoever they invited, have only what the users had at the start. -/
def Bounded (start db : AccessDb) (users : Set Id) (organizationId : Id) : Prop :=
  ∀ userId, start.Watched users organizationId userId → ∀ permission,
    db.Holds userId organizationId permission → start.HeldBy users organizationId permission

theorem bounded_start (db : AccessDb) (users : Set Id) (organizationId : Id) :
    Bounded db db users organizationId := by
  rintro userId (huser | hnone) permission hholds
  · exact ⟨userId, huser, hholds⟩
  · exact absurd hholds (not_holds_of_no_membership hnone)

end AccessDb

/-- What is kept while the users work.  Unless they have everything to give, their own
permissions stay and nobody is invited. -/
structure Contained (start db : MembershipDb) (users : Set Id) (organizationId : Id) : Prop where
  accounts : db.access.users = start.access.users
  roles : db.access.roles = start.access.roles
  bounded : AccessDb.Bounded start.access db.access users organizationId
  holds : ¬ start.access.CoversRoles users organizationId → ∀ userId permission,
    db.access.Holds userId organizationId permission →
      start.access.Holds userId organizationId permission
  uninvited : ¬ start.access.CoversRoles users organizationId → ∀ i ∈ db.invitations,
    i.organizationId = organizationId → i.status ≠ .pending

section

variable {start db : MembershipDb} {users : Set Id} {organizationId : Id}

theorem contained_start (db : MembershipDb) (users : Set Id) {organizationId : Id}
    (hpending : ∀ i ∈ db.invitations, i.organizationId = organizationId → i.status ≠ .pending) :
    Contained db db users organizationId where
  accounts := rfl
  roles := rfl
  bounded := db.access.bounded_start users organizationId
  holds _ _ _ h := h
  uninvited _ := hpending

/-- Only users who have everything to give are let through in the organization. -/
theorem Contained.covers (h : Contained start db users organizationId)
    (hcondition : ¬ start.access.Manages users organizationId ∨
      start.access.CoversRoles users organizationId)
    (hsuper : ∀ v ∈ users, ∀ u ∈ start.access.users[v]?, u.isSuperuser = false)
    {callerId : Id} (hcaller : callerId ∈ users) {user : User}
    (hauthorize : db.access.authorize callerId organizationId "member.manage" = .ok user) :
    start.access.CoversRoles users organizationId := by
  by_contra hnot
  have hsuper : ∀ u ∈ db.access.users[callerId]?, u.isSuperuser = false := by
    rw [h.accounts]
    exact hsuper callerId hcaller
  obtain ⟨⟨current, hcurrent⟩, hholds⟩ := AccessDb.may_of_authorize hsuper hauthorize
  have hcurrent : start.access.getCurrentUser callerId = .ok current := by
    rw [← hcurrent, AccessDb.getCurrentUser, AccessDb.getCurrentUser, h.accounts]
  have hmanages : start.access.Manages users organizationId :=
    ⟨callerId, hcaller, ⟨current, hcurrent⟩, h.holds hnot callerId _ hholds⟩
  exact (hcondition.resolve_right hnot) hmanages

/-- A role is given to someone, in the organization only by users who have all of it. -/
theorem Contained.give {access : AccessDb} {roleId organizationId' : Id}
    (h : Contained start db users organizationId) (haccounts : access.users = db.access.users)
    (hroles : access.roles = db.access.roles) (hoffers : db.access.Offers organizationId' roleId)
    (hcovers : organizationId' = organizationId →
      start.access.CoversRoles users organizationId)
    (hholds : ∀ userId permission, access.Holds userId organizationId permission →
      db.access.Holds userId organizationId permission ∨
        (organizationId' = organizationId ∧ db.access.RoleGives roleId permission)) :
    Contained start { db with access } users organizationId where
  accounts := haccounts.trans h.accounts
  roles := hroles.trans h.roles
  bounded userId hwatched permission hnow := by
    rcases hholds userId permission hnow with hbefore | ⟨rfl, hgives⟩
    · exact h.bounded userId hwatched permission hbefore
    · exact hcovers rfl roleId (hoffers.congr h.roles) permission (hgives.congr h.roles)
  holds hnot userId permission hnow := by
    rcases hholds userId permission hnow with hbefore | ⟨hsame, -⟩
    · exact h.holds hnot userId permission hbefore
    · exact absurd (hcovers hsame) hnot
  uninvited := h.uninvited

/-- Invitations change, in the organization only by users who have everything to give. -/
theorem Contained.invite {invitations : List Invitation}
    (h : Contained start db users organizationId)
    (hnew : ∀ i ∈ invitations, i ∈ db.invitations ∨ i.status ≠ .pending ∨
      (i.organizationId = organizationId → start.access.CoversRoles users organizationId)) :
    Contained start { db with invitations } users organizationId where
  accounts := h.accounts
  roles := h.roles
  bounded := h.bounded
  holds := h.holds
  uninvited hnot i hi horganization := by
    rcases hnew i hi with hbefore | hstatus | hcovers
    · exact h.uninvited hnot i hbefore horganization
    · exact hstatus
    · exact absurd (hcovers horganization) hnot

/-- One request keeps the users contained. -/
theorem Contained.step (settings : InvitationSettings)
    (hcondition : ¬ start.access.Manages users organizationId ∨
      start.access.CoversRoles users organizationId)
    (hsuper : ∀ v ∈ users, ∀ u ∈ start.access.users[v]?, u.isSuperuser = false)
    (request : MembershipRequest) (hmade : request.MadeBy users)
    (h : Contained start db users organizationId) :
    Contained start (request.step settings db) users organizationId := by
  refine @Run.commit_invariant _ _ _ (fun db' => Contained start db' users organizationId) db
    (request.serve settings db) h fun result db' hserve => ?_
  cases request with
  | updateMemberRole callerId organizationId' userId roleSlug =>
      obtain ⟨⟨id, db₁⟩, hroute, hsame⟩ := Except.map_eq_ok.mp hserve
      cases hsame
      obtain ⟨user, memberId, roleId, hauthorize, hmember, hoffers, rfl⟩ :=
        updateMemberRole_ok hroute
      refine h.give rfl rfl hoffers ?_ ?_
      · rintro rfl
        exact h.covers hcondition hsuper hmade hauthorize
      · intro userId' permission hnow
        by_cases horganization : organizationId' = organizationId
        · exact (AccessDb.holds_setRole hoffers hnow).imp_right fun hgives =>
            ⟨horganization, hgives⟩
        · exact .inl ((AccessDb.holds_setRole_of_ne hmember horganization).mp hnow)
  | createInvitation callerId organizationId' roleSlug token now =>
      obtain ⟨⟨id, db₁⟩, hroute, hsame⟩ := Except.map_eq_ok.mp hserve
      cases hsame
      obtain ⟨user, invitation, hauthorize, rfl, rfl⟩ := createInvitation_ok hroute
      refine h.invite fun i hi => ?_
      rcases List.mem_append.mp hi with hbefore | hnew
      · exact .inl hbefore
      · rw [List.mem_singleton] at hnew
        subst hnew
        refine .inr (.inr ?_)
        rintro rfl
        exact h.covers hcondition hsuper hmade hauthorize
  | acceptInvitation callerId token now later =>
      obtain ⟨⟨id, db₁⟩, hroute, hsame⟩ := Except.map_eq_ok.mp hserve
      cases hsame
      obtain ⟨invitation, accepted, access, hrow, hpending, haccepted, hjoined, rfl⟩ :=
        acceptInvitation_ok hroute
      have hcovers : invitation.organizationId = organizationId →
          start.access.CoversRoles users organizationId := fun horganization =>
        not_not.mp fun hnot =>
          h.uninvited hnot invitation (List.mem_of_getElem? hrow) horganization hpending
      have hgiven : Contained start { db with access } users organizationId := by
        rcases hjoined with rfl | ⟨roleId, hoffers, rfl⟩
        · exact h
        · refine h.give rfl rfl hoffers hcovers fun userId permission hnow => ?_
          exact (AccessDb.holds_addRow hnow).imp_right fun hnew => ⟨hnew.1, hnew.2.2⟩
      refine hgiven.invite fun i hi => ?_
      rcases List.mem_or_eq_of_mem_set hi with hbefore | rfl
      · exact .inl hbefore
      · refine .inr (.inl ?_)
        rw [haccepted]
        decide
  | revokeInvitation callerId organizationId' invitationId =>
      obtain ⟨user, -, hroute⟩ := Except.bind_eq_ok.mp hserve
      obtain ⟨invitation, -, rfl⟩ := revoke_ok hroute
      refine h.invite fun i hi => ?_
      rcases List.mem_or_eq_of_mem_set hi with hbefore | rfl
      · exact .inl hbefore
      · refine .inr (.inl ?_)
        show InvitationStatus.revoked ≠ .pending
        decide

end

/-- However the users work together, they and those they invite keep to what they had at
the start exactly when none of them manages the members of the organization, or they had
whatever its roles give. -/
theorem no_escalation_iff (settings : InvitationSettings) (start : MembershipDb)
    (users : Set Id) (organizationId : Id)
    (hsuper : ∀ v ∈ users, ∀ u ∈ start.access.users[v]?, u.isSuperuser = false)
    (hpending : ∀ i ∈ start.invitations, i.organizationId = organizationId →
      i.status ≠ .pending) :
    (∀ requests : List MembershipRequest, (∀ request ∈ requests, request.MadeBy users) →
        start.access.Bounded
          (Run.run (fun db request => request.step settings db) start requests).access
          users organizationId) ↔
      ¬ start.access.Manages users organizationId ∨
        start.access.CoversRoles users organizationId := by
  constructor
  · intro hbounded
    by_cases hmanages : start.access.Manages users organizationId
    · -- A manager takes each of the roles.
      obtain ⟨v, hv, hmay⟩ := hmanages
      refine .inr fun roleId hoffers permission hgives => ?_
      obtain ⟨slug, hslug⟩ := hoffers
      obtain ⟨memberId, hmember⟩ : ∃ memberId,
          start.access.getMembership organizationId v = some memberId := by
        cases hmember : start.access.getMembership organizationId v with
        | none => exact absurd hmay.2 (AccessDb.not_holds_of_no_membership hmember)
        | some memberId => exact ⟨memberId, rfl⟩
      obtain ⟨user, hauthorize⟩ := AccessDb.authorize_of_may hmay
      have hstep : MembershipRequest.step settings start
          (.updateMemberRole v organizationId v slug) =
            { start with access := start.access.setRole memberId roleId } := by
        simp [MembershipRequest.step, MembershipRequest.serve, MembershipDb.updateMemberRole,
          AccessDb.updateMemberRole, hauthorize, hmember, hslug]
      have hafter := hbounded [.updateMemberRole v organizationId v slug]
        (by simpa [MembershipRequest.MadeBy] using hv)
      rw [Run.run_cons, Run.run_nil, hstep] at hafter
      exact hafter v (.inl hv) permission (AccessDb.holds_setRole_self hmember hgives)
    · exact .inl hmanages
  · intro hcondition requests hmade
    have hstep : ∀ (db : MembershipDb) (request : MembershipRequest), request.MadeBy users →
        Contained start db users organizationId →
        Contained start (request.step settings db) users organizationId :=
      fun db request hrequest h => h.step settings hcondition hsuper request hrequest
    have hcontained : Contained start
        (Run.run (fun db request => request.step settings db) start requests) users
        organizationId :=
      @Run.run_invariant_of_everyStep _ _ (fun db request => request.step settings db)
        (fun _ request => request.MadeBy users)
        (fun db => Contained start db users organizationId) hstep requests start
        (Run.everyStep_of_forall hmade) (contained_start start users hpending)
    exact hcontained.bounded

/-! ## An owner and an admin -/

/-- An organization with the system roles, an owner and an admin, and an outsider. -/
def ownerAndAdmin : MembershipDb where
  access :=
    { users := [⟨true, false, none⟩, ⟨true, false, none⟩, ⟨true, false, none⟩]
      roles := SystemRole.all.map fun r => ⟨r.slug, some 0, defaultRolePermissions r⟩
      members := [⟨0, 0, 0, none⟩, ⟨0, 1, 1, none⟩] }
  organizations := [⟨"Studio", none⟩]
  invitations := []

/-- Invitations for a week; a token is its own hash. -/
def plainSettings : InvitationSettings := ⟨7, id⟩

theorem ownerAndAdmin_ordinary (users : Set Id) :
    ∀ v ∈ users, ∀ u ∈ ownerAndAdmin.access.users[v]?, u.isSuperuser = false := by
  intro v _ u hu
  have hall : ∀ u ∈ ownerAndAdmin.access.users, u.isSuperuser = false := by decide
  exact hall u (List.mem_of_getElem? hu)

/-- The owner has whatever the system roles give. -/
theorem owner_coversRoles : ownerAndAdmin.access.CoversRoles {0} 0 := by
  intro roleId _ permission hgives
  obtain ⟨role, hrole, hpermission⟩ := hgives
  have hall : ∀ role ∈ ownerAndAdmin.access.roles, ∀ p ∈ role.permissions,
      p ∈ ownerAndAdmin.access.getPermissionsForUser 0 0 := by decide +kernel
  exact ⟨0, rfl, hall role (List.mem_of_getElem? hrole) permission hpermission⟩

/-- `POST /organizations/0/invitations` for an owner, and the outsider accepts. -/
def inviteOwner (callerId : Id) : List MembershipRequest :=
  [.createInvitation callerId 0 "owner" "token" 0, .acceptInvitation 2 "token" 60 60]

/-- An owner who invites another one stays inside the bound. -/
theorem owner_bounded :
    ownerAndAdmin.access.Bounded
      (Run.run (fun db request => request.step plainSettings db) ownerAndAdmin
        (inviteOwner 0)).access {0} 0 :=
  (no_escalation_iff plainSettings ownerAndAdmin {0} 0 (ownerAndAdmin_ordinary {0})
    fun _ hi => nomatch hi).mpr (.inr owner_coversRoles) (inviteOwner 0)
    (by simp [inviteOwner, MembershipRequest.MadeBy])

/-- The admin takes the owner's role, or lets the outsider have it: both may then delete
the organization, which the admin could not. -/
theorem admin_takes_ownership :
    let after (requests : List MembershipRequest) : AccessDb :=
      (Run.run (fun db request => request.step plainSettings db) ownerAndAdmin requests).access
    ¬ ownerAndAdmin.access.HeldBy {1} 0 "organization.delete" ∧
      (after [.updateMemberRole 1 0 1 "owner"]).Holds 1 0 "organization.delete" ∧
      ¬ ownerAndAdmin.access.Bounded (after [.updateMemberRole 1 0 1 "owner"]) {1} 0 ∧
      (after (inviteOwner 1)).Holds 2 0 "organization.delete" ∧
      ¬ ownerAndAdmin.access.Bounded (after (inviteOwner 1)) {1} 0 := by
  intro after
  have hnot : ¬ ownerAndAdmin.access.HeldBy {1} 0 "organization.delete" := by
    rintro ⟨v, hv, hholds⟩
    rw [Set.mem_singleton_iff.mp hv] at hholds
    exact absurd hholds (by decide +kernel)
  have hpromoted : (after [.updateMemberRole 1 0 1 "owner"]).Holds 1 0 "organization.delete" := by
    decide +kernel
  have hinvited : (after (inviteOwner 1)).Holds 2 0 "organization.delete" := by decide +kernel
  refine ⟨hnot, hpromoted, ?_, hinvited, ?_⟩
  · intro hbounded
    exact hnot (hbounded 1 (.inl rfl) _ hpromoted)
  · intro hbounded
    exact hnot (hbounded 2 (.inr (by decide)) _ hinvited)

end YoutubeFactory.Access
