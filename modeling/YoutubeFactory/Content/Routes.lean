import YoutubeFactory.Lib.Tenancy
import YoutubeFactory.Access.Membership
import YoutubeFactory.Content.Tables

/-!
# Content routes

The routes of `app/api/v1/routes/content.py` over the services of `content.py`, and those
of `invitations.py` that lie under an organization.  The permission is checked on the
organization of the path; a workspace, a project or an invitation is then taken by its id
alone.

So a request stays inside the organization exactly when what it names is the
organization's, or it is refused for another reason (`tenant_stays_inside_iff`).
-/

namespace YoutubeFactory.Content

open Access Tenancy

/-! ## State -/

/-- The tables the routes use. -/
structure TenantDb where
  membership : MembershipDb
  content : ContentDb

/-! ## Bodies -/

structure WorkspaceCreate where
  name : String
  slug : Option String
  name_bounds : 2 ≤ name.length ∧ name.length ≤ 255

structure ProjectCreate where
  name : String
  slug : Option String
  description : Option String
  name_bounds : 2 ≤ name.length ∧ name.length ≤ 255
  description_bound : ∀ d ∈ description, d.length ≤ 2048

structure VideoCreate where
  title : String
  description : Option String
  title_bounds : 1 ≤ title.length ∧ title.length ≤ 512

/-- `slug or slugify(name)` -/
def slugOr (slug : Option String) (name : String) : String :=
  (slug.filter (· ≠ "")).getD (slugify name)

/-- The slug with a suffix if it is in use. -/
def freeSlug (used : Bool) (slug suffix : String) : String :=
  if used then slug ++ "-" ++ suffix else slug

/-! ## Services -/

namespace ContentDb

/-- The slug `WorkspaceService.create` gives a workspace. -/
def workspaceSlug (db : ContentDb) (organizationId : Id) (body : WorkspaceCreate)
    (suffix : String) : String :=
  let slug := slugOr body.slug body.name
  freeSlug (db.workspaces.any fun w =>
    w.organizationId = organizationId ∧ w.slug = slug ∧ w.deletedAt = none) slug suffix

/-- `WorkspaceService.create`.  The organization is a foreign key, and the constraint on
organization and slug counts deleted workspaces too. -/
def createWorkspace (db : ContentDb) (organizations : Nat) (organizationId : Id)
    (body : WorkspaceCreate) (actorId : Id) (suffix : String) (now : DateTime) :
    Except ApiError (Id × ContentDb) :=
  let slug := db.workspaceSlug organizationId body suffix
  if organizations ≤ organizationId then .error .integrity
  else if db.workspaces.any fun w => w.organizationId = organizationId ∧ w.slug = slug then
    .error .integrity
  else
    let workspace : Workspace :=
      { organizationId
        name := body.name
        slug
        createdBy := some actorId
        createdAt := now
        deletedAt := none }
    .ok (db.workspaces.length, { db with workspaces := db.workspaces ++ [workspace] })

/-- `WorkspaceService.list` -/
def listWorkspaces (db : ContentDb) (organizationId : Id) (params : PageParams) :
    Page Workspace :=
  paginate Workspace.createdAt
    (fun w => w.organizationId = organizationId ∧ w.deletedAt = none) db.workspaces params

/-- The slug `ProjectService.create` gives a project. -/
def projectSlug (db : ContentDb) (workspaceId : Id) (body : ProjectCreate) (suffix : String) :
    String :=
  let slug := slugOr body.slug body.name
  freeSlug (db.projects.any fun p =>
    p.workspaceId = workspaceId ∧ p.slug = slug ∧ p.deletedAt = none) slug suffix

/-- A project can be added to the workspace: the workspace is a foreign key, and the
constraint on workspace and slug counts deleted projects too. -/
def projectFits (db : ContentDb) (workspaceId : Id) (slug : String) : Bool :=
  decide (workspaceId < db.workspaces.length) &&
    !db.projects.any fun p => p.workspaceId = workspaceId ∧ p.slug = slug

/-- The row `ProjectService.create` adds. -/
def newProject (workspaceId : Id) (body : ProjectCreate) (slug : String) (actorId : Id)
    (now : DateTime) : Project where
  workspaceId
  name := body.name
  slug
  description := body.description
  status := "active"
  createdBy := some actorId
  createdAt := now
  deletedAt := none

/-- `ProjectService.create` -/
def createProject (db : ContentDb) (workspaceId : Id) (body : ProjectCreate) (actorId : Id)
    (suffix : String) (now : DateTime) : Except ApiError (Id × ContentDb) :=
  let slug := db.projectSlug workspaceId body suffix
  if db.projectFits workspaceId slug then
    .ok (db.projects.length,
      { db with projects := db.projects ++ [newProject workspaceId body slug actorId now] })
  else .error .integrity

/-- `ProjectService.list` -/
def listProjects (db : ContentDb) (workspaceId : Id) (params : PageParams) : Page Project :=
  paginate Project.createdAt
    (fun p => p.workspaceId = workspaceId ∧ p.deletedAt = none) db.projects params

/-- The row `VideoService.create` adds. -/
def newVideo (projectId : Id) (body : VideoCreate) (actorId : Id) (now : DateTime) : Video where
  projectId
  channelId := none
  title := body.title
  description := body.description
  status := "draft"
  createdBy := some actorId
  createdAt := now
  deletedAt := none

/-- `VideoService.create`.  The project is a foreign key. -/
def createVideo (db : ContentDb) (projectId : Id) (body : VideoCreate) (actorId : Id)
    (now : DateTime) : Except ApiError (Id × ContentDb) :=
  if projectId < db.projects.length then
    .ok (db.videos.length,
      { db with videos := db.videos ++ [newVideo projectId body actorId now] })
  else .error .integrity

/-- `VideoService.list` -/
def listVideos (db : ContentDb) (projectId : Id) (params : PageParams) : Page Video :=
  paginate Video.createdAt
    (fun v => v.projectId = projectId ∧ v.deletedAt = none) db.videos params

end ContentDb

/-- `InvitationService.list_for_org` -/
def listForOrg (db : MembershipDb) (organizationId : Id) : List (Invitation × Id) :=
  db.invitations.zipIdx.filter fun i =>
    i.1.organizationId = organizationId ∧ i.1.deletedAt = none

/-! ## Routes -/

/-- A request under `/organizations/{organization_id}`. -/
inductive TenantRequest where
  | createWorkspace (body : WorkspaceCreate) (suffix : String) (now : DateTime)
  | listWorkspaces (params : PageParams)
  | createProject (workspaceId : Id) (body : ProjectCreate) (suffix : String) (now : DateTime)
  | listProjects (workspaceId : Id) (params : PageParams)
  | createVideo (projectId : Id) (body : VideoCreate) (now : DateTime)
  | listVideos (projectId : Id) (params : PageParams)
  | createInvitation (roleSlug token : String) (now : DateTime)
  | listInvitations
  | revokeInvitation (invitationId : Id)

/-- What a route answers with. -/
inductive TenantResponse where
  | workspace (id : Id)
  | workspaces (page : Page Workspace)
  | project (id : Id)
  | projects (page : Page Project)
  | video (id : Id)
  | videos (page : Page Video)
  | invitation (id : Id)
  | invitations (rows : List (Invitation × Id))
  | revoked

namespace TenantRequest

/-- The permission the route requires. -/
def permission : TenantRequest → String
  | .createWorkspace _ _ _ => "project.create"
  | .listWorkspaces _ => "analytics.read"
  | .createProject _ _ _ _ => "project.create"
  | .listProjects _ _ => "analytics.read"
  | .createVideo _ _ _ => "video.create"
  | .listVideos _ _ => "analytics.read"
  | .createInvitation _ _ _ => "member.manage"
  | .listInvitations => "member.manage"
  | .revokeInvitation _ => "member.manage"

/-- The routes ask for permissions of the catalogue. -/
theorem permission_mem (request : TenantRequest) : request.permission ∈ allPermissions := by
  cases request <;> simp [permission, allPermissions]

/-- The body of the route, after the permission check. -/
def body (settings : InvitationSettings) (db : TenantDb) (userId organizationId : Id) :
    TenantRequest → Except ApiError (TenantResponse × TenantDb)
  | .createWorkspace body suffix now => do
      let (id, content) ← db.content.createWorkspace db.membership.organizations.length
        organizationId body userId suffix now
      return (.workspace id, { db with content })
  | .listWorkspaces params =>
      return (.workspaces (db.content.listWorkspaces organizationId params), db)
  | .createProject workspaceId body suffix now => do
      let (id, content) ← db.content.createProject workspaceId body userId suffix now
      return (.project id, { db with content })
  | .listProjects workspaceId params =>
      return (.projects (db.content.listProjects workspaceId params), db)
  | .createVideo projectId body now => do
      let (id, content) ← db.content.createVideo projectId body userId now
      return (.video id, { db with content })
  | .listVideos projectId params =>
      return (.videos (db.content.listVideos projectId params), db)
  | .createInvitation roleSlug token now => do
      let _ ← db.membership.getOrganization organizationId
      let (id, membership) ← db.membership.invite settings organizationId userId roleSlug token now
      return (.invitation id, { db with membership })
  | .listInvitations => return (.invitations (listForOrg db.membership organizationId), db)
  | .revokeInvitation invitationId => do
      let ((), membership) ← db.membership.revoke invitationId
      return (.revoked, { db with membership })

/-- The route, with the database it leaves. -/
def serve (settings : InvitationSettings) (db : TenantDb) (userId organizationId : Id)
    (request : TenantRequest) : Except ApiError (TenantResponse × TenantDb) := do
  let _ ← db.membership.access.authorize userId organizationId request.permission
  request.body settings db userId organizationId

/-- The request in its transaction. -/
def step (settings : InvitationSettings) (db : TenantDb) (userId organizationId : Id)
    (request : TenantRequest) : TenantDb :=
  Run.commit db (request.serve settings db userId organizationId)

variable {settings : InvitationSettings} {db : TenantDb} {userId organizationId : Id}

/-- The invitation routes are the ones of the membership tables. -/
theorem serve_createInvitation (roleSlug token : String) (now : DateTime) :
    (createInvitation roleSlug token now).serve settings db userId organizationId =
      (db.membership.createInvitation settings userId organizationId roleSlug token now).map
        fun r => (.invitation r.1, { db with membership := r.2 }) := by
  simp only [serve, body, permission, MembershipDb.createInvitation]
  cases db.membership.access.authorize userId organizationId "member.manage" with
  | error e => rfl
  | ok user =>
      cases db.membership.getOrganization organizationId with
      | error e => rfl
      | ok organization =>
          simp only [Except.ok_bind]
          cases db.membership.invite settings organizationId userId roleSlug token now <;> rfl

theorem serve_revokeInvitation (invitationId : Id) :
    (revokeInvitation invitationId).serve settings db userId organizationId =
      (db.membership.revokeInvitation userId organizationId invitationId).map
        fun r => (.revoked, { db with membership := r.2 }) := by
  simp only [serve, body, permission, MembershipDb.revokeInvitation]
  cases db.membership.access.authorize userId organizationId "member.manage" with
  | error e => rfl
  | ok user =>
      simp only [Except.ok_bind]
      cases db.membership.revoke invitationId <;> rfl

end TenantRequest

/-! ## Requests that stay inside -/

/-- What the request names is the organization's. -/
def TenantRequest.Belongs (db : TenantDb) (organizationId : Id) : TenantRequest → Prop
  | .createProject workspaceId _ _ _ =>
      db.content.workspaceOrganization workspaceId = some organizationId
  | .listProjects workspaceId _ =>
      db.content.workspaceOrganization workspaceId = some organizationId
  | .createVideo projectId _ _ => db.content.projectOrganization projectId = some organizationId
  | .listVideos projectId _ => db.content.projectOrganization projectId = some organizationId
  | .revokeInvitation invitationId =>
      ∃ i, db.membership.invitations[invitationId]? = some i ∧ i.organizationId = organizationId
  | _ => True

/-- The body of the request does not raise: a row can be added under the one that is named,
an invitation is not deleted. -/
def TenantRequest.Fits (db : TenantDb) : TenantRequest → Prop
  | .createProject workspaceId body suffix _ =>
      db.content.projectFits workspaceId (db.content.projectSlug workspaceId body suffix) = true
  | .createVideo projectId _ _ => projectId < db.content.projects.length
  | .revokeInvitation invitationId =>
      ∃ i, db.membership.invitations[invitationId]? = some i ∧ i.deletedAt = none
  | _ => True

/-- The answer shows rows of the organization only. -/
def TenantResponse.Inside (db : TenantDb) (organizationId : Id) : TenantResponse → Prop
  | .workspaces page => ∀ row ∈ page.items, row.1.organizationId = organizationId
  | .projects page =>
      ∀ row ∈ page.items, db.content.workspaceOrganization row.1.workspaceId = some organizationId
  | .videos page =>
      ∀ row ∈ page.items, db.content.projectOrganization row.1.projectId = some organizationId
  | .invitations rows => ∀ row ∈ rows, row.1.organizationId = organizationId
  | _ => True

/-- Rows of the organization only are changed or added. -/
structure ChangesInside (db db' : TenantDb) (organizationId : Id) : Prop where
  access : db'.membership.access = db.membership.access
  organizations : db'.membership.organizations = db.membership.organizations
  channels : db'.content.channels = db.content.channels
  workspaces : ChangesOnly (fun w : Workspace => w.organizationId = organizationId)
    db.content.workspaces db'.content.workspaces
  projects : ChangesOnly
    (fun p : Project => db.content.workspaceOrganization p.workspaceId = some organizationId)
    db.content.projects db'.content.projects
  videos : ChangesOnly
    (fun v : Video => db.content.projectOrganization v.projectId = some organizationId)
    db.content.videos db'.content.videos
  invitations : ChangesOnly (fun i : Invitation => i.organizationId = organizationId)
    db.membership.invitations db'.membership.invitations

/-- The request shows and changes rows of the organization only, and is refused without a
trace if it names another one's. -/
structure StaysInside (settings : InvitationSettings) (db : TenantDb) (userId organizationId : Id)
    (request : TenantRequest) : Prop where
  shows : ∀ response db', request.serve settings db userId organizationId = .ok (response, db') →
    response.Inside db organizationId
  changes : ChangesInside db (request.step settings db userId organizationId) organizationId
  refused : ¬ request.Belongs db organizationId →
    (∃ e, request.serve settings db userId organizationId = .error e) ∧
      request.step settings db userId organizationId = db

section

variable {settings : InvitationSettings} {db db' : TenantDb} {userId organizationId : Id}
  {request : TenantRequest} {response : TenantResponse}

theorem ChangesInside.refl (db : TenantDb) (organizationId : Id) :
    ChangesInside db db organizationId where
  access := rfl
  organizations := rfl
  channels := rfl
  workspaces := .refl _
  projects := .refl _
  videos := .refl _
  invitations := .refl _

/-- A request that is refused stays inside. -/
theorem staysInside_of_error
    (h : ∃ e, request.serve settings db userId organizationId = .error e) :
    StaysInside settings db userId organizationId request := by
  obtain ⟨e, he⟩ := h
  have hstep : request.step settings db userId organizationId = db := by
    rw [TenantRequest.step, he, Run.commit_error]
  constructor
  · intro response db' hserve
    rw [he] at hserve
    cases hserve
  · rw [hstep]
    exact .refl db organizationId
  · exact fun _ => ⟨⟨e, he⟩, hstep⟩

/-- What a body that returns has shown and changed, if it names what is the
organization's. -/
theorem body_ok (hbelongs : request.Belongs db organizationId)
    (h : request.body settings db userId organizationId = .ok (response, db')) :
    response.Inside db organizationId ∧ ChangesInside db db' organizationId := by
  cases request with
  | createWorkspace body suffix now =>
      obtain ⟨⟨id, content⟩, hcreate, h⟩ := Except.bind_eq_ok.mp h
      cases h
      unfold ContentDb.createWorkspace at hcreate
      dsimp only at hcreate
      split at hcreate
      · cases hcreate
      · split at hcreate
        · cases hcreate
        · cases hcreate
          exact ⟨trivial, { ChangesInside.refl db organizationId with workspaces := .append rfl }⟩
  | listWorkspaces params =>
      cases h
      refine ⟨fun row hrow => ?_, .refl db organizationId⟩
      have hpasses := (mem_paginate hrow).2
      exact (of_decide_eq_true hpasses).1
  | createProject workspaceId body suffix now =>
      obtain ⟨⟨id, content⟩, hcreate, h⟩ := Except.bind_eq_ok.mp h
      cases h
      unfold ContentDb.createProject at hcreate
      dsimp only at hcreate
      split at hcreate
      · cases hcreate
        exact ⟨trivial, { ChangesInside.refl db organizationId with
          projects := .append hbelongs }⟩
      · cases hcreate
  | listProjects workspaceId params =>
      cases h
      refine ⟨fun row hrow => ?_, .refl db organizationId⟩
      have hpasses := (mem_paginate hrow).2
      rw [(of_decide_eq_true hpasses).1]
      exact hbelongs
  | createVideo projectId body now =>
      obtain ⟨⟨id, content⟩, hcreate, h⟩ := Except.bind_eq_ok.mp h
      cases h
      unfold ContentDb.createVideo at hcreate
      split at hcreate
      · cases hcreate
        exact ⟨trivial, { ChangesInside.refl db organizationId with videos := .append hbelongs }⟩
      · cases hcreate
  | listVideos projectId params =>
      cases h
      refine ⟨fun row hrow => ?_, .refl db organizationId⟩
      have hpasses := (mem_paginate hrow).2
      rw [(of_decide_eq_true hpasses).1]
      exact hbelongs
  | createInvitation roleSlug token now =>
      obtain ⟨organization, -, h⟩ := Except.bind_eq_ok.mp h
      obtain ⟨⟨id, membership⟩, hinvite, h⟩ := Except.bind_eq_ok.mp h
      cases h
      obtain ⟨invitation, horganization, rfl⟩ := invite_ok hinvite
      exact ⟨trivial, { ChangesInside.refl db organizationId with
        invitations := .append horganization }⟩
  | listInvitations =>
      cases h
      refine ⟨fun row hrow => ?_, .refl db organizationId⟩
      have hpasses := (List.mem_filter.mp hrow).2
      exact (of_decide_eq_true hpasses).1
  | revokeInvitation invitationId =>
      obtain ⟨⟨u, membership⟩, hrevoke, h⟩ := Except.bind_eq_ok.mp h
      cases h
      obtain ⟨invitation, hrow, rfl⟩ := revoke_ok hrevoke
      obtain ⟨invitation', hrow', horganization⟩ := hbelongs
      rw [hrow, Option.some.injEq] at hrow'
      subst hrow'
      exact ⟨trivial, { ChangesInside.refl db organizationId with
        invitations := .set hrow horganization horganization }⟩

/-- A request that names what is another organization's is carried out all the same, if
nothing else is in the way. -/
theorem body_of_fits (hfits : request.Fits db) (hforeign : ¬ request.Belongs db organizationId) :
    ∃ r, request.body settings db userId organizationId = .ok r := by
  cases request with
  | createWorkspace body suffix now => exact absurd trivial hforeign
  | listWorkspaces params => exact absurd trivial hforeign
  | createProject workspaceId body suffix now =>
      exact ⟨_, Except.bind_eq_ok.mpr ⟨_, if_pos hfits, rfl⟩⟩
  | listProjects workspaceId params => exact ⟨_, rfl⟩
  | createVideo projectId body now =>
      exact ⟨_, Except.bind_eq_ok.mpr ⟨_, if_pos hfits, rfl⟩⟩
  | listVideos projectId params => exact ⟨_, rfl⟩
  | createInvitation roleSlug token now => exact absurd trivial hforeign
  | listInvitations => exact absurd trivial hforeign
  | revokeInvitation invitationId =>
      obtain ⟨invitation, hrow, hdeleted⟩ := hfits
      refine ⟨_, Except.bind_eq_ok.mpr ⟨((), ?_), ?_, rfl⟩⟩
      · exact { db.membership with invitations :=
          db.membership.invitations.set invitationId { invitation with status := .revoked } }
      · simp [MembershipDb.revoke, hrow, hdeleted]

theorem body_of_not_fits (hfits : ¬ request.Fits db) :
    ∃ e, request.body settings db userId organizationId = .error e := by
  cases request with
  | createWorkspace body suffix now => exact absurd trivial hfits
  | listWorkspaces params => exact absurd trivial hfits
  | createProject workspaceId body suffix now =>
      exact ⟨.integrity, Except.bind_eq_error.mpr (.inl (if_neg hfits))⟩
  | listProjects workspaceId params => exact absurd trivial hfits
  | createVideo projectId body now =>
      exact ⟨.integrity, Except.bind_eq_error.mpr (.inl (if_neg hfits))⟩
  | listVideos projectId params => exact absurd trivial hfits
  | createInvitation roleSlug token now => exact absurd trivial hfits
  | listInvitations => exact absurd trivial hfits
  | revokeInvitation invitationId =>
      refine ⟨.notFound "Invitation not found." [], Except.bind_eq_error.mpr (.inl ?_)⟩
      cases hrow : db.membership.invitations[invitationId]? with
      | none => simp [MembershipDb.revoke, hrow]
      | some invitation =>
          cases hdeleted : invitation.deletedAt with
          | none => exact absurd ⟨invitation, hrow, hdeleted⟩ hfits
          | some moment => simp [MembershipDb.revoke, hrow, hdeleted]

end

/-- A request of a user who is no superuser stays inside the organization of its path
exactly when what it names is the organization's, or the user may not make it there, or it
does not fit the tables. -/
theorem tenant_stays_inside_iff (settings : InvitationSettings) (db : TenantDb)
    (userId organizationId : Id)
    (hsuper : ∀ u ∈ db.membership.access.users[userId]?, u.isSuperuser = false)
    (request : TenantRequest) :
    StaysInside settings db userId organizationId request ↔
      request.Belongs db organizationId ∨
        ¬ db.membership.access.May userId organizationId request.permission ∨
        ¬ request.Fits db := by
  by_cases hmay : db.membership.access.May userId organizationId request.permission
  · obtain ⟨user, hauthorize⟩ := AccessDb.authorize_of_may hmay
    have hserve : request.serve settings db userId organizationId =
        request.body settings db userId organizationId := by
      rw [TenantRequest.serve, hauthorize, Except.ok_bind]
    by_cases hfits : request.Fits db
    · by_cases hbelongs : request.Belongs db organizationId
      · refine iff_of_true ⟨?_, ?_, fun hforeign => absurd hbelongs hforeign⟩ (.inl hbelongs)
        · intro response db' hok
          rw [hserve] at hok
          exact (body_ok hbelongs hok).1
        · rw [TenantRequest.step, hserve]
          cases hbody : request.body settings db userId organizationId with
          | error e => exact .refl db organizationId
          | ok r => exact (body_ok hbelongs hbody).2
      · refine iff_of_false (fun hstays => ?_) (by simp [hbelongs, hmay, hfits])
        obtain ⟨⟨e, hrefused⟩, -⟩ := hstays.refused hbelongs
        obtain ⟨r, hbody⟩ := @body_of_fits settings _ userId _ _ hfits hbelongs
        rw [hserve, hbody] at hrefused
        cases hrefused
    · refine iff_of_true (staysInside_of_error ?_) (.inr (.inr hfits))
      rw [hserve]
      exact body_of_not_fits hfits
  · refine iff_of_true (staysInside_of_error ?_) (.inr (.inl hmay))
    obtain ⟨e, hauthorize⟩ := AccessDb.authorize_of_not_may hsuper hmay
    exact ⟨e, by rw [TenantRequest.serve, hauthorize, Except.error_bind]⟩

/-! ## Two organizations -/

/-- Two organizations with an owner each.  The first has a workspace, a project in it, a
video in that, and a pending invitation. -/
def twoTenants : TenantDb where
  membership :=
    { access :=
        { users := [⟨true, false, none⟩, ⟨true, false, none⟩]
          roles := [⟨"owner", some 0, defaultRolePermissions .owner⟩,
            ⟨"owner", some 1, defaultRolePermissions .owner⟩]
          members := [⟨0, 0, 0, none⟩, ⟨1, 1, 1, none⟩] }
      organizations := [⟨"First", none⟩, ⟨"Second", none⟩]
      invitations := [⟨0, 0, 0, "hash", .pending, 604800, none, none⟩] }
  content :=
    { workspaces := [⟨0, "Main", "main", some 0, 0, none⟩]
      projects := [⟨0, "Pilot", "pilot", none, "active", some 0, 0, none⟩]
      channels := []
      videos := [⟨0, none, "Trailer", none, "draft", some 0, 0, none⟩] }

def firstPage : PageParams := ⟨1, 20, by decide, by decide, by decide⟩

/-- Requests of the second owner, under the second organization, for what the first has. -/
def foreignRequests : List TenantRequest :=
  [.createProject 0 ⟨"Intruder", none, none, by decide, by simp⟩ "a1b2c3" 60,
    .listProjects 0 firstPage,
    .createVideo 0 ⟨"Intruder", none, by decide⟩ 60,
    .listVideos 0 firstPage,
    .revokeInvitation 0]

theorem twoTenants_ordinary {userId : Id} :
    ∀ u ∈ twoTenants.membership.access.users[userId]?, u.isSuperuser = false := by
  intro u hu
  have hall : ∀ u ∈ twoTenants.membership.access.users, u.isSuperuser = false := by decide
  exact hall u (List.mem_of_getElem? hu)

theorem secondOwner_may (request : TenantRequest) :
    twoTenants.membership.access.May 1 1 request.permission := by
  have howner : ∀ p ∈ allPermissions, twoTenants.membership.access.Holds 1 1 p := by
    decide +kernel
  exact ⟨⟨_, rfl⟩, howner _ request.permission_mem⟩

/-- The first owner adds a project to a workspace of the first organization. -/
theorem own_project_stays_inside :
    StaysInside plainSettings twoTenants 0 0
      (.createProject 0 ⟨"Second pilot", none, none, by decide, by simp⟩ "a1b2c3" 60) :=
  (tenant_stays_inside_iff plainSettings twoTenants 0 0 twoTenants_ordinary _).mpr (.inl rfl)

/-- The second owner has no permission in the first organization, and reaches its
workspace, its project and its invitation. -/
theorem foreign_rows_reached :
    (∀ other permission, twoTenants.membership.access.Holds 1 other permission → other = 1) ∧
      (∀ request ∈ foreignRequests, ¬ StaysInside plainSettings twoTenants 1 1 request) ∧
      ((TenantRequest.revokeInvitation 0).step plainSettings twoTenants 1
        1).membership.invitations.map (·.status) = [.revoked] := by
  refine ⟨?_, ?_, ?_⟩
  · intro other permission hholds
    obtain ⟨role, hrole, -⟩ := AccessDb.holds_iff.mp hholds
    obtain ⟨m, hm, hgives⟩ := List.exists_of_findSome?_eq_some hrole
    have hrows : ∀ m ∈ twoTenants.membership.access.members, m.userId = 1 →
        m.organizationId = 1 := by decide
    unfold AccessDb.roleIn at hgives
    split at hgives
    · next hlive => exact hlive.2.1.symm.trans (hrows m hm hlive.1)
    · cases hgives
  · intro request hrequest hstays
    have hforeign : ¬ request.Belongs twoTenants 1 := by
      simp only [foreignRequests, List.mem_cons, List.not_mem_nil, or_false] at hrequest
      rcases hrequest with rfl | rfl | rfl | rfl | rfl
      · exact fun h => absurd (Option.some.inj h) (by decide)
      · exact fun h => absurd (Option.some.inj h) (by decide)
      · exact fun h => absurd (Option.some.inj h) (by decide)
      · exact fun h => absurd (Option.some.inj h) (by decide)
      · rintro ⟨i, hi, horganization⟩
        cases hi
        cases horganization
    have hfits : request.Fits twoTenants := by
      simp only [foreignRequests, List.mem_cons, List.not_mem_nil, or_false] at hrequest
      rcases hrequest with rfl | rfl | rfl | rfl | rfl
      · show twoTenants.content.projectFits 0 _ = true
        decide +kernel
      · trivial
      · exact Nat.zero_lt_one
      · trivial
      · exact ⟨_, rfl, rfl⟩
    obtain ⟨e, hrefused⟩ := (hstays.refused hforeign).1
    obtain ⟨user, hauthorize⟩ := AccessDb.authorize_of_may (secondOwner_may request)
    obtain ⟨r, hbody⟩ := @body_of_fits plainSettings _ 1 _ _ hfits hforeign
    rw [TenantRequest.serve, hauthorize, Except.ok_bind, hbody] at hrefused
    cases hrefused
  · decide +kernel

end YoutubeFactory.Content
