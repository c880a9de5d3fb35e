import YoutubeFactory.Access.ApiKeys
import YoutubeFactory.Content.Tables
import YoutubeFactory.Billing.Periods
import Mathlib.Data.List.Dedup

/-!
# The public API

The routes of `app/api/public/v1.py`.  A route checks that the key has the route's scope
and is bound to an organization, and that what the request names is the organization's.
What the owner of the key may do is not looked at.

So every request that is served is lawful exactly when the owner of the key still has the
permissions of two of its scopes (`served_lawfully_iff`).
-/

namespace YoutubeFactory.PublicApi

open Access Content Python

/-! ## State -/

structure PipelineRun where
  videoId : Id
  stage : String
  error : Option String
  startedAt : Option DateTime
  finishedAt : Option DateTime
  /-- What each stage produced. -/
  artifacts : List (String × Json)
  createdAt : DateTime

structure PublicDb where
  access : AccessDb
  keys : List ApiKey
  content : ContentDb
  runs : List PipelineRun
  books : Billing.Books

/-- The headers of a request and the moments its authentication reads. -/
structure Presented where
  library : KeyLibrary
  headers : RequestHeaders
  now : DateTime
  later : DateTime

/-! ## Payloads -/

structure PublicMeta where
  total : Nat
  page : Nat
  size : Nat
  hasNext : Bool

structure PublicList (Item : Type) where
  data : List Item
  pageMeta : PublicMeta

structure KeyInfo where
  keyId : Id
  name : String
  organizationId : Option Id
  scopes : List String

structure PublicChannel where
  id : Id
  projectId : Id
  name : String
  youtubeChannelId : Option String
  handle : Option String
  isConnected : Bool
  createdAt : DateTime

structure PublicVideo where
  id : Id
  projectId : Id
  channelId : Option Id
  title : String
  description : Option String
  status : String
  createdAt : DateTime

structure PublicVideoCreate where
  projectId : Id
  title : String
  description : Option String
  channelId : Option Id
  title_bounds : 1 ≤ title.length ∧ title.length ≤ 200
  description_bound : ∀ d ∈ description, d.length ≤ 5000

structure PublicPipelineRun where
  id : Id
  videoId : Id
  stage : String
  error : Option String
  startedAt : Option DateTime
  finishedAt : Option DateTime
  artifacts : List (String × List (String × Json))

structure PublicUsage where
  metric : String
  used : ℚ
  limit : Int
  remaining : Int
  exceeded : Bool

def PublicChannel.ofRow (row : Channel × Id) : PublicChannel where
  id := row.2
  projectId := row.1.projectId
  name := row.1.name
  youtubeChannelId := row.1.youtubeChannelId
  handle := row.1.handle
  isConnected := row.1.isConnected
  createdAt := row.1.createdAt

def PublicVideo.ofRow (row : Video × Id) : PublicVideo where
  id := row.2
  projectId := row.1.projectId
  channelId := row.1.channelId
  title := row.1.title
  description := row.1.description
  status := row.1.status
  createdAt := row.1.createdAt

/-- `_public_run`: storage addresses are left out. -/
def publicRun (row : PipelineRun × Id) : PublicPipelineRun where
  id := row.2
  videoId := row.1.videoId
  stage := row.1.stage
  error := row.1.error
  startedAt := row.1.startedAt
  finishedAt := row.1.finishedAt
  artifacts := row.1.artifacts.filterMap fun (stage, data) =>
    match data with
    | .dict entries => some (stage, entries.filter fun e => e.1 ≠ "storage_key")
    | _ => none

/-- `_meta` -/
def metaOf (total : Nat) (params : PageParams) : PublicMeta where
  total
  page := params.page
  size := params.limit
  hasNext := params.page * params.limit < total

/-- The rows of a page in their published form. -/
def publicPage {Row Item : Type} (publish : Row × Id → Item) (page : Page Row)
    (params : PageParams) : PublicList Item where
  data := page.items.map publish
  pageMeta := metaOf page.total params

/-! ## Usage -/

/-- `int(x)`, towards zero. -/
def truncate (q : ℚ) : Int := q.num.tdiv q.den

/-- A quota and what has been used of it, on an exact total. -/
def publicUsage (books : Billing.Books) (organizationId : Id) (since : Billing.Date)
    (metric : String) (limit : ℚ) : PublicUsage :=
  let used := books.totalForMetric organizationId metric id since
  let remaining := truncate limit - truncate used
  { metric
    used
    limit := truncate limit
    remaining := max remaining 0
    exceeded := remaining < 0 }

/-! ## Routes -/

/-- The row `create_video` adds. -/
def PublicVideoCreate.video (body : PublicVideoCreate) (createdAt : DateTime) : Video where
  projectId := body.projectId
  channelId := body.channelId
  title := body.title
  description := body.description
  status := "draft"
  createdBy := none
  createdAt
  deletedAt := none

namespace PublicDb

/-- `_project_ids_for_org` -/
def projectIdsForOrg (db : PublicDb) (organizationId : Id) : List Id :=
  (List.range db.content.projects.length).filter fun id =>
    db.content.projectOrganization id = some organizationId ∧
      ((db.content.projects[id]?).any fun p => p.deletedAt = none) = true

/-- `_owned_video` -/
def ownedVideo (db : PublicDb) (videoId organizationId : Id) : Except ApiError Video :=
  match db.content.videos[videoId]? with
  | none => .error (.notFound "Video not found." [])
  | some video =>
      if video.projectId ∈ db.projectIdsForOrg organizationId then .ok video
      else .error (.notFound "Video not found." [])

/-- `get_api_principal`, with the database it leaves. -/
def principal (db : PublicDb) (presented : Presented) :
    Except ApiError (ApiPrincipal × PublicDb) := do
  let (principal, keys) ← getApiPrincipal presented.library db.keys presented.headers
    presented.now presented.later
  return (principal, { db with keys })

/-- The dependency `require_scope`. -/
def withScope (db : PublicDb) (presented : Presented) (scope : String) :
    Except ApiError (ApiPrincipal × PublicDb) := do
  let (principal, db) ← db.principal presented
  principal.requireScope scope
  return (principal, db)

def whoami (db : PublicDb) (presented : Presented) : Except ApiError (KeyInfo × PublicDb) := do
  let (principal, db) ← db.principal presented
  return (⟨principal.keyId, principal.name, principal.organizationId, principal.sortedScopes⟩, db)

def listChannels (db : PublicDb) (presented : Presented) (params : PageParams) :
    Except ApiError (PublicList PublicChannel × PublicDb) := do
  let (principal, db) ← db.withScope presented "channel:read"
  let organizationId ← principal.requireOrganization
  let projectIds := db.projectIdsForOrg organizationId
  if projectIds = [] then return (⟨[], metaOf 0 params⟩, db)
  else
    let page := paginate Channel.createdAt
      (fun c => c.projectId ∈ projectIds ∧ c.deletedAt = none) db.content.channels params
    return (publicPage PublicChannel.ofRow page params, db)

def listVideos (db : PublicDb) (presented : Presented) (params : PageParams)
    (projectId : Option Id) (status : Option String) :
    Except ApiError (PublicList PublicVideo × PublicDb) := do
  let (principal, db) ← db.withScope presented "video:read"
  let organizationId ← principal.requireOrganization
  let owned := db.projectIdsForOrg organizationId
  let projectIds := match projectId with
    | none => owned
    | some p => owned.filter (· = p)
  if projectIds = [] then return (⟨[], metaOf 0 params⟩, db)
  else
    let wanted := status.getD ""
    let page := paginate Video.createdAt
      (fun v => v.projectId ∈ projectIds ∧ (wanted = "" ∨ v.status = wanted) ∧
        v.deletedAt = none) db.content.videos params
    return (publicPage PublicVideo.ofRow page params, db)

def getVideo (db : PublicDb) (presented : Presented) (videoId : Id) :
    Except ApiError (PublicVideo × PublicDb) := do
  let (principal, db) ← db.withScope presented "video:read"
  let organizationId ← principal.requireOrganization
  let video ← db.ownedVideo videoId organizationId
  return (PublicVideo.ofRow (video, videoId), db)

def createVideo (db : PublicDb) (presented : Presented) (body : PublicVideoCreate)
    (createdAt : DateTime) : Except ApiError (PublicVideo × PublicDb) := do
  let (principal, db) ← db.withScope presented "video:write"
  let organizationId ← principal.requireOrganization
  if body.projectId ∉ db.projectIdsForOrg organizationId then
    .error (.notFound "Project not found." [])
  else if body.channelId.any fun c => db.content.channels.length ≤ c then
    -- The channel is a foreign key.
    .error .integrity
  else
    let video := body.video createdAt
    return (PublicVideo.ofRow (video, db.content.videos.length),
      { db with content := { db.content with videos := db.content.videos ++ [video] } })

def listPipelineRuns (db : PublicDb) (presented : Presented) (videoId : Id)
    (params : PageParams) : Except ApiError (PublicList PublicPipelineRun × PublicDb) := do
  let (principal, db) ← db.withScope presented "pipeline:read"
  let organizationId ← principal.requireOrganization
  let _ ← db.ownedVideo videoId organizationId
  let page := paginate PipelineRun.createdAt (fun r => r.videoId = videoId) db.runs params
  return (publicPage publicRun page params, db)

def getUsage (db : PublicDb) (presented : Presented) :
    Except ApiError (List PublicUsage × PublicDb) := do
  let (principal, db) ← db.withScope presented "usage:read"
  let organizationId ← principal.requireOrganization
  match (db.books.activeSubscription organizationId).bind fun id => db.books.subscriptions[id]? with
  | none => return ([], db)
  | some subscription =>
      match db.books.plans[subscription.planId]? with
      | none => return ([], db)
      | some plan =>
          let quotas := plan.quotas.entries.insertionSort fun q q' => strLe q.1 q'.1
          return (quotas.map fun q => publicUsage db.books organizationId
            (Billing.DateTime.date subscription.currentPeriodStart) q.1 q.2, db)

end PublicDb

/-! ## Requests -/

inductive PublicRequest where
  | whoami
  | listChannels (params : PageParams)
  | listVideos (params : PageParams) (projectId : Option Id) (status : Option String)
  | getVideo (videoId : Id)
  | createVideo (body : PublicVideoCreate) (createdAt : DateTime)
  | listPipelineRuns (videoId : Id) (params : PageParams)
  | getUsage

namespace PublicRequest

/-- The scope the route requires. -/
def scope : PublicRequest → Option String
  | .whoami => none
  | .listChannels _ => some "channel:read"
  | .listVideos _ _ _ => some "video:read"
  | .getVideo _ => some "video:read"
  | .createVideo _ _ => some "video:write"
  | .listPipelineRuns _ _ => some "pipeline:read"
  | .getUsage => some "usage:read"

/-- The route, with the database it leaves. -/
def serve (db : PublicDb) (presented : Presented) :
    PublicRequest → Except ApiError (Unit × PublicDb)
  | .whoami => (db.whoami presented).map fun r => ((), r.2)
  | .listChannels params => (db.listChannels presented params).map fun r => ((), r.2)
  | .listVideos params projectId status =>
      (db.listVideos presented params projectId status).map fun r => ((), r.2)
  | .getVideo videoId => (db.getVideo presented videoId).map fun r => ((), r.2)
  | .createVideo body createdAt =>
      (db.createVideo presented body createdAt).map fun r => ((), r.2)
  | .listPipelineRuns videoId params =>
      (db.listPipelineRuns presented videoId params).map fun r => ((), r.2)
  | .getUsage => (db.getUsage presented).map fun r => ((), r.2)

end PublicRequest

/-! ## Served requests -/

/-- The headers hold a key that can be used, of the scope. -/
structure Authenticated (db : PublicDb) (presented : Presented) (keyId : Id) (key : ApiKey)
    (scope : String) : Prop where
  presents : presented.headers.Presents presented.library db.keys keyId key
  usable : key.Usable presented.now
  carries : scope ∈ key.scopes

/-- If the request is served, its key is usable and has the scope, and its owner holds in
its organization the permission the scope requires. -/
def Lawful (db : PublicDb) (presented : Presented) (request : PublicRequest) : Prop :=
  ∀ served, request.serve db presented = .ok served → ∀ scope ∈ request.scope,
    ∃ keyId key organizationId, Authenticated db presented keyId key scope ∧
      key.organizationId = some organizationId ∧
      ∀ permission ∈ scopeRequiresPermission scope,
        db.access.Holds key.userId organizationId permission

/-- The owner has the permissions that the scopes of a key need: of reading the usage, and
of writing videos once the organization has a project to write them in. -/
structure OwnerKeepsUp (db : PublicDb) (key : ApiKey) (organizationId : Id) : Prop where
  usage : "usage:read" ∈ key.scopes → db.access.Holds key.userId organizationId "billing.read"
  videos : "video:write" ∈ key.scopes → db.projectIdsForOrg organizationId ≠ [] →
    db.access.Holds key.userId organizationId "video.create"

section

variable {db : PublicDb} {presented : Presented}

theorem requireScope_eq_ok {principal : ApiPrincipal} {scope : String}
    (h : principal.requireScope scope = .ok ()) : scope ∈ principal.scopes := by
  by_contra hnot
  cases (if_neg hnot).symm.trans h

theorem mem_fromKey_scopes {keyId : Id} {key : ApiKey} {scope : String} :
    scope ∈ (ApiPrincipal.fromKey keyId key).scopes ↔ scope ∈ key.scopes ∧ scope ∈ allScopes := by
  simp [ApiPrincipal.fromKey]

theorem withScope_ok {scope : String} {principal : ApiPrincipal} {db' : PublicDb}
    (h : db.withScope presented scope = .ok (principal, db')) :
    ∃ key, Authenticated db presented principal.keyId key scope ∧
      principal = ApiPrincipal.fromKey principal.keyId key ∧
      ∃ keys, db' = { db with keys } := by
  obtain ⟨⟨found, db₁⟩, hprincipal, h⟩ := Except.bind_eq_ok.mp h
  obtain ⟨⟨found', keys⟩, hget, hprincipal⟩ := Except.bind_eq_ok.mp hprincipal
  obtain ⟨u, hscope, h⟩ := Except.bind_eq_ok.mp h
  cases hprincipal
  cases h
  obtain ⟨key, hpresents, husable, heq⟩ := getApiPrincipal_ok hget
  have hmem : scope ∈ principal.scopes := requireScope_eq_ok hscope
  rw [heq] at hmem
  exact ⟨key, ⟨hpresents, husable, (mem_fromKey_scopes.mp hmem).1⟩, heq, keys, rfl⟩

/-- A route leaves the moment at which the key was used. -/
def PublicDb.used (db : PublicDb) (keyId : Id) (key : ApiKey) (later : DateTime) : PublicDb :=
  { db with keys := db.keys.set keyId { key with lastUsedAt := some later } }

theorem withScope_of_authenticated {keyId : Id} {key : ApiKey} {scope : String}
    (h : Authenticated db presented keyId key scope) (hscope : scope ∈ allScopes) :
    db.withScope presented scope =
      .ok (ApiPrincipal.fromKey keyId key, db.used keyId key presented.later) := by
  have hmem : scope ∈ (ApiPrincipal.fromKey keyId key).scopes :=
    mem_fromKey_scopes.mpr ⟨h.carries, hscope⟩
  unfold PublicDb.withScope PublicDb.principal
  rw [getApiPrincipal_of_usable h.presents h.usable presented.later, Except.ok_bind]
  simp [ApiPrincipal.requireScope, hmem, PublicDb.used]

theorem requireOrganization_eq_ok {principal : ApiPrincipal} {organizationId : Id}
    (h : principal.requireOrganization = .ok organizationId) :
    principal.organizationId = some organizationId := by
  unfold ApiPrincipal.requireOrganization at h
  cases hbound : principal.organizationId with
  | none =>
      rw [hbound] at h
      cases h
  | some found =>
      rw [hbound] at h
      cases h
      rfl

theorem requireOrganization_of_some {principal : ApiPrincipal} {organizationId : Id}
    (h : principal.organizationId = some organizationId) :
    principal.requireOrganization = .ok organizationId := by
  rw [ApiPrincipal.requireOrganization, h]

/-- A route that is served has passed both checks, on the database before it. -/
theorem serve_ok {request : PublicRequest} {scope : String} {served : Unit × PublicDb}
    (h : request.serve db presented = .ok served) (hscope : request.scope = some scope) :
    ∃ principal db' organizationId, db.withScope presented scope = .ok (principal, db') ∧
      principal.organizationId = some organizationId := by
  have hroute : ∀ {Response : Type} {route : Except ApiError (Response × PublicDb)}
      {rest : ApiPrincipal × PublicDb → Id → Except ApiError (Response × PublicDb)},
      route = (do
        let p ← db.withScope presented scope
        let organizationId ← p.1.requireOrganization
        rest p organizationId) →
      (route.map fun r => ((), r.2)) = .ok served →
      ∃ principal db' organizationId, db.withScope presented scope = .ok (principal, db') ∧
        principal.organizationId = some organizationId := by
    rintro Response route rest rfl hmap
    obtain ⟨response, hresponse, -⟩ := Except.map_eq_ok.mp hmap
    obtain ⟨⟨principal, db'⟩, hprincipal, hresponse⟩ := Except.bind_eq_ok.mp hresponse
    obtain ⟨organizationId, horganization, -⟩ := Except.bind_eq_ok.mp hresponse
    exact ⟨principal, db', organizationId, hprincipal, requireOrganization_eq_ok horganization⟩
  cases request with
  | whoami => cases hscope
  | listChannels params =>
      cases hscope
      exact hroute rfl h
  | listVideos params projectId status =>
      cases hscope
      exact hroute rfl h
  | getVideo videoId =>
      cases hscope
      exact hroute rfl h
  | createVideo body createdAt =>
      cases hscope
      exact hroute rfl h
  | listPipelineRuns videoId params =>
      cases hscope
      exact hroute rfl h
  | getUsage =>
      cases hscope
      exact hroute rfl h

/-- A created video is in a project of the organization. -/
theorem createVideo_ok {body : PublicVideoCreate} {createdAt : DateTime}
    {served : Unit × PublicDb} {principal : ApiPrincipal} {db' : PublicDb} {organizationId : Id}
    (h : (PublicRequest.createVideo body createdAt).serve db presented = .ok served)
    (hscope : db.withScope presented "video:write" = .ok (principal, db'))
    (horganization : principal.organizationId = some organizationId) :
    body.projectId ∈ db'.projectIdsForOrg organizationId := by
  obtain ⟨response, hresponse, -⟩ := Except.map_eq_ok.mp h
  unfold PublicDb.createVideo at hresponse
  rw [hscope, Except.ok_bind] at hresponse
  dsimp only at hresponse
  rw [requireOrganization_of_some horganization, Except.ok_bind] at hresponse
  by_contra hnot
  rw [if_pos hnot] at hresponse
  cases hresponse

/-- The usage is shown to whoever has the scope. -/
theorem getUsage_served {principal : ApiPrincipal} {db' : PublicDb} {organizationId : Id}
    (hscope : db.withScope presented "usage:read" = .ok (principal, db'))
    (horganization : principal.organizationId = some organizationId) :
    ∃ served, PublicRequest.getUsage.serve db presented = .ok served := by
  have hroute : ∃ r, db.getUsage presented = .ok r := by
    unfold PublicDb.getUsage
    rw [hscope, Except.ok_bind]
    dsimp only
    rw [requireOrganization_of_some horganization, Except.ok_bind]
    split
    · exact ⟨_, rfl⟩
    · split
      · exact ⟨_, rfl⟩
      · exact ⟨_, rfl⟩
  obtain ⟨r, hr⟩ := hroute
  exact ⟨((), r.2), by rw [PublicRequest.serve, hr, Except.ok_map]⟩

/-- A video is created in any project of the organization. -/
theorem createVideo_served {principal : ApiPrincipal} {db' : PublicDb} {organizationId : Id}
    {body : PublicVideoCreate}
    (hscope : db.withScope presented "video:write" = .ok (principal, db'))
    (horganization : principal.organizationId = some organizationId)
    (hproject : body.projectId ∈ db'.projectIdsForOrg organizationId)
    (hchannel : body.channelId = none) (createdAt : DateTime) :
    ∃ served, (PublicRequest.createVideo body createdAt).serve db presented = .ok served := by
  have hroute : ∃ r, db.createVideo presented body createdAt = .ok r := by
    unfold PublicDb.createVideo
    rw [hscope, Except.ok_bind]
    dsimp only
    rw [requireOrganization_of_some horganization, Except.ok_bind, if_neg (not_not.mpr hproject),
      hchannel]
    exact ⟨_, rfl⟩
  obtain ⟨r, hr⟩ := hroute
  exact ⟨((), r.2), by rw [PublicRequest.serve, hr, Except.ok_map]⟩

end

/-- Whatever is asked with a key is lawful exactly when, if the key is usable and bound to
an organization, its owner has kept up with it there. -/
theorem served_lawfully_iff (db : PublicDb) (presented : Presented) :
    (∀ request, Lawful db presented request) ↔
      ∀ keyId key organizationId,
        presented.headers.Presents presented.library db.keys keyId key →
        key.Usable presented.now → key.organizationId = some organizationId →
        OwnerKeepsUp db key organizationId := by
  constructor
  · intro hlawful keyId key organizationId hpresents husable horganization
    have hholds : ∀ {request : PublicRequest} {scope : String} {served : Unit × PublicDb},
        request.serve db presented = .ok served → request.scope = some scope →
        ∀ permission ∈ scopeRequiresPermission scope,
          db.access.Holds key.userId organizationId permission := by
      intro request scope served hserved hscope
      obtain ⟨keyId', key', organizationId', hauthenticated, horganization', hholds⟩ :=
        hlawful request served hserved scope hscope
      obtain ⟨-, rfl⟩ := hpresents.unique hauthenticated.presents
      rw [horganization, Option.some.injEq] at horganization'
      rw [horganization']
      exact hholds
    have hbound : ∀ keyId, (ApiPrincipal.fromKey keyId key).organizationId = some organizationId :=
      fun _ => horganization
    constructor
    · intro husage
      have hscope := withScope_of_authenticated ⟨hpresents, husable, husage⟩ (by decide)
      obtain ⟨served, hserved⟩ := getUsage_served hscope (hbound keyId)
      exact hholds hserved rfl "billing.read" rfl
    · intro hwrite hprojects
      have hscope := withScope_of_authenticated ⟨hpresents, husable, hwrite⟩ (by decide)
      obtain ⟨projectId, hproject⟩ := List.exists_mem_of_ne_nil _ hprojects
      let body : PublicVideoCreate := ⟨projectId, "Title", none, none, by decide, by simp⟩
      obtain ⟨served, hserved⟩ :=
        @createVideo_served _ _ _ _ _ body hscope (hbound keyId) hproject rfl 0
      exact hholds hserved rfl "video.create" rfl
  · intro hkeeps request served hserved scope hscope
    obtain ⟨principal, db', organizationId, hprincipal, horganization⟩ := serve_ok hserved hscope
    obtain ⟨key, hauthenticated, heq, keys, rfl⟩ := withScope_ok hprincipal
    have hbound : key.organizationId = some organizationId := by
      rw [heq] at horganization
      exact horganization
    have hkeep : OwnerKeepsUp db key organizationId :=
      hkeeps _ key organizationId hauthenticated.presents hauthenticated.usable hbound
    refine ⟨principal.keyId, key, organizationId, hauthenticated, hbound, ?_⟩
    intro permission hpermission
    cases request with
    | whoami => cases hscope
    | listChannels params =>
        cases hscope
        cases hpermission
    | listVideos params projectId status =>
        cases hscope
        cases hpermission
    | getVideo videoId =>
        cases hscope
        cases hpermission
    | createVideo body createdAt =>
        cases hscope
        cases hpermission
        have hproject := createVideo_ok hserved hprincipal horganization
        exact hkeep.videos hauthenticated.carries (List.ne_nil_of_mem hproject)
    | listPipelineRuns videoId params =>
        cases hscope
        cases hpermission
    | getUsage =>
        cases hscope
        cases hpermission
        exact hkeep.usage hauthenticated.carries

/-! ## A demoted owner -/

/-- A viewer's key, from the time when its owner could read the billing. -/
def viewerKey : ApiKey :=
  ⟨0, some 0, "report", "ayf_1", "one", ["usage:read"], none, none, none, none⟩

def viewerDb : PublicDb where
  access := ⟨[⟨true, false, none⟩], [⟨"viewer", none, defaultRolePermissions .viewer⟩],
    [⟨0, 0, 0, none⟩]⟩
  keys := [viewerKey]
  content := ⟨[], [], [], []⟩
  runs := []
  books := ⟨⟨[], []⟩, [], [], []⟩

def viewerPresents : Presented := ⟨⟨id, fun _ => none⟩, ⟨none, some "ayf_1.one", none⟩, 0, 0⟩

/-- The usage of the organization is shown by a key whose owner may not read it. -/
theorem demoted_owner_served :
    (∃ db', viewerDb.getUsage viewerPresents = .ok ([], db')) ∧
      ¬ viewerDb.access.Holds 0 0 "billing.read" ∧
      ¬ Lawful viewerDb viewerPresents .getUsage := by
  have hnot : ¬ viewerDb.access.Holds 0 0 "billing.read" := by decide
  refine ⟨⟨_, rfl⟩, hnot, ?_⟩
  intro hlawful
  obtain ⟨keyId, key, organizationId, ⟨⟨raw, hraw, hkey, hfound, hrow⟩, -⟩, horganization,
    hholds⟩ := hlawful _ rfl "usage:read" rfl
  have hfirst : key = viewerKey := by
    obtain _ | keyId := keyId
    · exact (Option.some.inj hrow).symm
    · cases hrow
  subst hfirst
  cases horganization
  exact hnot (hholds "billing.read" rfl)

end YoutubeFactory.PublicApi
