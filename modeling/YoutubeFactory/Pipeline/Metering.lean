import YoutubeFactory.Pipeline.Service
import YoutubeFactory.Billing.Overage
import YoutubeFactory.Content.Tables

/-!
# Renders and the quota of their owner

`VideoPipelineService.render` of `app/services/pipeline.py` with the usage that it records, and
`UsageService.quota_remaining` of `app/services/billing.py`.

A video belongs to a project, the project to a workspace and the workspace to an organization.
`render` records the usage under the id of the project.  So it reaches the account of the owner
where the two ids are one, and nowhere else (`metered_to_owner_iff`).

A total goes through a float.  What `Decimal(str(float(total)))` makes of it is the function
`decimal`, of which nothing is assumed.
-/

namespace YoutubeFactory.Billing

/-- `UsageMetric.VIDEO_RENDER` -/
def VIDEO_RENDER : String := "video_render"

namespace Books

variable (books : Books) (organizationId : Id) (metric : String)

/-- The active subscription and the allowance of its plan. -/
def allowance : Option (Subscription × ℚ) := do
  let subscriptionId ← books.activeSubscription organizationId
  let subscription ← books.subscriptions[subscriptionId]?
  let plan ← books.plans[subscription.planId]?
  let limit ← plan.quotas.lookup metric
  pure (subscription, limit)

/-- `quota_remaining` -/
def quotaRemaining (decimal : ℚ → ℚ) : Option ℚ :=
  (books.allowance organizationId metric).map fun (subscription, limit) =>
    limit - books.totalForMetric organizationId metric decimal
      (DateTime.date subscription.currentPeriodStart)

/-! ## One more row -/

variable {books books' : Books} {organizationId : Id} {metric : String} {row : UsageRecord}

theorem allowance_of_append (h : books' = { books with usage := books.usage ++ [row] }) :
    books'.allowance organizationId metric = books.allowance organizationId metric := by
  rw [h]
  rfl

theorem quantities_of_append (h : books'.usage = books.usage ++ [row]) (since : Date) :
    books'.quantities organizationId metric since =
      books.quantities organizationId metric since ++
        (if row.organizationId = organizationId ∧ row.metric = metric ∧
          since ≤ row.recordedFor ∧ row.deletedAt = none then [row.quantity] else []) := by
  unfold quantities
  rw [h, List.filter_append, List.map_append]
  congr 1
  split
  · next hrow => simp [hrow]
  · next hrow => simp [hrow]

end Books

end YoutubeFactory.Billing

namespace YoutubeFactory.Pipeline

open Billing (Books UsageRecord VIDEO_RENDER)
open Content (ContentDb)

/-- The tables that a render reads and writes, and those that say who owns what. -/
structure MeteredDb where
  content : ContentDb
  pipeline : PipelineDb
  books : Books

namespace MeteredDb

/-- The usage of a render: one unit, under the project's id.  `insert` is what the database says to
the new row. -/
def usage (db : MeteredDb) (projectId : Id) (insert : UsageRecord → Except PipelineError Unit)
    (now : DateTime) : Except PipelineError Books :=
  match db.books.record projectId VIDEO_RENDER 1 none now with
  | .error _ => .error (.validation "Usage quantity cannot be negative.")
  | .ok (id, books) => do
      books.usage[id]?.forM insert
      pure books

/-- `render` with its metering. -/
def render (db : MeteredDb) (runId : Id) (run : PipelineRun)
    (provider : Except PipelineError RenderProvider)
    (insert : UsageRecord → Except PipelineError Unit) (now : DateTime) :
    Except PipelineError (RenderResult × MeteredDb) :=
  let usage : Except PipelineError Books :=
    match (db.pipeline.liveVideo run.videoId).bind (·.projectId) with
    | none => .ok db.books
    | some projectId => db.usage projectId insert now
  match (Pipeline.render runId run provider (discard usage) now).run db.pipeline with
  | .error e _ => .error e
  | .ok result pipeline => do
      let books ← usage
      pure (result, { db with pipeline, books })

end MeteredDb

/-! ## The law -/

/-- One unit is recorded against the owner, whose quota falls by one if there is one, and the
quotas of the others stay. -/
structure MeteredTo (decimal : ℚ → ℚ) (owner : Id) (before after : Books) : Prop where
  recorded : ∃ row, after.usage = before.usage ++ [row] ∧ row.organizationId = owner ∧
    row.metric = VIDEO_RENDER ∧ row.quantity = 1
  falls : ∀ remaining, before.quotaRemaining owner VIDEO_RENDER decimal = some remaining →
    after.quotaRemaining owner VIDEO_RENDER decimal = some (remaining - 1)
  others : ∀ organizationId metric, organizationId ≠ owner →
    after.quotaRemaining organizationId metric decimal =
      before.quotaRemaining organizationId metric decimal

/-- The owner of a project is the organization of its workspace. -/
def MeteredToOwner (decimal : ℚ → ℚ) (projectId : Id) (db db' : MeteredDb) : Prop :=
  ∀ owner ∈ db.content.projectOrganization projectId,
    MeteredTo decimal owner db.books db'.books

/-- One more unit of today's counts for the current period, and in floating point too. -/
def CountsOneMore (decimal : ℚ → ℚ) (books : Books) (owner : Id) (now : DateTime) : Prop :=
  ∀ subscription limit, books.allowance owner VIDEO_RENDER = some (subscription, limit) →
    let since := Billing.DateTime.date subscription.currentPeriodStart
    since ≤ Billing.DateTime.date now ∧
      decimal ((books.quantities owner VIDEO_RENDER since).sum + 1) =
        books.totalForMetric owner VIDEO_RENDER decimal since + 1

/-! ## What a render records -/

variable {db db' : MeteredDb} {runId : Id} {run : PipelineRun}
  {provider : Except PipelineError RenderProvider}
  {insert : UsageRecord → Except PipelineError Unit} {now : DateTime} {result : RenderResult}
  {projectId owner : Id} {decimal : ℚ → ℚ}

/-- A row of one unit of today's, which nobody has deleted. -/
structure OneUnit (projectId : Id) (now : DateTime) (row : UsageRecord) : Prop where
  organizationId : row.organizationId = projectId
  metric : row.metric = VIDEO_RENDER
  quantity : row.quantity = 1
  recordedFor : row.recordedFor = Billing.DateTime.date now
  deletedAt : row.deletedAt = none

theorem usage_ok {books : Books} (h : db.usage projectId insert now = .ok books) :
    ∃ row, OneUnit projectId now row ∧
      books = { db.books with usage := db.books.usage ++ [row] } := by
  unfold MeteredDb.usage at h
  cases hrecord : db.books.record projectId VIDEO_RENDER 1 none now with
  | error e =>
      rw [hrecord] at h
      cases h
  | ok recorded =>
      obtain ⟨id, books'⟩ := recorded
      rw [hrecord] at h
      obtain ⟨-, -, hbooks⟩ := Except.bind_eq_ok.mp h
      cases hbooks
      obtain ⟨-, row, hrow, horganization, hmetric, hquantity, hdate, -, hdeleted⟩ :=
        Billing.record_ok hrecord
      exact ⟨row, ⟨horganization, hmetric, hquantity, hdate, hdeleted⟩, hrow⟩

/-- A render of a video of a project records one unit, under the project's id. -/
theorem render_records {v : Video} (hv : db.pipeline.liveVideo run.videoId = some v)
    (hproject : v.projectId = some projectId)
    (h : db.render runId run provider insert now = .ok (result, db')) :
    ∃ row, OneUnit projectId now row ∧
      db'.books = { db.books with usage := db.books.usage ++ [row] } := by
  have husage : (db.pipeline.liveVideo run.videoId).bind (·.projectId) = some projectId := by
    rw [hv]
    exact hproject
  unfold MeteredDb.render at h
  rw [husage] at h
  dsimp only at h
  split at h
  · cases h
  · obtain ⟨books, hbooks, hresult⟩ := Except.bind_eq_ok.mp h
    cases hresult
    exact usage_ok hbooks

/-! ## Where it is recorded -/

section

variable {books books' : Books} {row : UsageRecord}

theorem total_counted (hrow : OneUnit owner now row)
    (husage : books'.usage = books.usage ++ [row]) {since : Billing.Date}
    (hsince : since ≤ Billing.DateTime.date now) :
    books'.totalForMetric owner VIDEO_RENDER decimal since =
      decimal ((books.quantities owner VIDEO_RENDER since).sum + 1) := by
  have hquantities := @Books.quantities_of_append books books' owner VIDEO_RENDER row husage since
  rw [if_pos ⟨hrow.organizationId, hrow.metric, hrow.recordedFor ▸ hsince, hrow.deletedAt⟩,
    hrow.quantity] at hquantities
  unfold Books.totalForMetric
  dsimp only
  rw [hquantities, if_neg (by simp), List.sum_append, List.sum_singleton]

/-- A row that a total leaves out. -/
theorem total_left_out {organizationId : Id} {metric : String}
    (husage : books'.usage = books.usage ++ [row]) {since : Billing.Date}
    (hout : row.organizationId ≠ organizationId ∨ row.recordedFor < since) :
    books'.totalForMetric organizationId metric decimal since =
      books.totalForMetric organizationId metric decimal since := by
  have hquantities := @Books.quantities_of_append books books' organizationId metric row husage
    since
  have hnot : ¬ (row.organizationId = organizationId ∧ row.metric = metric ∧
      since ≤ row.recordedFor ∧ row.deletedAt = none) := by
    rintro ⟨hsame, -, hsince, -⟩
    rcases hout with hother | hbefore
    · exact hother hsame
    · exact absurd hsince (Int.not_le.mpr hbefore)
  rw [if_neg hnot, List.append_nil] at hquantities
  unfold Books.totalForMetric
  rw [hquantities]

/-- What the unit does to the quota of the account that it reaches. -/
theorem quotaRemaining_falls_iff (hrow : OneUnit owner now row)
    (hbooks : books' = { books with usage := books.usage ++ [row] }) :
    (∀ remaining, books.quotaRemaining owner VIDEO_RENDER decimal = some remaining →
      books'.quotaRemaining owner VIDEO_RENDER decimal = some (remaining - 1)) ↔
    CountsOneMore decimal books owner now := by
  have husage : books'.usage = books.usage ++ [row] := congrArg Books.usage hbooks
  unfold Books.quotaRemaining CountsOneMore
  rw [Books.allowance_of_append hbooks]
  cases books.allowance owner VIDEO_RENDER with
  | none => exact iff_of_true nofun nofun
  | some allowed =>
      obtain ⟨subscription, limit⟩ := allowed
      constructor
      · rintro h subscription' limit' heq
        cases heq
        have hfalls := Option.some.inj (h _ rfl)
        dsimp only at hfalls ⊢
        rcases lt_or_ge (Billing.DateTime.date now)
          (Billing.DateTime.date subscription.currentPeriodStart) with hbefore | hsince
        · rw [total_left_out husage (.inr (hrow.recordedFor ▸ hbefore))] at hfalls
          linarith
        · rw [total_counted hrow husage hsince] at hfalls
          exact ⟨hsince, by linarith⟩
      · rintro h remaining hremaining
        cases hremaining
        obtain ⟨hsince, hsum⟩ := h subscription limit rfl
        refine congrArg some ?_
        dsimp only
        rw [total_counted hrow husage hsince, hsum]
        ring

/-- The quotas of the accounts that the unit does not reach. -/
theorem quotaRemaining_of_ne {organizationId : Id} {metric : String}
    (hrow : OneUnit projectId now row)
    (hbooks : books' = { books with usage := books.usage ++ [row] })
    (hne : organizationId ≠ projectId) :
    books'.quotaRemaining organizationId metric decimal =
      books.quotaRemaining organizationId metric decimal := by
  have husage : books'.usage = books.usage ++ [row] := congrArg Books.usage hbooks
  unfold Books.quotaRemaining
  rw [Books.allowance_of_append hbooks]
  refine congrArg (fun f => Option.map f _) (funext fun allowed => ?_)
  obtain ⟨subscription, limit⟩ := allowed
  dsimp only
  rw [total_left_out husage (.inl (by rw [hrow.organizationId]; exact hne.symm))]

end

/-- A render of a video of a project is metered to the owner of the project's workspace if the
project has the id of that organization, and the unit counts in its period, and else not. -/
theorem metered_to_owner_iff (decimal : ℚ → ℚ) {v : Video}
    (hv : db.pipeline.liveVideo run.videoId = some v) (hproject : v.projectId = some projectId)
    (h : db.render runId run provider insert now = .ok (result, db')) :
    MeteredToOwner decimal projectId db db' ↔
      ∀ owner ∈ db.content.projectOrganization projectId,
        projectId = owner ∧ CountsOneMore decimal db.books owner now := by
  obtain ⟨row, hrow, hbooks⟩ := render_records hv hproject h
  have husage : db'.books.usage = db.books.usage ++ [row] := congrArg Books.usage hbooks
  refine forall₂_congr fun owner _ => ⟨fun hmetered => ?_, ?_⟩
  · obtain ⟨row', husage', horganization, -, -⟩ := hmetered.recorded
    rw [husage] at husage'
    have hsame : [row] = [row'] := List.append_cancel_left husage'
    cases hsame
    have hid : projectId = owner := hrow.organizationId.symm.trans horganization
    subst hid
    exact ⟨rfl, (quotaRemaining_falls_iff hrow hbooks).mp hmetered.falls⟩
  · rintro ⟨rfl, hcounts⟩
    exact
      { recorded := ⟨row, husage, hrow.organizationId, hrow.metric, hrow.quantity⟩
        falls := (quotaRemaining_falls_iff hrow hbooks).mpr hcounts
        others := fun _ _ hne => quotaRemaining_of_ne hrow hbooks hne }

/-! ## One studio -/

/-- An organization with ten renders a month, a workspace, a project and a video with a script. -/
def studio (owner : Id) : MeteredDb where
  content :=
    { workspaces := [⟨owner, "Main", "main", none, 0, none⟩]
      projects := [⟨0, "Shorts", "shorts", none, "active", none, 0, none⟩]
      channels := []
      videos := [] }
  pipeline :=
    { videos := [⟨some 0, "Rain", none, .scripting, some 0, none⟩]
      versions := [⟨0, 1, some "It rains."⟩]
      notes := []
      runs := [⟨0, .render, none, some 0, none, .empty, 0, none⟩]
      publications := []
      records := []
      lessons := [] }
  books :=
    { invoices := []
      payments := []
      plans := [⟨"Studio", "monthly", 4900, "usd", AList.singleton VIDEO_RENDER 10, ∅⟩]
      subscriptions := [⟨owner, 0, .active, 0, 2592000, 0, none⟩]
      usage := [] }

def rainRun : PipelineRun := ⟨0, .render, none, some 0, none, .empty, 0, none⟩

/-- A day later, on a renderer and a database that take everything. -/
def renderRain (owner : Id) : Except PipelineError (RenderResult × MeteredDb) :=
  (studio owner).render 0 rainRun (.ok fun _ _ key => .ok ⟨key, 60, 1920, 1080, 9⟩)
    (fun _ => .ok ()) 86400

/-- A project that has the id of its organization. -/
theorem metered_to_owner_studio : ∃ result db', renderRain 0 = .ok (result, db') ∧
    MeteredToOwner id 0 (studio 0) db' := by
  have hrun : ∃ result db', renderRain 0 = .ok (result, db') := ⟨_, _, rfl⟩
  obtain ⟨result, db', hrun⟩ := hrun
  refine ⟨result, db', hrun, (metered_to_owner_iff id rfl rfl hrun).mpr ?_⟩
  rintro owner howner
  cases howner
  refine ⟨rfl, fun subscription limit hallowance => ?_⟩
  cases hallowance
  exact ⟨by decide, rfl⟩

/-- A project that has not: the unit is recorded under the project's id. -/
theorem metered_to_project : ∃ result db', renderRain 7 = .ok (result, db') ∧
    ¬ MeteredToOwner id 0 (studio 7) db' := by
  refine ⟨_, _, rfl, fun h => ?_⟩
  obtain ⟨row, husage, horganization, -, -⟩ := (h 7 rfl).recorded
  cases husage
  cases horganization

end YoutubeFactory.Pipeline
