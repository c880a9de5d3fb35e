import YoutubeFactory.Lib.Run
import YoutubeFactory.Billing.Periods

/-!
# Subscriptions

`SubscriptionService` of `app/services/billing.py`.  It refuses a subscription while
another one grants access.  The table refuses two rows of an organization with one
status, whatever the status, when a call is flushed.

So an organization cancels once.  When it has subscribed again, the second cancellation
would be its second cancelled row (`second_cancel_refused`).  The cycle works in the runs
in which nobody comes back after a cancellation, and in no others (`cycles_iff`).
-/

namespace YoutubeFactory.Billing

/-! ## Tables -/

/-- A plan with what `subscribe` reads of it. -/
structure CatalogPlan extends Plan where
  code : String
  trialDays : Int
  deletedAt : Option DateTime

/-- A subscription with its trial and its cancellation. -/
structure SubscriptionRow extends Subscription where
  trialEndsAt : Option DateTime
  cancelledAt : Option DateTime
  cancelAtPeriodEnd : Bool

structure SubscriptionDb where
  plans : List CatalogPlan
  subscriptions : List SubscriptionRow

namespace SubscriptionDb

/-- The tables as the other billing services see them. -/
def books (db : SubscriptionDb) : Books where
  invoices := []
  payments := []
  plans := db.plans.map (·.toPlan)
  subscriptions := db.subscriptions.map (·.toSubscription)
  usage := []

/-- `PlanRepository.get_by_code`, with the id of the plan. -/
def planByCode (db : SubscriptionDb) (code : String) : Option Id :=
  db.plans.findIdx? fun p => p.code = code ∧ p.deletedAt = none

/-- `SubscriptionRepository.get_active_for_organization` -/
def active (db : SubscriptionDb) (organizationId : Id) : Option Id :=
  db.books.activeSubscription organizationId

/-- A row other than the given one has the status: the unique constraint counts deleted
rows too. -/
def statusTaken (db : SubscriptionDb) (except : Option Id) (organizationId : Id)
    (status : SubscriptionStatus) : Bool :=
  (List.range db.subscriptions.length).any fun id =>
    some id ≠ except && (db.subscriptions[id]?).any fun s =>
      s.organizationId = organizationId ∧ s.status = status

end SubscriptionDb

/-! ## Subscription service -/

/-- `_period_end` -/
def periodEndFrom (start : DateTime) (interval : String) : DateTime :=
  if interval = "yearly" then start + 365 * 86400 else start + 30 * 86400

/-- The row `subscribe` adds. -/
def CatalogPlan.subscription (plan : CatalogPlan) (planId organizationId : Id)
    (now : DateTime) : SubscriptionRow where
  organizationId
  planId
  status := if plan.trialDays > 0 then .trialing else .active
  currentPeriodStart := now
  currentPeriodEnd := periodEndFrom now plan.interval
  createdAt := now
  deletedAt := none
  trialEndsAt := if plan.trialDays > 0 then some (now + plan.trialDays * 86400) else none
  cancelledAt := none
  cancelAtPeriodEnd := false

/-- What `cancel` writes. -/
def SubscriptionRow.cancel (row : SubscriptionRow) (atPeriodEnd : Bool) (now : DateTime) :
    SubscriptionRow :=
  { row with
    cancelledAt := some now
    cancelAtPeriodEnd := atPeriodEnd
    status := if atPeriodEnd then row.status else .cancelled }

namespace SubscriptionDb

/-- `SubscriptionService.subscribe` -/
def subscribe (db : SubscriptionDb) (organizationId : Id) (planCode : String) (now : DateTime) :
    Except BillingError (Id × SubscriptionDb) :=
  match db.planByCode planCode with
  | none => .error (.notFound "Plan not found." [("code", .str planCode)])
  | some planId =>
      match db.plans[planId]? with
      | none => .error (.notFound "Plan not found." [("code", .str planCode)])
      | some plan =>
          match db.active organizationId with
          | some existing =>
              .error (.conflict "That organization already has an active subscription."
                [("subscription_id", .str (toString existing))])
          | none =>
              let row := plan.subscription planId organizationId now
              if db.statusTaken none organizationId row.status then .error .integrity
              else
                .ok (db.subscriptions.length,
                  { db with subscriptions := db.subscriptions ++ [row] })

/-- `SubscriptionService.cancel` -/
def cancel (db : SubscriptionDb) (subscriptionId : Id) (atPeriodEnd : Bool) (now : DateTime) :
    Except BillingError (Id × SubscriptionDb) :=
  match db.subscriptions[subscriptionId]? with
  | none => .error (.notFound "Subscription not found." [])
  | some subscription =>
      let row := subscription.cancel atPeriodEnd now
      if db.statusTaken (some subscriptionId) row.organizationId row.status then .error .integrity
      else .ok (subscriptionId,
        { db with subscriptions := db.subscriptions.set subscriptionId row })

/-- The route `cancel_subscription`: it cancels the active subscription. -/
def cancelActive (db : SubscriptionDb) (organizationId : Id) (atPeriodEnd : Bool)
    (now : DateTime) : Except BillingError (Id × SubscriptionDb) :=
  match db.active organizationId with
  | none => .error (.notFound "This organization has no active subscription." [])
  | some id => db.cancel id atPeriodEnd now

end SubscriptionDb

/-! ## Calls -/

/-- A call of a history: a subscription, or an immediate cancellation of the active one. -/
inductive SubscriptionCall where
  | subscribe (organizationId : Id) (planCode : String) (now : DateTime)
  | cancelActive (organizationId : Id) (now : DateTime)

namespace SubscriptionCall

def body (db : SubscriptionDb) : SubscriptionCall → Except BillingError (Id × SubscriptionDb)
  | .subscribe organizationId planCode now => db.subscribe organizationId planCode now
  | .cancelActive organizationId now => db.cancelActive organizationId false now

/-- A call in its own transaction. -/
def step (db : SubscriptionDb) (call : SubscriptionCall) : SubscriptionDb :=
  Run.commit db (call.body db)

end SubscriptionCall

/-! ## The subscriptions that grant access -/

def SubscriptionStatus.grants (status : SubscriptionStatus) : Bool :=
  status = .active ∨ status = .trialing

namespace SubscriptionDb

/-- The subscription of that id is active or trialing. -/
def Granting (db : SubscriptionDb) (organizationId id : Id) : Prop :=
  ∃ s, db.subscriptions[id]? = some s ∧ s.organizationId = organizationId ∧
    s.status.grants = true

/-- The organization has cancelled. -/
def HasCancelled (db : SubscriptionDb) (organizationId : Id) : Prop :=
  ∃ s ∈ db.subscriptions, s.organizationId = organizationId ∧ s.status = .cancelled

/-- No row is deleted, and one subscription of an organization at most grants access. -/
structure Sound (db : SubscriptionDb) : Prop where
  undeleted : ∀ s ∈ db.subscriptions, s.deletedAt = none
  single : ∀ organizationId a b, db.Granting organizationId a → db.Granting organizationId b →
    a = b

variable {db : SubscriptionDb} {organizationId id : Id}

/-- The rows the query selects. -/
theorem mem_granting (hsound : db.Sound) :
    id ∈ ((List.range db.books.subscriptions.length).filter fun id =>
      (db.books.subscriptions[id]?).any fun s =>
        s.organizationId = organizationId ∧ (s.status = .active ∨ s.status = .trialing) ∧
          s.deletedAt = none) ↔ db.Granting organizationId id := by
  simp only [List.mem_filter, List.mem_range, books, List.length_map, List.getElem?_map,
    Option.any_eq_true, Option.map_eq_some_iff, decide_eq_true_eq, Granting,
    SubscriptionStatus.grants]
  constructor
  · rintro ⟨-, -, ⟨s, hs, rfl⟩, horganization, hstatus, -⟩
    exact ⟨s, hs, horganization, hstatus⟩
  · rintro ⟨s, hs, horganization, hstatus⟩
    exact ⟨(List.getElem?_eq_some_iff.mp hs).1, s.toSubscription, ⟨s, hs, rfl⟩, horganization,
      hstatus, hsound.undeleted s (List.mem_of_getElem? hs)⟩

theorem granting_of_active (hsound : db.Sound) (h : db.active organizationId = some id) :
    db.Granting organizationId id := by
  have hmem := List.mem_of_head? h
  rw [List.mem_insertionSort] at hmem
  exact (mem_granting hsound).mp hmem

theorem active_eq_none_iff (hsound : db.Sound) :
    db.active organizationId = none ↔ ∀ id, ¬ db.Granting organizationId id := by
  rw [active, Books.activeSubscription, List.head?_eq_none_iff, List.eq_nil_iff_forall_not_mem]
  refine forall_congr' fun id => ?_
  rw [List.mem_insertionSort, mem_granting hsound]

/-- The active subscription is the one that grants access. -/
theorem active_eq_some_iff (hsound : db.Sound) :
    db.active organizationId = some id ↔ db.Granting organizationId id := by
  refine ⟨granting_of_active hsound, fun hgranting => ?_⟩
  cases hactive : db.active organizationId with
  | none => exact absurd hgranting ((active_eq_none_iff hsound).mp hactive id)
  | some found =>
      rw [hsound.single organizationId found id (granting_of_active hsound hactive) hgranting]

theorem statusTaken_eq_true_iff {except : Option Id} {status : SubscriptionStatus} :
    db.statusTaken except organizationId status = true ↔ ∃ id s, some id ≠ except ∧
      db.subscriptions[id]? = some s ∧ s.organizationId = organizationId ∧ s.status = status := by
  simp only [statusTaken, List.any_eq_true, List.mem_range, Bool.and_eq_true, decide_eq_true_eq,
    Option.any_eq_true]
  constructor
  · rintro ⟨id, -, hid, s, hs, horganization, hstatus⟩
    exact ⟨id, s, hid, hs, horganization, hstatus⟩
  · rintro ⟨id, s, hid, hs, horganization, hstatus⟩
    exact ⟨id, (List.getElem?_eq_some_iff.mp hs).1, hid, s, hs, horganization, hstatus⟩

/-! ## What the calls do -/

theorem planByCode_some {code : String} {planId : Id} (h : db.planByCode code = some planId) :
    ∃ plan, db.plans[planId]? = some plan := by
  obtain ⟨hlt, -⟩ := List.findIdx?_eq_some_iff_getElem.mp h
  exact ⟨_, List.getElem?_eq_getElem hlt⟩

theorem grants_subscription (plan : CatalogPlan) (planId organizationId : Id) (now : DateTime) :
    (plan.subscription planId organizationId now).status.grants = true := by
  unfold CatalogPlan.subscription
  dsimp only
  split <;> rfl

/-- A subscription by an organization that has none. -/
theorem subscribe_of_none {code : String} {now : DateTime} (hsound : db.Sound)
    (hplan : (db.planByCode code).isSome = true)
    (hnone : ∀ id, ¬ db.Granting organizationId id) :
    ∃ plan planId, db.subscribe organizationId code now =
      .ok (db.subscriptions.length, { db with
        subscriptions := db.subscriptions ++
          [CatalogPlan.subscription plan planId organizationId now] }) := by
  obtain ⟨planId, hfound⟩ := Option.isSome_iff_exists.mp hplan
  obtain ⟨plan, hrow⟩ := planByCode_some hfound
  refine ⟨plan, planId, ?_⟩
  have htaken : db.statusTaken none organizationId
      (plan.subscription planId organizationId now).status = false := by
    rw [Bool.eq_false_iff]
    intro htaken
    obtain ⟨id, s, -, hs, horganization, hstatus⟩ := statusTaken_eq_true_iff.mp htaken
    exact hnone id ⟨s, hs, horganization, by rw [hstatus]; exact grants_subscription ..⟩
  unfold subscribe
  rw [hfound]
  dsimp only
  rw [hrow]
  dsimp only
  rw [(active_eq_none_iff hsound).mpr hnone]
  dsimp only
  rw [htaken, if_neg Bool.false_ne_true]

/-- A subscription is refused without a plan, and where another one grants access. -/
theorem subscribe_refused {code : String} {now : DateTime} (hsound : db.Sound)
    (h : (db.planByCode code).isSome = false ∨ ∃ id, db.Granting organizationId id) :
    ∃ e, db.subscribe organizationId code now = .error e := by
  unfold subscribe
  cases hfound : db.planByCode code with
  | none => exact ⟨_, rfl⟩
  | some planId =>
      obtain ⟨plan, hrow⟩ := planByCode_some hfound
      rcases h with hplan | ⟨id, hgranting⟩
      · rw [hfound] at hplan
        cases hplan
      · dsimp only
        rw [hrow]
        dsimp only
        rw [(active_eq_some_iff hsound).mpr hgranting]
        exact ⟨_, rfl⟩

theorem statusTaken_cancelled {s : SubscriptionRow} (hs : db.subscriptions[id]? = some s)
    (hgrants : s.status.grants = true) :
    db.statusTaken (some id) organizationId .cancelled = true ↔
      db.HasCancelled organizationId := by
  rw [statusTaken_eq_true_iff]
  constructor
  · rintro ⟨id', s', -, hs', hsame, hcancelled⟩
    exact ⟨s', List.mem_of_getElem? hs', hsame, hcancelled⟩
  · rintro ⟨s', hmem, hsame, hcancelled⟩
    obtain ⟨id', hs'⟩ := List.mem_iff_getElem?.mp hmem
    refine ⟨id', s', ?_, hs', hsame, hcancelled⟩
    rintro heq
    cases heq
    rw [hs, Option.some.injEq] at hs'
    rw [hs', hcancelled] at hgrants
    cases hgrants

/-- The first immediate cancellation of an organization. -/
theorem cancel_of_not_hasCancelled {s : SubscriptionRow} {now : DateTime}
    (hs : db.subscriptions[id]? = some s) (hgrants : s.status.grants = true)
    (hnot : ¬ db.HasCancelled s.organizationId) :
    db.cancel id false now =
      .ok (id, { db with subscriptions := db.subscriptions.set id (s.cancel false now) }) := by
  unfold cancel
  rw [hs]
  exact if_neg fun htaken => hnot ((statusTaken_cancelled hs hgrants).mp htaken)

/-- Another one is refused. -/
theorem cancel_of_hasCancelled {s : SubscriptionRow} {now : DateTime}
    (hs : db.subscriptions[id]? = some s) (hgrants : s.status.grants = true)
    (hcancelled : db.HasCancelled s.organizationId) :
    db.cancel id false now = .error .integrity := by
  unfold cancel
  rw [hs]
  exact if_pos ((statusTaken_cancelled hs hgrants).mpr hcancelled)

end SubscriptionDb

/-! ## Cycles -/

/-- The cycle of subscribing and cancelling works. -/
structure Cycles (db : SubscriptionDb) : Prop where
  /-- One subscription of an organization at most is active or trialing. -/
  single : ∀ organizationId a b, db.Granting organizationId a → db.Granting organizationId b →
    a = b
  /-- To subscribe to a plan succeeds exactly when none is. -/
  subscribes : ∀ organizationId code now, (db.planByCode code).isSome = true →
    ((∃ r, db.subscribe organizationId code now = .ok r) ↔
      ∀ id, ¬ db.Granting organizationId id)
  /-- To cancel the one that is succeeds. -/
  cancels : ∀ organizationId id now, db.Granting organizationId id →
    ∃ r, db.cancel id false now = .ok r

/-- No organization with a subscription that grants access has cancelled one. -/
def NoReturn (db : SubscriptionDb) : Prop :=
  ∀ organizationId id, db.Granting organizationId id → ¬ db.HasCancelled organizationId

/-- Nobody subscribes after a cancellation. -/
def FirstCycle (db : SubscriptionDb) : SubscriptionCall → Prop
  | .subscribe organizationId code _ =>
      (db.planByCode code).isSome = true → (∀ id, ¬ db.Granting organizationId id) →
        ¬ db.HasCancelled organizationId
  | .cancelActive _ _ => True

/-- Subscribing always works as it should, and cancelling works for a first time. -/
theorem cycles_iff_noReturn {db : SubscriptionDb} (hsound : db.Sound) :
    Cycles db ↔ NoReturn db := by
  constructor
  · intro h organizationId id hgranting hcancelled
    obtain ⟨r, hok⟩ := h.cancels organizationId id 0 hgranting
    obtain ⟨s, hs, rfl, hgrants⟩ := hgranting
    rw [SubscriptionDb.cancel_of_hasCancelled hs hgrants hcancelled] at hok
    cases hok
  · intro h
    refine ⟨hsound.single, fun organizationId code now hplan => ⟨?_, ?_⟩, ?_⟩
    · rintro ⟨r, hok⟩ id hgranting
      obtain ⟨e, herror⟩ := @SubscriptionDb.subscribe_refused db organizationId code now hsound
        (.inr ⟨id, hgranting⟩)
      rw [herror] at hok
      cases hok
    · intro hnone
      obtain ⟨plan, planId, hok⟩ := @SubscriptionDb.subscribe_of_none db organizationId code now
        hsound hplan hnone
      exact ⟨_, hok⟩
    · intro organizationId id now hgranting
      obtain ⟨s, hs, rfl, hgrants⟩ := hgranting
      have hnot : ¬ db.HasCancelled s.organizationId := h _ id ⟨s, hs, rfl, hgrants⟩
      exact ⟨_, SubscriptionDb.cancel_of_not_hasCancelled hs hgrants hnot⟩

/-! ## Steps -/

/-- What a call leaves behind. -/
theorem subscription_step_cases {db : SubscriptionDb} (hsound : db.Sound)
    (call : SubscriptionCall) :
    (call.step db = db ∧ FirstCycle db call) ∨
    (∃ organizationId code now plan planId, call = .subscribe organizationId code now ∧
      (db.planByCode code).isSome = true ∧ (∀ id, ¬ db.Granting organizationId id) ∧
      call.step db = { db with subscriptions := db.subscriptions ++
        [CatalogPlan.subscription plan planId organizationId now] }) ∨
    (∃ organizationId id s now, call = .cancelActive organizationId now ∧
      db.subscriptions[id]? = some s ∧ s.status.grants = true ∧
        call.step db =
          { db with subscriptions := db.subscriptions.set id (s.cancel false now) }) := by
  cases call with
  | subscribe organizationId code now =>
      by_cases hrefused : (db.planByCode code).isSome = false ∨
          ∃ id, db.Granting organizationId id
      · obtain ⟨e, herror⟩ := @SubscriptionDb.subscribe_refused db organizationId code now hsound
          hrefused
        refine .inl ⟨?_, fun hplan hnone => ?_⟩
        · rw [SubscriptionCall.step, SubscriptionCall.body, herror, Run.commit_error]
        · rcases hrefused with hmissing | ⟨id, hgranting⟩
          · rw [hmissing] at hplan
            cases hplan
          · exact absurd hgranting (hnone id)
      · push Not at hrefused
        have hplan : (db.planByCode code).isSome = true :=
          Option.isSome_iff_ne_none.mpr (by simpa using hrefused.1)
        obtain ⟨plan, planId, hok⟩ := @SubscriptionDb.subscribe_of_none db organizationId code now
          hsound hplan hrefused.2
        refine .inr (.inl ⟨organizationId, code, now, plan, planId, rfl, hplan, hrefused.2, ?_⟩)
        rw [SubscriptionCall.step, SubscriptionCall.body, hok, Run.commit_ok]
  | cancelActive organizationId now =>
      cases hactive : db.active organizationId with
      | none =>
          refine .inl ⟨?_, trivial⟩
          rw [SubscriptionCall.step, SubscriptionCall.body, SubscriptionDb.cancelActive, hactive]
          rfl
      | some id =>
          obtain ⟨s, hs, -, hgrants⟩ := SubscriptionDb.granting_of_active hsound hactive
          have hbody : (SubscriptionCall.cancelActive organizationId now).body db =
              db.cancel id false now := by
            rw [SubscriptionCall.body, SubscriptionDb.cancelActive, hactive]
          by_cases hcancelled : db.HasCancelled s.organizationId
          · refine .inl ⟨?_, trivial⟩
            rw [SubscriptionCall.step, hbody,
              SubscriptionDb.cancel_of_hasCancelled hs hgrants hcancelled, Run.commit_error]
          · refine .inr (.inr ⟨organizationId, id, s, now, rfl, hs, hgrants, ?_⟩)
            rw [SubscriptionCall.step, hbody,
              SubscriptionDb.cancel_of_not_hasCancelled hs hgrants hcancelled, Run.commit_ok]

section

variable {db : SubscriptionDb} {organizationId id : Id}

/-- The new subscription grants access beside those that did. -/
theorem granting_append {row : SubscriptionRow}
    (h : SubscriptionDb.Granting { db with subscriptions := db.subscriptions ++ [row] }
      organizationId id) :
    db.Granting organizationId id ∨
      (organizationId = row.organizationId ∧ id = db.subscriptions.length) := by
  obtain ⟨s, hs, horganization, hgrants⟩ := h
  rcases Nat.lt_or_ge id db.subscriptions.length with hlt | hge
  · rw [List.getElem?_append_left hlt] at hs
    exact .inl ⟨s, hs, horganization, hgrants⟩
  · have hid : id = db.subscriptions.length := by
      have hlt : id < (db.subscriptions ++ [row]).length := (List.getElem?_eq_some_iff.mp hs).1
      rw [List.length_append, List.length_singleton] at hlt
      exact Nat.le_antisymm (Nat.lt_succ_iff.mp hlt) hge
    rw [hid, List.getElem?_concat_length, Option.some.injEq] at hs
    exact .inr ⟨hs ▸ horganization.symm, hid⟩

/-- The cancelled subscription grants no access any more. -/
theorem granting_set {row : SubscriptionRow} {k : Id} (hrow : row.status.grants = false)
    (h : SubscriptionDb.Granting { db with subscriptions := db.subscriptions.set k row }
      organizationId id) : id ≠ k ∧ db.Granting organizationId id := by
  obtain ⟨s, hs, horganization, hgrants⟩ := h
  by_cases hid : id = k
  · subst hid
    rw [List.getElem?_set_self'] at hs
    obtain ⟨old, -, rfl⟩ := Option.map_eq_some_iff.mp hs
    rw [Function.const_apply, hrow] at hgrants
    cases hgrants
  · rw [List.getElem?_set_ne (Ne.symm hid)] at hs
    exact ⟨hid, s, hs, horganization, hgrants⟩

end

theorem sound_step {db : SubscriptionDb} (call : SubscriptionCall) (h : db.Sound) :
    (call.step db).Sound := by
  rcases subscription_step_cases h call with ⟨hsame, -⟩ |
    ⟨organizationId, code, now, plan, planId, -, -, hnone, hstep⟩ |
    ⟨-, k, s, now, -, hs, -, hstep⟩
  · rw [hsame]
    exact h
  · rw [hstep]
    refine ⟨fun s hs => ?_, fun organization a b ha hb => ?_⟩
    · rcases List.mem_append.mp hs with hold | hnew
      · exact h.undeleted s hold
      · rw [List.mem_singleton.mp hnew]
        rfl
    · rcases granting_append ha with ha | ⟨rfl, rfl⟩ <;>
        rcases granting_append hb with hb | ⟨hsame, rfl⟩
      · exact h.single organization a b ha hb
      · have horganization : organization = organizationId := hsame
        exact absurd (horganization ▸ ha) (hnone a)
      · exact absurd hb (hnone b)
      · rfl
  · rw [hstep]
    refine ⟨fun row hrow => ?_, fun organization a b ha hb => ?_⟩
    · rcases List.mem_or_eq_of_mem_set hrow with hold | rfl
      · exact h.undeleted row hold
      · exact h.undeleted s (List.mem_of_getElem? hs)
    · exact h.single organization a b (granting_set rfl ha).2 (granting_set rfl hb).2

/-- A call keeps the cycle working unless it subscribes after a cancellation. -/
theorem noReturn_step {db : SubscriptionDb} (call : SubscriptionCall) (hsound : db.Sound)
    (h : NoReturn db) : NoReturn (call.step db) ↔ FirstCycle db call := by
  rcases subscription_step_cases hsound call with ⟨hsame, hfirst⟩ |
    ⟨organizationId, code, now, plan, planId, rfl, hplan, hnone, hstep⟩ |
    ⟨_, k, s, now, rfl, hs, hgrants, hstep⟩
  · rw [hsame]
    exact iff_of_true h hfirst
  · -- The new subscription grants access, and is the first of its organization to do so.
    rw [hstep]
    have hnew := SubscriptionDb.grants_subscription plan planId organizationId now
    constructor
    · rintro hnext - - ⟨row, hrow, hsame, hcancelled⟩
      refine hnext organizationId db.subscriptions.length
        ⟨_, List.getElem?_concat_length, rfl, hnew⟩ ?_
      exact ⟨row, List.mem_append_left _ hrow, hsame, hcancelled⟩
    · rintro hfirst organization id hgranting ⟨row, hrow, hsame, hcancelled⟩
      rcases List.mem_append.mp hrow with hold | hfresh
      · have hwas : db.HasCancelled organization := ⟨row, hold, hsame, hcancelled⟩
        rcases granting_append hgranting with hgranting | ⟨horganization, -⟩
        · exact h organization id hgranting hwas
        · have horganization : organization = organizationId := horganization
          exact hfirst hplan hnone (horganization ▸ hwas)
      · rw [List.mem_singleton.mp hfresh] at hcancelled
        rw [hcancelled] at hnew
        cases hnew
  · -- The organization whose subscription is cancelled has no other that grants access.
    rw [hstep]
    refine iff_of_true ?_ trivial
    rintro organization id hgranting ⟨row, hrow, hsame, hcancelled⟩
    obtain ⟨hid, hgranting⟩ := granting_set rfl hgranting
    rcases List.mem_or_eq_of_mem_set hrow with hold | rfl
    · exact h organization id hgranting ⟨row, hold, hsame, hcancelled⟩
    · exact hid (hsound.single organization id k hgranting ⟨s, hs, hsame, hgrants⟩)

/-! ## Runs -/

/-- At every moment of a history the cycle works, if and only if it does at the start and
nobody subscribes after a cancellation. -/
theorem cycles_iff (start : SubscriptionDb) (hstart : start.Sound)
    (calls : List SubscriptionCall) :
    Run.Always SubscriptionCall.step Cycles start calls ↔
      NoReturn start ∧ Run.EveryStep SubscriptionCall.step FirstCycle start calls := by
  have hstep : ∀ (db : SubscriptionDb) call, True → db.Sound → Cycles db →
      (Cycles (SubscriptionCall.step db call) ↔ FirstCycle db call) := fun db call _ hsound h =>
    (cycles_iff_noReturn (sound_step call hsound)).trans
      (noReturn_step call hsound ((cycles_iff_noReturn hsound).mp h))
  have hsides : Run.EveryStep SubscriptionCall.step (fun _ _ => True) start calls :=
    Run.everyStep_of_forall fun _ _ => trivial
  have hrun : Cycles start → (Run.Always SubscriptionCall.step Cycles start calls ↔
      Run.EveryStep SubscriptionCall.step FirstCycle start calls) :=
    Run.always_iff_everyStep (fun _ call _ h => sound_step call h) hstep calls hsides hstart
  constructor
  · intro halways
    have hcycles : Cycles start := halways.head
    exact ⟨(cycles_iff_noReturn hstart).mp hcycles, (hrun hcycles).mp halways⟩
  · rintro ⟨hnoReturn, hevery⟩
    exact (hrun ((cycles_iff_noReturn hstart).mpr hnoReturn)).mpr hevery

/-! ## Two rounds -/

/-- One plan without a trial and no subscription. -/
def onePlan : SubscriptionDb where
  plans :=
    [{ name := "Pro"
       interval := "monthly"
       priceCents := 4900
       currency := "USD"
       quotas := ∅
       overageRates := ∅
       code := "pro"
       trialDays := 0
       deletedAt := none }]
  subscriptions := []

theorem onePlan_sound : onePlan.Sound where
  undeleted s hs := by cases hs
  single organizationId a b ha := by
    obtain ⟨s, hs, -⟩ := ha
    cases hs

/-- Two organizations subscribe, and one of them cancels. -/
theorem first_cycle_works :
    Run.Always SubscriptionCall.step Cycles onePlan
      [.subscribe 0 "pro" 0, .subscribe 1 "pro" 10, .cancelActive 0 20] := by
  refine (cycles_iff onePlan onePlan_sound _).mpr
    ⟨fun organizationId id hgranting => ?_, ?_, ?_, trivial, trivial⟩
  · obtain ⟨s, hs, -⟩ := hgranting
    cases hs
  · rintro - - ⟨s, hs, -⟩
    cases hs
  · rintro - - ⟨s, hs, -, hcancelled⟩
    rcases hs with _ | ⟨_, hs⟩
    · cases hcancelled
    · cases hs

/-- An organization subscribes, cancels, subscribes again and cancels again: the last
call breaks the constraint, and the subscription stays active. -/
theorem second_cancel_refused :
    let calls : List SubscriptionCall :=
      [.subscribe 0 "pro" 0, .cancelActive 0 10, .subscribe 0 "pro" 20]
    let db := Run.run SubscriptionCall.step onePlan calls
    onePlan.Sound ∧ db.Granting 0 1 ∧ db.cancelActive 0 false 30 = .error .integrity ∧
      ¬ Run.Always SubscriptionCall.step Cycles onePlan calls := by
  have hgranting : SubscriptionDb.Granting (Run.run SubscriptionCall.step onePlan
      [.subscribe 0 "pro" 0, .cancelActive 0 10, .subscribe 0 "pro" 20]) 0 1 :=
    ⟨_, rfl, rfl, rfl⟩
  refine ⟨onePlan_sound, hgranting, rfl, fun halways => ?_⟩
  obtain ⟨r, hok⟩ := halways.last.cancels 0 1 30 hgranting
  cases hok

end YoutubeFactory.Billing
