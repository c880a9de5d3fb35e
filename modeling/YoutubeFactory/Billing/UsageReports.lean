import YoutubeFactory.Access.PublicApi
import YoutubeFactory.Billing.Quotas

/-!
# Usage reports

`get_usage` of `app/api/v1/routes/billing.py` beside `get_usage` of `app/api/public/v1.py` and
`UsageService.quota_remaining`, on exact totals.

The billing route cuts the difference of limit and usage to a whole number, the public one cuts the
usage, and the quota is not cut.  So the three tell the same of a metric only if nothing is cut, or
the usage is past the limit by one unit or more (`usage_reports_agree_iff`).
-/

namespace YoutubeFactory.Billing

open Python Access PublicApi

/-! ## The billing route -/

structure UsageQuotaResponse where
  metric : String
  used : ℚ
  limit : Option Int
  remaining : Option Int
  exceeded : Bool

structure UsageSummaryResponse where
  organizationId : Id
  periodStart : Option DateTime
  periodEnd : Option DateTime
  metrics : List UsageQuotaResponse

inductive ReportError where
  | access (e : ApiError)
  /-- The limit of the metric is a fraction, which the response does not take. -/
  | fraction (metric : String)

/-- A quota and what has been used of it. -/
def usageQuota (books : Books) (organizationId : Id) (since : Date) (metric : String)
    (limit : ℚ) : Except ReportError UsageQuotaResponse :=
  let used := books.totalForMetric organizationId metric id since
  let remaining := truncate (limit - used)
  if limit.den = 1 then
    .ok
      { metric
        used
        limit := some limit.num
        remaining := some (max remaining 0)
        exceeded := remaining < 0 }
  else .error (.fraction metric)

/-- `get_usage` -/
def getUsage (access : AccessDb) (books : Books) (userId organizationId : Id) :
    Except ReportError UsageSummaryResponse := do
  let _ ← (access.authorize userId organizationId "billing.read").mapError .access
  match (books.activeSubscription organizationId).bind fun id => books.subscriptions[id]? with
  | none => return ⟨organizationId, none, none, []⟩
  | some subscription =>
      let quotas : Dict ℚ := ((books.plans[subscription.planId]?).map Plan.quotas).getD ∅
      let sorted := quotas.entries.insertionSort fun q q' => strLe q.1 q'.1
      let metrics ← sorted.mapM fun q => usageQuota books organizationId
        subscription.currentPeriodStart.date q.1 q.2
      return ⟨organizationId, some subscription.currentPeriodStart,
        some subscription.currentPeriodEnd, metrics⟩

/-! ## Whole numbers -/

theorem truncate_of_nonneg {q : ℚ} (h : 0 ≤ q) : truncate q = ⌊q⌋ := by
  rw [truncate, Rat.floor_def', Int.tdiv_eq_ediv_of_nonneg (Rat.num_nonneg.mpr h)]

theorem truncate_neg (q : ℚ) : truncate (-q) = -truncate q := by
  rw [truncate, truncate, Rat.num_neg_eq_neg_num, Rat.den_neg_eq_den, Int.neg_tdiv]

theorem truncate_of_nonpos {q : ℚ} (h : q ≤ 0) : truncate q = ⌈q⌉ := by
  have hneg := truncate_of_nonneg (neg_nonneg.mpr h)
  rw [truncate_neg, Int.floor_neg] at hneg
  exact neg_inj.mp hneg

theorem truncate_intCast (n : Int) : truncate n = n := by
  rcases le_total 0 n with h | h
  · rw [truncate_of_nonneg (Int.cast_nonneg h), Int.floor_intCast]
  · rw [truncate_of_nonpos (Int.cast_nonpos.mpr h), Int.ceil_intCast]

/-- A number between two whole ones is cut to the one that is nearer to zero. -/
theorem truncate_of_between {q : ℚ} {n : Int} (habove : (n : ℚ) < q) (hbelow : q < n + 1) :
    truncate q = if 0 ≤ n then n else n + 1 := by
  split
  · next hnonneg =>
      have hq : 0 ≤ q := (Int.cast_nonneg hnonneg).trans habove.le
      rw [truncate_of_nonneg hq, Int.floor_eq_iff]
      exact ⟨habove.le, hbelow⟩
  · next hneg =>
      have hsucc : ((n + 1 : Int) : ℚ) ≤ 0 := Int.cast_nonpos.mpr (by omega)
      have hq : q ≤ 0 := by
        push_cast at hsucc
        linarith
      rw [truncate_of_nonpos hq, Int.ceil_eq_iff]
      push_cast
      exact ⟨by linarith, hbelow.le⟩

/-- The three figures for a limit and a usage tell the same: what remains, and whether the limit is
exceeded. -/
def SameFigures (limit : Int) (used : ℚ) : Prop :=
  max (truncate (limit - used)) 0 = max (limit - truncate used) 0 ∧
    (truncate (limit - used) < 0 ↔ limit - used < 0) ∧
    (limit - truncate used < 0 ↔ limit - used < 0)

/-- Nothing is cut, or the limit is passed by one unit or more.  A negative usage is cut upwards by
both routes. -/
def Lossless (limit used : ℚ) : Prop :=
  (∃ n : Int, used = n) ∨ limit + 1 ≤ used ∨ used < 0 ∧ used < limit

theorem sameFigures_intCast (limit n : Int) : SameFigures limit n := by
  unfold SameFigures
  rw [← Int.cast_sub, truncate_intCast, truncate_intCast, Int.cast_lt_zero]
  exact ⟨rfl, Iff.rfl, Iff.rfl⟩

theorem sameFigures_iff {limit : Int} {used : ℚ} :
    SameFigures limit used ↔ Lossless limit used := by
  by_cases hwhole : ∃ n : Int, used = n
  · obtain ⟨n, rfl⟩ := hwhole
    exact iff_of_true (sameFigures_intCast limit n) (.inl ⟨n, rfl⟩)
  -- everything is said of the whole number below the usage
  have hbelow : (⌊used⌋ : ℚ) < used :=
    lt_of_le_of_ne (Int.floor_le used) fun h => hwhole ⟨_, h.symm⟩
  have habove : used < ⌊used⌋ + 1 := Int.lt_floor_add_one used
  have hused := truncate_of_between hbelow habove
  have hremaining : truncate (limit - used) =
      if 0 ≤ limit - ⌊used⌋ - 1 then limit - ⌊used⌋ - 1 else limit - ⌊used⌋ - 1 + 1 := by
    apply truncate_of_between
    · push_cast
      linarith
    · push_cast
      linarith
  have hexceeded : (limit : ℚ) - used < 0 ↔ limit ≤ ⌊used⌋ := by
    rw [sub_neg, Int.le_floor]
    exact ⟨le_of_lt, fun h => lt_of_le_of_ne h fun heq => hwhole ⟨limit, heq.symm⟩⟩
  have hfar : (limit : ℚ) + 1 ≤ used ↔ limit + 1 ≤ ⌊used⌋ := by
    rw [Int.le_floor]
    push_cast
    rfl
  have hnegative : used < 0 ↔ ⌊used⌋ < 0 := by
    rw [Int.floor_lt, Int.cast_zero]
  have hwithin : used < limit ↔ ⌊used⌋ < limit := Int.floor_lt.symm
  unfold SameFigures Lossless
  rw [hused, hremaining, hexceeded, hfar, hnegative, hwithin, or_iff_right hwhole]
  grind

/-! ## The three reports -/

/-- The quota of the metric is used up and more. -/
def Books.OverQuota (books : Books) (organizationId : Id) (metric : String) : Prop :=
  ∃ remaining, books.quotaRemaining organizationId metric id = some remaining ∧ remaining < 0

/-- The two reports of a metric, beside its quota. -/
structure SameReport (books : Books) (organizationId : Id) (row : UsageQuotaResponse)
    (shown : PublicUsage) : Prop where
  metric : row.metric = shown.metric
  remaining : row.remaining = some shown.remaining
  exceeded : row.exceeded = true ↔ books.OverQuota organizationId row.metric
  shownExceeded : shown.exceeded = true ↔ books.OverQuota organizationId row.metric

/-- The reports tell the same of every metric of the plan. -/
structure ReportsAgree (books : Books) (organizationId : Id) (plan : Plan)
    (rows : List UsageQuotaResponse) (shown : List PublicUsage) : Prop where
  complete : ∀ metric ∈ plan.quotas, ∃ row ∈ rows, row.metric = metric
  same : rows.Forall₂ (SameReport books organizationId) shown

section

variable {books : Books} {organizationId subscriptionId : Id} {subscription : Subscription}
  {plan : Plan} {since : Date} {metric : String} {limit : Int}

/-- The row of a whole limit. -/
def wholeRow (books : Books) (organizationId : Id) (since : Date) (metric : String)
    (limit : Int) : UsageQuotaResponse where
  metric
  used := books.totalForMetric organizationId metric id since
  limit := some limit
  remaining := some
    (max (truncate (limit - books.totalForMetric organizationId metric id since)) 0)
  exceeded := truncate (limit - books.totalForMetric organizationId metric id since) < 0

theorem usageQuota_intCast :
    usageQuota books organizationId since metric limit =
      .ok (wholeRow books organizationId since metric limit) := by
  unfold usageQuota
  rw [if_pos (Rat.den_intCast limit), Rat.num_intCast]
  rfl

/-- The two reports of a metric tell the same as its quota where the three figures do. -/
theorem sameReport_iff
    (hquota : books.quotaRemaining organizationId metric id =
      some ((limit : ℚ) - books.totalForMetric organizationId metric id since)) :
    SameReport books organizationId (wholeRow books organizationId since metric limit)
        (publicUsage books organizationId since metric limit) ↔
      SameFigures limit (books.totalForMetric organizationId metric id since) := by
  have hover : books.OverQuota organizationId metric ↔
      (limit : ℚ) - books.totalForMetric organizationId metric id since < 0 := by
    unfold Books.OverQuota
    rw [hquota]
    simp
  have hpublic : publicUsage books organizationId since metric limit =
      { metric
        used := books.totalForMetric organizationId metric id since
        limit
        remaining := max (limit -
          truncate (books.totalForMetric organizationId metric id since)) 0
        exceeded := limit -
          truncate (books.totalForMetric organizationId metric id since) < 0 } := by
    unfold publicUsage
    rw [truncate_intCast]
  rw [hpublic]
  constructor
  · rintro ⟨-, hremaining, hexceeded, hshown⟩
    exact ⟨Option.some.inj hremaining, decide_eq_true_iff.symm.trans (hexceeded.trans hover),
      decide_eq_true_iff.symm.trans (hshown.trans hover)⟩
  · rintro ⟨hremaining, hexceeded, hshown⟩
    exact ⟨rfl, congrArg some hremaining, decide_eq_true_iff.trans (hexceeded.trans hover.symm),
      decide_eq_true_iff.trans (hshown.trans hover.symm)⟩

theorem quotaRemaining_of_listed {limit : ℚ}
    (hactive : books.activeSubscription organizationId = some subscriptionId)
    (hsubscription : books.subscriptions[subscriptionId]? = some subscription)
    (hplan : books.plans[subscription.planId]? = some plan)
    (hlimit : plan.quotas.lookup metric = some limit) :
    books.quotaRemaining organizationId metric id =
      some (limit - books.totalForMetric organizationId metric id
        subscription.currentPeriodStart.date) := by
  unfold Books.quotaRemaining
  rw [Books.allowance_of_active hsubscription hplan hactive, hlimit]
  rfl

/-! ## The routes -/

/-- The quotas in the order of both reports. -/
def Plan.sortedQuotas (plan : Plan) : List (Sigma fun _ : String => ℚ) :=
  plan.quotas.entries.insertionSort fun q q' => strLe q.1 q'.1

theorem getUsage_ok {access : AccessDb} {userId : Id} {summary : UsageSummaryResponse}
    (hactive : books.activeSubscription organizationId = some subscriptionId)
    (hsubscription : books.subscriptions[subscriptionId]? = some subscription)
    (hplan : books.plans[subscription.planId]? = some plan)
    (hwhole : ∀ q ∈ plan.quotas.entries, ∃ limit : Int, q.2 = limit)
    (h : getUsage access books userId organizationId = .ok summary) :
    summary.metrics = plan.sortedQuotas.map fun q =>
      wholeRow books organizationId subscription.currentPeriodStart.date q.1 q.2.num := by
  obtain ⟨user, -, h⟩ := Except.bind_eq_ok.mp h
  rw [hactive, Option.bind_some, hsubscription] at h
  dsimp only at h
  rw [hplan, Option.map_some, Option.getD_some] at h
  obtain ⟨rows, hrows, h⟩ := Except.bind_eq_ok.mp h
  cases h
  have hrow : ∀ q ∈ plan.sortedQuotas,
      usageQuota books organizationId subscription.currentPeriodStart.date q.1 q.2 =
        .ok (wholeRow books organizationId subscription.currentPeriodStart.date q.1 q.2.num) := by
    intro q hq
    obtain ⟨limit, hlimit⟩ := hwhole q ((List.mem_insertionSort _).mp hq)
    rw [hlimit, usageQuota_intCast, Rat.num_intCast]
  exact (Except.ok.inj ((Except.mapM_of_forall hrow).symm.trans hrows)).symm

theorem publicGetUsage_ok {db db' db'' : PublicDb} {presented : Presented}
    {principal : ApiPrincipal} {shown : List PublicUsage}
    (hscope : db.withScope presented "usage:read" = .ok (principal, db'))
    (horganization : principal.organizationId = some organizationId)
    (hactive : db.books.activeSubscription organizationId = some subscriptionId)
    (hsubscription : db.books.subscriptions[subscriptionId]? = some subscription)
    (hplan : db.books.plans[subscription.planId]? = some plan)
    (h : db.getUsage presented = .ok (shown, db'')) :
    shown = plan.sortedQuotas.map fun q =>
      publicUsage db.books organizationId subscription.currentPeriodStart.date q.1 q.2 := by
  obtain ⟨key, -, -, keys, hdb⟩ := withScope_ok hscope
  have hbooks : db'.books = db.books := by rw [hdb]
  unfold PublicDb.getUsage at h
  rw [hscope, Except.ok_bind] at h
  dsimp only at h
  rw [requireOrganization_of_some horganization, Except.ok_bind, hbooks, hactive,
    Option.bind_some, hsubscription] at h
  dsimp only at h
  rw [hplan] at h
  cases h
  rfl

end

/-- The billing route and the public one show the same of every metric of a plan with whole quotas,
and both what its quota says, if the usage of each is lossless, and else not. -/
theorem usage_reports_agree_iff {db db' db'' : PublicDb} {presented : Presented}
    {principal : ApiPrincipal} {userId organizationId subscriptionId : Id}
    {subscription : Subscription} {plan : Plan} {summary : UsageSummaryResponse}
    {shown : List PublicUsage}
    (hactive : db.books.activeSubscription organizationId = some subscriptionId)
    (hsubscription : db.books.subscriptions[subscriptionId]? = some subscription)
    (hplan : db.books.plans[subscription.planId]? = some plan)
    (hwhole : ∀ q ∈ plan.quotas.entries, ∃ limit : Int, q.2 = limit)
    (hbilling : getUsage db.access db.books userId organizationId = .ok summary)
    (hscope : db.withScope presented "usage:read" = .ok (principal, db'))
    (horganization : principal.organizationId = some organizationId)
    (hpublic : db.getUsage presented = .ok (shown, db'')) :
    ReportsAgree db.books organizationId plan summary.metrics shown ↔
      ∀ metric limit, plan.quotas.lookup metric = some limit →
        Lossless limit (db.books.totalForMetric organizationId metric id
          subscription.currentPeriodStart.date) := by
  have hrows := getUsage_ok hactive hsubscription hplan hwhole hbilling
  have hshown := publicGetUsage_ok hscope horganization hactive hsubscription hplan hpublic
  have hmem : ∀ q, q ∈ plan.sortedQuotas ↔ plan.quotas.lookup q.1 = some q.2 := by
    intro q
    rw [Plan.sortedQuotas, List.mem_insertionSort]
    exact (List.mem_dlookup_iff plan.quotas.nodupKeys).symm
  have hsame : ∀ q ∈ plan.sortedQuotas,
      SameReport db.books organizationId
        (wholeRow db.books organizationId subscription.currentPeriodStart.date q.1 q.2.num)
        (publicUsage db.books organizationId subscription.currentPeriodStart.date q.1 q.2) ↔
      Lossless q.2 (db.books.totalForMetric organizationId q.1 id
          subscription.currentPeriodStart.date) := by
    intro q hq
    obtain ⟨limit, hlimit⟩ := hwhole q ((List.mem_insertionSort _).mp hq)
    have hquota := quotaRemaining_of_listed hactive hsubscription hplan ((hmem q).mp hq)
    rw [hlimit] at hquota ⊢
    rw [Rat.num_intCast, sameReport_iff hquota, sameFigures_iff]
  rw [hrows, hshown]
  constructor
  · rintro ⟨-, h⟩ metric limit hlimit
    rw [List.forall₂_map_left_iff, List.forall₂_map_right_iff, List.forall₂_same] at h
    have hq := (hmem ⟨metric, limit⟩).mpr hlimit
    exact (hsame _ hq).mp (h _ hq)
  · intro h
    constructor
    · intro metric hmetric
      obtain ⟨limit, hlimit⟩ := Option.isSome_iff_exists.mp (AList.lookup_isSome.mpr hmetric)
      exact ⟨_, List.mem_map_of_mem ((hmem ⟨metric, limit⟩).mpr hlimit), rfl⟩
    · rw [List.forall₂_map_left_iff, List.forall₂_map_right_iff, List.forall₂_same]
      exact fun q hq => (hsame q hq).mpr (h q.1 q.2 ((hmem q).mp hq))

/-! ## Ten renders a month -/

/-- An organization with ten renders a month, of which some are used.  Its only member can read the
billing and has a key that can. -/
def metered (used : ℚ) : PublicDb where
  access := ⟨[⟨true, false, none⟩], [⟨"accountant", none, ["billing.read"]⟩], [⟨0, 0, 0, none⟩]⟩
  keys := [viewerKey]
  content := ⟨[], [], [], []⟩
  runs := []
  books :=
    { invoices := []
      payments := []
      plans := [studio]
      subscriptions := [january]
      usage := [⟨0, some 0, "renders", used, 20100, none, none⟩] }

/-- Four renders are reported alike. -/
theorem usage_reports_agree_four : ∃ summary shown db',
    getUsage (metered 4).access (metered 4).books 0 0 = .ok summary ∧
      (metered 4).getUsage viewerPresents = .ok (shown, db') ∧
      ReportsAgree (metered 4).books 0 studio summary.metrics shown := by
  have hlisted : ∀ q ∈ studio.quotas.entries, q.2 = ((10 : Int) : ℚ) := by decide
  have hrun : ∃ summary shown db',
      getUsage (metered 4).access (metered 4).books 0 0 = .ok summary ∧
        (metered 4).getUsage viewerPresents = .ok (shown, db') := ⟨_, _, _, rfl, rfl⟩
  obtain ⟨summary, shown, db', hbilling, hpublic⟩ := hrun
  refine ⟨summary, shown, db', hbilling, hpublic, ?_⟩
  refine (@usage_reports_agree_iff (metered 4) _ _ viewerPresents _ 0 0 0 january studio summary
    shown rfl rfl rfl (fun q hq => ⟨10, hlisted q hq⟩) hbilling rfl rfl hpublic).mpr ?_
  intro metric limit hlimit
  by_cases hmetric : metric = "renders"
  · subst hmetric
    exact .inl ⟨4, by decide +kernel⟩
  · have hnone : studio.quotas.lookup metric = none := List.dlookup_cons_ne [] _ hmetric
    rw [hnone] at hlimit
    cases hlimit

/-- Of nine renders and a half, one report leaves one render and the other none.  Ten and a half are
too many, and no report says so. -/
theorem usage_reports_differ :
    (∃ summary shown db',
      getUsage (metered (19 / 2)).access (metered (19 / 2)).books 0 0 = .ok summary ∧
        (metered (19 / 2)).getUsage viewerPresents = .ok (shown, db') ∧
        summary.metrics.map (·.remaining) = [some 0] ∧ shown.map (·.remaining) = [1] ∧
        ¬ ReportsAgree (metered (19 / 2)).books 0 studio summary.metrics shown) ∧
    ∃ summary shown db',
      getUsage (metered (21 / 2)).access (metered (21 / 2)).books 0 0 = .ok summary ∧
        (metered (21 / 2)).getUsage viewerPresents = .ok (shown, db') ∧
        (metered (21 / 2)).books.OverQuota 0 "renders" ∧
        summary.metrics.map (·.exceeded) = [false] ∧ shown.map (·.exceeded) = [false] ∧
        ¬ ReportsAgree (metered (21 / 2)).books 0 studio summary.metrics shown := by
  constructor
  · refine ⟨_, _, _, rfl, rfl, by decide +kernel, by decide +kernel, fun h => ?_⟩
    have hfirst := h.same.get Nat.zero_lt_one Nat.zero_lt_one
    exact absurd hfirst.remaining (by decide +kernel)
  · have hover : (metered (21 / 2)).books.OverQuota 0 "renders" := ⟨_, rfl, by decide +kernel⟩
    refine ⟨_, _, _, rfl, rfl, hover, by decide +kernel, by decide +kernel, fun h => ?_⟩
    have hfirst := h.same.get Nat.zero_lt_one Nat.zero_lt_one
    exact absurd (hfirst.exceeded.mpr hover) (by decide +kernel)

end YoutubeFactory.Billing
