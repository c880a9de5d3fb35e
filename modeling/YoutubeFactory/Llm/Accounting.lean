import YoutubeFactory.Llm.Turns
import YoutubeFactory.Lib.Rollup
import YoutubeFactory.Lib.Run

/-!
# The rollups add up

`record` logs a request and adds it to the day's rows of `llm_usage_rollup` and
`llm_cost_rollup`.  The rows are the rollups of the log (`Ledger`), if a request is rolled up on
the day of its row.  The total of a cost row is then within rounding of its input and output cost,
if the price of every request was its cost: `stream` records a cost of zero.
-/

namespace YoutubeFactory.Llm

open Access Python

variable {M : Type}

/-! ## The log and its rows -/

/-- Organization, day and model. -/
abbrev RollupKey := Option Id × Date × String

namespace RequestRecord

def key (r : RequestRecord) : RollupKey := (r.organizationId, dateOf r.createdAt, r.model)

/-- Input, output and total tokens, and one request. -/
def counts (r : RequestRecord) : Nat × Nat × Nat × Nat :=
  (r.inputTokens, r.outputTokens, r.totalTokens, 1)

def inputCost (r : RequestRecord) : ℚ := r.inputTokens / 1000000 * (getModelInfo r.model).1

def outputCost (r : RequestRecord) : ℚ := r.outputTokens / 1000000 * (getModelInfo r.model).2

def charges (r : RequestRecord) : ℚ × ℚ × ℚ := (r.inputCost, r.outputCost, r.costUsd)

end RequestRecord

/-- The requests of an organization, a day and a model. -/
def LlmDb.requestsOf (db : LlmDb) (organizationId : Option Id) (date : Date) (model : String) :
    List RequestRecord :=
  db.requests.filter fun r =>
    r.organizationId = organizationId ∧ dateOf r.createdAt = date ∧ r.model = model

/-- The rollups add up. -/
structure AddsUp (db : LlmDb) : Prop where
  inputTokens : ∀ u ∈ db.usage, u.inputTokens =
    ((db.requestsOf u.organizationId u.usageDate u.model).map (·.inputTokens)).sum
  outputTokens : ∀ u ∈ db.usage, u.outputTokens =
    ((db.requestsOf u.organizationId u.usageDate u.model).map (·.outputTokens)).sum
  totalTokens : ∀ u ∈ db.usage, u.totalTokens =
    ((db.requestsOf u.organizationId u.usageDate u.model).map (·.totalTokens)).sum
  requestCount : ∀ u ∈ db.usage, u.requestCount =
    (db.requestsOf u.organizationId u.usageDate u.model).length
  totalCost : ∀ c ∈ db.costs, c.totalCostUsd =
    ((db.requestsOf c.organizationId c.costDate c.model).map (·.costUsd)).sum
  withinRounding : ∀ c ∈ db.costs, |c.totalCostUsd - (c.inputCostUsd + c.outputCostUsd)| ≤
    (db.requestsOf c.organizationId c.costDate c.model).length * (1 / 2 / 1000000)

def usageColumns : Rollup.Columns UsageRollup RollupKey (Nat × Nat × Nat × Nat) where
  key r := (r.organizationId, r.usageDate, r.model)
  amount r := (r.inputTokens, r.outputTokens, r.totalTokens, r.requestCount)
  fresh k := ⟨k.1, k.2.1, k.2.2, 0, 0, 0, 0⟩
  add a r :=
    { r with
      inputTokens := r.inputTokens + a.1
      outputTokens := r.outputTokens + a.2.1
      totalTokens := r.totalTokens + a.2.2.1
      requestCount := r.requestCount + a.2.2.2 }
  key_fresh _ := rfl
  amount_fresh _ := rfl
  key_add _ _ := rfl
  amount_add _ _ := rfl

def costColumns : Rollup.Columns CostRollup RollupKey (ℚ × ℚ × ℚ) where
  key r := (r.organizationId, r.costDate, r.model)
  amount r := (r.inputCostUsd, r.outputCostUsd, r.totalCostUsd)
  fresh k := ⟨k.1, k.2.1, k.2.2, 0, 0, 0⟩
  add a r :=
    { r with
      inputCostUsd := r.inputCostUsd + a.1
      outputCostUsd := r.outputCostUsd + a.2.1
      totalCostUsd := r.totalCostUsd + a.2.2 }
  key_fresh _ := rfl
  amount_fresh _ := rfl
  key_add _ _ := rfl
  amount_add _ _ := rfl

theorem countUsage_usage (db : LlmDb) (organizationId : Option Id) (date : Date) (model : String)
    (input output total : Nat) :
    (db.countUsage organizationId date model input output total).usage =
      usageColumns.upsert (organizationId, date, model) (input, output, total, 1) db.usage := by
  simp only [LlmDb.countUsage, LlmDb.usageFor, Rollup.Columns.upsert, usageColumns,
    Prod.mk.injEq]

theorem countCosts_costs (db : LlmDb) (organizationId : Option Id) (date : Date) (model : String)
    (input output total : ℚ) :
    (db.countCosts organizationId date model input output total).costs =
      costColumns.upsert (organizationId, date, model) (input, output, total) db.costs := by
  simp only [LlmDb.countCosts, LlmDb.costsFor, Rollup.Columns.upsert, costColumns,
    Prod.mk.injEq]

theorem entriesOf_key (db : LlmDb) (organizationId : Option Id) (date : Date) (model : String) :
    Rollup.entriesOf RequestRecord.key db.requests (organizationId, date, model) =
      db.requestsOf organizationId date model := by
  simp only [Rollup.entriesOf, RequestRecord.key, Prod.mk.injEq, LlmDb.requestsOf]

/-- The cost of a request is its price, but for the rounding. -/
def RequestRecord.Priced (r : RequestRecord) : Prop :=
  |r.costUsd - (r.inputCost + r.outputCost)| ≤ 1 / 2 / 1000000

/-- The rows are the rollups of the log, and every request in it is priced. -/
structure Ledger (db : LlmDb) : Prop where
  usage : usageColumns.Agrees RequestRecord.key RequestRecord.counts db.usage db.requests
  costs : costColumns.Agrees RequestRecord.key RequestRecord.charges db.costs db.requests
  priced : ∀ r ∈ db.requests, r.Priced

/-- One column of a usage row. -/
theorem Ledger.usage_column {db : LlmDb} (h : Ledger db) (f : Nat × Nat × Nat × Nat →+ Nat)
    {u : UsageRollup} (hu : u ∈ db.usage) :
    f (u.inputTokens, u.outputTokens, u.totalTokens, u.requestCount) =
      ((db.requestsOf u.organizationId u.usageDate u.model).map fun r => f r.counts).sum := by
  have hsum := congrArg f (h.usage.sums u hu)
  rw [Rollup.map_total] at hsum
  rw [← entriesOf_key]
  exact hsum

/-- One column of a cost row. -/
theorem Ledger.cost_column {db : LlmDb} (h : Ledger db) (f : ℚ × ℚ × ℚ →+ ℚ) {c : CostRollup}
    (hc : c ∈ db.costs) : f (c.inputCostUsd, c.outputCostUsd, c.totalCostUsd) =
      ((db.requestsOf c.organizationId c.costDate c.model).map fun r => f r.charges).sum := by
  have hsum := congrArg f (h.costs.sums c hc)
  rw [Rollup.map_total] at hsum
  rw [← entriesOf_key]
  exact hsum

theorem Ledger.addsUp {db : LlmDb} (h : Ledger db) : AddsUp db where
  inputTokens u hu := h.usage_column (AddMonoidHom.fst _ _) hu
  outputTokens u hu :=
    h.usage_column ((AddMonoidHom.fst _ _).comp (AddMonoidHom.snd _ _)) hu
  totalTokens u hu :=
    h.usage_column
      ((AddMonoidHom.fst _ _).comp ((AddMonoidHom.snd _ _).comp (AddMonoidHom.snd _ _))) hu
  requestCount u hu := by
    have hcount := h.usage_column
      ((AddMonoidHom.snd _ _).comp ((AddMonoidHom.snd _ _).comp (AddMonoidHom.snd _ _))) hu
    refine hcount.trans ?_
    show ((db.requestsOf u.organizationId u.usageDate u.model).map fun _ => 1).sum = _
    rw [List.map_const', List.sum_replicate_nat, mul_one]
  totalCost c hc :=
    h.cost_column ((AddMonoidHom.snd _ _).comp (AddMonoidHom.snd _ _)) hc
  withinRounding c hc := by
    have htotal : c.totalCostUsd = _ :=
      h.cost_column ((AddMonoidHom.snd _ _).comp (AddMonoidHom.snd _ _)) hc
    have hparts : c.inputCostUsd + c.outputCostUsd = _ :=
      h.cost_column (AddMonoidHom.coprod (AddMonoidHom.id ℚ) (AddMonoidHom.fst ℚ ℚ)) hc
    rw [htotal, hparts, ← nsmul_eq_mul]
    exact Rollup.abs_sum_sub_sum_le fun r hr => h.priced r (List.mem_filter.mp hr).1

theorem Ledger.nil {db : LlmDb} (hrequests : db.requests = []) (husage : db.usage = [])
    (hcosts : db.costs = []) : Ledger db where
  usage := by
    rw [husage, hrequests]
    exact .nil
  costs := by
    rw [hcosts, hrequests]
    exact .nil
  priced := by
    rw [hrequests]
    exact fun r hr => by cases hr

/-! ## One request -/

/-- The tables that the accounting reads and writes are the same. -/
structure SameBooks (db db' : LlmDb) : Prop where
  requests : db'.requests = db.requests
  usage : db'.usage = db.usage
  costs : db'.costs = db.costs

theorem Ledger.of_sameBooks {db db' : LlmDb} (h : Ledger db) (hsame : SameBooks db db') :
    Ledger db' where
  usage := by
    rw [hsame.usage, hsame.requests]
    exact h.usage
  costs := by
    rw [hsame.costs, hsame.requests]
    exact h.costs
  priced := by
    rw [hsame.requests]
    exact h.priced

/-- The row that `record` logs. -/
def loggedRequest (outcome : ChatOutcome) (organizationId : Option Id) (userId : Id)
    (conversationId : Option Id) (streamed : Bool) (context : RequestContext) : RequestRecord where
  organizationId
  userId := some userId
  conversationId
  provider := outcome.provider
  model := outcome.response.model
  status := if streamed then "streamed" else "succeeded"
  inputTokens := outcome.response.usage.inputTokens
  outputTokens := outcome.response.usage.outputTokens
  cachedTokens := outcome.response.usage.cacheReadTokens
  totalTokens := outcome.response.usage.totalTokens
  costUsd := outcome.costUsd
  latencyMs := outcome.latencyMs
  streamed
  cacheHit := outcome.cacheHit
  correlationId := context.correlationId
  createdAt := context.dbNow

section

variable {outcome : ChatOutcome} {organizationId : Option Id} {userId : Id}
  {conversationId : Option Id} {streamed : Bool} {context : RequestContext} {db db' : LlmDb}

/-- What `_roll_up` writes. -/
theorem rollUp_writes {model : String} {usage : Usage} {costUsd : ℚ} {today : Date}
    (h : (rollUp organizationId model usage costUsd today).run db = .ok ((), db')) :
    db' = (db.countUsage organizationId today model usage.inputTokens usage.outputTokens
      usage.totalTokens).countCosts organizationId today model
      (usage.inputTokens / 1000000 * (getModelInfo model).1)
      (usage.outputTokens / 1000000 * (getModelInfo model).2) costUsd := by
  rw [rollUp, StateT.run_bind, StateT.run_get, pure_bind] at h
  split at h
  · cases h
  rw [StateT.run_bind, StateT.run_modify, pure_bind, StateT.run_bind, StateT.run_get,
    pure_bind] at h
  split at h
  · cases h
  · cases h
    rfl

/-- What `record` writes. -/
theorem record_writes
    (h : (record outcome organizationId userId conversationId streamed context).run db =
      .ok ((), db')) :
    let r := loggedRequest outcome organizationId userId conversationId streamed context
    db' = ((db.insertRequest r).countUsage organizationId context.today r.model r.inputTokens
      r.outputTokens r.totalTokens).countCosts organizationId context.today r.model r.inputCost
      r.outputCost r.costUsd := by
  rw [record, StateT.run_bind, StateT.run_get, pure_bind] at h
  by_cases hexists : organizationId.all db.organizationExists
  · rw [if_pos hexists, StateT.run_bind, StateT.run_modify, pure_bind] at h
    exact rollUp_writes h
  · rw [if_neg hexists] at h
    cases h

/-- A request that is rolled up on the day of its row, at its price. -/
theorem Ledger.record (hledger : Ledger db)
    (h : (record outcome organizationId userId conversationId streamed context).run db =
      .ok ((), db')) (hday : dateOf context.dbNow = context.today)
    (hpriced : (loggedRequest outcome organizationId userId conversationId streamed
      context).Priced) : Ledger db' := by
  have hwrites := record_writes h
  set r := loggedRequest outcome organizationId userId conversationId streamed context
  have hkey : r.key = (organizationId, context.today, r.model) :=
    congrArg (fun day => (organizationId, day, r.model)) hday
  have hrequests : db'.requests = db.requests ++ [r] := by
    rw [hwrites]
    rfl
  have husage : db'.usage = usageColumns.upsert r.key r.counts db.usage := by
    rw [hwrites, hkey]
    exact countUsage_usage _ _ _ _ _ _ _
  have hcosts : db'.costs = costColumns.upsert r.key r.charges db.costs := by
    rw [hwrites, hkey]
    exact countCosts_costs _ _ _ _ _ _ _
  constructor
  · rw [husage, hrequests]
    exact hledger.usage.upsert r
  · rw [hcosts, hrequests]
    exact hledger.costs.upsert r
  · rw [hrequests]
    intro r' hr'
    rcases List.mem_append.mp hr' with hold | hnew
    · exact hledger.priced r' hold
    · rw [List.mem_singleton.mp hnew]
      exact hpriced

/-- What the manager has answered is priced. -/
theorem priced_outcome (answer : Answer) (request : ChatRequest) :
    (loggedRequest (answer.outcome request) organizationId userId conversationId streamed
      context).Priced := by
  have hround := abs_roundTo_sub
    (answer.usage.inputTokens / 1000000 * (getModelInfo request.model).1 +
      answer.usage.outputTokens / 1000000 * (getModelInfo request.model).2) 6
  rw [show (10 : ℚ) ^ 6 = 1000000 by norm_num] at hround
  exact hround

/-- What `stream` records is priced if it has no tokens. -/
theorem priced_stream {response : ChatResponse} {provider : String}
    (hinput : response.usage.inputTokens = 0) (houtput : response.usage.outputTokens = 0) :
    (loggedRequest ⟨response, provider, 0, 0, false⟩ organizationId userId conversationId streamed
      context).Priced := by
  have hzero : (0 : ℚ) ≤ 1 / 2 / 1000000 := by norm_num
  simpa [RequestRecord.Priced, RequestRecord.inputCost, RequestRecord.outputCost, loggedRequest,
    hinput, houtput] using hzero

/-! ## Turns -/

theorem appendMessage_sameBooks {conversationId : Id} {role content : String} {actorId : Id}
    {tokens : Nat}
    (h : (appendMessage conversationId role content actorId tokens).run db = .ok ((), db')) :
    SameBooks db db' := by
  rw [appendMessage, StateT.run_bind, StateT.run_get, pure_bind] at h
  split at h
  · rw [StateT.run_bind, StateT.run_get, pure_bind, StateT.run_bind, StateT.run_get, pure_bind,
      StateT.run_modify] at h
    cases h
    exact ⟨rfl, rfl, rfl⟩
  · cases h

theorem Ledger.recordTurn (hledger : Ledger db) {messages : List Message}
    (h : (recordTurn messages outcome organizationId userId conversationId context).run db =
      .ok ((), db')) (hday : dateOf context.dbNow = context.today)
    (hpriced : (loggedRequest outcome organizationId userId conversationId false
      context).Priced) : Ledger db' := by
  unfold Llm.recordTurn at h
  rw [StateT.run_bind] at h
  obtain ⟨⟨⟨⟩, db₁⟩, hrecord, h⟩ := Except.bind_eq_ok.mp h
  have hledger₁ : Ledger db₁ := hledger.record hrecord hday hpriced
  cases conversationId with
  | none =>
      cases h
      exact hledger₁
  | some id =>
      cases hlast : messages.getLast? with
      | none =>
          rw [hlast] at h
          cases h
          exact hledger₁
      | some message =>
          rw [hlast] at h
          simp only [StateT.run_bind] at h
          obtain ⟨⟨⟨⟩, db₂⟩, huser, h⟩ := Except.bind_eq_ok.mp h
          have hledger₂ : Ledger db₂ := hledger₁.of_sameBooks (appendMessage_sameBooks huser)
          exact hledger₂.of_sameBooks (appendMessage_sameBooks h)

end

/-- The responses that a stream passes on, one after the other. -/
theorem streamEvents_ledger {account : ChatResponse → LlmM Unit} :
    ∀ {events : List StreamEvent} {db db' : LlmDb},
      (∀ event ∈ events, ∀ response ∈ event.response, ∀ db db' : LlmDb,
        (account response).run db = .ok ((), db') → Ledger db → Ledger db') →
      (streamEvents account events db).2 = .ok db' → Ledger db → Ledger db'
  | [], db, db', _, h, hledger => by
      cases h
      exact hledger
  | event :: events, db, db', haccount, h, hledger => by
      have hrest : ∀ e ∈ events, ∀ response ∈ e.response, ∀ db db' : LlmDb,
          (account response).run db = .ok ((), db') → Ledger db → Ledger db' :=
        fun e he => haccount e (List.mem_cons_of_mem event he)
      cases hresponse : event.response with
      | none =>
          rw [streamEvents, hresponse] at h
          exact streamEvents_ledger hrest h hledger
      | some response =>
          simp only [streamEvents, hresponse] at h
          cases hrun : (account response).run db with
          | error e =>
              rw [hrun] at h
              cases h
          | ok p =>
              obtain ⟨⟨⟩, db₁⟩ := p
              rw [hrun] at h
              exact streamEvents_ledger hrest h
                (haccount event List.mem_cons_self response hresponse db db₁ hrun hledger)

section

variable (env : LlmEnv M) (providers : Providers M)

/-- The responses of a stream have no tokens. -/
def Turn.StreamsNoTokens (s : LlmState M) : Turn → Prop
  | .stream messages model system maxTokens provider organizationId _ =>
      ∀ event ∈ (env.manager.stream s.manager (buildRequest env messages model system maxTokens)
        provider organizationId).1.1, ∀ response ∈ event.response,
          response.usage.inputTokens = 0 ∧ response.usage.outputTokens = 0
  | _ => True

/-- The last of the contexts that a turn may read. -/
def Turn.lastContext : Turn → Nat
  | .chatStructured _ _ _ _ _ maxRetries _ _ => maxRetries
  | _ => 0

/-- A turn that is committed rolls its requests up on the days of their rows, and streams no
tokens. -/
def TurnCall.Accountable (s : LlmState M) (call : TurnCall) : Prop :=
  call.commits = true →
    (∀ n ≤ call.turn.lastContext, dateOf (call.contexts n).dbNow = (call.contexts n).today) ∧
      call.turn.StreamsNoTokens env s

/-- The manager prices what the providers answer. -/
theorem over_chat_ok {manager : M} {request : ChatRequest} {provider : Option String}
    {organizationId : Option Id} {outcome : ChatOutcome}
    (h : ((env.over providers).manager.chat manager request provider organizationId).1 =
      .ok outcome) : ∃ answer : Answer, answer.outcome request = outcome := by
  obtain ⟨answer, -, houtcome⟩ := Except.map_eq_ok.mp h
  exact ⟨answer, houtcome⟩

theorem chat_ledger {s : LlmState M} (hledger : Ledger s.db) (messages : List Message)
    (model system : Option String) (maxTokens : Option Nat) (provider : Option String)
    (organizationId : Option Id) (userId : Id) (conversationId : Option Id)
    {context : RequestContext} (hday : dateOf context.dbNow = context.today) :
    Ledger (chat (env.over providers) messages model system maxTokens provider organizationId
      userId conversationId context s).2.db := by
  unfold chat
  dsimp only
  split
  · exact hledger
  · next outcome hanswer =>
      obtain ⟨answer, rfl⟩ := over_chat_ok env providers hanswer
      split
      · exact hledger
      · next hrecord => exact hledger.recordTurn hrecord hday (priced_outcome answer _)

theorem chatStructured_ledger (schema : Json) (parse : String → Parsed)
    (model system : Option String) (organizationId : Option Id) (userId : Id)
    {contexts : Nat → RequestContext} (retries attempt : Nat)
    (hday : ∀ n, attempt ≤ n → n ≤ attempt + retries →
      dateOf (contexts n).dbNow = (contexts n).today)
    (conversation : List Message) {s : LlmState M} (hledger : Ledger s.db) :
    Ledger (chatStructured (env.over providers) schema parse model system organizationId userId
      contexts retries attempt conversation s).2.db := by
  unfold chatStructured
  dsimp only
  split
  · exact hledger
  · next outcome hanswer =>
      obtain ⟨answer, rfl⟩ := over_chat_ok env providers hanswer
      split
      · exact hledger
      · next hrecord =>
          have hnext := hledger.record hrecord 
            (hday attempt (Nat.le_refl _) (Nat.le_add_right _ _)) (priced_outcome answer _)
          split
          · exact hnext
          · exact hnext
          · cases retries with
            | zero => exact hnext
            | succ retries =>
                exact chatStructured_ledger schema parse model system organizationId userId retries
                  (attempt + 1) (fun n hle hge => hday n (by omega) (by omega)) _ hnext
termination_by retries

theorem stream_ledger {s : LlmState M} (hledger : Ledger s.db) (messages : List Message)
    (model system : Option String) (maxTokens : Option Nat) (provider : Option String)
    (organizationId : Option Id) (userId : Id) {context : RequestContext}
    (hday : dateOf context.dbNow = context.today)
    (htokens : (Turn.stream messages model system maxTokens provider organizationId
      userId).StreamsNoTokens env s) :
    Ledger (stream env messages model system maxTokens provider organizationId userId context
      s).2.db := by
  unfold stream
  dsimp only
  have haccounted : ∀ db, (streamEvents (fun response => recordStream env response provider
      organizationId userId context) (env.manager.stream s.manager
        (buildRequest env messages model system maxTokens) provider organizationId).1.1 s.db).2 =
      .ok db → Ledger db := by
    intro db hsent
    refine streamEvents_ledger (fun event hevent response hresponse db₁ db₂ hrun h => ?_) hsent
      hledger
    obtain ⟨hinput, houtput⟩ := htokens event hevent response hresponse
    exact h.record hrun hday (priced_stream hinput houtput)
  split
  · exact hledger
  · next hsent _ => exact haccounted _ hsent
  · next hsent _ => exact haccounted _ hsent

/-- One turn. -/
theorem take_ledger {s : LlmState M} (hledger : Ledger s.db) {call : TurnCall}
    (hcall : call.Accountable (env.over providers) s) :
    Ledger (s.take (env.over providers) call).db := by
  unfold LlmState.take
  dsimp only
  split
  · next hcommits =>
      obtain ⟨hday, htokens⟩ := hcall hcommits
      cases hturn : call.turn with
      | chat messages model system maxTokens provider organizationId userId conversationId =>
          exact chat_ledger env providers hledger _ _ _ _ _ _ _ _ (hday 0 (Nat.zero_le _))
      | chatStructured messages schema parse model system maxRetries organizationId userId =>
          rw [hturn] at hday
          exact chatStructured_ledger env providers _ _ _ _ _ _ maxRetries 0
            (fun n _ hle => hday n (Nat.zero_add maxRetries ▸ hle)) _ hledger
      | stream messages model system maxTokens provider organizationId userId =>
          rw [hturn] at htokens
          exact stream_ledger (env.over providers) hledger _ _ _ _ _ _ _
            (hday 0 (Nat.zero_le _)) htokens
  · exact hledger

/-- The rollups add up all along every run of turns that stream no tokens and are rolled up on the
days of their requests. -/
theorem rollups_add_up {s : LlmState M} (hrequests : s.db.requests = [])
    (husage : s.db.usage = []) (hcosts : s.db.costs = []) (calls : List TurnCall)
    (hcalls : Run.EveryStep (LlmState.take (env.over providers))
      (TurnCall.Accountable (env.over providers)) s calls) :
    Run.Always (LlmState.take (env.over providers)) (fun s => AddsUp s.db) s calls := by
  have hstart : Ledger s.db := .nil hrequests husage hcosts
  have hledger : Run.Always (LlmState.take (env.over providers)) (fun s => Ledger s.db) s calls :=
    Run.always_of_everyStep (fun s call hcall h => take_ledger env providers h hcall) calls hcalls
      hstart
  exact hledger.imp fun s h => h.addsUp

end

/-! ## A chat and a stream -/

/-- Providers that answer everything with these tokens, and stream with those. -/
def fixedProviders (answered streamed : Usage) : Providers Unit where
  chat _ _ _ _ := (.ok ⟨"mock", "Echo", "end_turn", answered, 1, false⟩, ())
  stream _ request _ _ :=
    (([⟨"done", "", some ⟨"Echo", request.model, "end_turn", streamed⟩, none⟩], none), ())

/-- The default settings. -/
def plainEnv : LlmEnv Unit where
  settings := ⟨"mock", "claude-opus-4-8", 4096, none, none, none, true, none⟩
  manager := (fixedProviders ⟨0, 0, 0, 0⟩ ⟨0, 0, 0, 0⟩).manager
  jinja := fun template _ => .ok template

/-- Nothing has been asked. -/
def freshState : LlmState Unit where
  db :=
    { access := { users := [], roles := [], members := [] }
      organizations := []
      templates := []
      versions := []
      conversations := []
      messages := []
      requests := []
      usage := []
      costs := []
      nextId := 0
      templates_lt := nofun
      conversations_lt := nofun }
  manager := ()

/-- A turn on the first day. -/
def committed (turn : Turn) : TurnCall := ⟨turn, fun _ => ⟨60, 0, none⟩, true⟩

def askedTurns : List TurnCall :=
  [committed (.chat [⟨"user", "Hi"⟩] none none none none none 0 none),
    committed (.chatStructured [⟨"user", "Hi"⟩] .null (fun _ => .malformed .multipleResults) none
      none 1 none 0),
    committed (.stream [⟨"user", "Hi"⟩] none none none none none 0)]

theorem asked_turns_add_up :
    Run.Always (LlmState.take (plainEnv.over (fixedProviders ⟨7, 9, 0, 0⟩ ⟨0, 0, 0, 0⟩)))
      (fun s => AddsUp s.db) freshState askedTurns := by
  refine rollups_add_up plainEnv (fixedProviders ⟨7, 9, 0, 0⟩ ⟨0, 0, 0, 0⟩) rfl rfl rfl askedTurns
    ⟨fun _ => ⟨fun _ _ => rfl, trivial⟩, fun _ => ⟨fun _ _ => rfl, trivial⟩,
      fun _ => ⟨fun _ _ => rfl, ?_⟩, trivial⟩
  intro event hevent response hresponse
  rw [List.mem_singleton.mp hevent] at hresponse
  cases hresponse
  exact ⟨rfl, rfl⟩

/-- A streamed turn of a thousand tokens costs nothing in total, and half a cent as input. -/
theorem streamed_turn_not_priced :
    ¬ ∀ (env : LlmEnv Unit) (providers : Providers Unit) (s : LlmState Unit),
      s.db.requests = [] → s.db.usage = [] → s.db.costs = [] →
      ∀ calls : List TurnCall,
        (∀ call ∈ calls, ∀ n, dateOf (call.contexts n).dbNow = (call.contexts n).today) →
        Run.Always (LlmState.take (env.over providers)) (fun s => AddsUp s.db) s calls := by
  intro haddsUp
  have hrun := haddsUp plainEnv (fixedProviders ⟨0, 0, 0, 0⟩ ⟨1000, 0, 0, 0⟩) freshState rfl rfl rfl
    [committed (.stream [⟨"user", "Hi"⟩] none none none none none 0)]
    fun call hcall n => by rw [List.mem_singleton.mp hcall]; rfl
  have hrows := hrun.last.withinRounding
  revert hrows
  decide +kernel

end YoutubeFactory.Llm
