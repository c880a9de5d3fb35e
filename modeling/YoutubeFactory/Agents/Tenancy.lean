import YoutubeFactory.Lib.Table
import YoutubeFactory.Agents.Routes

/-!
# Tenancy of the agent routes

A request keeps to the organizations in which its user may work with agents exactly when
it is one of the two that check a permission, or its ids lead nowhere else (`tenancy_iff`).
Both ways rest on what one request touches: a route that checks nothing touches what its
ids lead to (`follows_of_not_checked`), a route that checks adds rows of the organization it
has checked (`start_touches`, `createKnowledge_touches`).
-/

namespace YoutubeFactory.Agents

open Access Tenancy

/-! ## What a request shows and changes -/

/-- The items a response shows. -/
def AgentResponse.items : AgentResponse → List AgentItem
  | .running runs => runs.map .managed
  | .summary run => [.run run.runId]
  | .control runId acted => if acted then [.run runId] else []
  | .goals rows => rows.map fun r => .goal r.1
  | .goal row => [.goal row]
  | .tasks rows => rows.map fun r => .task r.1
  | .taskExecutions rows => rows.map fun r => .taskExecution r.1
  | .toolExecutions rows => rows.map fun r => .toolExecution r.1
  | .reflection row => [.reflection row]
  | .evaluation row => [.evaluation row]
  | .workflowRun row => [.workflowRun row]
  | .documents rows => rows.map fun r => .document r.1
  | .document row => [.document row]
  | .deleted => []

/-- An item of the organization is shown, or one is changed or added. -/
def Touches (db db' : AgentDb) (response : AgentResponse) (organizationId : Id) : Prop :=
  (∃ item ∈ response.items, organizationId ∈ item.organizations db') ∨
    ∃ (table : AgentTable) (i : Nat), (db'.rows table)[i]? ≠ (db.rows table)[i]? ∧
      ((∃ item : AgentItem, (db.rows table)[i]? = some item ∧
          organizationId ∈ item.organizations db) ∨
        ∃ item : AgentItem, (db'.rows table)[i]? = some item ∧
          organizationId ∈ item.organizations db')

/-- The user has one of the permissions on agents. -/
def HoldsAgent (db : AgentDb) (userId organizationId : Id) : Prop :=
  db.access.Holds userId organizationId "agent.run" ∨
    db.access.Holds userId organizationId "agent.manage"

def Superuser (db : AgentDb) (userId : Id) : Prop :=
  ∃ user, db.access.users[userId]? = some user ∧ user.isSuperuser = true

/-- If the request succeeds, its user is a superuser or may work with agents in every
organization that it touches. -/
def Lawful (runtime : AgentRuntime) (db : AgentDb) (userId : Id) (request : AgentRequest) :
    Prop :=
  ∀ response db', request.serve runtime db userId = .ok (response, db') →
    ∀ organizationId, Touches db db' response organizationId →
      Superuser db userId ∨ HoldsAgent db userId organizationId

namespace AgentRequest

/-- The request is one of the two that check a permission. -/
def Checked : AgentRequest → Prop
  | .start _ _ => True
  | .createKnowledge _ _ => True
  | _ => False

/-- The ids of the request lead to an item of the organization. -/
def LeadsTo (db : AgentDb) (organizationId : Id) : AgentRequest → Prop
  | .running => ∃ m ∈ db.active, m.organizationId = some organizationId
  | .pause runId | .resume runId | .stop runId =>
      (∃ m ∈ db.active, m.runId = runId) ∧ organizationId ∈ db.runOrganizations runId
  | .listGoals organizationId' =>
      (∃ g ∈ db.goals, g.organizationId = some organizationId' ∧ g.deletedAt = none) ∧
        organizationId' = organizationId
  | .getGoal goalId =>
      ∃ g, db.goals[goalId]? = some g ∧ g.deletedAt = none ∧
        g.organizationId = some organizationId
  | .listTasks runId =>
      (∃ t ∈ db.tasks, t.runId = some runId) ∧ organizationId ∈ db.runOrganizations runId
  | .taskExecutions taskId =>
      (∃ e ∈ db.taskExecutions, e.taskId = taskId) ∧
        ∃ t runId, db.tasks[taskId]? = some t ∧ t.runId = some runId ∧
          organizationId ∈ db.runOrganizations runId
  | .toolExecutions runId =>
      (∃ e ∈ db.toolExecutions, e.runId = some runId) ∧
        organizationId ∈ db.runOrganizations runId
  | .getReflection runId =>
      (∃ r ∈ db.reflections, r.runId = runId ∧ r.deletedAt = none) ∧
        organizationId ∈ db.runOrganizations runId
  | .getEvaluation runId =>
      (∃ e ∈ db.evaluations, e.runId = runId ∧ e.deletedAt = none) ∧
        organizationId ∈ db.runOrganizations runId
  | .getWorkflowRun workflowRunId =>
      ∃ w, db.workflowRuns[workflowRunId]? = some w ∧ w.organizationId = some organizationId
  | .listKnowledge organizationId' =>
      (∃ d ∈ db.documents, d.organizationId = some organizationId' ∧ d.deletedAt = none) ∧
        organizationId' = organizationId
  | .deleteKnowledge documentId _ =>
      ∃ d, db.documents[documentId]? = some d ∧ d.deletedAt = none ∧
        d.organizationId = some organizationId
  | .start _ _ | .createKnowledge _ _ => False

end AgentRequest

/-! ## Requests that follow their ids -/

section

variable {runtime : AgentRuntime} {db db' : AgentDb} {userId organizationId : Id}
  {request : AgentRequest} {response : AgentResponse}

theorem AgentItem.organizations_of_run (item : AgentItem) {runId : Id}
    (h : item.run? db = some runId) : item.organizations db = db.runOrganizations runId := by
  cases item <;> simp_all [AgentItem.run?, AgentItem.organizations]

/-- Rows of one organization or of none are listed. -/
theorem Lists.shown_iff {Row : Type} {passes : Row → Bool} {rows : List Row}
    {listed : List (Row × Id)} {item : Row → AgentItem} {owned : Prop}
    (h : Lists passes rows listed)
    (howned : ∀ row, passes row = true → (organizationId ∈ (item row).organizations db ↔ owned)) :
    (∃ i ∈ listed.map fun r => item r.1, organizationId ∈ i.organizations db) ↔
      (∃ row ∈ rows, passes row = true) ∧ owned := by
  rw [← h.ne_nil]
  constructor
  · rintro ⟨i, hi, horganization⟩
    obtain ⟨r, hr, rfl⟩ := List.mem_map.mp hi
    exact ⟨List.ne_nil_of_mem hr, (howned r.1 (h.pass r hr)).mp horganization⟩
  · rintro ⟨hne, hown⟩
    obtain ⟨r, hr⟩ := List.exists_mem_of_ne_nil listed hne
    exact ⟨item r.1, List.mem_map.mpr ⟨r, hr, rfl⟩, (howned r.1 (h.pass r hr)).mpr hown⟩

/-- What is changed or added is of organizations of a kind. -/
def KeepsTo (owned : Id → Prop) (db db' : AgentDb) : Prop :=
  ∀ (table : AgentTable) (i : Nat), (db'.rows table)[i]? ≠ (db.rows table)[i]? →
    (∀ item : AgentItem, (db.rows table)[i]? = some item → ∀ o ∈ item.organizations db, owned o) ∧
      ∀ item : AgentItem, (db'.rows table)[i]? = some item → ∀ o ∈ item.organizations db', owned o

theorem owned_of_touches {owned : Id → Prop}
    (hshown : ∀ item ∈ response.items, ∀ o ∈ item.organizations db', owned o)
    (hkeeps : KeepsTo owned db db') (h : Touches db db' response organizationId) :
    owned organizationId := by
  rcases h with ⟨item, hitem, horganization⟩ | ⟨table, i, hne, hold | hnew⟩
  · exact hshown item hitem organizationId horganization
  · obtain ⟨item, hitem, horganization⟩ := hold
    exact (hkeeps table i hne).1 item hitem organizationId horganization
  · obtain ⟨item, hitem, horganization⟩ := hnew
    exact (hkeeps table i hne).2 item hitem organizationId horganization

/-- One row is replaced. -/
theorem keepsTo_of_set {owned : Id → Prop} {table : AgentTable} {i : Nat} {item item' : AgentItem}
    (hitem : (db.rows table)[i]? = some item) (hset : db'.rows table = (db.rows table).set i item')
    (hothers : ∀ other, other ≠ table → db'.rows other = db.rows other)
    (hold : ∀ o ∈ item.organizations db, owned o)
    (hnew : ∀ o ∈ item'.organizations db', owned o) : KeepsTo owned db db' := by
  intro other j hne
  by_cases htable : other = table
  · subst htable
    rw [hset] at hne ⊢
    by_cases hj : i = j
    · subst hj
      refine ⟨fun old h => ?_, fun new h => ?_⟩
      · rw [hitem] at h
        cases h
        exact hold
      · rw [List.getElem?_set_self (List.getElem?_eq_some_iff.mp hitem).1] at h
        cases h
        exact hnew
    · exact absurd (List.getElem?_set_ne hj) hne
  · rw [hothers other htable] at hne
    exact absurd rfl hne

/-- The first row of one organization or of none. -/
theorem found_iff {Row : Type} {passes : Row → Bool} {rows : List Row} {item : Row → AgentItem}
    (owned : Prop)
    (howned : ∀ row, passes row = true → (organizationId ∈ (item row).organizations db ↔ owned)) :
    (∃ r, rows.find? passes = some r ∧ organizationId ∈ (item r).organizations db) ↔
      (∃ row ∈ rows, passes row = true) ∧ owned := by
  constructor
  · rintro ⟨r, hr, horganization⟩
    have hpasses := List.find?_some hr
    exact ⟨⟨r, List.mem_of_find?_eq_some hr, hpasses⟩, (howned r hpasses).mp horganization⟩
  · rintro ⟨hthere, hown⟩
    obtain ⟨r, hr⟩ := Option.isSome_iff_exists.mp (List.find?_isSome.mpr hthere)
    exact ⟨r, hr, (howned r (List.find?_some hr)).mpr hown⟩

/-- The request touches exactly the organizations its ids lead to. -/
def Follows (runtime : AgentRuntime) (db : AgentDb) (userId : Id) (request : AgentRequest) : Prop :=
  (∃ response db', request.body runtime db userId = .ok (response, db') ∧
    ∀ organizationId, Touches db db' response organizationId ↔
      request.LeadsTo db organizationId) ∨
  (∃ e, request.body runtime db userId = .error e) ∧
    ∀ organizationId, ¬ request.LeadsTo db organizationId

/-- A request that changes nothing follows its ids when what it shows does. -/
theorem follows_of_shown (hbody : request.body runtime db userId = .ok (response, db))
    (hshown : ∀ organizationId, (∃ i ∈ response.items, organizationId ∈ i.organizations db) ↔
      request.LeadsTo db organizationId) : Follows runtime db userId request := by
  refine .inl ⟨response, db, hbody, fun organizationId => ?_⟩
  rw [← hshown organizationId]
  simp [Touches]

/-- A route that lists rows of one organization or of none. -/
theorem follows_of_lists {Row : Type} {passes : Row → Bool} {rows : List Row}
    {listed : List (Row × Id)} {item : Row → AgentItem} (owned : Id → Prop)
    (hlists : Lists passes rows listed)
    (hbody : request.body runtime db userId = .ok (response, db))
    (hitems : response.items = listed.map fun r => item r.1)
    (howned : ∀ organizationId row, passes row = true →
      (organizationId ∈ (item row).organizations db ↔ owned organizationId))
    (hleads : ∀ organizationId, request.LeadsTo db organizationId ↔
      (∃ row ∈ rows, passes row = true) ∧ owned organizationId) :
    Follows runtime db userId request := by
  refine follows_of_shown hbody fun organizationId => ?_
  rw [hitems, hleads organizationId]
  exact hlists.shown_iff (howned organizationId)

/-- A row that is shown alone. -/
theorem follows_of_row {Row : Type} (row : Option Row) (item : Row → AgentItem)
    (answer : Row → AgentResponse)
    (hnone : row = none → ∃ e, request.body runtime db userId = .error e)
    (hsome : ∀ r, row = some r → request.body runtime db userId = .ok (answer r, db))
    (hitems : ∀ r, (answer r).items = [item r])
    (hleads : ∀ organizationId, request.LeadsTo db organizationId ↔
      ∃ r, row = some r ∧ organizationId ∈ (item r).organizations db) :
    Follows runtime db userId request := by
  cases row with
  | none =>
      refine .inr ⟨hnone rfl, fun organizationId h => ?_⟩
      obtain ⟨r, hr, -⟩ := (hleads organizationId).mp h
      cases hr
  | some r =>
      refine follows_of_shown (hsome r rfl) fun organizationId => ?_
      rw [hitems r, hleads organizationId]
      simp

/-- A route that lists rows of one run. -/
theorem follows_of_run_lists {Row : Type} {passes : Row → Bool} {rows : List Row}
    {listed : List (Row × Id)} {item : Row → AgentItem} (runId : Id)
    (hlists : Lists passes rows listed)
    (hbody : request.body runtime db userId = .ok (response, db))
    (hitems : response.items = listed.map fun r => item r.1)
    (hrun : ∀ row, passes row = true → (item row).run? db = some runId)
    (hleads : ∀ organizationId, request.LeadsTo db organizationId ↔
      (∃ row ∈ rows, passes row = true) ∧ organizationId ∈ db.runOrganizations runId) :
    Follows runtime db userId request := by
  refine follows_of_lists (· ∈ db.runOrganizations runId) hlists hbody hitems ?_ hleads
  intro organizationId row hrow
  rw [AgentItem.organizations_of_run (item row) (hrun row hrow)]

/-- A row of a run that is shown alone. -/
theorem follows_of_run_row {Row : Type} {passes : Row → Bool} {rows : List Row} (runId : Id)
    (row : Option Row) (hrow : row = rows.find? passes)
    (item : Row → AgentItem) (answer : Row → AgentResponse)
    (hnone : row = none → ∃ e, request.body runtime db userId = .error e)
    (hsome : ∀ r, row = some r → request.body runtime db userId = .ok (answer r, db))
    (hitems : ∀ r, (answer r).items = [item r])
    (hrun : ∀ row, passes row = true → (item row).run? db = some runId)
    (hleads : ∀ organizationId, request.LeadsTo db organizationId ↔
      (∃ row ∈ rows, passes row = true) ∧ organizationId ∈ db.runOrganizations runId) :
    Follows runtime db userId request := by
  refine follows_of_row row item answer hnone hsome hitems ?_
  intro organizationId
  rw [hrow, hleads organizationId, found_iff (organizationId ∈ db.runOrganizations runId)]
  intro r hr
  rw [AgentItem.organizations_of_run (item r) (hrun r hr)]

/-- What is sent to an agent leaves its run and its organization. -/
theorem runOrganizations_modify {position : Nat} {send : ManagedAgent → ManagedAgent}
    (hsend : ∀ m, (send m).runId = m.runId ∧ (send m).organizationId = m.organizationId)
    (runId : Id) :
    AgentDb.runOrganizations { db with active := db.active.modify position send } runId =
      db.runOrganizations runId := by
  have hcolumns : ∀ active : List ManagedAgent,
      (active.filter fun m => m.runId = runId).filterMap (·.organizationId) =
        ((active.map fun m => (m.runId, m.organizationId)).filter
          fun c => c.1 = runId).filterMap (·.2) := by
    intro active
    rw [List.filter_map, List.filterMap_map]
    rfl
  have hsame : ∀ m, ((send m).runId, (send m).organizationId) = (m.runId, m.organizationId) := by
    intro m
    rw [(hsend m).1, (hsend m).2]
  rw [AgentDb.runOrganizations, AgentDb.runOrganizations, hcolumns, hcolumns,
    Table.map_modify db.active hsame]

/-- Only the run that is sent something changes. -/
theorem keepsTo_control {runId : Id} {position : Nat} {send : ManagedAgent → ManagedAgent}
    (hsend : ∀ m, (send m).runId = m.runId ∧ (send m).organizationId = m.organizationId)
    (hlt : position < db.active.length) (hrun : db.active[position].runId = runId) :
    KeepsTo (· ∈ db.runOrganizations runId) db
      { db with active := db.active.modify position send } := by
  have howner : ∀ o ∈ db.active[position].organizationId, o ∈ db.runOrganizations runId := by
    intro o ho
    refine List.mem_append_right _ (List.mem_filterMap.mpr ⟨db.active[position], ?_, ho⟩)
    exact List.mem_filter.mpr ⟨List.getElem_mem hlt, decide_eq_true hrun⟩
  have hitem : (db.rows .active)[position]? = some (.managed db.active[position]) := by
    simp [AgentDb.rows, hlt]
  have hset : (db.active.modify position send).map AgentItem.managed =
      (db.active.map AgentItem.managed).set position (.managed (send db.active[position])) := by
    rw [List.modify_eq_set_get send hlt, List.map_set]
    rfl
  refine keepsTo_of_set hitem hset ?_ ?_ ?_
  · intro other hother
    cases other <;> first | rfl | exact absurd rfl hother
  · intro o ho
    exact howner o (Option.mem_toList.mp ho)
  · intro o ho
    rw [AgentItem.organizations, (hsend _).2] at ho
    exact howner o (Option.mem_toList.mp ho)

/-- The routes that send a request to a running agent. -/
theorem follows_control {runId : Id} {send : ManagedAgent → ManagedAgent}
    (hbody : request.body runtime db userId =
      .ok (.control runId (db.control runId send).1, (db.control runId send).2))
    (hsend : ∀ m, (send m).runId = m.runId ∧ (send m).organizationId = m.organizationId)
    (hleads : ∀ organizationId, request.LeadsTo db organizationId ↔
      (∃ m ∈ db.active, m.runId = runId) ∧ organizationId ∈ db.runOrganizations runId) :
    Follows runtime db userId request := by
  cases hposition : db.activeRun runId with
  | none =>
      simp only [AgentDb.control, hposition] at hbody
      refine follows_of_shown hbody fun organizationId => ?_
      rw [AgentDb.activeRun, List.findIdx?_eq_none_iff] at hposition
      rw [hleads organizationId]
      constructor
      · rintro ⟨i, hi, -⟩
        exact absurd hi List.not_mem_nil
      · rintro ⟨⟨m, hm, hrun⟩, -⟩
        have hother := hposition m hm
        rw [hrun] at hother
        simp at hother
  | some position =>
      simp only [AgentDb.control, hposition] at hbody
      refine .inl ⟨_, _, hbody, fun organizationId => ?_⟩
      obtain ⟨hlt, hfound, -⟩ := List.findIdx?_eq_some_iff_getElem.mp hposition
      have hrun : db.active[position].runId = runId := of_decide_eq_true hfound
      rw [hleads organizationId]
      have hthere : ∃ m ∈ db.active, m.runId = runId := ⟨_, List.getElem_mem hlt, hrun⟩
      constructor
      · intro htouches
        refine ⟨hthere, owned_of_touches ?_ (keepsTo_control hsend hlt hrun) htouches⟩
        intro item hshown o ho
        rw [List.mem_singleton.mp hshown, AgentItem.organizations_of_run _ rfl,
          runOrganizations_modify hsend] at ho
        exact ho
      · rintro ⟨-, horganization⟩
        refine .inl ⟨.run runId, List.mem_singleton_self _, ?_⟩
        rw [AgentItem.organizations_of_run _ rfl, runOrganizations_modify hsend]
        exact horganization

theorem follows_delete (documentId : Id) (now : DateTime) :
    Follows runtime db userId (.deleteKnowledge documentId now) := by
  cases hrow : (db.documents[documentId]?).filter fun d => d.deletedAt.isNone with
  | none =>
      refine .inr ⟨⟨.notFound "Knowledge document not found." [], ?_⟩, ?_⟩
      · simp [AgentRequest.body, AgentDb.deleteDocument, AgentDb.getDocument, hrow]
      · rintro organizationId ⟨d, hd, hdeleted, -⟩
        simp [hd, hdeleted] at hrow
  | some d =>
      obtain ⟨hd, hdeleted⟩ := Option.filter_eq_some_iff.mp hrow
      have hbody : AgentRequest.body runtime db userId (.deleteKnowledge documentId now) =
          .ok (.deleted, { db with
            documents := db.documents.set documentId { d with deletedAt := some now } }) := by
        simp [AgentRequest.body, AgentDb.deleteDocument, AgentDb.getDocument, hrow]
      refine .inl ⟨_, _, hbody, fun organizationId => ?_⟩
      have hitem : (db.rows .documents)[documentId]? = some (.document d) := by
        simp [AgentDb.rows, hd]
      constructor
      · intro htouches
        have hkeeps : KeepsTo (fun o => d.organizationId = some o) db { db with
            documents := db.documents.set documentId { d with deletedAt := some now } } := by
          refine keepsTo_of_set hitem List.map_set ?_ ?_ ?_
          · intro other hother
            cases other <;> first | rfl | exact absurd rfl hother
          · exact fun o ho => Option.mem_toList.mp ho
          · exact fun o ho => Option.mem_toList.mp ho
        have howned := owned_of_touches (fun item hshown => absurd hshown List.not_mem_nil) hkeeps
          htouches
        exact ⟨d, hd, Option.isNone_iff_eq_none.mp hdeleted, howned⟩
      · rintro ⟨d', hd', hnone, horganization⟩
        rw [hd, Option.some.injEq] at hd'
        subst hd'
        refine .inr ⟨.documents, documentId, ?_, .inl ⟨_, hitem, ?_⟩⟩
        · rw [hitem]
          show ((db.documents.set documentId _).map AgentItem.document)[documentId]? ≠ _
          rw [List.getElem?_map, List.getElem?_set_self (List.getElem?_eq_some_iff.mp hd).1]
          intro hsame
          have hmoment := congrArg KnowledgeDocument.deletedAt
            (AgentItem.document.inj (Option.some.inj hsame))
          rw [hnone] at hmoment
          cases hmoment
        · exact Option.mem_toList.mpr horganization

/-- Every request that checks nothing follows its ids. -/
theorem follows_of_not_checked (h : ¬ request.Checked) : Follows runtime db userId request := by
  cases request with
  | running =>
      refine follows_of_shown rfl fun organizationId => ?_
      simp [AgentResponse.items, AgentItem.organizations, AgentRequest.LeadsTo]
  | start body now => exact absurd trivial h
  | createKnowledge body now => exact absurd trivial h
  | pause runId => exact follows_control rfl (fun _ => ⟨rfl, rfl⟩) fun _ => Iff.rfl
  | resume runId => exact follows_control rfl (fun _ => ⟨rfl, rfl⟩) fun _ => Iff.rfl
  | stop runId => exact follows_control rfl (fun _ => ⟨rfl, rfl⟩) fun _ => Iff.rfl
  | listGoals organizationId =>
      refine follows_of_lists (organizationId = ·) (lists_matching.take 99) rfl rfl ?_ ?_
      · intro o g hg
        rw [AgentItem.organizations, (of_decide_eq_true hg).1]
        simp [eq_comm]
      · simp [AgentRequest.LeadsTo]
  | getGoal goalId =>
      refine follows_of_row ((db.goals[goalId]?).filter fun g => g.deletedAt.isNone) .goal .goal
        ?_ ?_ (fun _ => rfl) ?_
      · intro hnone
        simp [AgentRequest.body, AgentDb.getGoal, hnone]
      · intro g hg
        simp [AgentRequest.body, AgentDb.getGoal, hg]
      · intro o
        simp [AgentRequest.LeadsTo, AgentItem.organizations, Option.filter_eq_some_iff, and_assoc]
  | listTasks runId =>
      refine follows_of_run_lists runId lists_inOrder rfl rfl ?_ ?_
      · intro t ht
        exact of_decide_eq_true ht
      · simp [AgentRequest.LeadsTo]
  | taskExecutions taskId =>
      refine follows_of_lists (fun o => ∃ t runId, db.tasks[taskId]? = some t ∧
        t.runId = some runId ∧ o ∈ db.runOrganizations runId) lists_inOrder rfl rfl ?_ ?_
      · intro o e he
        have htask : e.taskId = taskId := of_decide_eq_true he
        subst htask
        cases ht : db.tasks[e.taskId]? with
        | none => simp [AgentItem.organizations, AgentItem.run?, ht]
        | some t =>
            cases hrun : t.runId with
            | none => simp [AgentItem.organizations, AgentItem.run?, ht, hrun]
            | some runId => simp [AgentItem.organizations, AgentItem.run?, ht, hrun]
      · simp [AgentRequest.LeadsTo]
  | toolExecutions runId =>
      refine follows_of_run_lists runId lists_inOrder rfl rfl ?_ ?_
      · intro e he
        exact of_decide_eq_true he
      · simp [AgentRequest.LeadsTo]
  | getReflection runId =>
      refine follows_of_run_row runId (db.reflectionForRun runId) rfl .reflection .reflection ?_ ?_
        (fun _ => rfl) ?_ ?_
      · intro hnone
        simp [AgentRequest.body, hnone]
      · intro r hr
        simp [AgentRequest.body, hr]
      · intro r hr
        exact congrArg some (of_decide_eq_true hr).1
      · simp [AgentRequest.LeadsTo]
  | getEvaluation runId =>
      refine follows_of_run_row runId (db.evaluationForRun runId) rfl .evaluation .evaluation ?_ ?_
        (fun _ => rfl) ?_ ?_
      · intro hnone
        simp [AgentRequest.body, hnone]
      · intro e he
        simp [AgentRequest.body, he]
      · intro e he
        exact congrArg some (of_decide_eq_true he).1
      · simp [AgentRequest.LeadsTo]
  | getWorkflowRun workflowRunId =>
      refine follows_of_row (db.workflowRuns[workflowRunId]?) .workflowRun .workflowRun ?_ ?_
        (fun _ => rfl) ?_
      · intro hnone
        simp [AgentRequest.body, hnone]
      · intro w hw
        simp [AgentRequest.body, hw]
      · intro o
        simp [AgentRequest.LeadsTo, AgentItem.organizations]
  | listKnowledge organizationId =>
      refine follows_of_lists (organizationId = ·) lists_matching rfl rfl ?_ ?_
      · intro o d hd
        rw [AgentItem.organizations, (of_decide_eq_true hd).1]
        simp [eq_comm]
      · simp [AgentRequest.LeadsTo]
  | deleteKnowledge documentId now => exact follows_delete documentId now

theorem serve_of_not_checked {user : User} (hunchecked : ¬ request.Checked)
    (hcurrent : db.access.getCurrentUser userId = .ok user) :
    request.serve runtime db userId = request.body runtime db userId := by
  have hcheck : request.check db userId user = .ok () := by
    cases request with
    | start body now => exact absurd trivial hunchecked
    | createKnowledge body now => exact absurd trivial hunchecked
    | _ => rfl
  rw [AgentRequest.serve, hcurrent, Except.ok_bind, hcheck, Except.ok_bind]

/-- A request that checks nothing touches what its ids lead to, whoever its user is. -/
theorem not_lawful (hunchecked : ¬ request.Checked)
    (hsigned : ∃ user, db.access.getCurrentUser userId = .ok user)
    (hordinary : ¬ Superuser db userId) (hleads : request.LeadsTo db organizationId)
    (hnone : ¬ HoldsAgent db userId organizationId) : ¬ Lawful runtime db userId request := by
  intro hlawful
  obtain ⟨user, hcurrent⟩ := hsigned
  rcases @follows_of_not_checked runtime db userId request hunchecked with
    ⟨response, db', hbody, htouches⟩ | ⟨-, hnowhere⟩
  · have hserve : request.serve runtime db userId = .ok (response, db') := by
      rw [serve_of_not_checked hunchecked hcurrent, hbody]
    rcases hlawful response db' hserve organizationId ((htouches organizationId).mpr hleads) with
      hsuper | hholds
    · exact hordinary hsuper
    · exact hnone hholds
  · exact hnowhere organizationId hleads

/-! ## Requests that check a permission -/

theorem keepsTo_of_adds {owned : Id → Prop}
    (h : ∀ table, Adds (fun item : AgentItem => ∀ o ∈ item.organizations db', owned o)
      (db.rows table) (db'.rows table)) : KeepsTo owned db db' := by
  intro table i hne
  obtain ⟨hnone, hnew⟩ := (h table).of_ne hne
  refine ⟨fun item hitem => ?_, hnew⟩
  rw [hnone] at hitem
  cases hitem

/-- After a run, its organization is the one of the body. -/
theorem runOrganizations_after {goal : AgentGoal} {o : Id}
    (hgoals : db'.goals = db.goals ++ [goal]) (hactive : db'.active = db.active)
    (h : o ∈ db'.runOrganizations db.freshRunId) : goal.organizationId = some o := by
  obtain ⟨hnogoal, hnoactive⟩ := List.append_eq_nil_iff.mp db.runOrganizations_fresh
  rw [AgentDb.runOrganizations, hgoals, hactive, hnoactive, List.append_nil, List.filter_append,
    List.filterMap_append, hnogoal, List.nil_append] at h
  obtain ⟨g, hg, howner⟩ := List.mem_filterMap.mp h
  rw [List.mem_singleton.mp (List.mem_filter.mp hg).1] at howner
  exact howner

/-- A run touches the organization it is for. -/
theorem start_touches {body : RunAgentIn} {now : DateTime} {run : RunSummary}
    (h : db.run runtime userId body now = .ok (run, db'))
    (htouches : Touches db db' (.summary run) organizationId) :
    body.organizationId = some organizationId := by
  obtain ⟨goal, hgoal, hrun, hsummary, hadds⟩ := run_ok h
  have howned : ∀ o ∈ db'.runOrganizations db.freshRunId, body.organizationId = some o := by
    intro o ho
    rw [← hgoal]
    exact runOrganizations_after hadds.goals hadds.active ho
  have hitem : ∀ item : AgentItem, item.run? db' = some db.freshRunId →
      ∀ o ∈ item.organizations db', body.organizationId = some o := by
    intro item hitem o ho
    rw [item.organizations_of_run hitem] at ho
    exact howned o ho
  have hkeeps : KeepsTo (fun o => body.organizationId = some o) db db' := by
    refine keepsTo_of_adds fun table => ?_
    cases table with
    | goals =>
        rw [AgentDb.rows, AgentDb.rows, hadds.goals, List.map_append]
        refine ⟨_, rfl, fun item hadded o ho => ?_⟩
        rw [List.mem_singleton.mp hadded] at ho
        rw [← hgoal]
        exact Option.mem_toList.mp ho
      | tasks => exact hadds.tasks.map fun t ht => hitem (.task t) ht
      | taskExecutions =>
          refine hadds.taskExecutions.map fun e he => hitem (.taskExecution e) ?_
          obtain ⟨t, ht, hrun⟩ := he
          rw [AgentItem.run?, ht]
          exact hrun
      | toolExecutions => exact hadds.toolExecutions.map fun e he => hitem (.toolExecution e) he
      | reflections =>
          exact hadds.reflections.map fun r hr => hitem (.reflection r) (congrArg some hr)
      | evaluations =>
          exact hadds.evaluations.map fun e he => hitem (.evaluation e) (congrArg some he)
      | workflowRuns =>
          rw [AgentDb.rows, AgentDb.rows, hadds.workflowRuns]
          exact .refl _
      | documents =>
          rw [AgentDb.rows, AgentDb.rows, hadds.documents]
          exact .refl _
      | active =>
          rw [AgentDb.rows, AgentDb.rows, hadds.active]
          exact .refl _
  refine owned_of_touches (fun item hshown => ?_) hkeeps htouches
  rw [List.mem_singleton.mp hshown]
  exact hitem _ (congrArg some hsummary)

/-- A document is added to the organization it is for. -/
theorem createKnowledge_touches {body : KnowledgeCreateIn} {now : DateTime}
    {row : KnowledgeDocument} (h : db.createDocument userId body now = .ok (row, db'))
    (htouches : Touches db db' (.document row) organizationId) :
    body.organizationId = organizationId := by
  unfold AgentDb.createDocument at h
  split at h
  · cases h
  · cases h
    have hkeeps : KeepsTo (body.organizationId = ·) db
        { db with documents := db.documents ++ [body.document userId now] } := by
      refine keepsTo_of_adds fun table => ?_
      cases table with
      | documents =>
          rw [AgentDb.rows, AgentDb.rows, List.map_append]
          refine ⟨_, rfl, fun item hadded o ho => ?_⟩
          rw [List.mem_singleton.mp hadded] at ho
          exact Option.some.inj (Option.mem_toList.mp ho)
      | _ => exact .refl _
    refine owned_of_touches (fun item hshown o ho => ?_) hkeeps htouches
    rw [List.mem_singleton.mp hshown] at ho
    exact Option.some.inj (Option.mem_toList.mp ho)

/-- Who passes the check is a superuser or has the permission. -/
theorem superuser_or_holds {user : User} {permission : String}
    (hcurrent : db.access.getCurrentUser userId = .ok user)
    (h : (if user.isSuperuser then .ok ()
      else db.access.requirePermission userId organizationId permission) =
        (.ok () : Except ApiError Unit)) :
    Superuser db userId ∨ db.access.Holds userId organizationId permission := by
  split at h
  · next hsuper => exact .inl ⟨user, AccessDb.row_of_current hcurrent, hsuper⟩
  · refine .inr ?_
    by_contra hnot
    rw [AccessDb.requirePermission_of_not_holds hnot] at h
    cases h

theorem lawful_of_checked (h : request.Checked) : Lawful runtime db userId request := by
  intro response db' hserve organizationId htouches
  obtain ⟨user, hcurrent, hserve⟩ := Except.bind_eq_ok.mp hserve
  obtain ⟨u, hcheck, hbody⟩ := Except.bind_eq_ok.mp hserve
  cases request with
  | start body now =>
      obtain ⟨⟨run, db''⟩, hrun, hresult⟩ := Except.map_eq_ok.mp hbody
      cases hresult
      have horganization := start_touches hrun htouches
      simp only [AgentRequest.check, horganization] at hcheck
      exact (superuser_or_holds hcurrent hcheck).imp_right .inl
  | createKnowledge body now =>
      obtain ⟨⟨row, db''⟩, hcreate, hresult⟩ := Except.map_eq_ok.mp hbody
      cases hresult
      rw [← createKnowledge_touches hcreate htouches]
      exact (superuser_or_holds hcurrent hcheck).imp_right .inr
  | _ => exact h.elim

end

/-- A request keeps to the organizations of its user exactly when its route checks a
permission, its user is not signed in or a superuser, or its ids lead to organizations in
which the user may work with agents. -/
theorem tenancy_iff (runtime : AgentRuntime) (db : AgentDb) (userId : Id)
    (request : AgentRequest) :
    Lawful runtime db userId request ↔
      request.Checked ∨ (¬ ∃ user, db.access.getCurrentUser userId = .ok user) ∨
        Superuser db userId ∨
        ∀ organizationId, request.LeadsTo db organizationId →
          HoldsAgent db userId organizationId := by
  by_cases hchecked : request.Checked
  · exact iff_of_true (lawful_of_checked hchecked) (.inl hchecked)
  constructor
  · intro hlawful
    by_contra hnot
    simp only [not_or, not_not, not_forall] at hnot
    obtain ⟨-, hsigned, hordinary, organizationId, hleads, hnone⟩ := hnot
    exact not_lawful hchecked hsigned hordinary hleads hnone hlawful
  · rintro (h | h | h | h) response db' hserve organizationId htouches
    · exact absurd h hchecked
    · obtain ⟨user, hcurrent, -⟩ := Except.bind_eq_ok.mp hserve
      exact absurd ⟨user, hcurrent⟩ h
    · exact .inl h
    · obtain ⟨user, hcurrent, -⟩ := Except.bind_eq_ok.mp hserve
      rw [serve_of_not_checked hchecked hcurrent] at hserve
      refine .inr (h organizationId ?_)
      rcases @follows_of_not_checked runtime db userId request hchecked with
        ⟨response', db'', hbody, hfollows⟩ | ⟨⟨e, hbody⟩, -⟩
      · rw [hserve] at hbody
        cases hbody
        exact (hfollows organizationId).mp htouches
      · rw [hserve] at hbody
        cases hbody

/-! ## A stranger -/

/-- The first organization has an owner, a goal with an active run, what the run has produced,
a workflow run and a document.  The second has an owner too. -/
def agentTenants : AgentDb where
  access :=
    { users := [⟨true, false, none⟩, ⟨true, false, none⟩]
      roles := [⟨"owner", some 0, defaultRolePermissions .owner⟩,
        ⟨"owner", some 1, defaultRolePermissions .owner⟩]
      members := [⟨0, 0, 0, none⟩, ⟨1, 1, 1, none⟩] }
  organizations := [⟨"First", none⟩, ⟨"Second", none⟩]
  goals := [⟨some 0, some 7, "Grow", 5, [], none, [], "active", none, some 0, 0, none⟩]
  tasks := [⟨some 0, some 7, "t1", "Research", "research", "succeeded", 0, 1, [], none,
    some "Findings"⟩]
  taskExecutions := [⟨0, 1, "succeeded", "Findings", none⟩]
  toolExecutions := [⟨some 7, some 0, "search", "Hits", true, none, 0⟩]
  reflections := [⟨7, "Fine", [], [], [], none⟩]
  evaluations := [⟨7, 1, 1, 1, 1, 1, 1, 1, [], none⟩]
  workflowRuns := [⟨some 0, 7, "Pipeline", "completed", true, []⟩]
  documents := [⟨some 0, "Policy", "Keep it", "policy", [], none, some 0, 0, none⟩]
  active := [⟨7, "planner", some 0, "Grow", "executing", false, false⟩]

/-- Requests for what the first organization has. -/
def strangerRequests : List AgentRequest :=
  [.running, .pause 7, .resume 7, .stop 7, .listGoals 0, .getGoal 0, .listTasks 7,
    .taskExecutions 0, .toolExecutions 7, .getReflection 7, .getEvaluation 7, .getWorkflowRun 0,
    .listKnowledge 0, .deleteKnowledge 0 60]

def noAgents : AgentRuntime where
  registered := fun _ => false
  run := fun _ _ _ => .ok ⟨"failed", "", "failed", [], none, none⟩

/-- The second owner has no role in the first organization, sees its goal and what its run
has produced, stops the run and deletes the document. -/
theorem stranger_served :
    agentTenants.access.rolesOf 1 0 = [] ∧
      (∀ request ∈ strangerRequests, ¬ Lawful noAgents agentTenants 1 request) ∧
      (∃ response db', (AgentRequest.stop 7).serve noAgents agentTenants 1 = .ok (response, db') ∧
        db'.active.map (·.cancelled) = [true]) ∧
      ∃ response db', (AgentRequest.deleteKnowledge 0 60).serve noAgents agentTenants 1 =
        .ok (response, db') ∧ db'.documents.map (·.deletedAt) = [some 60] := by
  refine ⟨by decide, ?_, ⟨_, _, rfl, rfl⟩, ⟨_, _, rfl, rfl⟩⟩
  have hordinary : ¬ Superuser agentTenants 1 := by
    rintro ⟨user, hrow, hsuper⟩
    cases hrow
    cases hsuper
  have hrole : agentTenants.access.rolesOf 1 0 = [] := by decide
  have hnone : ¬ HoldsAgent agentTenants 1 0 := by
    rintro (h | h) <;> exact AccessDb.not_holds_of_no_role hrole h
  have hfirst : ∀ request ∈ strangerRequests,
      ¬ request.Checked ∧ request.LeadsTo agentTenants 0 := by
    simp [strangerRequests, AgentRequest.Checked, AgentRequest.LeadsTo, agentTenants,
      AgentDb.runOrganizations]
  intro request hrequest
  obtain ⟨hunchecked, hleads⟩ := hfirst request hrequest
  exact not_lawful hunchecked ⟨_, rfl⟩ hordinary hleads hnone

end YoutubeFactory.Agents
