import YoutubeFactory.Llm.Apart

/-!
# Tenancy of the LLM routes

A request that is refused, or names nothing of an organization, is answered alike without
the organization's rows, and leaves them alone (`serve_safe`).  So is every run of such
requests (`outsider_runs_apart`).
-/

namespace YoutubeFactory.Llm

open Access Python Noninterference LlmDb

/-! ## Requests that spare an organization -/

/-- The request names nothing of the organization, or checks a permission there. -/
def LlmRequest.Spares (db : LlmDb) (organizationId : Id) : LlmRequest → Prop
  | .chat body => ∀ id ∈ body.conversationId, ¬ db.OwnsConversation organizationId id
  | .stream body => body.organizationId ≠ some organizationId
  | .createPrompt _ => True
  | .addPromptVersion templateId _ => ¬ db.OwnsTemplate organizationId templateId
  | .renderPrompt templateId _ => ¬ db.OwnsTemplate organizationId templateId
  | .rollbackPrompt templateId _ => ¬ db.OwnsTemplate organizationId templateId
  | .createConversation body => body.organizationId ≠ organizationId
  | .conversationMessages conversationId => ¬ db.OwnsConversation organizationId conversationId

/-- A user who is no superuser and has no role in the organization. -/
structure Outsider (access : AccessDb) (userId organizationId : Id) : Prop where
  ordinary : ∀ u ∈ access.users[userId]?, u.isSuperuser = false
  noRole : access.rolesOf userId organizationId = []

section

variable {M : Type} {env : LlmEnv M} {db : LlmDb} {userId organizationId : Id}
  {request : LlmRequest}

/-- An outsider does not pass a check of a permission. -/
theorem not_checked {user : User} {permission : String}
    (houtsider : Outsider db.access userId organizationId)
    (hcurrent : db.access.getCurrentUser userId = .ok user)
    (h : (if user.isSuperuser then .ok ()
      else db.access.requirePermission userId organizationId permission) =
        (.ok () : Except ApiError Unit)) : False := by
  rw [houtsider.ordinary user (AccessDb.row_of_current hcurrent), if_neg Bool.false_ne_true,
    AccessDb.requirePermission_of_not_holds (AccessDb.not_holds_of_no_role houtsider.noRole)] at h
  cases h

/-- An outsider who is let in has not asked for a permission in the organization. -/
theorem authorize_outsider (houtsider : Outsider db.access userId organizationId)
    (h : request.authorize db userId = .ok ()) :
    (∀ body, request = .chat body → body.organizationId ≠ some organizationId) ∧
      ∀ body, request = .createPrompt body → body.organizationId ≠ organizationId := by
  obtain ⟨user, hcurrent, hcheck⟩ := Except.bind_eq_ok.mp h
  constructor
  · rintro body rfl horganization
    simp only [LlmRequest.check, horganization] at hcheck
    exact not_checked houtsider hcurrent hcheck
  · rintro body rfl horganization
    simp only [LlmRequest.check, horganization] at hcheck
    exact not_checked houtsider hcurrent hcheck

theorem program_apart (houtsider : Outsider db.access userId organizationId)
    (hauthorize : request.authorize db userId = .ok ())
    (hspares : request.Spares db organizationId) (manager : M) (context : RequestContext) :
    Apart organizationId (request.program env manager userId context).1 db := by
  obtain ⟨hchat, hprompt⟩ := authorize_outsider houtsider hauthorize
  cases request with
  | chat body =>
      unfold LlmRequest.program
      dsimp only
      split
      · exact Confined.throw _
      · exact (recordTurn_apart (hchat body rfl) hspares _ _ _ _).bind
          fun _ _ _ _ => Confined.pure _
  | stream body => exact answerStream_apart hspares _ _ _ _
  | createPrompt body =>
      refine (createTemplate_apart (hprompt body rfl) _ _ _ _ _ _ _ _).bind
        fun id db' hrun hkept => ?_
      have hown : ¬ db'.OwnsTemplate organizationId id := by
        rw [ownsTemplate_of_kept hkept, createTemplate_id hrun]
        exact db.not_ownsTemplate_nextId
      refine Confined.get_bind ?_ (Confined.pure _)
      simp only [getTemplate_without hown]
  | addPromptVersion templateId body =>
      refine (addVersion_apart hspares _ _ _ _).bind fun _ db' _ hkept => ?_
      have hown := mt (ownsTemplate_of_kept hkept).mp hspares
      refine Confined.get_bind ?_ (Confined.pure _)
      simp only [getTemplate_without hown]
  | renderPrompt templateId body =>
      exact (render_apart hspares _ _).bind fun _ _ _ _ => Confined.pure _
  | rollbackPrompt templateId toVersion =>
      exact (rollback_apart hspares _ _).bind fun _ _ _ _ => Confined.pure _
  | createConversation body =>
      refine (createConversation_apart hspares _ _ _ _ _).bind fun id db' hrun hkept => ?_
      have hown : ¬ db'.OwnsConversation organizationId id := by
        rw [ownsConversation_of_kept hkept, createConversation_id hrun]
        exact db.not_ownsConversation_nextId
      refine Confined.get_bind ?_ (Confined.pure _)
      simp only [getConversation_without hown]
  | conversationMessages conversationId =>
      refine Confined.get_bind ?_ ?_
      · simp only [getConversation_without hspares]
      split
      · exact Confined.throw _
      · refine Confined.get_bind ?_ (Confined.pure _)
        simp only [listForConversation_without hspares]

end

/-! ## Runs of an outsider -/

/-- The state without the rows of the organization. -/
def LlmState.without {M : Type} (s : LlmState M) (organizationId : Id) : LlmState M :=
  ⟨s.db.without organizationId, s.manager⟩

/-- The request is refused, or names nothing of the organization. -/
def LlmState.Safe {M : Type} (userId organizationId : Id) (s : LlmState M) (call : LlmCall) :
    Prop :=
  (∃ e, call.request.authorize s.db userId = .error e) ∨ call.request.Spares s.db organizationId

/-- The states of a run of one user's requests. -/
def LlmState.after {M : Type} (env : LlmEnv M) (userId : Id) (s : LlmState M) (call : LlmCall) :
    LlmState M :=
  (s.serve env userId call).2

section

variable {M : Type} {env : LlmEnv M} {userId organizationId : Id}

/-- The request is answered alike on the rest, and leaves alone what the organization owns. -/
theorem serve_safe {s : LlmState M} {call : LlmCall}
    (houtsider : Outsider s.db.access userId organizationId)
    (hsafe : s.Safe userId organizationId call) :
    (s.without organizationId).serve env userId call =
        ((s.serve env userId call).1, (s.serve env userId call).2.without organizationId) ∧
      (s.after env userId call).db.kept organizationId = s.db.kept organizationId := by
  have hsame : call.request.authorize (s.db.without organizationId) userId =
      call.request.authorize s.db userId := rfl
  simp only [LlmState.after, LlmState.serve, LlmState.without, hsame]
  cases hauthorize : call.request.authorize s.db userId with
  | error e => exact ⟨rfl, rfl⟩
  | ok u =>
      have hspares : call.request.Spares s.db organizationId := by
        refine hsafe.resolve_left ?_
        rintro ⟨e, he⟩
        rw [hauthorize] at he
        cases he
      have hprogram := @program_apart M env s.db userId organizationId call.request houtsider
        hauthorize hspares s.manager call.context
      simp only [hprogram.hidden]
      cases hrun : (call.request.program env s.manager userId call.context).1.run s.db with
      | error e => exact ⟨rfl, rfl⟩
      | ok r => exact ⟨rfl, hprogram.kept r.1 r.2 hrun⟩

theorem outsider_after {s : LlmState M} {call : LlmCall}
    (houtsider : Outsider s.db.access userId organizationId)
    (hsafe : s.Safe userId organizationId call) :
    Outsider (s.after env userId call).db.access userId organizationId := by
  have haccess : (s.after env userId call).db.access = s.db.access :=
    congrArg Prod.fst (serve_safe houtsider hsafe).2
  rwa [haccess]

end

/-- In a run of an outsider's requests that are refused or name nothing of the organization,
its rows stay as they are, and the answers do not depend on them. -/
theorem outsider_runs_apart {M : Type} (env : LlmEnv M) (userId organizationId : Id)
    (calls : List LlmCall) (s : LlmState M)
    (houtsider : Outsider s.db.access userId organizationId)
    (hsafe : Run.EveryStep (LlmState.after env userId) (LlmState.Safe userId organizationId) s
      calls) :
    Run.Always (LlmState.after env userId)
        (fun s' => s'.db.rowsOf organizationId = s.db.rowsOf organizationId) s calls ∧
      ∀ s' : LlmState M, s'.without organizationId = s.without organizationId →
        Run.EveryStep (LlmState.after env userId) (LlmState.Safe userId organizationId) s' calls →
        outputs (LlmState.serve env userId) s' calls =
          outputs (LlmState.serve env userId) s calls := by
  constructor
  · have hstep : ∀ (s' : LlmState M) (call : LlmCall), s'.Safe userId organizationId call →
        s'.db.kept organizationId = s.db.kept organizationId →
        (s'.after env userId call).db.kept organizationId = s.db.kept organizationId := by
      intro s' call hcall hkept
      have haccess : s'.db.access = s.db.access := congrArg Prod.fst hkept
      exact (serve_safe (haccess ▸ houtsider) hcall).2.trans hkept
    exact (Run.always_of_everyStep hstep calls hsafe rfl).imp fun s' h => congrArg Prod.snd h
  · intro s' hview hsafe'
    have haccess : s'.db.access = s.db.access := congrArg (fun s => s.db.access) hview
    refine @outputs_eq _ _ _ (LlmState.serve env userId) (fun s => s.without organizationId)
      (LlmState.Safe userId organizationId)
      (fun s => Outsider s.db.access userId organizationId) ?_ calls s s' hview houtsider
      (haccess ▸ houtsider) hsafe hsafe'
    intro s call houtsider hcall
    exact ⟨(serve_safe houtsider hcall).1, outsider_after houtsider hcall⟩

/-! ## Two tenants -/

/-- The first organization has a prompt and a conversation.  The second has neither, and one
owner. -/
def llmTenants (prompt message : String) : LlmState Unit where
  db :=
    { access :=
        { users := [⟨true, false, none⟩, ⟨true, false, none⟩]
          roles := [⟨"owner", some 0, defaultRolePermissions .owner⟩,
            ⟨"owner", some 1, defaultRolePermissions .owner⟩]
          members := [⟨0, 0, 0, none⟩, ⟨1, 1, 1, none⟩] }
      organizations := [⟨"First", none⟩, ⟨"Second", none⟩]
      templates := [⟨0, 0, "greeting", none, none, [], "active", 1, some 0, some 0, 0, none⟩]
      versions := [⟨0, 1, prompt, [], [], some 0, some 0, none⟩]
      conversations := [⟨1, 0, some 0, none, "claude-opus-4-8", none, some 0, some 0, 0, none⟩]
      messages := [⟨2, 1, 1, "user", message, [], 3, some 0, some 0⟩]
      requests := []
      usage := []
      costs := []
      nextId := 3
      templates_lt := by simp
      conversations_lt := by simp }
  manager := ()

/-- A manager that always gives one answer, and templates without variables. -/
def echoEnv : LlmEnv Unit where
  settings := ⟨"mock", "claude-opus-4-8", 4096, none, none, none, true, none⟩
  manager :=
    { chat := fun _ r _ _ =>
        (.ok ⟨⟨"Echo", r.model, "end_turn", ⟨1, 2, 0, 0⟩⟩, "mock", 1, 0, false⟩, ())
      stream := fun _ r _ _ =>
        (([⟨"delta", "Echo", none, none⟩,
          ⟨"done", "", some ⟨"Echo", r.model, "end_turn", ⟨1, 2, 0, 0⟩⟩, none⟩], none), ()) }
  jinja := fun template _ => .ok template

/-- One message, for an organization and a conversation. -/
def oneMessage (organizationId conversationId : Option Id) : ChatRequestIn where
  messages := [⟨"user", "Hi"⟩]
  model := none
  system := none
  maxTokens := none
  provider := none
  organizationId
  conversationId
  messages_ne := by simp
  maxTokens_bounds := by simp

def calledAt (now : DateTime) (request : LlmRequest) : LlmCall := ⟨request, ⟨now, now, none⟩⟩

/-- The second owner's own requests. -/
def ownCalls : List LlmCall :=
  [calledAt 60 (.stream (oneMessage (some 1) none)),
    calledAt 120 (.createConversation ⟨1, none, none, none⟩),
    calledAt 180 (.createPrompt ⟨0, "mine", "Hi", none, none, [], [], by decide⟩)]

theorem llmTenants_outsider (prompt message : String) :
    Outsider (llmTenants prompt message).db.access 1 0 where
  ordinary := by
    intro u hu
    cases hu
    rfl
  noRole := by
    show AccessDb.rolesOf ⟨_, _, _⟩ 1 0 = []
    rfl

theorem own_calls_apart :
    Run.Always (LlmState.after echoEnv 1)
        (fun s => s.db.rowsOf 0 = (llmTenants "Hello" "Secret").db.rowsOf 0)
        (llmTenants "Hello" "Secret") ownCalls ∧
      outputs (LlmState.serve echoEnv 1) (llmTenants "Bye" "Plan") ownCalls =
        outputs (LlmState.serve echoEnv 1) (llmTenants "Hello" "Secret") ownCalls := by
  have hsafe : ∀ s : LlmState Unit,
      Run.EveryStep (LlmState.after echoEnv 1) (LlmState.Safe 1 0) s ownCalls := by
    intro s
    refine ⟨.inr ?_, .inr ?_, .inr trivial, trivial⟩
    · exact fun h => absurd (Option.some.inj h) (by decide)
    · exact fun h => absurd h (by decide)
  obtain ⟨hrows, hanswers⟩ := outsider_runs_apart echoEnv 1 0 ownCalls
    (llmTenants "Hello" "Secret") (llmTenants_outsider _ _) (hsafe _)
  exact ⟨hrows, hanswers (llmTenants "Bye" "Plan") rfl (hsafe _)⟩

/-- Requests of the second owner that change what the first organization has. -/
def changingCalls : List LlmCall :=
  [calledAt 60 (.chat (oneMessage none (some 1))),
    calledAt 60 (.stream (oneMessage (some 0) none)),
    calledAt 60 (.addPromptVersion 0 ⟨"Bye", []⟩),
    calledAt 60 (.rollbackPrompt 0 1),
    calledAt 60 (.createConversation ⟨0, none, none, none⟩)]

/-- Requests of the second owner that show it. -/
def showingCalls : List LlmCall :=
  [calledAt 60 (.renderPrompt 0 ⟨[], none⟩), calledAt 60 (.conversationMessages 1)]

/-- What an answer shows of a prompt or a conversation. -/
def shownTexts : Except LlmError LlmResponse → List String
  | .ok (.rendered text) => [text]
  | .ok (.messages rows) => rows.map (·.content)
  | _ => []

def OrgRows.sizes (rows : OrgRows) : List Nat :=
  [rows.versions.length, rows.conversations.length, rows.messages.length, rows.requests.length]

/-- The second owner has no role in the first organization, changes its rows, and sees its
prompt and its conversation. -/
theorem outsider_reaches_rows :
    Outsider (llmTenants "Hello" "Secret").db.access 1 0 ∧
      (∀ call ∈ changingCalls,
        ((llmTenants "Hello" "Secret").after echoEnv 1 call).db.rowsOf 0 ≠
          (llmTenants "Hello" "Secret").db.rowsOf 0) ∧
      (llmTenants "Bye" "Plan").without 0 = (llmTenants "Hello" "Secret").without 0 ∧
      ∀ call ∈ showingCalls,
        ((llmTenants "Bye" "Plan").serve echoEnv 1 call).1 ≠
          ((llmTenants "Hello" "Secret").serve echoEnv 1 call).1 := by
  refine ⟨llmTenants_outsider _ _, ?_, rfl, ?_⟩
  · have hsizes : ∀ call ∈ changingCalls,
        ((llmTenants "Hello" "Secret").after echoEnv 1 call |>.db.rowsOf 0).sizes ≠
          ((llmTenants "Hello" "Secret").db.rowsOf 0).sizes := by
      decide +kernel
    exact fun call hcall h => hsizes call hcall (congrArg OrgRows.sizes h)
  · have htexts : ∀ call ∈ showingCalls,
        shownTexts ((llmTenants "Bye" "Plan").serve echoEnv 1 call).1 ≠
          shownTexts ((llmTenants "Hello" "Secret").serve echoEnv 1 call).1 := by
      decide +kernel
    exact fun call hcall h => htexts call hcall (congrArg shownTexts h)

end YoutubeFactory.Llm
