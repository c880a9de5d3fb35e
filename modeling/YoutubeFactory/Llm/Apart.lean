import YoutubeFactory.Lib.Noninterference
import YoutubeFactory.Lib.Tenancy
import YoutubeFactory.Llm.Routes

/-!
# What an organization owns of the LLM tables

A part of each table is the organization's, and the rest is what a user without a role in it
may depend on.  A query or a write that names nothing of the organization does the same on
the rest, and leaves the part alone, and so does a service made of them.
-/

namespace YoutubeFactory.Llm

open Access Python Noninterference LlmDb

/-! ## What an organization owns -/

@[ext] structure OrgRows where
  templates : List PromptTemplate
  versions : List PromptVersion
  conversations : List Conversation
  messages : List ConversationMessage
  requests : List RequestRecord
  usage : List UsageRollup
  costs : List CostRollup

namespace LlmDb

section

variable (db : LlmDb) (organizationId : Id)

def OwnsTemplate (templateId : Id) : Prop :=
  ∃ t ∈ db.templates, t.id = templateId ∧ t.organizationId = organizationId

instance (templateId : Id) : Decidable (db.OwnsTemplate organizationId templateId) :=
  inferInstanceAs (Decidable (∃ _ ∈ _, _))

def OwnsConversation (conversationId : Id) : Prop :=
  ∃ c ∈ db.conversations, c.id = conversationId ∧ c.organizationId = organizationId

instance (conversationId : Id) : Decidable (db.OwnsConversation organizationId conversationId) :=
  inferInstanceAs (Decidable (∃ _ ∈ _, _))

/-- The rows of the organization. -/
def rowsOf : OrgRows where
  templates := db.templates.filter fun t => t.organizationId = organizationId
  versions := db.versions.filter fun v => db.OwnsTemplate organizationId v.templateId
  conversations := db.conversations.filter fun c => c.organizationId = organizationId
  messages := db.messages.filter fun m => db.OwnsConversation organizationId m.conversationId
  requests := db.requests.filter fun r => r.organizationId = some organizationId
  usage := db.usage.filter fun r => r.organizationId = some organizationId
  costs := db.costs.filter fun r => r.organizationId = some organizationId

/-- The tables without the rows of the organization. -/
def without : LlmDb :=
  { db with
    templates := db.templates.filter fun t => t.organizationId ≠ organizationId
    versions := db.versions.filter fun v => ¬ db.OwnsTemplate organizationId v.templateId
    conversations := db.conversations.filter fun c => c.organizationId ≠ organizationId
    messages := db.messages.filter fun m => ¬ db.OwnsConversation organizationId m.conversationId
    requests := db.requests.filter fun r => r.organizationId ≠ some organizationId
    usage := db.usage.filter fun r => r.organizationId ≠ some organizationId
    costs := db.costs.filter fun r => r.organizationId ≠ some organizationId
    templates_lt := fun t ht => db.templates_lt t (List.mem_filter.mp ht).1
    conversations_lt := fun c hc => db.conversations_lt c (List.mem_filter.mp hc).1 }

/-- What no request of an outsider may change. -/
def kept : AccessDb × OrgRows := (db.access, db.rowsOf organizationId)

end

/-! ## Queries for the rest -/

section

variable {db db' : LlmDb} {organizationId : Id}

/-- The organization's templates say which templates it owns. -/
theorem ownsTemplate_congr
    (h : db'.templates.filter (fun t => t.organizationId = organizationId) =
      db.templates.filter fun t => t.organizationId = organizationId) (templateId : Id) :
    db'.OwnsTemplate organizationId templateId ↔ db.OwnsTemplate organizationId templateId := by
  have howns : ∀ db : LlmDb, db.OwnsTemplate organizationId templateId ↔
      ∃ t ∈ db.templates.filter fun t => t.organizationId = organizationId, t.id = templateId := by
    intro db
    simp only [OwnsTemplate, List.mem_filter, decide_eq_true_eq]
    exact ⟨fun ⟨t, ht, hid, howner⟩ => ⟨t, ⟨ht, howner⟩, hid⟩,
      fun ⟨t, ⟨ht, howner⟩, hid⟩ => ⟨t, ht, hid, howner⟩⟩
  rw [howns db', howns db, h]

theorem ownsConversation_congr
    (h : db'.conversations.filter (fun c => c.organizationId = organizationId) =
      db.conversations.filter fun c => c.organizationId = organizationId) (conversationId : Id) :
    db'.OwnsConversation organizationId conversationId ↔
      db.OwnsConversation organizationId conversationId := by
  have howns : ∀ db : LlmDb, db.OwnsConversation organizationId conversationId ↔
      ∃ c ∈ db.conversations.filter fun c => c.organizationId = organizationId,
        c.id = conversationId := by
    intro db
    simp only [OwnsConversation, List.mem_filter, decide_eq_true_eq]
    exact ⟨fun ⟨c, hc, hid, howner⟩ => ⟨c, ⟨hc, howner⟩, hid⟩,
      fun ⟨c, ⟨hc, howner⟩, hid⟩ => ⟨c, hc, hid, howner⟩⟩
  rw [howns db', howns db, h]

theorem ownsTemplate_of_kept (h : db'.kept organizationId = db.kept organizationId)
    {templateId : Id} :
    db'.OwnsTemplate organizationId templateId ↔ db.OwnsTemplate organizationId templateId :=
  ownsTemplate_congr (congrArg (fun k => k.2.templates) h) templateId

theorem ownsConversation_of_kept (h : db'.kept organizationId = db.kept organizationId)
    {conversationId : Id} :
    db'.OwnsConversation organizationId conversationId ↔
      db.OwnsConversation organizationId conversationId :=
  ownsConversation_congr (congrArg (fun k => k.2.conversations) h) conversationId

section

variable {templateId conversationId : Id}

theorem getTemplate_without (h : ¬ db.OwnsTemplate organizationId templateId) :
    (db.without organizationId).getTemplate templateId = db.getTemplate templateId := by
  refine Tenancy.find?_filter_of_imp fun t ht hid => decide_eq_true fun howner => h ?_
  exact ⟨t, ht, of_decide_eq_true hid, howner⟩

theorem getVersion_without (h : ¬ db.OwnsTemplate organizationId templateId) (version : Int) :
    (db.without organizationId).getVersion templateId version =
      db.getVersion templateId version := by
  refine Tenancy.find?_filter_of_imp fun v _ hv => decide_eq_true ?_
  rw [(of_decide_eq_true hv).1]
  exact h

theorem listForTemplate_without (h : ¬ db.OwnsTemplate organizationId templateId) :
    (db.without organizationId).listForTemplate templateId = db.listForTemplate templateId := by
  refine congrArg (List.insertionSort _) (Tenancy.filter_filter_of_imp fun v _ hv => ?_)
  rw [of_decide_eq_true hv]
  exact decide_eq_true h

theorem getConversation_without (h : ¬ db.OwnsConversation organizationId conversationId) :
    (db.without organizationId).getConversation conversationId =
      db.getConversation conversationId := by
  refine Tenancy.find?_filter_of_imp fun c hc hid => decide_eq_true fun howner => h ?_
  exact ⟨c, hc, of_decide_eq_true hid, howner⟩

theorem messages_without (h : ¬ db.OwnsConversation organizationId conversationId) :
    ((db.without organizationId).messages.filter fun m => m.conversationId = conversationId) =
      db.messages.filter fun m => m.conversationId = conversationId := by
  refine Tenancy.filter_filter_of_imp fun m _ hm => ?_
  rw [of_decide_eq_true hm]
  exact decide_eq_true h

theorem listForConversation_without (h : ¬ db.OwnsConversation organizationId conversationId) :
    (db.without organizationId).listForConversation conversationId =
      db.listForConversation conversationId :=
  congrArg (List.insertionSort _) (messages_without h)

theorem nextSequence_without (h : ¬ db.OwnsConversation organizationId conversationId) :
    (db.without organizationId).nextSequence conversationId = db.nextSequence conversationId := by
  rw [nextSequence, messages_without h, nextSequence]

end

section

variable {other : Id} {owner : Option Id}

theorem getByName_without (h : other ≠ organizationId) (name : String) :
    (db.without organizationId).getByName other name = db.getByName other name := by
  refine Tenancy.find?_filter_of_imp fun t _ ht => decide_eq_true ?_
  rw [(of_decide_eq_true ht).1]
  exact h

theorem nameTaken_without (h : other ≠ organizationId) (name : String) :
    (db.without organizationId).nameTaken other name = db.nameTaken other name := by
  refine Tenancy.any_filter_of_imp fun t _ ht => decide_eq_true ?_
  rw [(of_decide_eq_true ht).1]
  exact h

theorem usageFor_without (h : owner ≠ some organizationId) (date : Date) (model : String) :
    (db.without organizationId).usageFor owner date model = db.usageFor owner date model := by
  refine Tenancy.filter_filter_of_imp fun r _ hr => decide_eq_true ?_
  rw [(of_decide_eq_true hr).1]
  exact h

theorem costsFor_without (h : owner ≠ some organizationId) (date : Date) (model : String) :
    (db.without organizationId).costsFor owner date model = db.costsFor owner date model := by
  refine Tenancy.filter_filter_of_imp fun r _ hr => decide_eq_true ?_
  rw [(of_decide_eq_true hr).1]
  exact h

end

/-! ## Writes to the rest -/

/-- The next id is nobody's. -/
theorem not_ownsTemplate_nextId : ¬ db.OwnsTemplate organizationId db.nextId := by
  rintro ⟨t, ht, hid, -⟩
  exact absurd hid (Nat.ne_of_lt (db.templates_lt t ht))

theorem not_ownsConversation_nextId : ¬ db.OwnsConversation organizationId db.nextId := by
  rintro ⟨c, hc, hid, -⟩
  exact absurd hid (Nat.ne_of_lt (db.conversations_lt c hc))

/-- A write keeps apart when it does the same on the rest, and leaves alone what the
organization owns. -/
structure KeepsApart (organizationId : Id) (write : LlmDb → LlmDb) (db : LlmDb) : Prop where
  hidden : write (db.without organizationId) = (write db).without organizationId
  kept : (write db).kept organizationId = db.kept organizationId

theorem insertTemplate_apart {t : PromptTemplate} (h : t.organizationId ≠ organizationId) :
    KeepsApart organizationId (fun db => db.insertTemplate t) db := by
  have hown : (db.insertTemplate t).templates.filter
      (fun t => t.organizationId = organizationId) =
        db.templates.filter fun t => t.organizationId = organizationId := by
    simp [insertTemplate, h]
  have howns := ownsTemplate_congr hown
  constructor
  · refine LlmDb.ext rfl rfl ?_ ?_ rfl rfl rfl rfl rfl rfl
    · simp [insertTemplate, without, h]
    · exact List.filter_congr fun v _ => by simp only [howns]
  · refine Prod.ext rfl (OrgRows.ext hown ?_ rfl rfl rfl rfl rfl)
    exact List.filter_congr fun v _ => by simp only [howns]

theorem setHead_apart {templateId : Id} {version : Int} {actorId : Id}
    (h : ¬ db.OwnsTemplate organizationId templateId) :
    KeepsApart organizationId (fun db => db.setHead templateId version actorId) db := by
  have hown : (db.setHead templateId version actorId).templates.filter
      (fun t => t.organizationId = organizationId) =
        db.templates.filter fun t => t.organizationId = organizationId := by
    refine Tenancy.filter_map_of_fixed (fun t => ?_) fun t ht howner => if_neg fun hid => h ?_
    · split <;> rfl
    · exact ⟨t, ht, hid, of_decide_eq_true howner⟩
  have howns := ownsTemplate_congr hown
  constructor
  · refine LlmDb.ext rfl rfl ?_ ?_ rfl rfl rfl rfl rfl rfl
    · refine (Tenancy.filter_map_of_same fun t => ?_).symm
      split <;> rfl
    · exact List.filter_congr fun v _ => by simp only [howns]
  · refine Prod.ext rfl (OrgRows.ext hown ?_ rfl rfl rfl rfl rfl)
    exact List.filter_congr fun v _ => by simp only [howns]

theorem insertVersion_apart {v : PromptVersion}
    (h : ¬ db.OwnsTemplate organizationId v.templateId) :
    KeepsApart organizationId (fun db => db.insertVersion v) db := by
  constructor
  · refine LlmDb.ext rfl rfl rfl ?_ rfl rfl rfl rfl rfl rfl
    refine (Tenancy.filter_append_of ?_).symm
    exact decide_eq_true h
  · refine Prod.ext rfl (OrgRows.ext rfl ?_ rfl rfl rfl rfl rfl)
    exact Tenancy.filter_append_of_not (decide_eq_false h)

theorem insertConversation_apart {c : Conversation} (h : c.organizationId ≠ organizationId) :
    KeepsApart organizationId (fun db => db.insertConversation c) db := by
  have hown : (db.insertConversation c).conversations.filter
      (fun c => c.organizationId = organizationId) =
        db.conversations.filter fun c => c.organizationId = organizationId :=
    Tenancy.filter_append_of_not (decide_eq_false h)
  have howns := ownsConversation_congr hown
  constructor
  · refine LlmDb.ext rfl rfl rfl rfl ?_ ?_ rfl rfl rfl rfl
    · refine (Tenancy.filter_append_of ?_).symm
      exact decide_eq_true h
    · exact List.filter_congr fun m _ => by simp only [howns]
  · refine Prod.ext rfl (OrgRows.ext rfl rfl hown ?_ rfl rfl rfl)
    exact List.filter_congr fun m _ => by simp only [howns]

theorem insertMessage_apart {m : ConversationMessage}
    (h : ¬ db.OwnsConversation organizationId m.conversationId) :
    KeepsApart organizationId (fun db => db.insertMessage m) db := by
  constructor
  · refine LlmDb.ext rfl rfl rfl rfl rfl ?_ rfl rfl rfl rfl
    refine (Tenancy.filter_append_of ?_).symm
    exact decide_eq_true h
  · refine Prod.ext rfl (OrgRows.ext rfl rfl rfl ?_ rfl rfl rfl)
    exact Tenancy.filter_append_of_not (decide_eq_false h)

theorem insertRequest_apart {r : RequestRecord} (h : r.organizationId ≠ some organizationId) :
    KeepsApart organizationId (fun db => db.insertRequest r) db := by
  constructor
  · refine LlmDb.ext rfl rfl rfl rfl rfl rfl ?_ rfl rfl rfl
    refine (Tenancy.filter_append_of ?_).symm
    exact decide_eq_true h
  · refine Prod.ext rfl (OrgRows.ext rfl rfl rfl rfl ?_ rfl rfl)
    exact Tenancy.filter_append_of_not (decide_eq_false h)

theorem countUsage_apart {owner : Option Id} (h : owner ≠ some organizationId) (date : Date)
    (model : String) (input output total : Nat) :
    KeepsApart organizationId (fun db => db.countUsage owner date model input output total)
      db := by
  have hquery := @usageFor_without db organizationId owner h date model
  constructor
  · refine LlmDb.ext rfl rfl rfl rfl rfl rfl rfl ?_ rfl rfl
    unfold countUsage
    dsimp only
    rw [hquery]
    split
    · refine (Tenancy.filter_append_of ?_).symm
      exact decide_eq_true h
    · refine (Tenancy.filter_map_of_same fun r => ?_).symm
      split <;> rfl
  · refine Prod.ext rfl (OrgRows.ext rfl rfl rfl rfl rfl ?_ rfl)
    show List.filter _ (if _ then _ else _) = _
    split
    · exact Tenancy.filter_append_of_not (decide_eq_false h)
    · refine Tenancy.filter_map_of_fixed (fun r => ?_) fun r _ howner => if_neg fun hrow => h ?_
      · split <;> rfl
      · rw [← hrow.1]
        exact of_decide_eq_true howner

theorem countCosts_apart {owner : Option Id} (h : owner ≠ some organizationId) (date : Date)
    (model : String) (input output total : ℚ) :
    KeepsApart organizationId (fun db => db.countCosts owner date model input output total)
      db := by
  have hquery := @costsFor_without db organizationId owner h date model
  constructor
  · refine LlmDb.ext rfl rfl rfl rfl rfl rfl rfl rfl ?_ rfl
    unfold countCosts
    dsimp only
    rw [hquery]
    split
    · refine (Tenancy.filter_append_of ?_).symm
      exact decide_eq_true h
    · refine (Tenancy.filter_map_of_same fun r => ?_).symm
      split <;> rfl
  · refine Prod.ext rfl (OrgRows.ext rfl rfl rfl rfl rfl rfl ?_)
    show List.filter _ (if _ then _ else _) = _
    split
    · exact Tenancy.filter_append_of_not (decide_eq_false h)
    · refine Tenancy.filter_map_of_fixed (fun r => ?_) fun r _ howner => if_neg fun hrow => h ?_
      · split <;> rfl
      · rw [← hrow.1]
        exact of_decide_eq_true howner

end

end LlmDb

/-! ## Services -/

/-- The program does the same on the rest, and leaves alone what the organization owns. -/
abbrev Apart {α : Type} (organizationId : Id) (m : LlmM α) (db : LlmDb) : Prop :=
  Confined (fun db => db.without organizationId) (fun db => db.kept organizationId) m db

theorem LlmDb.KeepsApart.modify {organizationId : Id} {write : LlmDb → LlmDb} {db : LlmDb}
    (h : LlmDb.KeepsApart organizationId write db) :
    Apart organizationId (modify write) db :=
  Confined.modify h.hidden h.kept

section

variable {M : Type} {env : LlmEnv M} {organizationId : Id} {db : LlmDb}

theorem addVersion_apart {templateId : Id} (h : ¬ db.OwnsTemplate organizationId templateId)
    (template : String) (actorId : Id) (declared : List PromptVariable) (examples : List Json) :
    Apart organizationId (addVersion env templateId template actorId declared examples) db := by
  refine Confined.get_bind ?_ ?_
  · simp only [getTemplate_without h]
  cases (db.getTemplate templateId).filter fun t => t.deletedAt.isNone with
  | none => exact Confined.throw _
  | some t =>
      refine (Confined.lift _).bind fun _ db' _ hkept => ?_
      have hown := mt (ownsTemplate_of_kept hkept).mp h
      refine Confined.get_bind ?_ ?_
      · simp only [listForTemplate_without hown]
      refine (insertVersion_apart hown).modify.bind fun _ db'' _ hkept' => ?_
      have hown' := mt (ownsTemplate_of_kept hkept').mp hown
      exact (setHead_apart hown').modify.bind fun _ _ _ _ => Confined.pure _

theorem createTemplate_apart {other : Id} (h : other ≠ organizationId) (name template : String)
    (actorId : Id) (category description : Option String) (declared : List PromptVariable)
    (tags : List String) (context : RequestContext) :
    Apart organizationId (createTemplate env other name template actorId category description
      declared tags context) db := by
  refine Confined.get_bind ?_ ?_
  · simp only [getByName_without h]
  split
  · exact Confined.throw _
  refine Confined.get_bind rfl ?_
  refine Confined.get_bind ?_ ?_
  · simp only [nameTaken_without h]
  split
  · refine Confined.get_bind rfl ?_
    refine (insertTemplate_apart h).modify.bind fun _ db' _ hkept => ?_
    have hown := mt (ownsTemplate_of_kept hkept).mp db.not_ownsTemplate_nextId
    exact (addVersion_apart hown _ _ _ _).bind fun _ _ _ _ => Confined.pure _
  · exact Confined.throw _

/-- A new template has the next id. -/
theorem createTemplate_id {other id : Id} {name template : String} {actorId : Id}
    {category description : Option String} {declared : List PromptVariable}
    {tags : List String} {context : RequestContext} {db' : LlmDb}
    (h : (createTemplate env other name template actorId category description declared tags
      context).run db = .ok (id, db')) : id = db.nextId := by
  unfold createTemplate at h
  simp only [StateT.run_bind, StateT.run_get, pure_bind] at h
  split at h
  · cases h
  simp only [StateT.run_bind, StateT.run_get, pure_bind] at h
  split at h
  · simp only [StateT.run_bind, StateT.run_get, StateT.run_modify, pure_bind] at h
    obtain ⟨⟨version, db''⟩, -, h⟩ := Except.bind_eq_ok.mp h
    cases h
    rfl
  · cases h

theorem render_apart {templateId : Id} (h : ¬ db.OwnsTemplate organizationId templateId)
    (context : List (String × Json)) (version : Option Int) :
    Apart organizationId (render env templateId context version) db := by
  refine Confined.get_bind ?_ ?_
  · simp only [getTemplate_without h]
  cases db.getTemplate templateId with
  | none => exact Confined.throw _
  | some t =>
      refine Confined.get_bind ?_ ?_
      · simp only [getVersion_without h]
      split
      · exact Confined.throw _
      · exact Confined.lift _

theorem rollback_apart {templateId : Id} (h : ¬ db.OwnsTemplate organizationId templateId)
    (toVersion : Int) (actorId : Id) :
    Apart organizationId (rollback env templateId toVersion actorId) db := by
  refine Confined.get_bind ?_ ?_
  · simp only [getVersion_without h]
  cases db.getVersion templateId toVersion with
  | none => exact Confined.throw _
  | some source => exact addVersion_apart h _ _ _ _

theorem createConversation_apart {other : Id} (h : other ≠ organizationId) (actorId : Id)
    (model system title : Option String) (context : RequestContext) :
    Apart organizationId (createConversation env other actorId model system title context) db := by
  refine Confined.get_bind rfl ?_
  split
  · refine Confined.get_bind rfl ?_
    exact (insertConversation_apart h).modify.bind fun _ _ _ _ => Confined.pure _
  · exact Confined.throw _

/-- A new conversation has the next id. -/
theorem createConversation_id {other id actorId : Id} {model system title : Option String}
    {context : RequestContext} {db' : LlmDb}
    (h : (createConversation env other actorId model system title context).run db =
      .ok (id, db')) : id = db.nextId := by
  unfold createConversation at h
  simp only [StateT.run_bind, StateT.run_get, pure_bind] at h
  split at h
  · simp only [StateT.run_bind, StateT.run_get, StateT.run_modify, pure_bind] at h
    cases h
    rfl
  · cases h

theorem appendMessage_apart {conversationId : Id}
    (h : ¬ db.OwnsConversation organizationId conversationId) (role content : String)
    (actorId : Id) (tokens : Nat) :
    Apart organizationId (appendMessage conversationId role content actorId tokens) db := by
  refine Confined.get_bind ?_ ?_
  · simp only [getConversation_without h]
  split
  · refine Confined.get_bind ?_ ?_
    · simp only [nextSequence_without h]
    refine Confined.get_bind rfl ?_
    exact (insertMessage_apart h).modify
  · exact Confined.throw _

theorem rollUp_apart {owner : Option Id} (h : owner ≠ some organizationId) (model : String)
    (usage : Usage) (costUsd : ℚ) (today : Date) :
    Apart organizationId (rollUp owner model usage costUsd today) db := by
  refine Confined.get_bind ?_ ?_
  · simp only [usageFor_without h]
  split
  · exact Confined.throw _
  refine (countUsage_apart h _ _ _ _ _).modify.bind fun _ db' _ _ => ?_
  refine Confined.get_bind ?_ ?_
  · simp only [costsFor_without h]
  split
  · exact Confined.throw _
  · exact (countCosts_apart h _ _ _ _ _).modify

theorem record_apart {owner : Option Id} (h : owner ≠ some organizationId)
    (outcome : ChatOutcome) (userId : Id) (conversationId : Option Id) (streamed : Bool)
    (context : RequestContext) :
    Apart organizationId (record outcome owner userId conversationId streamed context) db := by
  refine Confined.get_bind rfl ?_
  split
  · refine (insertRequest_apart h).modify.bind fun _ _ _ _ => ?_
    exact rollUp_apart h _ _ _ _
  · exact Confined.throw _

theorem recordTurn_apart {owner : Option Id} (h : owner ≠ some organizationId)
    {conversationId : Option Id}
    (hconversation : ∀ id ∈ conversationId, ¬ db.OwnsConversation organizationId id)
    (messages : List Message) (outcome : ChatOutcome) (userId : Id) (context : RequestContext) :
    Apart organizationId (recordTurn messages outcome owner userId conversationId context)
      db := by
  refine (record_apart h _ _ _ _ _).bind fun _ db' _ hkept => ?_
  cases conversationId with
  | none => exact Confined.pure _
  | some id =>
      have hown := mt (ownsConversation_of_kept hkept).mp (hconversation id rfl)
      cases messages.getLast? with
      | none => exact Confined.pure _
      | some message =>
          refine (appendMessage_apart hown _ _ _ _).bind fun _ db'' _ hkept' => ?_
          exact appendMessage_apart (mt (ownsConversation_of_kept hkept').mp hown) _ _ _ _

/-- A stream whose accounting keeps apart. -/
theorem streamEvents_apart {account : ChatResponse → LlmM Unit}
    (haccount : ∀ response db, Apart organizationId (account response) db)
    (events : List StreamEvent) (db : LlmDb) :
    streamEvents account events (db.without organizationId) =
        ((streamEvents account events db).1,
          (streamEvents account events db).2.map (·.without organizationId)) ∧
      ∀ db', (streamEvents account events db).2 = .ok db' →
        db'.kept organizationId = db.kept organizationId := by
  induction events generalizing db with
  | nil =>
      refine ⟨rfl, fun db' h => ?_⟩
      cases h
      rfl
  | cons event events ih =>
      cases hresponse : event.response with
      | none =>
          simp only [streamEvents, hresponse]
          rw [(ih db).1]
          exact ⟨rfl, (ih db).2⟩
      | some response =>
          simp only [streamEvents, hresponse]
          rw [(haccount response db).hidden]
          cases hrun : (account response).run db with
          | error e =>
              refine ⟨rfl, fun db' h => ?_⟩
              cases h
          | ok r =>
              simp only [Except.ok_map]
              rw [(ih r.2).1]
              refine ⟨rfl, fun db' h => ?_⟩
              exact ((ih r.2).2 db' h).trans ((haccount response db).kept r.1 r.2 hrun)

theorem closeStream_apart {written : Except LlmError LlmDb}
    (hkept : ∀ db', written = .ok db' → db'.kept organizationId = db.kept organizationId)
    (sent : List Json) (failure : Option LlmError) :
    LlmRequest.closeStream sent (written.map (·.without organizationId)) failure
        (db.without organizationId) =
        ((LlmRequest.closeStream sent written failure db).1,
          (LlmRequest.closeStream sent written failure db).2.without organizationId) ∧
      (LlmRequest.closeStream sent written failure db).2.kept organizationId =
        db.kept organizationId := by
  cases written with
  | error e => exact ⟨rfl, rfl⟩
  | ok db' =>
      cases failure with
      | none => exact ⟨rfl, hkept db' rfl⟩
      | some e => exact ⟨rfl, rfl⟩

theorem answerStream_apart {body : ChatRequestIn}
    (h : body.organizationId ≠ some organizationId) (userId : Id) (context : RequestContext)
    (events : List StreamEvent) (failure : Option LlmError) :
    Apart organizationId (LlmRequest.answerStream env body userId context events failure) db := by
  obtain ⟨hhidden, hkept⟩ := @streamEvents_apart organizationId
    (fun r => recordStream env r body.provider body.organizationId userId context)
    (fun _ _ => record_apart h _ _ _ _ _) events db
  obtain ⟨hclosed, hclosedKept⟩ := closeStream_apart hkept _ failure
  constructor
  · show Except.ok (LlmRequest.closeStream _ _ failure _) = _
    rw [hhidden, hclosed]
    rfl
  · intro response db' hok
    have hdb : _ = db' := congrArg Prod.snd (Except.ok.inj hok)
    rw [← hdb]
    exact hclosedKept

end

end YoutubeFactory.Llm
