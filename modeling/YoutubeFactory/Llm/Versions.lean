import YoutubeFactory.Llm.Services
import YoutubeFactory.Lib.Except
import YoutubeFactory.Lib.Run
import YoutubeFactory.Lib.Sorting

/-!
# The versions of a prompt

`add_version` numbers a version after the latest one of its template, and `rollback` adds a copy
of an earlier version.  So the versions of a template are numbered from one on, in the order in
which they were added (`Numbered`), and no row is ever written again.

A history starts in tables that may hold other prompts.  The templates that it creates are told
by their ids, which are given to one row only.
-/

namespace YoutubeFactory.Llm

open Access Python

variable {M : Type} (env : LlmEnv M)

/-! ## Histories -/

inductive PromptCall where
  | create (organizationId : Id) (name template : String) (actorId : Id)
      (category description : Option String) (declared : List PromptVariable)
      (tags : List String) (context : RequestContext)
  | addVersion (templateId : Id) (template : String) (actorId : Id)
      (declared : List PromptVariable) (examples : List Json)
  | rollback (templateId : Id) (toVersion : Int) (actorId : Id)

def PromptCall.program : PromptCall → LlmM Unit
  | .create organizationId name template actorId category description declared tags context =>
      discard (createTemplate env organizationId name template actorId category description
        declared tags context)
  | .addVersion templateId template actorId declared examples =>
      discard (Llm.addVersion env templateId template actorId declared examples)
  | .rollback templateId toVersion actorId =>
      discard (Llm.rollback env templateId toVersion actorId)

/-- A call in its transaction. -/
def LlmDb.prompt (db : LlmDb) (call : PromptCall) : LlmDb :=
  Run.commit db ((call.program env).run db)

namespace LlmDb

/-- The versions of a template, in the order in which they were added. -/
def versionsOf (db : LlmDb) (templateId : Id) : List PromptVersion :=
  db.versions.filter fun v => v.templateId = templateId

/-- The number of the next version. -/
def nextVersion (db : LlmDb) (templateId : Id) : Int :=
  ((db.listForTemplate templateId).head?.map (·.versionNumber + 1)).getD 1

/-- The text that `render` returns, if it returns. -/
def rendered (db : LlmDb) (templateId : Id) (context : List (String × Json))
    (version : Option Int) : Option String :=
  ((render env templateId context version).run db).toOption.map Prod.fst

end LlmDb

/-- The numbers from one on. -/
def fromOne (n : Nat) : List Int := (List.range n).map fun i : Nat => (i : Int) + 1

theorem fromOne_succ (n : Nat) : fromOne (n + 1) = fromOne n ++ [(n : Int) + 1] := by
  rw [fromOne, List.range_succ, List.map_append]
  rfl

theorem mem_fromOne {n : Nat} {k : Int} : k ∈ fromOne n ↔ 1 ≤ k ∧ k ≤ n := by
  rw [fromOne, List.mem_map]
  constructor
  · rintro ⟨i, hi, rfl⟩
    rw [List.mem_range] at hi
    omega
  · rintro ⟨hlow, hhigh⟩
    exact ⟨(k - 1).toNat, List.mem_range.mpr (by omega), by omega⟩

/-- The greatest number of rows that are numbered from one on is how many they are. -/
theorem latest_of_fromOne {Row : Type} {number : Row → Int} {rows : List Row} {n : Nat}
    (h : rows.map number = fromOne n) :
    ((rows.insertionSort fun row row' => number row' ≤ number row).head?.map number).getD 0 =
      n := by
  cases hhead : (rows.insertionSort fun row row' => number row' ≤ number row).head? with
  | none =>
      have hlength := congrArg List.length (List.head?_eq_none_iff.mp hhead)
      rw [List.length_insertionSort] at hlength
      rw [List.length_eq_zero_iff.mp hlength] at h
      have hzero := congrArg List.length h
      rw [fromOne, List.length_map, List.length_map, List.length_range] at hzero
      rw [← hzero]
      rfl
  | some latest =>
      obtain ⟨hin, hmax⟩ := @Sorting.head_insertionSort Row
        (fun row row' => number row' ≤ number row) _
        (fun row row' => Int.le_total (number row') (number row))
        (fun _ _ _ h h' => Int.le_trans h' h) rows latest hhead
      have hlatest : number latest ∈ fromOne n := h ▸ List.mem_map_of_mem hin
      obtain ⟨hlow, hhigh⟩ := mem_fromOne.mp hlatest
      have hend : (n : Int) ∈ rows.map number := h ▸ mem_fromOne.mpr ⟨by omega, by omega⟩
      obtain ⟨row, hrow, hnumber⟩ := List.mem_map.mp hend
      have hlast := hmax row hrow
      show number latest = n
      omega

/-- The templates from this id on have the versions from one on. -/
structure Numbered (base : Id) (db : LlmDb) : Prop where
  base_le : base ≤ db.nextId
  versions_lt : ∀ v ∈ db.versions, v.templateId < db.nextId
  numbers : ∀ id, base ≤ id →
    (db.versionsOf id).map (·.versionNumber) = fromOne (db.versionsOf id).length
  notDeleted : ∀ v ∈ db.versions, base ≤ v.templateId → v.deletedAt = none
  latest : ∀ t ∈ db.templates, base ≤ t.id → t.latestVersion = (db.versionsOf t.id).length

/-- Every template from this id on has a version. -/
def Versioned (base : Id) (db : LlmDb) : Prop :=
  ∀ t ∈ db.templates, base ≤ t.id → 0 < (db.versionsOf t.id).length

/-! ## A new version -/

section

variable {env} {base templateId : Id} {db db' : LlmDb}

theorem Numbered.mem_range (h : Numbered base db) {v : PromptVersion}
    (hv : v ∈ db.versionsOf templateId) (hbase : base ≤ templateId) :
    1 ≤ v.versionNumber ∧ v.versionNumber ≤ (db.versionsOf templateId).length := by
  rw [← mem_fromOne, ← h.numbers templateId hbase]
  exact List.mem_map_of_mem hv

/-- The next version comes after all. -/
theorem Numbered.nextVersion (h : Numbered base db) (hbase : base ≤ templateId) :
    db.nextVersion templateId = (db.versionsOf templateId).length + 1 := by
  have hlatest := latest_of_fromOne (h.numbers templateId hbase)
  rw [LlmDb.nextVersion, LlmDb.listForTemplate, ← LlmDb.versionsOf]
  cases hhead : ((db.versionsOf templateId).insertionSort
      fun v v' => v'.versionNumber ≤ v.versionNumber).head? with
  | none =>
      rw [hhead] at hlatest
      show (1 : Int) = _
      rw [← hlatest]
      rfl
  | some latest =>
      rw [hhead] at hlatest
      rw [← hlatest]
      rfl

/-- The row that `add_version` adds. -/
def addedVersion (db : LlmDb) (templateId : Id) (template : String) (actorId : Id)
    (declared : List PromptVariable) (examples : List Json) : PromptVersion where
  templateId
  versionNumber := db.nextVersion templateId
  template
  vars := declared
  examples
  createdBy := some actorId
  updatedBy := some actorId
  deletedAt := none

/-- What `add_version` writes. -/
theorem addVersion_ok {template : String} {actorId : Id} {declared : List PromptVariable}
    {examples : List Json} {version : PromptVersion}
    (h : (addVersion env templateId template actorId declared examples).run db =
      .ok (version, db')) :
    (∃ t, db.getTemplate templateId = some t) ∧
      version = addedVersion db templateId template actorId declared examples ∧
      db' = (db.insertVersion version).setHead templateId version.versionNumber actorId := by
  unfold addVersion at h
  rw [StateT.run_bind, StateT.run_get, pure_bind] at h
  cases hrecord : (db.getTemplate templateId).filter fun t => t.deletedAt.isNone with
  | none =>
      rw [hrecord] at h
      cases h
  | some record =>
      rw [hrecord] at h
      have hsome : ∃ t, db.getTemplate templateId = some t :=
        ⟨record, (Option.filter_eq_some_iff.mp hrecord).1⟩
      cases hcompiles : compiles env template with
      | error e =>
          rw [hcompiles] at h
          cases h
      | ok _ =>
          rw [hcompiles] at h
          cases h
          exact ⟨hsome, rfl, rfl⟩

/-- The versions of each template after a row is added. -/
theorem versionsOf_append {v : PromptVersion} (h : db'.versions = db.versions ++ [v]) (id : Id) :
    db'.versionsOf id = db.versionsOf id ++ if v.templateId = id then [v] else [] := by
  rw [LlmDb.versionsOf, h, List.filter_append, LlmDb.versionsOf]
  by_cases hid : v.templateId = id
  · simp [hid]
  · simp [hid]

theorem length_versionsOf_append {v : PromptVersion} (h : db'.versions = db.versions ++ [v])
    (id : Id) : (db'.versionsOf id).length =
      (db.versionsOf id).length + if v.templateId = id then 1 else 0 := by
  rw [versionsOf_append h, List.length_append]
  split
  · rfl
  · rfl

/-- A version with the next number is added, and the head is moved to it. -/
theorem Numbered.add {v : PromptVersion} (h : Numbered base db) (hlt : v.templateId < db.nextId)
    (hnumber : base ≤ v.templateId →
      v.versionNumber = (db.versionsOf v.templateId).length + 1)
    (hlive : v.deletedAt = none) (actorId : Id) :
    Numbered base ((db.insertVersion v).setHead v.templateId v.versionNumber actorId) := by
  have hversions : ((db.insertVersion v).setHead v.templateId v.versionNumber actorId).versions =
      db.versions ++ [v] := rfl
  constructor
  · exact h.base_le
  · intro w hw
    rcases List.mem_append.mp (hversions ▸ hw) with hold | hnew
    · exact h.versions_lt w hold
    · rw [List.mem_singleton.mp hnew]
      exact hlt
  · intro id hbase
    rw [length_versionsOf_append hversions, versionsOf_append hversions, List.map_append,
      h.numbers id hbase]
    split
    · next hid =>
        rw [fromOne_succ, List.map_singleton, hnumber (hid ▸ hbase), hid]
    · rw [List.map_nil, List.append_nil, Nat.add_zero]
  · intro w hw hbase
    rcases List.mem_append.mp (hversions ▸ hw) with hold | hnew
    · exact h.notDeleted w hold hbase
    · rw [List.mem_singleton.mp hnew]
      exact hlive
  · intro t' ht' hbase
    obtain ⟨t, ht, rfl⟩ := List.mem_map.mp ht'
    rw [length_versionsOf_append hversions]
    by_cases hid : t.id = v.templateId
    · rw [if_pos hid] at hbase ⊢
      have hbase : base ≤ t.id := hbase
      show v.versionNumber = _
      rw [hnumber (hid ▸ hbase)]
      simp [hid]
    · rw [if_neg hid] at hbase ⊢
      rw [if_neg fun heq => hid heq.symm, h.latest t ht hbase, Nat.add_zero]

/-! ## The calls -/

/-- What `create_template` writes. -/
theorem createTemplate_ok {organizationId : Id} {name template : String} {actorId id : Id}
    {category description : Option String} {declared : List PromptVariable} {tags : List String}
    {context : RequestContext}
    (h : (createTemplate env organizationId name template actorId category description declared
      tags context).run db = .ok (id, db')) :
    ∃ (t : PromptTemplate) (version : PromptVersion), t.latestVersion = 0 ∧
      (addVersion env db.nextId template actorId declared []).run (db.insertTemplate t) =
        .ok (version, db') := by
  unfold createTemplate at h
  rw [StateT.run_bind, StateT.run_get, pure_bind] at h
  split at h
  · cases h
  rw [StateT.run_bind, StateT.run_get, pure_bind, StateT.run_bind, StateT.run_get,
    pure_bind] at h
  split at h
  · rw [StateT.run_bind, StateT.run_get, pure_bind, StateT.run_bind, StateT.run_modify, pure_bind,
      StateT.run_bind] at h
    obtain ⟨⟨version, db₁⟩, hadd, h⟩ := Except.bind_eq_ok.mp h
    cases h
    exact ⟨_, version, rfl, hadd⟩
  · cases h

/-- What `rollback` writes. -/
theorem rollback_ok {toVersion : Int} {actorId : Id} {version : PromptVersion}
    (h : (rollback env templateId toVersion actorId).run db = .ok (version, db')) :
    ∃ source, db.getVersion templateId toVersion = some source ∧
      (addVersion env templateId source.template actorId source.vars source.examples).run db =
        .ok (version, db') := by
  unfold rollback at h
  rw [StateT.run_bind, StateT.run_get, pure_bind] at h
  cases hsource : db.getVersion templateId toVersion with
  | none =>
      rw [hsource] at h
      cases h
  | some source =>
      rw [hsource] at h
      exact ⟨source, rfl, h⟩

/-- What a call does: nothing, or it adds a version to a template, which may be new. -/
theorem prompt_cases (db : LlmDb) (call : PromptCall) :
    db.prompt env call = db ∨
      ∃ (db₁ : LlmDb) (v : PromptVersion) (actorId : Id),
        (db₁ = db ∨ ∃ t : PromptTemplate, t.latestVersion = 0 ∧ v.templateId = db.nextId ∧
          db₁ = db.insertTemplate t) ∧
        v.templateId < db₁.nextId ∧ v.versionNumber = db₁.nextVersion v.templateId ∧
        v.deletedAt = none ∧
        db.prompt env call =
          (db₁.insertVersion v).setHead v.templateId v.versionNumber actorId := by
  have hadds : ∀ {db₁ db' : LlmDb} {templateId actorId : Id} {template : String}
      {declared : List PromptVariable} {examples : List Json} {version : PromptVersion},
      (addVersion env templateId template actorId declared examples).run db₁ =
        .ok (version, db') →
      version.templateId = templateId ∧ version.templateId < db₁.nextId ∧
        version.versionNumber = db₁.nextVersion version.templateId ∧ version.deletedAt = none ∧
        db' = (db₁.insertVersion version).setHead version.templateId version.versionNumber
          actorId := by
    intro db₁ db' templateId actorId template declared examples version hrun
    obtain ⟨⟨t, ht⟩, rfl, rfl⟩ := addVersion_ok hrun
    have hid : t.id = templateId := by simpa using List.find?_some ht
    have hlt : templateId < db₁.nextId := hid ▸ db₁.templates_lt t (List.mem_of_find?_eq_some ht)
    exact ⟨rfl, hlt, rfl, rfl, rfl⟩
  cases hrun : (call.program env).run db with
  | error e =>
      left
      rw [LlmDb.prompt, hrun, Run.commit_error]
  | ok r =>
      right
      obtain ⟨⟨⟩, db'⟩ := r
      have hprompt : db.prompt env call = db' := by
        rw [LlmDb.prompt, hrun, Run.commit_ok]
      rw [hprompt]
      cases call with
      | create organizationId name template actorId category description declared tags context =>
          obtain ⟨⟨id, db₂⟩, hcreate, hend⟩ := Except.map_eq_ok.mp hrun
          cases hend
          obtain ⟨t, v, hlatest, hadd⟩ := createTemplate_ok hcreate
          obtain ⟨hid, hlt, hnumber, hlive, hdb⟩ := hadds hadd
          exact ⟨_, v, actorId, .inr ⟨t, hlatest, hid, rfl⟩, hlt, hnumber, hlive, hdb⟩
      | addVersion templateId template actorId declared examples =>
          obtain ⟨⟨v, db₂⟩, hadd, hend⟩ := Except.map_eq_ok.mp hrun
          cases hend
          obtain ⟨-, hlt, hnumber, hlive, hdb⟩ := hadds hadd
          exact ⟨db, v, actorId, .inl rfl, hlt, hnumber, hlive, hdb⟩
      | rollback templateId toVersion actorId =>
          obtain ⟨⟨v, db₂⟩, hback, hend⟩ := Except.map_eq_ok.mp hrun
          cases hend
          obtain ⟨source, -, hadd⟩ := rollback_ok hback
          obtain ⟨-, hlt, hnumber, hlive, hdb⟩ := hadds hadd
          exact ⟨db, v, actorId, .inl rfl, hlt, hnumber, hlive, hdb⟩

/-- A template without versions is added. -/
theorem Numbered.insertTemplate (h : Numbered base db) {t : PromptTemplate}
    (ht : t.latestVersion = 0) : Numbered base (db.insertTemplate t) where
  base_le := h.base_le.trans (Nat.le_succ _)
  versions_lt v hv := Nat.lt_succ_of_lt (h.versions_lt v hv)
  numbers := h.numbers
  notDeleted := h.notDeleted
  latest t' ht' hbase := by
    rcases List.mem_append.mp ht' with hold | hnew
    · exact h.latest t' hold hbase
    · have hnone : db.versionsOf db.nextId = [] :=
        List.filter_eq_nil_iff.mpr fun v hv => by
          simpa using (h.versions_lt v hv).ne
      rw [List.mem_singleton.mp hnew]
      show t.latestVersion = ((db.versionsOf db.nextId).length : Int)
      rw [hnone, ht]
      rfl

/-- One call. -/
theorem prompt_numbered (h : Numbered base db) (call : PromptCall) :
    Numbered base (db.prompt env call) := by
  obtain hsame | ⟨db₁, v, actorId, hfirst, hlt, hnumber, hlive, hdb⟩ := prompt_cases db call
  · rw [hsame]
    exact h
  · have h₁ : Numbered base db₁ := by
      rcases hfirst with rfl | ⟨t, ht, -, rfl⟩
      · exact h
      · exact h.insertTemplate ht
    rw [hdb]
    exact h₁.add hlt (fun hbase => hnumber.trans (h₁.nextVersion hbase)) hlive actorId

theorem prompt_versioned (h : Versioned base db) (call : PromptCall) :
    Versioned base (db.prompt env call) := by
  obtain hsame | ⟨db₁, v, actorId, hfirst, -, -, -, hdb⟩ := prompt_cases db call
  · rw [hsame]
    exact h
  rw [hdb]
  intro t' ht' hbase
  obtain ⟨t, ht, rfl⟩ := List.mem_map.mp ht'
  have hid : (if t.id = v.templateId then
      { t with latestVersion := v.versionNumber, updatedBy := some actorId } else t).id = t.id := by
    split
    · rfl
    · rfl
  rw [hid] at hbase ⊢
  have hlength : (((db₁.insertVersion v).setHead v.templateId v.versionNumber actorId).versionsOf
      t.id).length = (db₁.versionsOf t.id).length + if v.templateId = t.id then 1 else 0 :=
    length_versionsOf_append rfl _
  rw [hlength]
  rcases hfirst with rfl | ⟨t₀, -, hnew, rfl⟩
  · exact Nat.lt_of_lt_of_le (h t ht hbase) (Nat.le_add_right _ _)
  · rcases List.mem_append.mp ht with hold | hadded
    · exact Nat.lt_of_lt_of_le (h t hold hbase) (Nat.le_add_right _ _)
    · have htid : v.templateId = t.id := by rw [List.mem_singleton.mp hadded, hnew]
      rw [if_pos htid]
      exact Nat.succ_pos _

/-- The rows that are there stay as they are. -/
theorem prompt_prefix (db : LlmDb) (call : PromptCall) :
    db.versions <+: (db.prompt env call).versions := by
  obtain hsame | ⟨db₁, v, actorId, hfirst, -, -, -, hdb⟩ := prompt_cases db call
  · rw [hsame]
  · have hversions : db₁.versions = db.versions := by
      rcases hfirst with rfl | ⟨t, -, -, rfl⟩
      · rfl
      · rfl
    rw [hdb, ← hversions]
    exact List.prefix_append _ _

/-! ## Rollbacks -/

/-- Which row `render` renders. -/
theorem rendered_eq {template : PromptTemplate} {row : PromptVersion} {version : Option Int}
    (htemplate : db.getTemplate templateId = some template)
    (hrow : db.getVersion templateId
      (if version.getD 0 = 0 then template.latestVersion else version.getD 0) = some row)
    (context : List (String × Json)) :
    db.rendered env templateId context version =
      (renderSpec env template.name row context).toOption := by
  unfold LlmDb.rendered render
  rw [StateT.run_bind, StateT.run_get, pure_bind, htemplate]
  dsimp only
  rw [StateT.run_bind, StateT.run_get, pure_bind, hrow]
  dsimp only
  cases renderSpec env template.name row context with
  | error e => rfl
  | ok text => rfl

/-- Versions of one text and one list of variables are rendered alike. -/
theorem renderSpec_toOption {v v' : PromptVersion} (htemplate : v.template = v'.template)
    (hvars : v.vars = v'.vars) (name : String) (context : List (String × Json)) :
    (renderSpec env name v context).toOption = (renderSpec env name v' context).toOption := by
  unfold renderSpec
  rw [htemplate, hvars]
  dsimp only
  split
  · cases env.jinja v'.template (validateContext v'.vars context).1 with
    | ok text => rfl
    | error e =>
        cases e with
        | template text => rfl
        | other text => rfl
  · rfl

theorem getTemplate_setHead {t : PromptTemplate} (ht : db.getTemplate templateId = some t)
    (version : Int) (actorId : Id) :
    (db.setHead templateId version actorId).getTemplate templateId =
      some { t with latestVersion := version, updatedBy := some actorId } := by
  have hid : t.id = templateId := by simpa using List.find?_some ht
  show ((db.templates.map _).find? _) = _
  rw [List.find?_map]
  have hsame : ((fun t' : PromptTemplate => decide (t'.id = templateId)) ∘
      fun t' : PromptTemplate => if t'.id = templateId then
        { t' with latestVersion := version, updatedBy := some actorId } else t') =
      fun t' => decide (t'.id = templateId) := by
    funext t'
    by_cases htid : t'.id = templateId
    · simp [htid]
    · simp [htid]
  rw [hsame]
  show (db.getTemplate templateId).map _ = _
  rw [ht, Option.map_some, if_pos hid]

/-- No row has the next number. -/
theorem Numbered.getVersion_next (h : Numbered base db) (hbase : base ≤ templateId) :
    db.getVersion templateId (db.nextVersion templateId) = none := by
  refine List.find?_eq_none.mpr fun w hw => ?_
  rw [decide_eq_true_eq]
  rintro ⟨hid, hsame, -⟩
  have hle := (h.mem_range (List.mem_filter.mpr ⟨hw, decide_eq_true hid⟩) hbase).2
  rw [hsame, h.nextVersion hbase] at hle
  omega

/-- A new row is found by its number. -/
theorem getVersion_append {v : PromptVersion} (h : db'.versions = db.versions ++ [v])
    (hnone : db.getVersion v.templateId v.versionNumber = none) (hlive : v.deletedAt = none) :
    db'.getVersion v.templateId v.versionNumber = some v := by
  rw [LlmDb.getVersion] at hnone
  rw [LlmDb.getVersion, h, List.find?_append, hnone, Option.none_or, List.find?_singleton]
  simp [hlive]

/-- After a rollback the template is rendered as the earlier version is. -/
theorem rollback_renders (h : Numbered base db) (hbase : base ≤ templateId) {toVersion : Int}
    {actorId : Id} {version : PromptVersion}
    (hrun : (rollback env templateId toVersion actorId).run db = .ok (version, db'))
    (context : List (String × Json)) :
    db'.rendered env templateId context none =
      db'.rendered env templateId context (some toVersion) := by
  obtain ⟨source, hsource, hadd⟩ := rollback_ok hrun
  obtain ⟨⟨t, ht⟩, hversion, hdb⟩ := addVersion_ok hadd
  have hversions : db'.versions = db.versions ++ [version] := by
    rw [hdb]
    rfl
  have htemplate : db'.getTemplate templateId =
      some { t with latestVersion := version.versionNumber, updatedBy := some actorId } := by
    rw [hdb]
    exact getTemplate_setHead ht _ _
  have hcopy : db'.getVersion templateId version.versionNumber = some version := by
    have hid : version.templateId = templateId := by rw [hversion]; rfl
    have hnone := h.getVersion_next hbase
    rw [← hid]
    refine getVersion_append hversions ?_ (by rw [hversion]; rfl)
    rw [hid, hversion]
    exact hnone
  have hold : db'.getVersion templateId toVersion = some source := by
    have hstart : db.versions <+: db'.versions := hversions ▸ List.prefix_append _ _
    exact hstart.find?_eq_some hsource
  -- versions are numbered from one, and `render` reads the number zero as none
  have hnonzero : toVersion ≠ 0 := by
    have hfields := List.find?_some hsource
    simp only [decide_eq_true_eq] at hfields
    have hrange := h.mem_range (List.mem_filter.mpr
      ⟨List.mem_of_find?_eq_some hsource, decide_eq_true hfields.1⟩) hbase
    rw [hfields.2.1] at hrange
    omega
  have hlatestText : db'.rendered env templateId context none =
      (renderSpec env t.name version context).toOption := by
    refine rendered_eq htemplate ?_ context
    exact hcopy
  have hearlierText : db'.rendered env templateId context (some toVersion) =
      (renderSpec env t.name source context).toOption := by
    refine rendered_eq htemplate ?_ context
    rw [Option.getD_some, if_neg hnonzero]
    exact hold
  rw [hlatestText, hearlierText]
  refine renderSpec_toOption ?_ ?_ _ _
  · rw [hversion]
    rfl
  · rw [hversion]
    rfl

end

/-! ## Every history -/

theorem numbered_start {db : LlmDb} (hforeign : ∀ v ∈ db.versions, v.templateId < db.nextId) :
    Numbered db.nextId db where
  base_le := Nat.le_refl _
  versions_lt := hforeign
  numbers id hid := by
    have hnone : db.versionsOf id = [] := List.filter_eq_nil_iff.mpr fun v hv => by
      rw [decide_eq_true_eq]
      exact Nat.ne_of_lt (Nat.lt_of_lt_of_le (hforeign v hv) hid)
    rw [hnone]
    rfl
  notDeleted v hv hbase := absurd (hforeign v hv) (Nat.not_lt.mpr hbase)
  latest t ht hbase := absurd (db.templates_lt t ht) (Nat.not_lt.mpr hbase)

/-- In every history, the versions of each template that was created in it are numbered from one
to its latest version, no version row changes, and what a rollback adds is rendered as the version
it goes back to.  At the start, versions belong to templates that have been added. -/
theorem versions_append_only {db : LlmDb}
    (hforeign : ∀ v ∈ db.versions, v.templateId < db.nextId) (calls : List PromptCall) :
    Run.Always (LlmDb.prompt env) (fun db' => ∀ t ∈ db'.templates, db.nextId ≤ t.id →
        ∃ n : Nat, 0 < n ∧ t.latestVersion = n ∧
          (db'.versionsOf t.id).map (·.versionNumber) = fromOne n) db calls ∧
      Run.Evolves (LlmDb.prompt env) (fun earlier later => earlier.versions <+: later.versions) db
        calls ∧
      Run.Always (LlmDb.prompt env) (fun db₁ => ∀ (templateId : Id) (toVersion : Int)
        (actorId : Id) (version : PromptVersion) (db₂ : LlmDb), db.nextId ≤ templateId →
        (rollback env templateId toVersion actorId).run db₁ = .ok (version, db₂) →
        ∀ context, db₂.rendered env templateId context none =
          db₂.rendered env templateId context (some toVersion)) db calls := by
  have hnumbered : Run.Always (LlmDb.prompt env) (Numbered db.nextId) db calls :=
    Run.always_of_invariant (fun _ call h => prompt_numbered h call) calls
      (numbered_start hforeign)
  have hboth : Run.Always (LlmDb.prompt env)
      (fun db' => Numbered db.nextId db' ∧ Versioned db.nextId db') db calls := by
    refine @Run.always_of_invariant _ _ _ (fun db' => Numbered db.nextId db' ∧
      Versioned db.nextId db') (fun _ call h => ⟨prompt_numbered h.1 call,
        prompt_versioned h.2 call⟩) calls _ ⟨numbered_start hforeign, ?_⟩
    exact fun t ht hbase => absurd (db.templates_lt t ht) (Nat.not_lt.mpr hbase)
  refine ⟨hboth.imp fun db' h t ht hbase => ?_, ?_, hnumbered.imp fun db₁ h => ?_⟩
  · exact ⟨_, h.2 t ht hbase, h.1.latest t ht hbase, h.1.numbers t.id hbase⟩
  · refine (@Run.evolves_iff_everyStep _ _ (LlmDb.prompt env)
      (fun earlier later => earlier.versions <+: later.versions) (fun _ => List.prefix_refl _)
      (fun _ _ _ h h' => List.IsPrefix.trans h h') _ _).mpr
        (Run.everyStep_iff.mpr fun earlier call _ _ => ?_)
    exact prompt_prefix _ call
  · exact fun _ _ _ _ _ hbase hrun context => rollback_renders h hbase hrun context

/-- An organization without prompts. -/
def noPrompts : LlmDb where
  access := { users := [], roles := [], members := [] }
  organizations := [⟨"First", none⟩]
  templates := []
  versions := []
  conversations := []
  messages := []
  requests := []
  usage := []
  costs := []
  nextId := 0
  templates_lt := by simp
  conversations_lt := by simp

/-- Templates that are rendered as they are. -/
def verbatimEnv : LlmEnv Unit where
  settings := ⟨"mock", "claude-opus-4-8", 4096, none, none, none, true, none⟩
  manager :=
    { chat := fun _ _ _ _ => (.error .multipleResults, ())
      stream := fun _ _ _ _ => (([], none), ()) }
  jinja := fun template _ => .ok template

/-- A prompt that is changed and taken back, twice. -/
def greetingHistory : List PromptCall :=
  [.create 0 "greeting" "Hello" 0 none none [] [] ⟨60, 60, none⟩, .addVersion 0 "Hi" 0 [] [],
    .rollback 0 1 0, .rollback 0 3 0]

theorem greeting_versions :
    Run.Always (LlmDb.prompt verbatimEnv) (fun db' => ∀ t ∈ db'.templates,
      noPrompts.nextId ≤ t.id → ∃ n : Nat, 0 < n ∧ t.latestVersion = n ∧
        (db'.versionsOf t.id).map (·.versionNumber) = fromOne n) noPrompts greetingHistory :=
  (versions_append_only verbatimEnv (fun v hv => by cases hv) greetingHistory).1

end YoutubeFactory.Llm
