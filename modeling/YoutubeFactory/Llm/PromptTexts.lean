import YoutubeFactory.Llm.Versions

/-!
# The texts of a prompt

`add_version` renders the text without any variables before it stores it, and lets every
`PromptRenderError` pass.  `render_string` raises it for each `TemplateError`: for an
undefined variable, which is expected here, and for a text that does not compile.

Jinja has two stages, and both may raise.  `from_string` raises a `TemplateError` on the
texts that do not compile, and on no others.
-/

namespace YoutubeFactory.Llm

open Access Python

/-- Jinja: the error of `from_string`, if a text does not compile, and `render` of one that
does. -/
structure Jinja where
  syntaxError : String → Option String
  renderCompiled : String → List (String × Json) → Except JinjaError String

/-- `from_string(template).render(**context)` -/
def Jinja.run (jinja : Jinja) (template : String) (context : List (String × Json)) :
    Except JinjaError String :=
  match jinja.syntaxError template with
  | some text => .error (.template text)
  | none => jinja.renderCompiled template context

variable {M : Type} (env : LlmEnv M) (jinja : Jinja)

/-- The environment with this Jinja. -/
def LlmEnv.withJinja : LlmEnv M := { env with jinja := jinja.run }

def Compiles (template : String) : Prop := jinja.syntaxError template = none

/-- Every stored version compiles. -/
def StoredCompile (db : LlmDb) : Prop := ∀ v ∈ db.versions, Compiles jinja v.template

/-- The text of a call, where it has one. -/
def PromptCall.text? : PromptCall → Option String
  | .create _ _ template _ _ _ _ _ _ => some template
  | .addVersion _ template _ _ _ => some template
  | .rollback _ _ _ => none

/-- There is something that the call may add a version to. -/
def Target (db : LlmDb) : PromptCall → Prop
  | .create organizationId name _ _ _ _ _ _ _ =>
      (db.getByName organizationId name).isSome = false ∧
        db.organizationExists organizationId = true ∧ db.nameTaken organizationId name = false
  | .addVersion templateId _ _ _ _ => ∃ t, db.getTemplate templateId = some t ∧ t.deletedAt = none
  | .rollback _ _ _ => False

/-- A call with a target has a text that compiles. -/
def GivesCompiling (db : LlmDb) (call : PromptCall) : Prop :=
  ∀ template, call.text? = some template → Target db call → Compiles jinja template

/-- A call that raises leaves the versions and the heads of the templates. -/
def RejectsCleanly (db : LlmDb) (call : PromptCall) : Prop :=
  ∀ e, (call.program env).run db = .error e →
    (db.prompt env call).versions = db.versions ∧ (db.prompt env call).templates = db.templates

theorem rejectsCleanly (db : LlmDb) (call : PromptCall) : RejectsCleanly env db call := by
  intro e h
  rw [LlmDb.prompt, h, Run.commit_error]
  exact ⟨rfl, rfl⟩

/-! ## What a call adds -/

section

variable {env jinja} {db db' : LlmDb}

/-- A text that does not compile passes the check. -/
theorem compiles_of_not {template : String} (h : ¬ Compiles jinja template) :
    compiles (env.withJinja jinja) template = .ok () := by
  obtain ⟨text, htext⟩ := Option.ne_none_iff_exists'.mp h
  have hrun : (env.withJinja jinja).jinja template [] = .error (.template text) := by
    show jinja.run template [] = _
    rw [Jinja.run, htext]
  rw [compiles, hrun]

theorem addVersion_of_compiles {templateId actorId : Id} {template : String}
    {declared : List PromptVariable} {examples : List Json} {t : PromptTemplate}
    (ht : db.getTemplate templateId = some t) (hlive : t.deletedAt = none)
    (hcompiles : compiles env template = .ok ()) :
    ∃ version db', (addVersion env templateId template actorId declared examples).run db =
      .ok (version, db') := by
  have hfilter : (db.getTemplate templateId).filter (fun t => t.deletedAt.isNone) = some t := by
    rw [ht, Option.filter_some, if_pos (by rw [hlive]; rfl)]
  unfold addVersion
  rw [StateT.run_bind, StateT.run_get, pure_bind, hfilter]
  simp only
  rw [hcompiles]
  exact ⟨_, _, rfl⟩

theorem addVersion_target {templateId actorId : Id} {template : String}
    {declared : List PromptVariable} {examples : List Json} {version : PromptVersion}
    (h : (addVersion env templateId template actorId declared examples).run db =
      .ok (version, db')) :
    Target db (.addVersion templateId template actorId declared examples) := by
  unfold addVersion at h
  rw [StateT.run_bind, StateT.run_get, pure_bind] at h
  cases hrecord : (db.getTemplate templateId).filter fun t => t.deletedAt.isNone with
  | none =>
      rw [hrecord] at h
      cases h
  | some record =>
      obtain ⟨hfound, hlive⟩ := Option.filter_eq_some_iff.mp hrecord
      exact ⟨record, hfound, Option.isNone_iff_eq_none.mp hlive⟩

theorem createTemplate_target {organizationId : Id} {name template : String} {actorId id : Id}
    {category description : Option String} {declared : List PromptVariable} {tags : List String}
    {context : RequestContext}
    (h : (createTemplate env organizationId name template actorId category description declared
      tags context).run db = .ok (id, db')) :
    Target db (.create organizationId name template actorId category description declared tags
      context) := by
  unfold createTemplate at h
  rw [StateT.run_bind, StateT.run_get, pure_bind] at h
  split at h
  · cases h
  · next hname =>
      rw [StateT.run_bind, StateT.run_get, pure_bind, StateT.run_bind, StateT.run_get,
        pure_bind] at h
      split at h
      · next hfree =>
          rw [Bool.and_eq_true, Bool.not_eq_true'] at hfree
          exact ⟨Bool.eq_false_iff.mpr hname, hfree.1, hfree.2⟩
      · cases h

/-- A call that returns had a target, and added a version with its text. -/
theorem prompt_ok {call : PromptCall} (h : (call.program env).run db = .ok ((), db')) :
    ∃ v : PromptVersion, db'.versions = db.versions ++ [v] ∧
      ((call.text? = some v.template ∧ Target db call) ∨
        ∃ source ∈ db.versions, call.text? = none ∧ v.template = source.template) := by
  cases call with
  | create organizationId name template actorId category description declared tags context =>
      obtain ⟨⟨id, db₁⟩, hcreate, hend⟩ := Except.map_eq_ok.mp h
      cases hend
      have htarget := createTemplate_target hcreate
      obtain ⟨t, v, -, hadd⟩ := createTemplate_ok hcreate
      obtain ⟨-, rfl, rfl⟩ := addVersion_ok hadd
      exact ⟨_, rfl, .inl ⟨rfl, htarget⟩⟩
  | addVersion templateId template actorId declared examples =>
      obtain ⟨⟨v, db₁⟩, hadd, hend⟩ := Except.map_eq_ok.mp h
      cases hend
      have htarget := addVersion_target hadd
      obtain ⟨-, rfl, rfl⟩ := addVersion_ok hadd
      exact ⟨_, rfl, .inl ⟨rfl, htarget⟩⟩
  | rollback templateId toVersion actorId =>
      obtain ⟨⟨v, db₁⟩, hback, hend⟩ := Except.map_eq_ok.mp h
      cases hend
      obtain ⟨source, hsource, hadd⟩ := rollback_ok hback
      obtain ⟨-, rfl, rfl⟩ := addVersion_ok hadd
      exact ⟨_, rfl, .inr ⟨source, List.mem_of_find?_eq_some hsource, rfl, rfl⟩⟩

theorem getTemplate_insertTemplate (db : LlmDb) (t : PromptTemplate) :
    (db.insertTemplate t).getTemplate db.nextId = some { t with id := db.nextId } := by
  have hold : db.templates.find? (fun t => decide (t.id = db.nextId)) = none :=
    List.find?_eq_none.mpr fun t ht => by simpa using (db.templates_lt t ht).ne
  show (db.templates ++ [{ t with id := db.nextId }]).find? _ = _
  rw [List.find?_append, hold, Option.none_or]
  exact List.find?_cons_of_pos (by simp)

/-- The row that `create_template` adds. -/
def newTemplate (db : LlmDb) (organizationId : Id) (name : String) (actorId : Id)
    (category description : Option String) (tags : List String) (context : RequestContext) :
    PromptTemplate where
  id := db.nextId
  organizationId
  name
  category
  description
  tags
  status := "active"
  latestVersion := 0
  createdBy := some actorId
  updatedBy := some actorId
  createdAt := context.now
  deletedAt := none

/-- A call with a target and a text that does not compile returns. -/
theorem prompt_of_target {call : PromptCall} {template : String}
    (htext : call.text? = some template) (htarget : Target db call)
    (hnot : ¬ Compiles jinja template) :
    ∃ db', (call.program (env.withJinja jinja)).run db = .ok ((), db') := by
  cases call with
  | create organizationId name template' actorId category description declared tags context =>
      cases htext
      obtain ⟨hname, horganization, htaken⟩ := htarget
      obtain ⟨version, db', hadd⟩ := @addVersion_of_compiles _ (env.withJinja jinja)
        (db.insertTemplate (newTemplate db organizationId name actorId category description tags
          context)) db.nextId actorId template declared [] _ (getTemplate_insertTemplate db _) rfl
        (compiles_of_not hnot)
      have hcreate : (createTemplate (env.withJinja jinja) organizationId name template actorId
          category description declared tags context).run db = .ok (db.nextId, db') := by
        unfold createTemplate
        rw [StateT.run_bind, StateT.run_get, pure_bind,
          if_neg (by rw [hname]; exact Bool.false_ne_true), StateT.run_bind, StateT.run_get,
          pure_bind, StateT.run_bind, StateT.run_get, pure_bind, horganization, htaken]
        rw [Bool.not_false, Bool.and_true, if_pos rfl, StateT.run_bind, StateT.run_get, pure_bind,
          StateT.run_bind, StateT.run_modify, pure_bind, StateT.run_bind]
        exact Except.bind_eq_ok.mpr ⟨(version, db'), hadd, rfl⟩
      exact ⟨db', Except.map_eq_ok.mpr ⟨(db.nextId, db'), hcreate, rfl⟩⟩
  | addVersion templateId template' actorId declared examples =>
      cases htext
      obtain ⟨t, ht, hlive⟩ := htarget
      obtain ⟨version, db', hadd⟩ := @addVersion_of_compiles _ (env.withJinja jinja) db templateId
        actorId template declared examples t ht hlive (compiles_of_not hnot)
      exact ⟨db', Except.map_eq_ok.mpr ⟨(version, db'), hadd, rfl⟩⟩
  | rollback templateId toVersion actorId => cases htext

end

/-! ## Every history -/

section

variable {env jinja} {db : LlmDb}

/-- One call keeps the versions compiling if and only if its text does. -/
theorem prompt_storedCompile_iff (hstored : StoredCompile jinja db) (call : PromptCall) :
    StoredCompile jinja (db.prompt (env.withJinja jinja) call) ↔ GivesCompiling jinja db call := by
  cases hrun : (call.program (env.withJinja jinja)).run db with
  | error e =>
      rw [LlmDb.prompt, hrun, Run.commit_error]
      refine iff_of_true hstored fun template htext htarget => ?_
      by_contra hnot
      obtain ⟨db', hok⟩ := @prompt_of_target _ env jinja db call template htext htarget hnot
      rw [hrun] at hok
      cases hok
  | ok r =>
      obtain ⟨⟨⟩, db'⟩ := r
      rw [LlmDb.prompt, hrun, Run.commit_ok]
      obtain ⟨v, hversions, hv⟩ := prompt_ok hrun
      have hiff : StoredCompile jinja db' ↔ Compiles jinja v.template := by
        unfold StoredCompile
        rw [hversions]
        constructor
        · exact fun h => h v (List.mem_append_right _ List.mem_cons_self)
        · intro hcompiles w hw
          rcases List.mem_append.mp hw with hold | hnew
          · exact hstored w hold
          · rw [List.mem_singleton.mp hnew]
            exact hcompiles
      rw [hiff]
      rcases hv with ⟨htext, htarget⟩ | ⟨source, hsource, hnone, htemplate⟩
      · constructor
        · intro hcompiles template htemplate _
          rw [htext] at htemplate
          cases htemplate
          exact hcompiles
        · exact fun hgives => hgives _ htext htarget
      · refine iff_of_true ?_ fun template htext => ?_
        · rw [htemplate]
          exact hstored source hsource
        · rw [hnone] at htext
          cases htext

/-- In a history that starts with versions that compile, all stored versions compile all along, and
a call that raises leaves them as they are, if and only if every call that has something to add a
version to is given a text that compiles. -/
theorem stored_prompts_compile_iff (hstored : StoredCompile jinja db) (calls : List PromptCall) :
    (Run.Always (LlmDb.prompt (env.withJinja jinja)) (StoredCompile jinja) db calls ∧
      Run.EveryStep (LlmDb.prompt (env.withJinja jinja))
        (RejectsCleanly (env.withJinja jinja)) db calls) ↔
      Run.EveryStep (LlmDb.prompt (env.withJinja jinja)) (GivesCompiling jinja) db calls := by
  have hclean : Run.EveryStep (LlmDb.prompt (env.withJinja jinja))
      (RejectsCleanly (env.withJinja jinja)) db calls :=
    Run.everyStep_iff.mpr fun _ _ _ _ => rejectsCleanly _ _ _
  have halways := @Run.always_iff_everyStep _ _ (LlmDb.prompt (env.withJinja jinja))
    (fun _ => True) (StoredCompile jinja) (fun _ _ => True) (GivesCompiling jinja)
    (fun _ _ _ h => h) (fun _ call _ _ h => prompt_storedCompile_iff h call) calls db
    (Run.everyStep_iff.mpr fun _ _ _ _ => trivial) trivial hstored
  rw [← halways]
  exact ⟨And.left, fun h => ⟨h, hclean⟩⟩

end

/-- Jinja on a few texts: a block tag without its expression does not compile. -/
def someJinja : Jinja where
  syntaxError template :=
    if template = "\x7b% if %\x7d" then some "Expected an expression, got 'end of statement block'"
    else none
  renderCompiled template _ := .ok template

/-- A prompt and a second version of it. -/
theorem stored_prompts_compile_greeting :
    Run.Always (LlmDb.prompt (verbatimEnv.withJinja someJinja)) (StoredCompile someJinja) noPrompts
      [.create 0 "greeting" "Hello" 0 none none [] [] ⟨60, 60, none⟩,
        .addVersion 0 "Hi" 0 [] []] := by
  have hgives : Run.EveryStep (LlmDb.prompt (verbatimEnv.withJinja someJinja))
      (GivesCompiling someJinja) noPrompts
      [.create 0 "greeting" "Hello" 0 none none [] [] ⟨60, 60, none⟩,
        .addVersion 0 "Hi" 0 [] []] := by
    refine ⟨fun template htext _ => ?_, fun template htext _ => ?_, trivial⟩
    · cases htext
      rfl
    · cases htext
      rfl
  exact ((@stored_prompts_compile_iff Unit verbatimEnv someJinja noPrompts
    (fun v hv => by cases hv) _).mpr hgives).1

/-- A text that does not compile is stored. -/
theorem not_stored_prompts_compile :
    ¬ Run.Always (LlmDb.prompt (verbatimEnv.withJinja someJinja)) (StoredCompile someJinja)
      noPrompts [.create 0 "greeting" "\x7b% if %\x7d" 0 none none [] [] ⟨60, 60, none⟩] := by
  intro h
  have hlast : someJinja.syntaxError "\x7b% if %\x7d" = none := h.2 _ List.mem_cons_self
  revert hlast
  decide

end YoutubeFactory.Llm
