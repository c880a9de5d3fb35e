import YoutubeFactory.Jobs.QueueJobs
import Mathlib.Data.List.Count

/-!
# Renders

`RenderJob` of `app/models/job.py` and `RenderJobService` of `app/services/job.py`.  Rows are
never removed, so a row's position is its id.  A call that raises is rolled back.

The methods write the status without a look at the one before.  So a report that is late or comes
twice moves a render out of its end (`render_ends_once_iff`).
-/

namespace YoutubeFactory.Jobs

/-! ## The table -/

structure RenderJob (Data : Type) where
  videoId : Id
  organizationId : Option Id
  queueJobId : Option Id
  kind : String
  status : JobStatus
  progress : Int
  outputKey : Option String
  outputBytes : Option Int
  durationSeconds : Option Int
  startedAt : Option DateTime
  finishedAt : Option DateTime
  error : Option String
  options : Data

/-- `RenderFinished` of `app/core/events/events.py` -/
structure RenderFinished where
  videoId : Id
  success : Bool
deriving DecidableEq, Repr

/-- The tables, and the events that were published, each with the render it was published for. -/
structure RenderDb (Data : Type) where
  jobs : JobDb Data
  renders : List (RenderJob Data)
  published : List (Id × RenderFinished)
  published_lt : ∀ e ∈ published, e.1 < renders.length

section

variable {Data : Type}

namespace RenderJob

/-- The columns that `update_progress` writes. -/
def advance (progress : Int) (now : DateTime) (render : RenderJob Data) : RenderJob Data :=
  { render with
    status := .running, progress, startedAt := some (render.startedAt.getD now) }

/-- The columns that `complete` writes. -/
def complete (outputKey : String) (outputBytes durationSeconds : Option Int) (now : DateTime)
    (render : RenderJob Data) : RenderJob Data :=
  { render with
    status := .succeeded, progress := 100, outputKey := some outputKey, outputBytes
    durationSeconds, finishedAt := some now, error := none }

/-- The columns that `fail` writes. -/
def fail (error : String) (now : DateTime) (render : RenderJob Data) : RenderJob Data :=
  { render with status := .failed, error := some error, finishedAt := some now }

end RenderJob

/-! ## The service -/

namespace RenderDb

variable (db : RenderDb Data)

/-- `_get` -/
def get (id : Id) : Except JobError (RenderJob Data) :=
  match db.renders[id]? with
  | none => .error (.notFound "Render job not found.")
  | some render => .ok render

/-- The flush of a changed row. -/
def save (id : Id) (render : RenderJob Data) : RenderDb Data :=
  { db with
    renders := db.renders.set id render
    published_lt := fun e he => by
      rw [List.length_set]
      exact db.published_lt e he }

/-- `self.events.publish` of a `RenderFinished`, for a row that is there. -/
def publish (id : Id) (event : RenderFinished) (h : id < db.renders.length) : RenderDb Data :=
  { db with
    published := db.published ++ [(id, event)]
    published_lt := fun e he => by
      rcases List.mem_append.mp he with hold | hnew
      · exact db.published_lt e hold
      · rw [List.mem_singleton.mp hnew]
        exact h }

/-- A row that has changed for good is flushed, and its end is announced. -/
def finish (id : Id) (render : RenderJob Data) (success : Bool) : RenderDb Data :=
  if h : id < (db.save id render).renders.length then
    (db.save id render).publish id ⟨render.videoId, success⟩ h
  else db.save id render

/-- `update_progress` -/
def updateProgress (id : Id) (progress : Int) (now : DateTime) :
    Except JobError (Id × RenderDb Data) :=
  if ¬ (0 ≤ progress ∧ progress ≤ 100) then
    .error (.validation "Progress must be between 0 and 100.")
  else do
    let render ← db.get id
    pure (id, db.save id (render.advance progress now))

/-- `complete` -/
def complete (id : Id) (outputKey : String) (outputBytes durationSeconds : Option Int)
    (now : DateTime) : Except JobError (Id × RenderDb Data) := do
  let render ← db.get id
  pure (id, db.finish id (render.complete outputKey outputBytes durationSeconds now) true)

/-- `fail` -/
def fail (id : Id) (error : String) (now : DateTime) : Except JobError (Id × RenderDb Data) := do
  let render ← db.get id
  pure (id, db.finish id (render.fail error now) false)

variable [EmptyCollection Data]

/-- `submit`.  The payload of the queue job names the video and the kind. -/
def submit (payload : Id → String → Data) (videoId : Id) (kind : String)
    (organizationId : Option Id) (options : Option Data) :
    Except JobError (Id × RenderDb Data) := do
  let (queueJobId, jobs) ← db.jobs.enqueue "render.media" (some (payload videoId kind)) "render"
    organizationId 0 3 none
  let render : RenderJob Data :=
    { videoId, organizationId, queueJobId := some queueJobId, kind, status := .queued
      progress := 0, outputKey := none, outputBytes := none, durationSeconds := none
      startedAt := none, finishedAt := none, error := none, options := options.getD ∅ }
  pure (db.renders.length,
    { jobs
      renders := db.renders ++ [render]
      published := db.published
      published_lt := fun e he => by
        rw [List.length_append]
        exact Nat.lt_add_right _ (db.published_lt e he) })

end RenderDb

/-! ## Calls -/

inductive RenderCall (Data : Type) where
  | submit (videoId : Id) (kind : String) (organizationId : Option Id) (options : Option Data)
  | updateProgress (id : Id) (progress : Int) (now : DateTime)
  | complete (id : Id) (outputKey : String) (outputBytes durationSeconds : Option Int)
      (now : DateTime)
  | fail (id : Id) (error : String) (now : DateTime)

namespace RenderCall

variable [EmptyCollection Data]

def attempt (payload : Id → String → Data) (db : RenderDb Data) :
    RenderCall Data → Except JobError (Id × RenderDb Data)
  | .submit videoId kind organizationId options =>
      db.submit payload videoId kind organizationId options
  | .updateProgress id progress now => db.updateProgress id progress now
  | .complete id outputKey outputBytes durationSeconds now =>
      db.complete id outputKey outputBytes durationSeconds now
  | .fail id error now => db.fail id error now

def step (payload : Id → String → Data) (db : RenderDb Data) (call : RenderCall Data) :
    RenderDb Data :=
  Run.commit db (call.attempt payload db)

/-- The row of a render after a call. -/
def effect (id : Id) (render : RenderJob Data) : RenderCall Data → RenderJob Data
  | .submit .. => render
  | .updateProgress id' progress now =>
      if id' = id ∧ 0 ≤ progress ∧ progress ≤ 100 then render.advance progress now else render
  | .complete id' outputKey outputBytes durationSeconds now =>
      if id' = id then render.complete outputKey outputBytes durationSeconds now else render
  | .fail id' error now => if id' = id then render.fail error now else render

/-- The successes of a render that a call announces. -/
def successes (id : Id) : RenderCall Data → Nat
  | .complete id' .. => if id' = id then 1 else 0
  | _ => 0

end RenderCall

namespace RenderDb

/-- The successes that were announced of a render. -/
def successes (id : Id) (db : RenderDb Data) : Nat :=
  db.published.countP fun e => e.1 = id ∧ e.2.success = true

/-! ## What the operations do -/

variable {db : RenderDb Data} {id : Id} {render : RenderJob Data}

theorem save_getElem? {id' : Id} (other : RenderJob Data)
    (hrender : db.renders[id]? = some render) :
    (db.save id' other).renders[id]? = some (if id' = id then other else render) := by
  by_cases hid : id' = id
  · subst hid
    rw [if_pos rfl]
    exact List.getElem?_set_self (List.getElem?_eq_some_iff.mp hrender).1
  · rw [if_neg hid]
    exact (List.getElem?_set_ne hid).trans hrender

theorem ne_of_missing {id' : Id} (hrender : db.renders[id]? = some render)
    (hmissing : db.renders[id']? = none) : id' ≠ id := by
  rintro rfl
  cases hrender.symm.trans hmissing

/-- A row that is read and changed.  A call on a row that is not there raises. -/
theorem commit_get_renders {id' : Id} {k : RenderJob Data → RenderDb Data}
    {f : RenderJob Data → RenderJob Data} (hk : ∀ r, (k r).renders = (db.save id' (f r)).renders)
    (hrender : db.renders[id]? = some render) :
    (Run.commit db (do let r ← db.get id'; pure (id', k r))).renders[id]? =
      some (if id' = id then f render else render) := by
  unfold get
  cases hother : db.renders[id']? with
  | none =>
      have hid := ne_of_missing hrender hother
      rw [if_neg hid]
      exact hrender
  | some other =>
      rw [Except.ok_bind, Except.pure_eq_ok, Run.commit_ok, hk, save_getElem? _ hrender]
      by_cases hid : id' = id
      · subst hid
        rw [hrender] at hother
        cases hother
        rfl
      · rw [if_neg hid, if_neg hid]

theorem commit_get_successes {id' : Id} {k : RenderJob Data → RenderDb Data} {n : Nat}
    (hk : ∀ r, db.renders[id']? = some r → (k r).successes id = db.successes id + n)
    (hn : id' ≠ id → n = 0) (hrender : db.renders[id]? = some render) :
    (Run.commit db (do let r ← db.get id'; pure (id', k r))).successes id =
      db.successes id + n := by
  unfold get
  cases hother : db.renders[id']? with
  | none =>
      have hid := ne_of_missing hrender hother
      rw [hn hid]
      rfl
  | some other => exact hk other hother

theorem finish_renders {id' : Id} (other : RenderJob Data) (success : Bool) :
    (db.finish id' other success).renders = (db.save id' other).renders := by
  unfold finish
  split <;> rfl

theorem successes_finish {id' : Id} {other : RenderJob Data} (success : Bool)
    (h : id' < db.renders.length) :
    (db.finish id' other success).successes id =
      db.successes id + if id' = id ∧ success = true then 1 else 0 := by
  have hlt : id' < (db.save id' other).renders.length := by
    rw [save, List.length_set]
    exact h
  rw [finish, dif_pos hlt]
  unfold successes publish save
  rw [List.countP_append, List.countP_singleton]
  simp only [decide_eq_true_eq]

variable [EmptyCollection Data]

/-- The row that `submit` adds, and that it announces nothing. -/
theorem submit_spec {payload : Id → String → Data} {videoId : Id} {kind : String}
    {organizationId : Option Id} {options : Option Data} {db' : RenderDb Data}
    (h : db.submit payload videoId kind organizationId options = .ok (id, db')) :
    ∃ render, id = db.renders.length ∧ db'.renders = db.renders ++ [render] ∧
      db'.published = db.published ∧ render.status = .queued ∧ render.progress = 0 ∧
      render.finishedAt = none := by
  unfold submit at h
  obtain ⟨⟨queueJobId, jobs⟩, -, hadd⟩ := Except.bind_eq_ok.mp h
  cases hadd
  exact ⟨_, rfl, rfl, rfl, rfl, rfl, rfl⟩

end RenderDb

namespace RenderCall

variable [EmptyCollection Data] {payload : Id → String → Data} {db : RenderDb Data} {id : Id}
  {render : RenderJob Data}

/-- A row that is there stays there, changed as the call says. -/
theorem step_getElem? (call : RenderCall Data) (hrender : db.renders[id]? = some render) :
    (call.step payload db).renders[id]? = some (call.effect id render) := by
  cases call with
  | submit videoId kind organizationId options =>
      refine @Run.commit_invariant (RenderDb Data) _ _ (fun s => s.renders[id]? = some render) _ _
        hrender fun id' db' hsubmit => ?_
      obtain ⟨added, -, hrenders, -⟩ := RenderDb.submit_spec hsubmit
      rw [hrenders]
      exact (List.getElem?_append_left (List.getElem?_eq_some_iff.mp hrender).1).trans hrender
  | updateProgress id' progress now =>
      unfold step attempt RenderDb.updateProgress
      dsimp only
      by_cases hprogress : 0 ≤ progress ∧ progress ≤ 100
      · rw [if_neg (not_not.mpr hprogress)]
        refine (RenderDb.commit_get_renders (fun _ => rfl) hrender).trans (congrArg some ?_)
        simp only [effect, hprogress, and_true]
      · rw [if_pos hprogress, effect, if_neg fun h => hprogress h.2]
        exact hrender
  | complete id' outputKey outputBytes durationSeconds now =>
      exact RenderDb.commit_get_renders (fun _ => RenderDb.finish_renders _ true) hrender
  | fail id' error now =>
      exact RenderDb.commit_get_renders (fun _ => RenderDb.finish_renders _ false) hrender

/-- The announcements of a render count the calls that complete it. -/
theorem successes_step (call : RenderCall Data) (hrender : db.renders[id]? = some render) :
    (step payload db call).successes id = db.successes id + call.successes id := by
  have hlt : ∀ {id' : Id} {r}, db.renders[id']? = some r → id' < db.renders.length :=
    fun h => (List.getElem?_eq_some_iff.mp h).1
  cases call with
  | submit videoId kind organizationId options =>
      refine @Run.commit_invariant (RenderDb Data) _ _ (fun s => s.successes id = db.successes id)
        _ _ rfl fun id' db' hsubmit => ?_
      obtain ⟨added, -, -, hpublished, -⟩ := RenderDb.submit_spec hsubmit
      rw [RenderDb.successes, hpublished]
      rfl
  | updateProgress id' progress now =>
      unfold step attempt RenderDb.updateProgress
      dsimp only
      split
      · rfl
      · exact RenderDb.commit_get_successes (n := 0) (fun _ _ => rfl) (fun _ => rfl) hrender
  | complete id' outputKey outputBytes durationSeconds now =>
      refine RenderDb.commit_get_successes (fun r hr => ?_) (fun hid => if_neg hid) hrender
      rw [RenderDb.successes_finish true (hlt hr)]
      simp [successes]
  | fail id' error now =>
      refine RenderDb.commit_get_successes (n := 0) (fun r hr => ?_) (fun _ => rfl) hrender
      rw [RenderDb.successes_finish false (hlt hr)]
      simp

end RenderCall

/-! ## The life of one render -/

/-- The columns of a render agree with one another. -/
structure RenderJob.Consistent (render : RenderJob Data) : Prop where
  finished_iff : render.finishedAt.isSome = true ↔
    render.status = .succeeded ∨ render.status = .failed
  progress_succeeded : render.status = .succeeded → render.progress = 100
  progress_nonneg : 0 ≤ render.progress
  progress_le : render.progress ≤ 100

/-- The row of a render is consistent, and at most one success was announced of it. -/
def RenderedOnce (id : Id) (db : RenderDb Data) : Prop :=
  (∃ render, db.renders[id]? = some render ∧ render.Consistent) ∧ db.successes id ≤ 1

/-- What a render that has succeeded tells about its end. -/
def RenderJob.outcome (render : RenderJob Data) : JobStatus × Int × Option DateTime :=
  (render.status, render.progress, render.finishedAt)

/-- A render that has succeeded stays as it is. -/
def KeepsSuccess (id : Id) (db db' : RenderDb Data) : Prop :=
  ∀ render, db.renders[id]? = some render → render.status = .succeeded →
    ∃ render', db'.renders[id]? = some render' ∧ render'.outcome = render.outcome

/-- No report reaches the render once it has succeeded, and no progress once it has failed. -/
def SparesRendered (id : Id) (db : RenderDb Data) : RenderCall Data → Prop
  | .submit .. => True
  | .updateProgress id' progress _ => id' = id → 0 ≤ progress ∧ progress ≤ 100 →
      ∀ render ∈ db.renders[id]?, render.status ≠ .succeeded ∧ render.status ≠ .failed
  | .complete id' .. | .fail id' .. => id' = id →
      ∀ render ∈ db.renders[id]?, render.status ≠ .succeeded

/-- The columns agree, also with the number of successes that were announced. -/
def RenderJob.Announced (announced : Nat) (render : RenderJob Data) : Prop :=
  render.Consistent ∧ announced = if render.status = .succeeded then 1 else 0

/-- As many successes were announced as the row says. -/
def Rendered (id : Id) (db : RenderDb Data) : Prop :=
  ∃ render, db.renders[id]? = some render ∧ render.Announced (db.successes id)

theorem KeepsSuccess.refl (id : Id) (db : RenderDb Data) : KeepsSuccess id db db :=
  fun render hrender _ => ⟨render, hrender, rfl⟩

theorem KeepsSuccess.trans {id : Id} {db db' db'' : RenderDb Data} (h : KeepsSuccess id db db')
    (h' : KeepsSuccess id db' db'') : KeepsSuccess id db db'' := by
  intro render hrender hsucceeded
  obtain ⟨render', hrender', hsame⟩ := h render hrender hsucceeded
  have hstatus : render'.status = render.status := congrArg Prod.fst hsame
  obtain ⟨render'', hrender'', hsame'⟩ := h' render' hrender' (hstatus.trans hsucceeded)
  exact ⟨render'', hrender'', hsame'.trans hsame⟩

theorem Rendered.once {id : Id} {db : RenderDb Data} (h : Rendered id db) :
    RenderedOnce id db := by
  obtain ⟨render, hrender, hconsistent, hsuccesses⟩ := h
  refine ⟨⟨render, hrender, hconsistent⟩, ?_⟩
  rw [hsuccesses]
  split
  · exact Nat.le_refl 1
  · exact Nat.zero_le 1

namespace RenderJob.Announced

variable {announced : Nat} {render : RenderJob Data}

theorem advance {progress : Int} (now : DateTime) (h : render.Announced announced)
    (hprogress : 0 ≤ progress ∧ progress ≤ 100)
    (hstatus : render.status ≠ .succeeded ∧ render.status ≠ .failed) :
    (render.advance progress now).Announced announced := by
  obtain ⟨hconsistent, hannounced⟩ := h
  rw [if_neg hstatus.1] at hannounced
  have hnone : ¬ render.finishedAt.isSome = true := fun hsome =>
    (hconsistent.finished_iff.mp hsome).elim hstatus.1 hstatus.2
  refine ⟨⟨?_, nofun, hprogress.1, hprogress.2⟩, hannounced⟩
  simp [RenderJob.advance, hnone]

theorem complete (outputKey : String) (outputBytes durationSeconds : Option Int) (now : DateTime)
    (h : render.Announced announced) (hstatus : render.status ≠ .succeeded) :
    (render.complete outputKey outputBytes durationSeconds now).Announced (announced + 1) := by
  obtain ⟨-, hannounced⟩ := h
  rw [if_neg hstatus] at hannounced
  subst hannounced
  have hnonneg : (0 : Int) ≤ 100 := by decide
  exact ⟨⟨iff_of_true rfl (.inl rfl), fun _ => rfl, hnonneg, Int.le_refl 100⟩, rfl⟩

theorem fail (error : String) (now : DateTime) (h : render.Announced announced)
    (hstatus : render.status ≠ .succeeded) : (render.fail error now).Announced announced := by
  obtain ⟨hconsistent, hannounced⟩ := h
  rw [if_neg hstatus] at hannounced
  have hnonneg := hconsistent.progress_nonneg
  have hle := hconsistent.progress_le
  exact ⟨⟨iff_of_true rfl (.inr rfl), nofun, hnonneg, hle⟩, hannounced⟩

end RenderJob.Announced

/-- A call that spares a render that has succeeded leaves its row. -/
theorem effect_of_succeeded {db : RenderDb Data} {id : Id} {render : RenderJob Data}
    {call : RenderCall Data} (hrender : db.renders[id]? = some render)
    (hspares : SparesRendered id db call) (hsucceeded : render.status = .succeeded) :
    call.effect id render = render := by
  cases call with
  | submit => rfl
  | updateProgress id' progress now =>
      refine if_neg fun hto => ?_
      exact (hspares hto.1 hto.2 render hrender).1 hsucceeded
  | complete id' outputKey outputBytes durationSeconds now =>
      exact if_neg fun hid => hspares hid render hrender hsucceeded
  | fail id' error now =>
      exact if_neg fun hid => hspares hid render hrender hsucceeded

variable [EmptyCollection Data] {payload : Id → String → Data} {db : RenderDb Data} {id : Id}

/-- `submit` adds a consistent row, of which nothing was announced. -/
theorem rendered_submit {db₀ : RenderDb Data} {videoId : Id} {kind : String}
    {organizationId : Option Id} {options : Option Data}
    (h : db₀.submit payload videoId kind organizationId options = .ok (id, db)) :
    Rendered id db := by
  obtain ⟨render, rfl, hrenders, hpublished, hstatus, hprogress, hfinished⟩ :=
    RenderDb.submit_spec h
  refine ⟨render, ?_, ⟨?_, ?_, ?_, ?_⟩, ?_⟩
  · rw [hrenders]
    exact List.getElem?_concat_length
  · simp [hstatus, hfinished]
  · simp [hstatus]
  · simp [hprogress]
  · simp [hprogress]
  · have hnone : db.successes db₀.renders.length = 0 := by
      refine List.countP_eq_zero.mpr fun e he => ?_
      rw [hpublished] at he
      have hne : e.1 ≠ db₀.renders.length := Nat.ne_of_lt (db₀.published_lt e he)
      simp [hne]
    rw [hnone, hstatus]
    rfl

theorem keepsSuccess_of_spares {call : RenderCall Data} (hspares : SparesRendered id db call) :
    KeepsSuccess id db (call.step payload db) := by
  intro render hrender hsucceeded
  refine ⟨_, RenderCall.step_getElem? call hrender, ?_⟩
  rw [effect_of_succeeded hrender hspares hsucceeded]

/-- A call that spares the render keeps the row and the announcements in step. -/
theorem Rendered.step {call : RenderCall Data} (h : Rendered id db)
    (hspares : SparesRendered id db call) : Rendered id (call.step payload db) := by
  obtain ⟨render, hrender, hannounced⟩ := h
  refine ⟨_, RenderCall.step_getElem? call hrender, ?_⟩
  rw [RenderCall.successes_step call hrender]
  cases call with
  | submit => exact hannounced
  | updateProgress id' progress now =>
      rw [RenderCall.effect]
      split
      · next hto => exact hannounced.advance now hto.2 (hspares hto.1 hto.2 render hrender)
      · exact hannounced
  | complete id' outputKey outputBytes durationSeconds now =>
      rw [RenderCall.effect, RenderCall.successes]
      split
      · next hid => exact hannounced.complete _ _ _ now (hspares hid render hrender)
      · exact hannounced
  | fail id' error now =>
      rw [RenderCall.effect]
      split
      · next hid => exact hannounced.fail error now (hspares hid render hrender)
      · exact hannounced

/-- A call that does not spare the render moves it out of its end, or announces it again. -/
theorem spares_of_rendered {call : RenderCall Data} (h : Rendered id db)
    (honce : RenderedOnce id (call.step payload db))
    (hkeeps : KeepsSuccess id db (call.step payload db)) : SparesRendered id db call := by
  obtain ⟨render, hrender, hconsistent, hsuccesses⟩ := h
  obtain ⟨⟨after, hafter, hthen⟩, hlimit⟩ := honce
  rw [RenderCall.step_getElem? call hrender] at hafter
  cases hafter
  have hkept : render.status = .succeeded →
      (call.effect id render).status = render.status := by
    intro hsucceeded
    obtain ⟨render', hrender', hsame⟩ := hkeeps render hrender hsucceeded
    rw [RenderCall.step_getElem? call hrender] at hrender'
    cases hrender'
    exact congrArg Prod.fst hsame
  cases call with
  | submit => exact trivial
  | updateProgress id' progress now =>
      intro hid hprogress other hother
      cases hrender.symm.trans hother
      rw [RenderCall.effect, if_pos ⟨hid, hprogress⟩] at hthen hkept
      constructor
      · intro hsucceeded
        cases (hkept hsucceeded).trans hsucceeded
      · intro hfailed
        -- the row still says when it ended
        rcases hthen.finished_iff.mp (hconsistent.finished_iff.mpr (.inr hfailed)) with hend | hend
        · cases hend
        · cases hend
  | complete id' outputKey outputBytes durationSeconds now =>
      intro hid other hother hsucceeded
      cases hrender.symm.trans hother
      rw [RenderCall.successes_step _ hrender, hsuccesses, if_pos hsucceeded,
        RenderCall.successes, if_pos hid] at hlimit
      omega
  | fail id' error now =>
      intro hid other hother hsucceeded
      cases hrender.symm.trans hother
      rw [RenderCall.effect, if_pos hid] at hkept
      cases (hkept hsucceeded).trans hsucceeded

/-- The progress of a render is within its bounds, and full if the render has succeeded. -/
def InProgress (id : Id) (db : RenderDb Data) : Prop :=
  ∃ render, db.renders[id]? = some render ∧ 0 ≤ render.progress ∧ render.progress ≤ 100 ∧
    (render.status = .succeeded → render.progress = 100)

/-- No report moves the progress out of its bounds. -/
theorem inProgress_always (h : Rendered id db) (calls : List (RenderCall Data)) :
    Run.Always (RenderCall.step payload) (InProgress id) db calls := by
  have hstart : InProgress id db := by
    obtain ⟨render, hrender, hconsistent, -⟩ := h
    exact ⟨render, hrender, hconsistent.progress_nonneg, hconsistent.progress_le,
      hconsistent.progress_succeeded⟩
  refine Run.always_of_invariant (fun db call h => ?_) calls hstart
  obtain ⟨render, hrender, hnonneg, hle, hfull⟩ := h
  refine ⟨_, RenderCall.step_getElem? call hrender, ?_⟩
  cases call with
  | submit => exact ⟨hnonneg, hle, hfull⟩
  | updateProgress id' progress now =>
      rw [RenderCall.effect]
      split
      · next hto => exact ⟨hto.2.1, hto.2.2, nofun⟩
      · exact ⟨hnonneg, hle, hfull⟩
  | complete id' outputKey outputBytes durationSeconds now =>
      rw [RenderCall.effect]
      split
      · have hpos : (0 : Int) ≤ 100 := by decide
        exact ⟨hpos, Int.le_refl 100, fun _ => rfl⟩
      · exact ⟨hnonneg, hle, hfull⟩
  | fail id' error now =>
      rw [RenderCall.effect]
      split
      · exact ⟨hnonneg, hle, nofun⟩
      · exact ⟨hnonneg, hle, hfull⟩

/-- A render ends once in the runs in which no report reaches it after its end, and in no
others. -/
theorem render_ends_once_iff {db₀ : RenderDb Data} {videoId : Id} {kind : String}
    {organizationId : Option Id} {options : Option Data}
    (hsubmit : db₀.submit payload videoId kind organizationId options = .ok (id, db))
    (calls : List (RenderCall Data)) :
    Run.Always (RenderCall.step payload) (RenderedOnce id) db calls ∧
        Run.Evolves (RenderCall.step payload) (KeepsSuccess id) db calls ↔
      Run.EveryStep (RenderCall.step payload) (SparesRendered id) db calls := by
  rw [Run.evolves_iff_everyStep (KeepsSuccess.refl id) fun _ _ _ => KeepsSuccess.trans]
  refine Run.always_and_everyStep_iff (fun _ => Rendered.once) (fun _ _ => Rendered.step)
    (fun s call h => ?_) calls (rendered_submit hsubmit)
  constructor
  · rintro ⟨honce, hkeeps⟩
    exact spares_of_rendered h honce hkeeps
  · intro hspares
    exact ⟨(h.step hspares).once, keepsSuccess_of_spares hspares⟩

end

/-! ## A late report -/

/-- The payload that `submit` gives to the queue job. -/
def renderPayload (videoId : Id) (kind : String) : List (String × String) :=
  [("video_id", toString videoId), ("kind", kind)]

/-- No render was submitted yet. -/
def noRenders : RenderDb (List (String × String)) where
  jobs := ⟨[]⟩
  renders := []
  published := []
  published_lt := nofun

/-- One render of a video is submitted. -/
def oneRender : RenderDb (List (String × String)) :=
  RenderCall.step renderPayload noRenders (.submit 7 "video" none none)

theorem submit_oneRender :
    noRenders.submit renderPayload 7 "video" none none = .ok (0, oneRender) := rfl

/-- The render fails, and another worker completes it. -/
theorem render_ends_once_iff_failed :
    (Run.Always (RenderCall.step renderPayload) (RenderedOnce 0) oneRender
          [.updateProgress 0 40 10, .fail 0 "ffmpeg exploded" 20,
            .complete 0 "out.mp4" none none 30] ∧
        Run.Evolves (RenderCall.step renderPayload) (KeepsSuccess 0) oneRender
          [.updateProgress 0 40 10, .fail 0 "ffmpeg exploded" 20,
            .complete 0 "out.mp4" none none 30] ↔
      Run.EveryStep (RenderCall.step renderPayload) (SparesRendered 0) oneRender
          [.updateProgress 0 40 10, .fail 0 "ffmpeg exploded" 20,
            .complete 0 "out.mp4" none none 30]) ∧
    Run.Always (RenderCall.step renderPayload) (RenderedOnce 0) oneRender
        [.updateProgress 0 40 10, .fail 0 "ffmpeg exploded" 20,
          .complete 0 "out.mp4" none none 30] ∧
      Run.Evolves (RenderCall.step renderPayload) (KeepsSuccess 0) oneRender
        [.updateProgress 0 40 10, .fail 0 "ffmpeg exploded" 20,
          .complete 0 "out.mp4" none none 30] := by
  have hiff := render_ends_once_iff submit_oneRender
    [.updateProgress 0 40 10, .fail 0 "ffmpeg exploded" 20, .complete 0 "out.mp4" none none 30]
  refine ⟨hiff, hiff.mpr ⟨?_, ?_, ?_, trivial⟩⟩
  · rintro - - render hrender
    cases hrender
    exact ⟨by decide, by decide⟩
  · rintro - render hrender
    cases hrender
    decide
  · rintro - render hrender
    cases hrender
    decide

/-- A report of progress is delivered after the render was completed. -/
theorem completed_render_runs :
    ¬ (Run.Always (RenderCall.step renderPayload) (RenderedOnce 0) oneRender
          [.complete 0 "out.mp4" none none 20, .updateProgress 0 50 30] ∧
        Run.Evolves (RenderCall.step renderPayload) (KeepsSuccess 0) oneRender
          [.complete 0 "out.mp4" none none 20, .updateProgress 0 50 30]) := by
  rintro ⟨-, hkeeps⟩
  obtain ⟨render, hrender, hsame⟩ :=
    hkeeps [.complete 0 "out.mp4" none none 20] [.updateProgress 0 50 30] [] rfl _ rfl rfl
  cases hrender
  cases hsame

end YoutubeFactory.Jobs
