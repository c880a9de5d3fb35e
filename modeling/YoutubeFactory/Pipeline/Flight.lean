import YoutubeFactory.Lib.Run
import YoutubeFactory.Lib.Stateful
import YoutubeFactory.Lib.Table
import YoutubeFactory.Pipeline.Service

/-!
# One run in flight per video

`start` looks at `finished_at` of the latest run, the stage methods move `stage`.
`_advance` sets `finished_at` on the way into a final stage and never clears it, so
a finished run that a stage method takes up again is in flight with `finished_at`
set, and `start` does not see it.

Unfinished runs alone are never two of a video, whatever is called
(`Ordered.request`).  The stages stay in step with `finished_at` exactly as long as
no finished run is taken up again (`one_in_flight_iff`).
-/

namespace YoutubeFactory.Pipeline

open Python

/-! ## Calls -/

/-- The stage methods before `learn`, with what they are given. -/
inductive StageCall where
  | research
  | script (text : String)
  | voiceover (voice : Option String) (provider : Except PipelineError SpeechProvider)
  | render (provider : Except PipelineError RenderProvider)
      (metering : Except PipelineError Unit)
  | publish (platform : String) (tags : List String)
      (dispatch : Payload → Except PipelineError Payload)
      (insert : Publication → Except PipelineError Unit)
      (provider : Except PipelineError PublishProvider)

namespace StageCall

/-- The stage that a call moves its run to. -/
def next : StageCall → PipelineStage
  | research => .script
  | script _ => .voiceover
  | voiceover _ _ => .render
  | render _ _ => .publish
  | publish _ _ _ _ _ => .analytics

def body (runId : Id) (run : PipelineRun) (now : DateTime) : StageCall → PipelineM Unit
  | research => Pipeline.research runId run now
  | script text => discard (Pipeline.script runId run text now)
  | voiceover voice provider => discard (Pipeline.voiceover runId run voice provider now)
  | render provider metering => discard (Pipeline.render runId run provider metering now)
  | publish platform tags dispatch insert provider =>
      discard (Pipeline.publish runId run platform tags dispatch insert provider now)

end StageCall

/-- A call of the service on its tables.  The methods that take a run take one that
exists. -/
inductive Call where
  | start (videoId : Id) (now createdAt : DateTime) (tie : Nat)
  | addResearch (videoId : Id) (notes : List NoteInput)
  | stage (runId : Id) (call : StageCall) (now : DateTime)
  | collectAnalytics (publicationId : Id) (provider : Except PipelineError AnalyticsProvider)
  | learn (runId : Id) (ctrTarget : ℚ) (now : DateTime)
  | fail (runId : Id) (error : String) (now : DateTime)

def Call.body (db : PipelineDb) : Call → PipelineM Unit
  | start videoId now createdAt tie => discard (Pipeline.start videoId now createdAt tie)
  | addResearch videoId notes => Pipeline.addResearch videoId notes
  | stage runId call now =>
      match db.runs[runId]? with
      | none => pure ()
      | some run => call.body runId run now
  | collectAnalytics publicationId provider =>
      discard (Pipeline.collectAnalytics publicationId provider)
  | learn runId ctrTarget now =>
      match db.runs[runId]? with
      | none => pure ()
      | some run => discard (Pipeline.learn runId run ctrTarget now)
  | fail runId error now => Pipeline.fail runId error now

/-- A call, and whether its writes are kept when it raises: the caller may handle the
exception, or let it roll the transaction back. -/
structure Request where
  call : Call
  kept : Bool

def Request.step (db : PipelineDb) (request : Request) : PipelineDb :=
  match (request.call.body db).run db with
  | .ok _ db' => db'
  | .error _ db' => if request.kept then db' else db

/-! ## The law -/

/-- A run is in flight when its stage is neither `DONE` nor `FAILED`. -/
def PipelineRun.InFlight (run : PipelineRun) : Prop := run.stage ≠ .done ∧ run.stage ≠ .failed

/-- `finished_at` is set exactly on the runs that are not in flight. -/
def InStep (db : PipelineDb) : Prop :=
  ∀ run ∈ db.runs, run.finishedAt.isSome = true ↔ ¬ run.InFlight

/-- No video has two runs in flight. -/
def OneInFlight (db : PipelineDb) : Prop :=
  ∀ {i j : Id} {run other : PipelineRun}, db.runs[i]? = some run → db.runs[j]? = some other →
    run.videoId = other.videoId → run.InFlight → other.InFlight → i = j

/-- The row of a started run is later than those of the video's other runs. -/
def StartsLater (db : PipelineDb) (request : Request) : Prop :=
  match request.call with
  | .start videoId _ createdAt _ =>
      ∀ run ∈ db.runs, run.videoId = videoId → run.createdAt < createdAt
  | _ => True

/-! ## When a stage method reaches `_advance` -/

/-- The checks of the method pass, and the provider answers. -/
def Reaches (db : PipelineDb) (run : PipelineRun) : StageCall → Prop
  | .research => True
  | .script text =>
      strip text ≠ "" ∧ (db.liveVideo run.videoId).isSome = true ∧
        ∀ v ∈ db.versions, v.videoId = run.videoId → v.versionNumber ≠
          (db.versions.filter fun v => v.videoId = run.videoId).length + 1
  | .voiceover voice provider =>
      ∃ v version text synthesize result, db.liveVideo run.videoId = some v ∧
        db.scripted v = some (version, text) ∧ provider = .ok synthesize ∧
        synthesize text ((voice.filter (· ≠ "")).getD "default")
          (audioKey run.videoId version.versionNumber) = .ok result
  | .render provider _ =>
      ∃ v version text render result, db.liveVideo run.videoId = some v ∧
        db.scripted v = some (version, text) ∧ provider = .ok render ∧
        render text (run.artifacts.voiceover.map (·.storageKey))
          (renderKey run.videoId version.versionNumber) = .ok result
  | .publish platform tags dispatch insert provider =>
      ∃ v videoKey payload listing id publication db' publish result,
        db.liveVideo run.videoId = some v ∧
        (run.artifacts.render.map (·.storageKey)).filter (· ≠ "") = some videoKey ∧
        dispatch (payloadOf v platform tags) = .ok payload ∧
        Listing.ofPayload v tags payload = .ok listing ∧
        (publicationOf run.videoId v platform listing insert).run db = .ok (id, publication) db' ∧
        provider = .ok publish ∧
        publish
          { videoKey, title := v.title, description := v.description
            tags := if tags.isEmpty then publication.tags else tags.map .str } = .ok result

/-- After `_advance`, only the metering of a render may raise. -/
def Returns (db : PipelineDb) (run : PipelineRun) : StageCall → Prop
  | .render _ metering =>
      metering = .ok () ∨ (db.liveVideo run.videoId).all (·.projectId.isNone) = true
  | _ => True

/-- A finished run is taken up again. -/
def Resumes (db : PipelineDb) (request : Request) : Prop :=
  match request.call with
  | .stage runId call _ =>
      ∃ run, db.runs[runId]? = some run ∧ run.finishedAt.isSome = true ∧
        Reaches db run call ∧ (request.kept = true ∨ Returns db run call)
  | _ => False

/-! ## What the methods do to the runs -/

/-- The call advances the run, and then returns or raises. -/
def Advances (db : PipelineDb) (runId : Id) (stage : PipelineStage) (now : DateTime)
    {α : Type} (r : EStateM.Result PipelineError PipelineDb α) (returns : Prop) : Prop :=
  ∃ artifacts db', db'.runs = db.runs.modify runId (fun run => run.advance stage artifacts now) ∧
    ((returns ∧ ∃ a, r = .ok a db') ∨ (¬ returns ∧ ∃ e, r = .error e db'))

/-- The call raises, and leaves the runs alone. -/
def Stops (db : PipelineDb) {α : Type} (r : EStateM.Result PipelineError PipelineDb α) : Prop :=
  ∃ e db', r = .error e db' ∧ db'.runs = db.runs

theorem run_video_some {db : PipelineDb} {videoId : Id} {v : Video}
    (h : db.liveVideo videoId = some v) : (video videoId).run db = .ok v db := by
  unfold video
  rw [EStateM.run_bind_of_ok (EStateM.run_get db), h]
  rfl

theorem run_video_none {db : PipelineDb} {videoId : Id} (h : db.liveVideo videoId = none) :
    (video videoId).run db = .error (.notFound "Video not found.") db := by
  unfold video
  rw [EStateM.run_bind_of_ok (EStateM.run_get db), h]
  rfl

theorem run_answer_ok {α : Type} (a : α) (db : PipelineDb) :
    (answer (.ok a)).run db = .ok a db := rfl

theorem run_answer_error {α : Type} (e : PipelineError) (db : PipelineDb) :
    (answer (.error e : Except PipelineError α)).run db = .error e db := rfl

theorem run_video_eq_ok {db db' : PipelineDb} {videoId : Id} {v : Video}
    (h : (video videoId).run db = .ok v db') : db.liveVideo videoId = some v ∧ db = db' := by
  cases hv : db.liveVideo videoId with
  | none =>
      rw [run_video_none hv] at h
      cases h
  | some v' =>
      rw [run_video_some hv] at h
      cases h
      exact ⟨rfl, rfl⟩

theorem run_answer_eq_ok {α : Type} {r : Except PipelineError α} {a : α} {db db' : PipelineDb}
    (h : (answer r).run db = .ok a db') : r = .ok a ∧ db = db' := by
  cases r with
  | error e => cases h
  | ok a' =>
      cases h
      exact ⟨rfl, rfl⟩

/-- A stage method advances its run or stops before. -/
def StageSpec (db : PipelineDb) (runId : Id) (run : PipelineRun) (now : DateTime)
    (call : StageCall) : Prop :=
  (Reaches db run call → Advances db runId call.next now ((call.body runId run now).run db)
    (Returns db run call)) ∧
  (¬ Reaches db run call → Stops db ((call.body runId run now).run db))

variable {db : PipelineDb} {runId : Id} {run : PipelineRun} {now : DateTime}

theorem Stops.discard {α : Type} {m : PipelineM α} (h : Stops db (m.run db)) :
    Stops db ((discard m).run db) := by
  obtain ⟨e, db', hrun, hruns⟩ := h
  exact ⟨e, db', EStateM.run_discard_of_error hrun, hruns⟩

theorem Advances.discard {α : Type} {m : PipelineM α} {stage : PipelineStage} {returns : Prop}
    (h : Advances db runId stage now (m.run db) returns) :
    Advances db runId stage now ((discard m).run db) returns := by
  obtain ⟨artifacts, db', hruns, ⟨hreturns, a, hrun⟩ | ⟨hraises, e, hrun⟩⟩ := h
  · exact ⟨artifacts, db', hruns, .inl ⟨hreturns, (), EStateM.run_discard_of_ok hrun⟩⟩
  · exact ⟨artifacts, db', hruns, .inr ⟨hraises, e, EStateM.run_discard_of_error hrun⟩⟩

theorem Stops.bind {α β : Type} {m : PipelineM α} (h : Stops db (m.run db)) (f : α → PipelineM β) :
    Stops db ((m >>= f).run db) := by
  obtain ⟨e, db', hrun, hruns⟩ := h
  exact ⟨e, db', EStateM.run_bind_of_error hrun, hruns⟩

theorem Advances.bind_pure {α β : Type} {m : PipelineM α} {stage : PipelineStage} {returns : Prop}
    (h : Advances db runId stage now (m.run db) returns) (f : α → β) :
    Advances db runId stage now ((m >>= fun a => pure (f a)).run db) returns := by
  obtain ⟨artifacts, db', hruns, ⟨hreturns, a, hrun⟩ | ⟨hraises, e, hrun⟩⟩ := h
  · exact ⟨artifacts, db', hruns, .inl ⟨hreturns, f a, EStateM.run_bind_of_ok hrun⟩⟩
  · exact ⟨artifacts, db', hruns, .inr ⟨hraises, e, EStateM.run_bind_of_error hrun⟩⟩

theorem research_spec : StageSpec db runId run now .research := by
  constructor
  · intro _
    exact ⟨_, _, rfl, .inl ⟨trivial, _, rfl⟩⟩
  · exact fun h => absurd trivial h

theorem voiceover_spec (voice : Option String)
    (provider : Except PipelineError SpeechProvider) :
    StageSpec db runId run now (.voiceover voice provider) := by
  constructor
  · rintro ⟨v, version, text, synthesize, result, hv, hscript, rfl, hresult⟩
    refine Advances.discard ?_
    unfold Pipeline.voiceover
    rw [EStateM.run_bind_of_ok (run_video_some hv), EStateM.run_bind_of_ok (EStateM.run_get db),
      hscript]
    dsimp only
    rw [EStateM.run_bind_of_ok (run_answer_ok synthesize db), hresult,
      EStateM.run_bind_of_ok (run_answer_ok result db)]
    exact ⟨_, _, rfl, .inl ⟨trivial, _, rfl⟩⟩
  · intro hstop
    refine Stops.discard ?_
    unfold Pipeline.voiceover
    cases hv : db.liveVideo run.videoId with
    | none => exact ⟨_, _, EStateM.run_bind_of_error (run_video_none hv), rfl⟩
    | some v =>
        rw [EStateM.run_bind_of_ok (run_video_some hv),
          EStateM.run_bind_of_ok (EStateM.run_get db)]
        cases hscript : db.scripted v with
        | none => exact ⟨_, _, rfl, rfl⟩
        | some scripted =>
            obtain ⟨version, text⟩ := scripted
            dsimp only
            cases provider with
            | error e => exact ⟨_, _, rfl, rfl⟩
            | ok synthesize =>
                rw [EStateM.run_bind_of_ok (run_answer_ok synthesize db)]
                cases hresult : synthesize text ((voice.filter (· ≠ "")).getD "default")
                    (audioKey run.videoId version.versionNumber) with
                | error e => exact ⟨_, _, rfl, rfl⟩
                | ok result =>
                    exact absurd ⟨v, version, text, synthesize, result, hv, hscript, rfl, hresult⟩
                      hstop

theorem run_addVersion_ok {videoId : Id} (text : String)
    (h : ∀ v ∈ db.versions, v.videoId = videoId → v.versionNumber ≠
      (db.versions.filter fun v => v.videoId = videoId).length + 1) :
    (addVersion videoId text).run db = .ok db.versions.length
      { db with versions := db.versions ++
          [⟨videoId, (db.versions.filter fun v => v.videoId = videoId).length + 1, some text⟩] } := by
  unfold addVersion
  rw [EStateM.run_bind_of_ok (EStateM.run_get db), if_neg]
  · rfl
  · intro htaken
    obtain ⟨v, hv, hnumber⟩ := List.any_eq_true.mp htaken
    obtain ⟨hmem, hvideo⟩ := List.mem_filter.mp hv
    exact h v hmem (by simpa using hvideo) (by simpa using hnumber)

theorem run_addVersion_error {videoId : Id} {text : String}
    (h : ¬ ∀ v ∈ db.versions, v.videoId = videoId → v.versionNumber ≠
      (db.versions.filter fun v => v.videoId = videoId).length + 1) :
    (addVersion videoId text).run db = .error .integrity db := by
  unfold addVersion
  rw [EStateM.run_bind_of_ok (EStateM.run_get db), if_pos]
  · rfl
  · push Not at h
    obtain ⟨v, hmem, hvideo, hnumber⟩ := h
    refine List.any_eq_true.mpr ⟨v, List.mem_filter.mpr ⟨hmem, by simpa using hvideo⟩, ?_⟩
    simpa using hnumber

theorem script_spec (text : String) : StageSpec db runId run now (.script text) := by
  constructor
  · rintro ⟨htext, hvideo, hnumber⟩
    refine Advances.discard ?_
    obtain ⟨v, hv⟩ := Option.isSome_iff_exists.mp hvideo
    unfold Pipeline.script
    rw [if_neg htext, EStateM.run_bind_of_ok (run_video_some hv),
      EStateM.run_bind_of_ok (run_addVersion_ok text hnumber)]
    exact ⟨fun a => { a with script := some ⟨db.versions.length, text.length⟩ }, _, rfl,
      .inl ⟨trivial, _, rfl⟩⟩
  · intro hstop
    refine Stops.discard ?_
    unfold Pipeline.script
    by_cases htext : strip text = ""
    · rw [if_pos htext]
      exact ⟨_, _, rfl, rfl⟩
    · rw [if_neg htext]
      cases hv : db.liveVideo run.videoId with
      | none => exact ⟨_, _, EStateM.run_bind_of_error (run_video_none hv), rfl⟩
      | some v =>
          rw [EStateM.run_bind_of_ok (run_video_some hv)]
          refine ⟨_, _, EStateM.run_bind_of_error (run_addVersion_error ?_), rfl⟩
          exact fun hnumber => hstop ⟨htext, by rw [hv]; rfl, hnumber⟩

theorem render_spec (provider : Except PipelineError RenderProvider)
    (metering : Except PipelineError Unit) :
    StageSpec db runId run now (.render provider metering) := by
  constructor
  · rintro ⟨v, version, text, render, result, hv, hscript, rfl, hresult⟩
    refine Advances.discard ?_
    unfold Pipeline.render
    rw [EStateM.run_bind_of_ok (run_video_some hv), EStateM.run_bind_of_ok (EStateM.run_get db),
      hscript]
    dsimp only
    rw [EStateM.run_bind_of_ok (run_answer_ok render db), hresult,
      EStateM.run_bind_of_ok (run_answer_ok result db)]
    unfold Returns
    rw [hv]
    cases hproject : v.projectId with
    | none => exact ⟨_, _, rfl, .inl ⟨.inr (by simp [hproject]), _, rfl⟩⟩
    | some projectId =>
        cases metering with
        | ok u => exact ⟨_, _, rfl, .inl ⟨.inl rfl, _, rfl⟩⟩
        | error e => exact ⟨_, _, rfl, .inr ⟨by simp [hproject], _, rfl⟩⟩
  · intro hstop
    refine Stops.discard ?_
    unfold Pipeline.render
    cases hv : db.liveVideo run.videoId with
    | none => exact ⟨_, _, EStateM.run_bind_of_error (run_video_none hv), rfl⟩
    | some v =>
        rw [EStateM.run_bind_of_ok (run_video_some hv),
          EStateM.run_bind_of_ok (EStateM.run_get db)]
        cases hscript : db.scripted v with
        | none => exact ⟨_, _, rfl, rfl⟩
        | some scripted =>
            obtain ⟨version, text⟩ := scripted
            dsimp only
            cases provider with
            | error e => exact ⟨_, _, rfl, rfl⟩
            | ok render =>
                rw [EStateM.run_bind_of_ok (run_answer_ok render db)]
                cases hresult : render text (run.artifacts.voiceover.map (·.storageKey))
                    (renderKey run.videoId version.versionNumber) with
                | error e => exact ⟨_, _, rfl, rfl⟩
                | ok result =>
                    exact absurd ⟨v, version, text, render, result, hv, hscript, rfl, hresult⟩
                      hstop

theorem run_updatePublication (id : Id) (f : Publication → Publication) (db : PipelineDb) :
    (updatePublication id f).run db =
      .ok () { db with publications := db.publications.modify id f } := rfl

/-- Only the publications change. -/
theorem publicationOf_keeps {View : Type} {view : PipelineDb → View}
    (hview : ∀ db publications, view { db with publications } = view db) (videoId : Id) (v : Video)
    (platform : String) (listing : Listing) (insert : Publication → Except PipelineError Unit) :
    EStateM.Keeps view (publicationOf videoId v platform listing insert) := by
  refine EStateM.Keeps.get_bind fun db => ?_
  split
  · rfl
  · dsimp only
    split
    · rfl
    · cases hinsert : insert _ with
      | error e => rfl
      | ok u => exact hview db _

theorem runs_publicationOf (videoId : Id) (v : Video) (platform : String) (listing : Listing)
    (insert : Publication → Except PipelineError Unit) :
    EStateM.Keeps PipelineDb.runs (publicationOf videoId v platform listing insert) :=
  publicationOf_keeps (fun _ _ => rfl) videoId v platform listing insert

theorem publish_spec (platform : String) (tags : List String)
    (dispatch : Payload → Except PipelineError Payload)
    (insert : Publication → Except PipelineError Unit)
    (provider : Except PipelineError PublishProvider) :
    StageSpec db runId run now (.publish platform tags dispatch insert provider) := by
  constructor
  · rintro ⟨v, videoKey, payload, listing, id, publication, db', publish, result, hv, hkey,
      hdispatch, hlisting, hpublication, rfl, hresult⟩
    have hruns := runs_publicationOf run.videoId v platform listing insert db
    rw [hpublication] at hruns
    refine Advances.discard (Advances.bind_pure ?_ Prod.fst)
    unfold publishUpload
    rw [EStateM.run_bind_of_ok (run_video_some hv), hkey]
    dsimp only
    rw [hdispatch, EStateM.run_bind_of_ok (run_answer_ok payload db), hlisting,
      EStateM.run_bind_of_ok (run_answer_ok listing db), EStateM.run_bind_of_ok hpublication]
    dsimp only
    rw [EStateM.run_bind_of_ok (run_updatePublication id _ db'),
      EStateM.run_bind_of_ok (run_answer_ok publish _), hresult]
    refine ⟨fun a => { a with publish := some ⟨result.externalId, result.url⟩ }, _, ?_,
      .inl ⟨trivial, _, rfl⟩⟩
    exact congrArg (List.modify · runId _) hruns
  · intro hstop
    refine Stops.discard (Stops.bind ?_ _)
    unfold publishUpload
    cases hv : db.liveVideo run.videoId with
    | none => exact ⟨_, _, EStateM.run_bind_of_error (run_video_none hv), rfl⟩
    | some v =>
        rw [EStateM.run_bind_of_ok (run_video_some hv)]
        cases hkey : (run.artifacts.render.map (·.storageKey)).filter (· ≠ "") with
        | none => exact ⟨_, _, rfl, rfl⟩
        | some videoKey =>
            dsimp only
            cases hdispatch : dispatch (payloadOf v platform tags) with
            | error e => exact ⟨_, _, rfl, rfl⟩
            | ok payload =>
                rw [EStateM.run_bind_of_ok (run_answer_ok payload db)]
                cases hlisting : Listing.ofPayload v tags payload with
                | error e => exact ⟨_, _, rfl, rfl⟩
                | ok listing =>
                    rw [EStateM.run_bind_of_ok (run_answer_ok listing db)]
                    have hruns := runs_publicationOf run.videoId v platform listing insert db
                    cases hpublication :
                        (publicationOf run.videoId v platform listing insert).run db with
                    | error e db' =>
                        rw [hpublication] at hruns
                        exact ⟨_, _, EStateM.run_bind_of_error hpublication, hruns⟩
                    | ok found db' =>
                        rw [hpublication] at hruns
                        obtain ⟨id, publication⟩ := found
                        rw [EStateM.run_bind_of_ok hpublication]
                        dsimp only
                        rw [EStateM.run_bind_of_ok (run_updatePublication id _ db')]
                        cases provider with
                        | error e => exact ⟨_, _, rfl, hruns⟩
                        | ok publish =>
                            rw [EStateM.run_bind_of_ok (run_answer_ok publish _)]
                            split
                            · exact ⟨_, _, rfl, hruns⟩
                            · next result hresult =>
                                exact absurd ⟨v, videoKey, payload, listing, id, publication, db',
                                  publish, result, hv, hkey, hdispatch, hlisting, hpublication, rfl,
                                  hresult⟩ hstop

theorem stage_spec (db : PipelineDb) (runId : Id) (run : PipelineRun) (now : DateTime)
    (call : StageCall) : StageSpec db runId run now call := by
  cases call with
  | research => exact research_spec
  | script text => exact script_spec text
  | voiceover voice provider => exact voiceover_spec voice provider
  | render provider metering => exact render_spec provider metering
  | publish platform tags dispatch insert provider =>
      exact publish_spec platform tags dispatch insert provider

theorem next_not_final (call : StageCall) : call.next ≠ .done ∧ call.next ≠ .failed := by
  cases call <;> exact ⟨nofun, nofun⟩

theorem video_keeps {View : Type} {view : PipelineDb → View} (videoId : Id) :
    EStateM.Keeps view (video videoId) := by
  refine EStateM.Keeps.get_bind fun db => ?_
  cases db.liveVideo videoId <;> rfl

theorem addResearch_keeps (videoId : Id) (notes : List NoteInput) :
    EStateM.Keeps PipelineDb.runs (addResearch videoId notes) := by
  refine (video_keeps videoId).bind fun _ => EStateM.Keeps.forM (fun item => ?_) notes
  unfold addNote
  dsimp only
  split
  · exact EStateM.Keeps.throw _
  · exact EStateM.Keeps.modify fun _ => rfl

/-- Only the records are written. -/
theorem collectAnalytics_keeps {γ : Type} {view : PipelineDb → γ}
    (hview : ∀ db records, view { db with records } = view db) (publicationId : Id)
    (provider : Except PipelineError AnalyticsProvider) :
    EStateM.Keeps view (collectAnalytics publicationId provider) := by
  refine EStateM.Keeps.get_bind fun db => ?_
  cases db.publications[publicationId]? with
  | none => rfl
  | some publication =>
      dsimp only
      cases publication.externalId.filter (· ≠ "") with
      | none => rfl
      | some externalId =>
          dsimp only
          cases provider with
          | error e => rfl
          | ok fetch =>
              rw [EStateM.run_bind_of_ok (run_answer_ok fetch db)]
              cases fetch externalId with
              | error e => rfl
              | ok snapshot =>
                  rw [EStateM.run_bind_of_ok (run_answer_ok snapshot db)]
                  split <;> exact hview db _

/-! ## What a request does to the runs -/

theorem step_of_ok {request : Request} {db' : PipelineDb}
    (h : (request.call.body db).run db = .ok () db') : request.step db = db' := by
  rw [Request.step, h]

theorem step_of_error {request : Request} {e : PipelineError} {db' : PipelineDb}
    (h : (request.call.body db).run db = .error e db') :
    request.step db = if request.kept then db' else db := by
  rw [Request.step, h]

/-- A call that keeps the runs makes a request that does. -/
theorem step_of_keeps {request : Request}
    (h : EStateM.Keeps PipelineDb.runs (request.call.body db)) :
    (request.step db).runs = db.runs := by
  have hruns := h db
  cases hrun : (request.call.body db).run db with
  | ok u db' =>
      rw [step_of_ok hrun]
      rwa [hrun] at hruns
  | error e db' =>
      rw [step_of_error hrun]
      rw [hrun] at hruns
      split
      · exact hruns
      · rfl

/-- A run after it is closed. -/
structure Closes (run run' : PipelineRun) : Prop where
  videoId : run'.videoId = run.videoId
  createdAt : run'.createdAt = run.createdAt
  deletedAt : run'.deletedAt = run.deletedAt
  finishedAt : run'.finishedAt.isSome = true
  stage : ¬ run'.InFlight

/-- The row of a run that is started. -/
def startedRun (videoId : Id) (now createdAt : DateTime) : PipelineRun :=
  ⟨videoId, .research, none, some now, none, .empty, createdAt, none⟩

/-- `start` refuses, or finds the latest run finished and adds one. -/
theorem run_start (db : PipelineDb) (videoId : Id) (now createdAt : DateTime) (tie : Nat) :
    (∃ e, (start videoId now createdAt tie).run db = .error e db) ∨
    ((∀ runId run, db.latestForVideo videoId tie = some runId → db.runs[runId]? = some run →
        run.finishedAt.isSome = true) ∧
      (start videoId now createdAt tie).run db = .ok db.runs.length
        { db with runs := db.runs ++ [startedRun videoId now createdAt] }) := by
  unfold start
  cases hv : db.liveVideo videoId with
  | none => exact .inl ⟨_, EStateM.run_bind_of_error (run_video_none hv)⟩
  | some v =>
      rw [EStateM.run_bind_of_ok (run_video_some hv), EStateM.run_bind_of_ok (EStateM.run_get db)]
      split
      · exact .inl ⟨_, rfl⟩
      · next hopen =>
          refine .inr ⟨fun runId run hlatest hrow => ?_, rfl⟩
          rw [hlatest, Option.bind_some, hrow, Option.bind_some] at hopen
          cases hfinished : run.finishedAt with
          | none => simp [hfinished] at hopen
          | some t => rfl

theorem body_stage {call : StageCall} (hrow : db.runs[runId]? = some run) :
    (Call.stage runId call now).body db = call.body runId run now := by
  rw [Call.body, hrow]

theorem resumes_stage {call : StageCall} {kept : Bool} (hrow : db.runs[runId]? = some run) :
    Resumes db ⟨.stage runId call now, kept⟩ ↔ run.finishedAt.isSome = true ∧
      Reaches db run call ∧ (kept = true ∨ Returns db run call) := by
  constructor
  · rintro ⟨run', hrow', h⟩
    rw [hrow, Option.some.injEq] at hrow'
    exact hrow' ▸ h
  · exact fun h => ⟨run, hrow, h⟩

/-- A stage method leaves the runs alone or advances its own. -/
theorem step_stage {call : StageCall} {kept : Bool} (hrow : db.runs[runId]? = some run) :
    ((Request.step db ⟨.stage runId call now, kept⟩).runs = db.runs ∧
      ¬ Resumes db ⟨.stage runId call now, kept⟩) ∨
    ∃ artifacts, (Resumes db ⟨.stage runId call now, kept⟩ ↔ run.finishedAt.isSome = true) ∧
      (Request.step db ⟨.stage runId call now, kept⟩).runs =
        db.runs.modify runId (fun run => run.advance call.next artifacts now) := by
  rw [resumes_stage hrow]
  obtain ⟨hreaches, hstops⟩ := stage_spec db runId run now call
  rw [← body_stage hrow] at hreaches hstops
  by_cases hr : Reaches db run call
  · obtain ⟨artifacts, db', hruns, ⟨hreturns, u, hrun⟩ | ⟨hraises, e, hrun⟩⟩ := hreaches hr
    · refine .inr ⟨artifacts, ⟨And.left, fun h => ⟨h, hr, .inr hreturns⟩⟩, ?_⟩
      rw [step_of_ok hrun, hruns]
    · rw [step_of_error hrun]
      cases kept with
      | true => exact .inr ⟨artifacts, ⟨And.left, fun h => ⟨h, hr, .inl rfl⟩⟩, hruns⟩
      | false =>
          refine .inl ⟨rfl, fun h => ?_⟩
          exact h.2.2.elim nofun hraises
  · obtain ⟨e, db', hrun, hruns⟩ := hstops hr
    refine .inl ⟨?_, fun h => hr h.2.1⟩
    rw [step_of_error hrun]
    split
    · exact hruns
    · rfl

theorem closes_advance (run : PipelineRun) (artifacts : Artifacts → Artifacts)
    (now : DateTime) : Closes run (run.advance .done artifacts now) :=
  ⟨rfl, rfl, rfl, rfl, fun h => h.1 rfl⟩

theorem run_learn (db : PipelineDb) (runId : Id) (run : PipelineRun) (ctrTarget : ℚ)
    (now : DateTime) :
    ∃ lessons db' artifacts, (learn runId run ctrTarget now).run db = .ok lessons db' ∧
      db'.runs = db.runs.modify runId fun run => run.advance .done artifacts now :=
  ⟨_, _, _, rfl, rfl⟩

theorem run_fail (db : PipelineDb) (runId : Id) (error : String) (now : DateTime) :
    (fail runId error now).run db =
      match db.runs[runId]? with
      | none => .error (.notFound "Pipeline run not found.") db
      | some _ => .ok () { db with
          runs := db.runs.modify runId fun run =>
            { run with stage := .failed, error := some error, finishedAt := some now } } := by
  unfold fail
  rw [EStateM.run_bind_of_ok (EStateM.run_get db)]
  cases db.runs[runId]? <;> rfl

/-- A request leaves the runs alone, starts one, advances one or closes one. -/
theorem step_cases (db : PipelineDb) (request : Request) :
    ((request.step db).runs = db.runs ∧ ¬ Resumes db request) ∨
    (∃ videoId now createdAt tie, request.call = .start videoId now createdAt tie ∧
      (∀ runId run, db.latestForVideo videoId tie = some runId → db.runs[runId]? = some run →
        run.finishedAt.isSome = true) ∧
      (request.step db).runs = db.runs ++ [startedRun videoId now createdAt]) ∨
    (∃ runId run call artifacts now, db.runs[runId]? = some run ∧
      (Resumes db request ↔ run.finishedAt.isSome = true) ∧
      (request.step db).runs =
        db.runs.modify runId (fun run => run.advance (StageCall.next call) artifacts now)) ∨
    (∃ runId f, ¬ Resumes db request ∧ (∀ run, Closes run (f run)) ∧
      (request.step db).runs = db.runs.modify runId f) := by
  obtain ⟨call, kept⟩ := request
  cases call with
  | start videoId now createdAt tie =>
      obtain ⟨e, hrun⟩ | ⟨hlatest, hrun⟩ := run_start db videoId now createdAt tie
      · have hbody : ((Call.start videoId now createdAt tie).body db).run db = .error e db :=
          EStateM.run_discard_of_error hrun
        refine .inl ⟨?_, id⟩
        rw [step_of_error hbody]
        split <;> rfl
      · have hbody : ((Call.start videoId now createdAt tie).body db).run db = .ok () _ :=
          EStateM.run_discard_of_ok hrun
        refine .inr (.inl ⟨videoId, now, createdAt, tie, rfl, hlatest, ?_⟩)
        rw [step_of_ok hbody]
  | addResearch videoId notes =>
      exact .inl ⟨step_of_keeps (addResearch_keeps videoId notes), id⟩
  | collectAnalytics publicationId provider =>
      refine .inl ⟨step_of_keeps ?_, id⟩
      exact (collectAnalytics_keeps (fun _ _ => rfl) publicationId provider).discard
  | stage runId call now =>
      cases hrow : db.runs[runId]? with
      | none =>
          refine .inl ⟨step_of_keeps ?_, fun ⟨run, hrun, _⟩ => ?_⟩
          · rw [Call.body, hrow]
            exact EStateM.Keeps.pure ()
          · rw [hrow] at hrun
            cases hrun
      | some run =>
          refine (step_stage hrow).imp_right fun ⟨artifacts, hresumes, hruns⟩ => .inr (.inl ?_)
          exact ⟨runId, run, call, artifacts, now, hrow, hresumes, hruns⟩
  | learn runId ctrTarget now =>
      cases hrow : db.runs[runId]? with
      | none =>
          refine .inl ⟨step_of_keeps ?_, id⟩
          rw [Call.body, hrow]
          exact EStateM.Keeps.pure ()
      | some run =>
          obtain ⟨lessons, db', artifacts, hrun, hruns⟩ := run_learn db runId run ctrTarget now
          have hbody : ((Call.learn runId ctrTarget now).body db).run db = .ok () db' := by
            rw [Call.body, hrow]
            exact EStateM.run_discard_of_ok hrun
          refine .inr (.inr (.inr ⟨runId, fun run => run.advance .done artifacts now, id,
            fun run => closes_advance run artifacts now, ?_⟩))
          rw [step_of_ok hbody, hruns]
  | fail runId error now =>
      have hfail : ((Call.fail runId error now).body db).run db = _ :=
        run_fail db runId error now
      cases hrow : db.runs[runId]? with
      | none =>
          rw [hrow] at hfail
          refine .inl ⟨?_, id⟩
          rw [step_of_error hfail]
          split <;> rfl
      | some run =>
          rw [hrow] at hfail
          refine .inr (.inr (.inr ⟨runId,
            fun run => { run with stage := .failed, error := some error, finishedAt := some now },
            id, fun run => ⟨rfl, rfl, rfl, rfl, fun h => h.2 rfl⟩, ?_⟩))
          rw [step_of_ok hfail]

/-! ## Unfinished runs -/

/-- An unfinished run is later than the other runs of its video. -/
structure Ordered (db : PipelineDb) : Prop where
  live : ∀ run ∈ db.runs, run.deletedAt = none
  last : ∀ {i j : Id} {run other : PipelineRun}, db.runs[i]? = some run →
    db.runs[j]? = some other → run.videoId = other.videoId → run.finishedAt = none → i ≠ j →
    other.createdAt < run.createdAt

/-- A change that moves no run and opens none. -/
theorem Ordered.modify {db db' : PipelineDb} (h : Ordered db) {runId : Id}
    {f : PipelineRun → PipelineRun} (hruns : db'.runs = db.runs.modify runId f)
    (hvideo : ∀ run, (f run).videoId = run.videoId)
    (hcreated : ∀ run, (f run).createdAt = run.createdAt)
    (hdeleted : ∀ run, (f run).deletedAt = run.deletedAt)
    (hfinished : ∀ run, (f run).finishedAt = none → run.finishedAt = none) : Ordered db' where
  live run hrun := by
    rw [hruns] at hrun
    obtain hmem | ⟨run, hmem, rfl⟩ := Table.mem_modify hrun
    · exact h.live run hmem
    · rw [hdeleted]
      exact h.live run hmem
  last {i j run' other'} hi hj hsame hopen hne := by
    rw [hruns, List.getElem?_modify, Option.map_eq_map, Option.map_eq_some_iff] at hi hj
    obtain ⟨run, hi, rfl⟩ := hi
    obtain ⟨other, hj, rfl⟩ := hj
    have hrun : ∀ (c : Prop) [Decidable c] (r : PipelineRun),
        (if c then f r else r).videoId = r.videoId ∧
          (if c then f r else r).createdAt = r.createdAt ∧
          ((if c then f r else r).finishedAt = none → r.finishedAt = none) := by
      intro c _ r
      split
      · exact ⟨hvideo r, hcreated r, hfinished r⟩
      · exact ⟨rfl, rfl, id⟩
    obtain ⟨hvideo₁, hcreated₁, hopen₁⟩ := hrun (runId = i) run
    obtain ⟨hvideo₂, hcreated₂, -⟩ := hrun (runId = j) other
    rw [hcreated₁, hcreated₂]
    rw [hvideo₁, hvideo₂] at hsame
    exact h.last hi hj hsame (hopen₁ hopen) hne

theorem mem_runsOf {db : PipelineDb} {videoId id : Id} :
    id ∈ db.runsOf videoId ↔ ∃ run, db.runs[id]? = some run ∧ run.videoId = videoId ∧
      run.deletedAt = none := by
  unfold PipelineDb.runsOf
  rw [List.mem_filter, List.mem_range]
  constructor
  · rintro ⟨-, h⟩
    cases hrow : db.runs[id]? with
    | none => simp [hrow] at h
    | some run => exact ⟨run, rfl, by simpa [hrow] using h⟩
  · rintro ⟨run, hrow, hvideo, hlive⟩
    refine ⟨(List.getElem?_eq_some_iff.mp hrow).1, ?_⟩
    rw [hrow]
    simp [hvideo, hlive]

/-- A latest run is not earlier than any other of its video. -/
theorem createdAt_le_of_isLatest {db : PipelineDb} {videoId id : Id} {run : PipelineRun}
    (hrow : db.runs[id]? = some run) (h : db.isLatest videoId id = true) {j : Id}
    {other : PipelineRun} (hj : j ∈ db.runsOf videoId) (hother : db.runs[j]? = some other) :
    other.createdAt ≤ run.createdAt := by
  rw [PipelineDb.isLatest, hrow] at h
  have hall := List.all_eq_true.mp h j hj
  rw [hother] at hall
  simpa using hall

/-- An unfinished run is the latest of its video, for every order of ties. -/
theorem Ordered.latest {db : PipelineDb} (h : Ordered db) {i : Id} {run : PipelineRun}
    (hi : db.runs[i]? = some run) (hopen : run.finishedAt = none) (tie : Nat) :
    db.latestForVideo run.videoId tie = some i := by
  have hmem : i ∈ db.runsOf run.videoId :=
    mem_runsOf.mpr ⟨run, hi, rfl, h.live run (List.mem_of_getElem? hi)⟩
  have hlast : db.isLatest run.videoId i = true := by
    rw [PipelineDb.isLatest, hi]
    refine List.all_eq_true.mpr fun j hj => ?_
    obtain ⟨other, hj, hvideo, -⟩ := mem_runsOf.mp hj
    rw [hj]
    by_cases hne : i = j
    · subst hne
      rw [hi, Option.some.injEq] at hj
      simp [hj]
    · simpa using (h.last hi hj hvideo.symm hopen hne).le
  have hunique : ∀ j ∈ (db.runsOf run.videoId).filter (db.isLatest run.videoId), j = i := by
    intro j hj
    obtain ⟨hj, hjlast⟩ := List.mem_filter.mp hj
    obtain ⟨other, hother, hvideo, -⟩ := mem_runsOf.mp hj
    by_contra hne
    exact absurd (createdAt_le_of_isLatest hother hjlast hmem hi)
      (not_le.mpr (h.last hi hother hvideo.symm hopen (Ne.symm hne)))
  have hpos : 0 < ((db.runsOf run.videoId).filter (db.isLatest run.videoId)).length :=
    List.length_pos_of_mem (List.mem_filter.mpr ⟨hmem, hlast⟩)
  unfold PipelineDb.latestForVideo
  dsimp only
  rw [List.getElem?_eq_getElem (Nat.mod_lt tie hpos)]
  exact congrArg some (hunique _ (List.getElem_mem _))

/-- A run that is started where no run is unfinished, after all the others. -/
theorem Ordered.append {db db' : PipelineDb} (h : Ordered db) {new : PipelineRun}
    (hruns : db'.runs = db.runs ++ [new]) (hlive : new.deletedAt = none)
    (hlater : ∀ run ∈ db.runs, run.videoId = new.videoId → run.createdAt < new.createdAt)
    (hclosed : ∀ run ∈ db.runs, run.videoId = new.videoId → run.finishedAt ≠ none) :
    Ordered db' where
  live run hrun := by
    rw [hruns, List.mem_append, List.mem_singleton] at hrun
    rcases hrun with hold | rfl
    · exact h.live run hold
    · exact hlive
  last {i j run other} hi hj hsame hopen hne := by
    rw [hruns] at hi hj
    have hcases : ∀ {k : Id} {r : PipelineRun}, (db.runs ++ [new])[k]? = some r →
        db.runs[k]? = some r ∨ (k = db.runs.length ∧ r = new) := by
      intro k r hk
      rw [List.getElem?_append] at hk
      split at hk
      · exact .inl hk
      · next hge =>
          rw [List.getElem?_singleton] at hk
          split at hk
          · next hzero =>
              exact .inr ⟨Nat.le_antisymm (Nat.sub_eq_zero_iff_le.mp hzero) (not_lt.mp hge),
                (Option.some.inj hk).symm⟩
          · cases hk
    rcases hcases hi with hold | ⟨hlast, hnew⟩
    · rcases hcases hj with hold' | ⟨-, hnew'⟩
      · exact h.last hold hold' hsame hopen hne
      · exact absurd hopen (hclosed run (List.mem_of_getElem? hold) (hnew' ▸ hsame))
    · rcases hcases hj with hold' | ⟨hlast', -⟩
      · rw [hnew]
        exact hlater other (List.mem_of_getElem? hold') (hnew ▸ hsame.symm)
      · exact absurd (hlast.trans hlast'.symm) hne

theorem Ordered.request {db : PipelineDb} {request : Request} (h : Ordered db)
    (hlater : StartsLater db request) : Ordered (request.step db) := by
  obtain ⟨hruns, -⟩ | ⟨videoId, now, createdAt, tie, hcall, hlatest, hruns⟩ |
    ⟨runId, run, call, artifacts, now, -, -, hruns⟩ | ⟨runId, f, -, hcloses, hruns⟩ :=
    step_cases db request
  · exact ⟨hruns ▸ h.live, hruns ▸ h.last⟩
  · rw [StartsLater, hcall] at hlater
    refine h.append hruns rfl hlater fun run hrun hvideo hopen => ?_
    obtain ⟨i, hi⟩ := List.mem_iff_getElem?.mp hrun
    have hvideo : run.videoId = videoId := hvideo
    have hfinished := hlatest i run (hvideo ▸ h.latest hi hopen tie) hi
    rw [hopen] at hfinished
    cases hfinished
  · refine h.modify hruns (fun _ => rfl) (fun _ => rfl) (fun _ => rfl) fun run hopen => ?_
    have hnext := next_not_final call
    rwa [PipelineRun.advance, if_neg (by simp [hnext])] at hopen
  · refine h.modify hruns (fun r => (hcloses r).videoId) (fun r => (hcloses r).createdAt)
      (fun r => (hcloses r).deletedAt) fun run hopen => ?_
    have hfinished := (hcloses run).finishedAt
    rw [hopen] at hfinished
    cases hfinished

/-! ## Stages in step -/

/-- Unfinished runs are the runs in flight, so a video has one at most. -/
theorem Ordered.oneInFlight {db : PipelineDb} (h : Ordered db) (hstep : InStep db) :
    OneInFlight db := by
  intro i j run other hi hj hsame hrun hother
  have hopen : ∀ r ∈ db.runs, r.InFlight → r.finishedAt = none := by
    intro r hr hflight
    have hnot : ¬ r.finishedAt.isSome = true := fun hset => (hstep r hr).mp hset hflight
    simpa using hnot
  by_contra hne
  have hlt := h.last hi hj hsame (hopen run (List.mem_of_getElem? hi) hrun) hne
  have hgt := h.last hj hi hsame.symm (hopen other (List.mem_of_getElem? hj) hother) (Ne.symm hne)
  exact absurd hlt (not_lt.mpr hgt.le)

theorem inFlight_advance (run : PipelineRun) (call : StageCall)
    (artifacts : Artifacts → Artifacts) (now : DateTime) :
    (run.advance call.next artifacts now).InFlight ∧
      (run.advance call.next artifacts now).finishedAt = run.finishedAt := by
  have hnext := next_not_final call
  refine ⟨hnext, ?_⟩
  rw [PipelineRun.advance, if_neg (by simp [hnext])]

/-- A request keeps the stages in step, unless it takes up a finished run. -/
theorem inStep_step_iff {db : PipelineDb} (request : Request) (h : InStep db) :
    InStep (request.step db) ↔ ¬ Resumes db request := by
  obtain ⟨hruns, hnot⟩ | ⟨videoId, now, createdAt, tie, hcall, -, hruns⟩ |
    ⟨runId, run, call, artifacts, now, hrow, hresumes, hruns⟩ | ⟨runId, f, hnot, hcloses, hruns⟩ :=
    step_cases db request
  · refine iff_of_true ?_ hnot
    rw [InStep, hruns]
    exact h
  · refine iff_of_true ?_ (by rw [Resumes, hcall]; exact id)
    intro run hrun
    rw [hruns, List.mem_append, List.mem_singleton] at hrun
    rcases hrun with hold | rfl
    · exact h run hold
    · exact iff_of_false nofun (not_not.mpr ⟨nofun, nofun⟩)
  · rw [hresumes]
    constructor
    · intro hafter hfinished
      have hrun : (Request.step db request).runs[runId]? =
          some (run.advance call.next artifacts now) := by
        rw [hruns, List.getElem?_modify_eq, hrow]
        rfl
      obtain ⟨hflight, hsame⟩ := inFlight_advance run call artifacts now
      exact (hafter _ (List.mem_of_getElem? hrun)).mp (hsame ▸ hfinished) hflight
    · intro hopen run' hrun'
      obtain ⟨i, hi⟩ := List.mem_iff_getElem?.mp hrun'
      rw [hruns] at hi
      by_cases hsame : runId = i
      · subst hsame
        rw [List.getElem?_modify_eq, hrow] at hi
        cases hi
        obtain ⟨hflight, hfinished⟩ := inFlight_advance run call artifacts now
        exact iff_of_false (hfinished ▸ hopen) (not_not.mpr hflight)
      · rw [List.getElem?_modify_ne _ _ hsame] at hi
        exact h run' (List.mem_of_getElem? hi)
  · refine iff_of_true ?_ hnot
    intro run hrun
    rw [hruns] at hrun
    obtain hmem | ⟨run, -, rfl⟩ := Table.mem_modify hrun
    · exact h run hmem
    · exact iff_of_true (hcloses run).finishedAt (hcloses run).stage

/-- All along a run of requests at most one run of a video is in flight and
`finished_at` is set exactly on the closed ones, if and only if no request takes up a
finished run. -/
theorem one_in_flight_iff (db : PipelineDb) (hempty : db.runs = []) (requests : List Request)
    (hlater : Run.EveryStep Request.step StartsLater db requests) :
    Run.Always Request.step (fun db => InStep db ∧ OneInFlight db) db requests ↔
      Run.EveryStep Request.step (fun db request => ¬ Resumes db request) db requests := by
  have hordered : Ordered db :=
    ⟨by simp [hempty], fun {i j run other} hi => by simp [hempty] at hi⟩
  have hstep : InStep db := by simp [InStep, hempty]
  refine Run.always_iff_everyStep (fun _ _ hlater h => h.request hlater) ?_ requests hlater hordered
    ⟨hstep, hordered.oneInFlight hstep⟩
  intro db request hlater h hp
  rw [← inStep_step_iff request hp.1]
  exact ⟨And.left, fun hafter => ⟨hafter, (h.request hlater).oneInFlight hafter⟩⟩

/-- A video with nothing done to it. -/
def newVideo : PipelineDb where
  videos := [⟨some 0, "title", none, .draft, none, none⟩]
  versions := []
  notes := []
  runs := []
  publications := []
  records := []
  lessons := []

/-- A run is started, closes its research and fails; then a new one is started. -/
def restarted : List Request :=
  [⟨.start 0 1 1 0, false⟩, ⟨.stage 0 .research 2, false⟩, ⟨.fail 0 "no script" 3, false⟩,
    ⟨.start 0 4 4 0, false⟩]

theorem one_in_flight_restarted :
    Run.Always Request.step (fun db => InStep db ∧ OneInFlight db) newVideo restarted := by
  have hlater : Run.EveryStep Request.step StartsLater newVideo restarted := by
    refine ⟨fun run hrun => absurd hrun List.not_mem_nil, trivial, trivial, ?_, trivial⟩
    intro run hrun _
    rcases hrun with _ | ⟨_, hrun⟩
    · decide
    · cases hrun
  have hopen : Run.EveryStep Request.step (fun db request => ¬ Resumes db request) newVideo
      restarted := by
    refine ⟨id, ?_, id, id, trivial⟩
    rintro ⟨run, hrow, hfinished, -⟩
    cases hrow
    cases hfinished
  exact (one_in_flight_iff newVideo rfl restarted hlater).mpr hopen

/-- The failed run is resumed, and `start` does not see that it is in flight again. -/
theorem two_in_flight_after_resume :
    let db := Run.run Request.step newVideo
      [⟨.start 0 1 1 0, false⟩, ⟨.stage 0 .research 2, false⟩, ⟨.fail 0 "no script" 3, false⟩,
        ⟨.stage 0 (.script "text") 4, false⟩, ⟨.start 0 5 5 0, false⟩]
    db.runs.map (fun run => (run.videoId, run.stage, run.finishedAt)) =
        [(0, .voiceover, some 3), (0, .research, none)] ∧
      ¬ OneInFlight db ∧ ¬ InStep db := by
  refine ⟨rfl, fun hone => ?_, fun hstep => ?_⟩
  · have hsame := hone (i := 0) (j := 1) rfl rfl rfl ⟨nofun, nofun⟩ ⟨nofun, nofun⟩
    cases hsame
  · exact (hstep _ List.mem_cons_self).mp rfl ⟨nofun, nofun⟩

end YoutubeFactory.Pipeline
