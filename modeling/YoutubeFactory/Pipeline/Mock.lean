import YoutubeFactory.Pipeline.Freshness
import YoutubeFactory.Storage.Areas

/-!
# The mock providers

`MockSpeechProvider` and `MockRenderProvider` of `app/core/pipeline/mock.py`, which write what they
make through the storage, and the pipeline with them.  A duration is given in full, it has no more
than one decimal.

What the pipeline makes is the versions, the narration and the render of each run, and which
version is current.  The other calls of the service leave the narrations and the renders
(`Call.grown`).
-/

namespace YoutubeFactory.Pipeline

open Python
open Storage (Bytes StorageClient)

/-! ## Providers -/

/-- `len(text.split())` -/
def wordCount (text : String) : Nat :=
  ((text.toList.splitOnP isSpace).filter fun word => !word.isEmpty).length

def WORDS_PER_MINUTE : Nat := 150

/-- `_estimate_duration` -/
def estimateDuration (text : String) : ℚ := (max (wordCount text) 1 : ℕ) / WORDS_PER_MINUTE * 60

/-- `str.encode` -/
def encode (text : String) : Bytes := text.toUTF8.toList

def audioPayload (voice text : String) : Bytes := encode s!"MOCK-AUDIO voice={voice}\n{text}"

def videoPayload (width height : Int) (audioKey : Option String) (script : String) : Bytes :=
  let audio := audioKey.getD "None"
  encode s!"MOCK-VIDEO {width}x{height} audio={audio}\n{script}"

/-- The storage of the providers, and an exception of it as the service raises it. -/
structure MockProviders (State Exc : Type) where
  storage : StorageClient State Exc
  raised : Exc → PipelineError

namespace MockProviders

variable {State Exc : Type} (mock : MockProviders State Exc)

def synthesize (text voice storageKey : String) (s : State) :
    Except PipelineError SpeechResult × State :=
  let payload := audioPayload voice text
  match mock.storage.put storageKey payload "audio/mpeg" s with
  | (.error exc, s) => (.error (mock.raised exc), s)
  | (.ok stored, s) =>
      (.ok
        { storageKey := stored.key
          durationSeconds := estimateDuration text
          voice
          sizeBytes := payload.length }, s)

/-- `settings` is what `int` makes of the width and the height of the options. -/
def render (settings : Except PipelineError (Int × Int)) (script : String)
    (audioKey : Option String) (storageKey : String) (s : State) :
    Except PipelineError RenderResult × State :=
  match settings with
  | .error e => (.error e, s)
  | .ok (width, height) =>
      let payload := videoPayload width height audioKey script
      match mock.storage.put storageKey payload "video/mp4" s with
      | (.error exc, s) => (.error (mock.raised exc), s)
      | (.ok stored, s) =>
          (.ok
            { storageKey := stored.key
              durationSeconds := estimateDuration script
              width
              height
              sizeBytes := payload.length }, s)

end MockProviders

/-- The script that `voiceover` and `render` work from, with its version. -/
def scriptFor (db : PipelineDb) (videoId : Id) : Option (VideoVersion × String) :=
  (db.liveVideo videoId).bind db.scripted

/-! ## Calls -/

/-- Neither a narration nor a render. -/
def Call.Silent : Call → Prop
  | .stage _ (.voiceover _ _) _ => False
  | .stage _ (.render _ _) _ => False
  | _ => True

/-- A call of the service, or of `VideoService.add_version`. -/
inductive StudioCall where
  | other (call : Call) (silent : call.Silent)
  | addVersion (videoId : Id) (script : Option String)
  | voiceover (runId : Id) (voice : Option String) (now : DateTime)
  | render (runId : Id) (settings : Except PipelineError (Int × Int))
      (metering : Except PipelineError Unit) (now : DateTime)

namespace MockProviders

variable {State Exc : Type} (mock : MockProviders State Exc)

/-- `voiceover` with the mock provider, and what it leaves in the storage. -/
def voiceover (db : PipelineDb) (s : State) (runId : Id) (run : PipelineRun)
    (voice : Option String) (now : DateTime) :
    EStateM.Result PipelineError PipelineDb SpeechResult × State :=
  let provider : SpeechProvider := fun text voice key => (mock.synthesize text voice key s).1
  ((Pipeline.voiceover runId run voice (.ok provider) now).run db,
    match scriptFor db run.videoId with
    | none => s
    | some (version, text) =>
        (mock.synthesize text ((voice.filter (· ≠ "")).getD "default")
          (audioKey run.videoId version.versionNumber) s).2)

/-- `render` with the mock provider, and what it leaves in the storage. -/
def renderVideo (db : PipelineDb) (s : State) (runId : Id) (run : PipelineRun)
    (settings : Except PipelineError (Int × Int)) (metering : Except PipelineError Unit)
    (now : DateTime) : EStateM.Result PipelineError PipelineDb RenderResult × State :=
  let provider : RenderProvider := fun script audio key =>
    (mock.render settings script audio key s).1
  ((Pipeline.render runId run (.ok provider) metering now).run db,
    match scriptFor db run.videoId with
    | none => s
    | some (version, text) =>
        (mock.render settings text (run.artifacts.voiceover.map (·.storageKey))
          (renderKey run.videoId version.versionNumber) s).2)

/-- The tables as the session sees them after a call, and the storage. -/
def call (db : PipelineDb) (s : State) : StudioCall → PipelineDb × State
  | .other call _ => (((call.body db).run db).state, s)
  | .addVersion videoId script => (((VideoService.addVersion videoId script).run db).state, s)
  | .voiceover runId voice now =>
      match db.runs[runId]? with
      | none => (db, s)
      | some run => (mock.voiceover db s runId run voice now).map EStateM.Result.state id
  | .render runId settings metering now =>
      match db.runs[runId]? with
      | none => (db, s)
      | some run =>
          (mock.renderVideo db s runId run settings metering now).map EStateM.Result.state id

end MockProviders

/-! ## What the service asks its providers for -/

variable {db : PipelineDb} {runId : Id} {run : PipelineRun} {now : DateTime}

/-- Without a script the provider is not asked. -/
theorem voiceover_without (h : scriptFor db run.videoId = none) (voice : Option String)
    (provider : Except PipelineError SpeechProvider) :
    ∃ e, (Pipeline.voiceover runId run voice provider now).run db = .error e db := by
  unfold Pipeline.voiceover
  cases hv : db.liveVideo run.videoId with
  | none => exact ⟨_, EStateM.run_bind_of_error (run_video_none hv)⟩
  | some v =>
      have hscript : db.scripted v = none := by simpa [scriptFor, hv] using h
      rw [EStateM.run_bind_of_ok (run_video_some hv), EStateM.run_bind_of_ok (EStateM.run_get db),
        hscript]
      exact ⟨_, rfl⟩

/-- With one it is asked once, and what it returns is the artifact. -/
theorem voiceover_with {version : VideoVersion} {text : String}
    (h : scriptFor db run.videoId = some (version, text)) (voice : Option String)
    (provider : SpeechProvider) :
    (Pipeline.voiceover runId run voice (.ok provider) now).run db =
      match provider text ((voice.filter (· ≠ "")).getD "default")
        (audioKey run.videoId version.versionNumber) with
      | .error e => .error e db
      | .ok result => .ok result
          { db with runs := db.runs.modify runId fun run =>
              run.advance .render (fun a => { a with voiceover := some result }) now } := by
  obtain ⟨v, hv, hscript⟩ := Option.bind_eq_some_iff.mp h
  unfold Pipeline.voiceover
  rw [EStateM.run_bind_of_ok (run_video_some hv), EStateM.run_bind_of_ok (EStateM.run_get db),
    hscript]
  dsimp only
  rw [EStateM.run_bind_of_ok (run_answer_ok provider db)]
  cases provider text ((voice.filter (· ≠ "")).getD "default")
      (audioKey run.videoId version.versionNumber) <;> rfl

theorem render_without (h : scriptFor db run.videoId = none)
    (provider : Except PipelineError RenderProvider) (metering : Except PipelineError Unit) :
    ∃ e, (Pipeline.render runId run provider metering now).run db = .error e db := by
  unfold Pipeline.render
  cases hv : db.liveVideo run.videoId with
  | none => exact ⟨_, EStateM.run_bind_of_error (run_video_none hv)⟩
  | some v =>
      have hscript : db.scripted v = none := by simpa [scriptFor, hv] using h
      rw [EStateM.run_bind_of_ok (run_video_some hv), EStateM.run_bind_of_ok (EStateM.run_get db),
        hscript]
      exact ⟨_, rfl⟩

/-- The metering of a render may raise when it has been made. -/
theorem render_with {version : VideoVersion} {text : String}
    (h : scriptFor db run.videoId = some (version, text)) (provider : RenderProvider)
    (metering : Except PipelineError Unit) :
    match provider text (run.artifacts.voiceover.map (·.storageKey))
        (renderKey run.videoId version.versionNumber) with
    | .error e => (Pipeline.render runId run (.ok provider) metering now).run db = .error e db
    | .ok result =>
        (Pipeline.render runId run (.ok provider) metering now).run db =
            .ok result (renderedDb db runId run.videoId result now) ∨
          ∃ e, metering = .error e ∧
            (Pipeline.render runId run (.ok provider) metering now).run db =
              .error e (renderedDb db runId run.videoId result now) := by
  obtain ⟨v, hv, hscript⟩ := Option.bind_eq_some_iff.mp h
  unfold Pipeline.render
  rw [EStateM.run_bind_of_ok (run_video_some hv), EStateM.run_bind_of_ok (EStateM.run_get db),
    hscript]
  dsimp only
  rw [EStateM.run_bind_of_ok (run_answer_ok provider db)]
  cases provider text (run.artifacts.voiceover.map (·.storageKey))
      (renderKey run.videoId version.versionNumber) with
  | error e => rfl
  | ok result =>
      cases hproject : v.projectId with
      | none => exact .inl rfl
      | some projectId =>
          cases metering with
          | ok u => exact .inl rfl
          | error e => exact .inr ⟨e, rfl, rfl⟩

/-! ## What is made -/

/-- The narration and the render of a run. -/
structure Work where
  videoId : Id
  voiceover : Option SpeechResult
  render : Option RenderResult

structure Works where
  versions : List VideoVersion
  runs : List Work
  current : List (Option Id)

def PipelineRun.work (run : PipelineRun) : Work :=
  ⟨run.videoId, run.artifacts.voiceover, run.artifacts.render⟩

def PipelineDb.works (db : PipelineDb) : Works :=
  ⟨db.versions, db.runs.map PipelineRun.work, db.videos.map Video.currentVersionId⟩

/-- The next version of a video, which becomes the current one. -/
def Works.withVersion (works : Works) (videoId : Id) (script : Option String) : Works :=
  { works with
    versions := works.versions ++
      [⟨videoId, (works.versions.filter fun v => v.videoId = videoId).length + 1, script⟩]
    current := works.current.modify videoId fun _ => some works.versions.length }

def Works.withRun (works : Works) (videoId : Id) : Works :=
  { works with runs := works.runs ++ [⟨videoId, none, none⟩] }

/-- What a call makes that asks no provider. -/
inductive Works.Grown (works : Works) : Works → Prop where
  | same : works.Grown works
  | version (videoId : Id) (script : Option String) : works.Grown (works.withVersion videoId script)
  | run (videoId : Id) : works.Grown (works.withRun videoId)

theorem works_advance {stage : PipelineStage} {artifacts : Artifacts → Artifacts}
    (hvoiceover : ∀ a, (artifacts a).voiceover = a.voiceover)
    (hrender : ∀ a, (artifacts a).render = a.render) :
    PipelineDb.works
        { db with runs := db.runs.modify runId fun run => run.advance stage artifacts now } =
      db.works := by
  have hwork : ∀ run : PipelineRun, (run.advance stage artifacts now).work = run.work := by
    intro run
    simp [PipelineRun.work, PipelineRun.advance, hvoiceover, hrender]
  simp only [PipelineDb.works, Table.map_modify db.runs hwork]

theorem works_modifyVideo {f : Video → Video}
    (hf : ∀ v, (f v).currentVersionId = v.currentVersionId) (videoId : Id) :
    PipelineDb.works { db with videos := db.videos.modify videoId f } = db.works := by
  simp only [PipelineDb.works, Table.map_modify db.videos hf]

theorem publish_keeps (platform : String) (tags : List String)
    (dispatch : Payload → Except PipelineError Payload)
    (insert : Publication → Except PipelineError Unit)
    (provider : Except PipelineError PublishProvider) :
    EStateM.Keeps PipelineDb.works
      (publish runId run platform tags dispatch insert provider now) := by
  refine EStateM.Keeps.bind ?_ fun _ => EStateM.Keeps.pure _
  unfold publishUpload
  refine EStateM.Keeps.bind (video_keeps _) fun v => ?_
  split
  · exact EStateM.Keeps.throw _
  · refine EStateM.Keeps.bind (answer_keeps _) fun payload => ?_
    refine EStateM.Keeps.bind (answer_keeps _) fun listing => ?_
    refine EStateM.Keeps.bind (publicationOf_keeps (fun _ _ => rfl) _ _ _ _ _) fun found => ?_
    refine EStateM.Keeps.bind (EStateM.Keeps.modify fun _ => rfl) fun _ => ?_
    refine EStateM.Keeps.bind (answer_keeps _) fun provider => ?_
    dsimp only
    split
    · refine EStateM.Keeps.bind (EStateM.Keeps.modify fun _ => rfl) fun _ => ?_
      exact EStateM.Keeps.throw _
    · refine EStateM.Keeps.bind (EStateM.Keeps.modify fun _ => rfl) fun _ => ?_
      refine EStateM.Keeps.bind (EStateM.Keeps.modify fun _ => ?_) fun _ => ?_
      · refine works_modifyVideo ?_ _
        exact fun _ => rfl
      · refine EStateM.Keeps.bind (EStateM.Keeps.modify fun _ => ?_) fun _ => ?_
        · exact works_advance (fun _ => rfl) fun _ => rfl
        · exact EStateM.Keeps.pure _

theorem Works.Grown.of_keeps {m : PipelineM Unit} (h : EStateM.Keeps PipelineDb.works m)
    (db : PipelineDb) : db.works.Grown ((m.run db).state.works) := by
  rw [h db]
  exact .same

theorem grown_addVersion {videoId : Id} {script : Option String} {f : Video → Video}
    (hf : ∀ v, (f v).currentVersionId = some db.versions.length) :
    db.works.Grown (PipelineDb.works { db with
      versions := db.versions ++
        [⟨videoId, (db.versions.filter fun v => v.videoId = videoId).length + 1, script⟩]
      videos := db.videos.modify videoId f }) := by
  have hvideos := Table.map_modify_map (g := fun _ => some db.versions.length) db.videos hf
  simp only [PipelineDb.works, hvideos]
  exact .version videoId script

theorem grown_script (text : String) :
    db.works.Grown ((script runId run text now).run db).state.works := by
  unfold Pipeline.script
  by_cases htext : strip text = ""
  · rw [if_pos htext]
    exact .same
  · rw [if_neg htext]
    cases hv : db.liveVideo run.videoId with
    | none =>
        rw [EStateM.run_bind_of_error (run_video_none hv)]
        exact .same
    | some v =>
        rw [EStateM.run_bind_of_ok (run_video_some hv)]
        by_cases hnumber : ∀ v ∈ db.versions, v.videoId = run.videoId → v.versionNumber ≠
            (db.versions.filter fun v => v.videoId = run.videoId).length + 1
        · rw [EStateM.run_bind_of_ok (run_addVersion_ok text hnumber)]
          have hgrown := @grown_addVersion db run.videoId (some text)
            (fun v => { v with currentVersionId := some db.versions.length, status := .scripting })
            fun _ => rfl
          have hworks := @works_advance
            { db with
              versions := db.versions ++ [⟨run.videoId,
                (db.versions.filter fun v => v.videoId = run.videoId).length + 1, some text⟩]
              videos := db.videos.modify run.videoId fun v =>
                { v with currentVersionId := some db.versions.length, status := .scripting } }
            runId now .voiceover
            (fun a => { a with script := some ⟨db.versions.length, text.length⟩ }) (fun _ => rfl)
            fun _ => rfl
          rw [← hworks] at hgrown
          exact hgrown
        · rw [EStateM.run_bind_of_error (run_addVersion_error hnumber)]
          exact .same

theorem Call.grown (call : Call) (hsilent : call.Silent) (db : PipelineDb) :
    db.works.Grown ((call.body db).run db).state.works := by
  cases call with
  | start videoId now createdAt tie =>
      obtain ⟨e, hrun⟩ | ⟨-, hrun⟩ := run_start db videoId now createdAt tie
      · have hbody : ((Call.start videoId now createdAt tie).body db).run db = .error e db :=
          EStateM.run_discard_of_error hrun
        rw [hbody]
        exact .same
      · have hbody : ((Call.start videoId now createdAt tie).body db).run db = .ok () _ :=
          EStateM.run_discard_of_ok hrun
        rw [hbody]
        simp only [EStateM.Result.state, PipelineDb.works, List.map_append]
        exact .run videoId
  | addResearch videoId notes =>
      refine .of_keeps ?_ db
      refine (video_keeps videoId).bind fun _ => EStateM.Keeps.forM (fun item => ?_) notes
      unfold addNote
      dsimp only
      split
      · exact EStateM.Keeps.throw _
      · exact EStateM.Keeps.modify fun _ => rfl
  | stage runId call now =>
      cases hrow : db.runs[runId]? with
      | none =>
          rw [Call.body, hrow]
          exact .same
      | some run =>
          rw [body_stage hrow]
          cases call with
          | research =>
              refine .of_keeps (EStateM.Keeps.get_bind fun db => ?_) db
              exact works_advance (fun _ => rfl) fun _ => rfl
          | script text =>
              have hgrown := @grown_script db runId run now text
              show db.works.Grown ((discard (script runId run text now)).run db).state.works
              cases hrun : (script runId run text now).run db with
              | ok id db' =>
                  rw [EStateM.run_discard_of_ok hrun]
                  rwa [hrun] at hgrown
              | error e db' =>
                  rw [EStateM.run_discard_of_error hrun]
                  rwa [hrun] at hgrown
          | voiceover voice provider => exact absurd hsilent id
          | render provider metering => exact absurd hsilent id
          | publish platform tags dispatch insert provider =>
              exact .of_keeps (publish_keeps platform tags dispatch insert provider).discard db
  | collectAnalytics publicationId provider =>
      exact .of_keeps
        (collectAnalytics_keeps (fun _ _ => rfl) publicationId provider).discard db
  | learn runId ctrTarget now =>
      cases hrow : db.runs[runId]? with
      | none =>
          rw [Call.body, hrow]
          exact .same
      | some run =>
          rw [Call.body, hrow]
          refine .of_keeps (EStateM.Keeps.discard (EStateM.Keeps.get_bind fun db => ?_)) db
          exact works_advance (fun _ => rfl) fun _ => rfl
  | fail runId error now =>
      rw [Call.body, run_fail]
      cases db.runs[runId]? with
      | none => exact .same
      | some run =>
          have hwork : ∀ run : PipelineRun, PipelineRun.work
              { run with stage := .failed, error := some error, finishedAt := some now } =
                run.work := fun _ => rfl
          simp only [EStateM.Result.state, PipelineDb.works, Table.map_modify db.runs hwork]
          exact .same

end YoutubeFactory.Pipeline
