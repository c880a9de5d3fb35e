import YoutubeFactory.Pipeline.Models
import YoutubeFactory.Python.Object

/-!
# The pipeline service

`VideoPipelineService` of `app/services/pipeline.py`.  A method reads and writes the
tables and may raise; what it has written by then is part of its result, whether
the writes are kept is for the caller's transaction.

A provider is what `get_provider` returns, or raises.  A stage method takes the run
as the caller holds it, with its id.
-/

namespace YoutubeFactory.Pipeline

open Python

abbrev PipelineM := EStateM PipelineError PipelineDb

/-! ## Providers -/

/-- `synthesize`, of the text, the voice and the storage key. -/
abbrev SpeechProvider := String → String → String → Except PipelineError SpeechResult

/-- `render`, of the script, the audio key and the storage key. -/
abbrev RenderProvider := String → Option String → String → Except PipelineError RenderResult

/-- What is handed to `publish`. -/
structure Upload where
  videoKey : String
  title : String
  description : Option String
  tags : List Field

abbrev PublishProvider := Upload → Except PipelineError PublishResult

/-- `fetch`, of the external id. -/
abbrev AnalyticsProvider := String → Except PipelineError AnalyticsSnapshot

/-- The payload of `BEFORE_PUBLISH`. -/
abbrev Payload := OrderedMap String Field

/-- What `publish` makes of the payload that comes back. -/
structure Listing where
  title : Field
  description : Field
  tags : List Field

/-! ## Helpers -/

/-- `_video` -/
def video (videoId : Id) : PipelineM Video := do
  match (← get).liveVideo videoId with
  | none => throw (.notFound "Video not found.")
  | some video => pure video

/-- `start`.  `createdAt` is the time of the transaction. -/
def start (videoId : Id) (now createdAt : DateTime) (tie : Nat) : PipelineM Id := do
  let _ ← video videoId
  let db ← get
  match (db.latestForVideo videoId tie).bind fun id =>
      (db.runs[id]?).bind fun run => if run.finishedAt.isNone then some id else none with
  | some runId =>
      throw (.conflict "A pipeline run is already in progress for this video." runId)
  | none =>
      let run : PipelineRun :=
        { videoId, stage := .research, error := none, startedAt := some now,
          finishedAt := none, artifacts := .empty, createdAt, deletedAt := none }
      set { db with runs := db.runs ++ [run] }
      pure db.runs.length

/-- The fields of a run after `_advance`. -/
def PipelineRun.advance (run : PipelineRun) (stage : PipelineStage)
    (artifacts : Artifacts → Artifacts) (now : DateTime) : PipelineRun :=
  { run with
    stage := stage
    error := none
    artifacts := artifacts run.artifacts
    finishedAt := if stage = .done ∨ stage = .failed then some now else run.finishedAt }

/-- `_advance` -/
def advance (runId : Id) (stage : PipelineStage) (artifacts : Artifacts → Artifacts)
    (now : DateTime) : PipelineM Unit :=
  modify fun db =>
    { db with runs := db.runs.modify runId fun run => run.advance stage artifacts now }

/-- `fail` -/
def fail (runId : Id) (error : String) (now : DateTime) : PipelineM Unit := do
  let db ← get
  match db.runs[runId]? with
  | none => throw (.notFound "Pipeline run not found.")
  | some _ =>
      set { db with
        runs := db.runs.modify runId fun run =>
          { run with stage := .failed, error := some error, finishedAt := some now } }

/-- What a call outside the service returns or raises. -/
def answer {α : Type} (r : Except PipelineError α) : PipelineM α :=
  match r with
  | .ok a => pure a
  | .error e => throw e

def audioKey (videoId : Id) (number : Nat) : String :=
  s!"videos/{videoId}/audio/v{number}.mp3"

def renderKey (videoId : Id) (number : Nat) : String :=
  s!"videos/{videoId}/render/v{number}.mp4"

/-! ## Stages -/

/-- A note as it is passed in. -/
structure NoteInput where
  summary : Option String
  sourceUrl : Option String
  title : Option String
  relevance : Option ℚ

/-- One note of `add_research`. -/
def addNote (videoId : Id) (item : NoteInput) : PipelineM Unit := do
  let summary := strip (item.summary.getD "")
  if summary = "" then
    throw (.validation "A research note needs a summary.")
  else
    let note : ResearchNote :=
      { videoId, sourceUrl := item.sourceUrl, title := item.title, summary
        relevance := item.relevance.getD 0, deletedAt := none }
    modify fun db => { db with notes := db.notes ++ [note] }

/-- `add_research` -/
def addResearch (videoId : Id) (notes : List NoteInput) : PipelineM Unit := do
  let _ ← video videoId
  notes.forM (addNote videoId)

/-- `research` -/
def research (runId : Id) (run : PipelineRun) (now : DateTime) : PipelineM Unit := do
  let db ← get
  let notes := db.notes.filter fun note =>
    note.videoId = run.videoId ∧ note.deletedAt.isNone
  advance runId .script (fun a => { a with research := some notes.length }) now

/-- The new version, with the next number.  The numbers of a video are unique. -/
def addVersion (videoId : Id) (script : String) : PipelineM Id := do
  let db ← get
  let existing := db.versions.filter fun v => v.videoId = videoId
  let version : VideoVersion :=
    { videoId, versionNumber := existing.length + 1, script := some script }
  if existing.any fun v => v.versionNumber = version.versionNumber then
    throw .integrity
  else
    set { db with versions := db.versions ++ [version] }
    pure db.versions.length

/-- `script` -/
def script (runId : Id) (run : PipelineRun) (text : String) (now : DateTime) :
    PipelineM Id := do
  if strip text = "" then
    throw (.validation "Script cannot be empty.")
  else
    let _ ← video run.videoId
    let versionId ← addVersion run.videoId text
    modify fun db => { db with
      videos := db.videos.modify run.videoId fun v =>
        { v with currentVersionId := some versionId, status := .scripting } }
    advance runId .voiceover
      (fun a => { a with script := some ⟨versionId, text.length⟩ }) now
    pure versionId

/-- `voiceover` -/
def voiceover (runId : Id) (run : PipelineRun) (voice : Option String)
    (provider : Except PipelineError SpeechProvider) (now : DateTime) :
    PipelineM SpeechResult := do
  let v ← video run.videoId
  match (← get).scripted v with
  | none => throw (.validation "The video has no script to narrate.")
  | some (version, script) =>
      let synthesize ← answer provider
      let result ← answer (synthesize script ((voice.filter (· ≠ "")).getD "default")
        (audioKey run.videoId version.versionNumber))
      advance runId .render (fun a => { a with voiceover := some result }) now
      pure result

/-- `render`.  `metering` is what recording the usage raises, if it does. -/
def render (runId : Id) (run : PipelineRun) (provider : Except PipelineError RenderProvider)
    (metering : Except PipelineError Unit) (now : DateTime) : PipelineM RenderResult := do
  let v ← video run.videoId
  match (← get).scripted v with
  | none => throw (.validation "The video has no script to render.")
  | some (version, script) =>
      let provider ← answer provider
      let result ← answer (provider script (run.artifacts.voiceover.map (·.storageKey))
        (renderKey run.videoId version.versionNumber))
      modify fun db => { db with
        videos := db.videos.modify run.videoId fun v => { v with status := .rendering } }
      advance runId .publish (fun a => { a with render := some result }) now
      if v.projectId.isSome then
        answer metering
      pure result

/-- `bool(value)` -/
def Field.truth : Field → Except PipelineError Bool
  | none => .ok false
  | bool b => .ok b
  | int i => .ok (i ≠ 0)
  | float bits => .ok (bits ≠ 0 ∧ bits ≠ 0x8000000000000000)
  | str s => .ok (s ≠ "")
  | bytes bs => .ok !bs.isEmpty
  | list items => .ok !items.isEmpty
  | tuple items => .ok !items.isEmpty
  | dict entries => .ok !entries.isEmpty
  | object _ _ (some b) => .ok b
  | object _ typeName .none => .error (.outside typeName)

/-- The payload that is dispatched. -/
def payloadOf (v : Video) (platform : String) (tags : List String) : Payload :=
  ⟨[("title", .str v.title), ("description", .ofOption v.description),
    ("tags", .list (tags.map .str)), ("platform", .str platform)],
    (by decide : ["title", "description", "tags", "platform"].Nodup)⟩

/-- The title, the description and the tags that `publish` takes from the payload. -/
def Listing.ofPayload (v : Video) (tags : List String) (listing : Payload) :
    Except PipelineError Listing := do
  let title := (listing.get? "title").getD .none
  let truthy ← title.truth
  pure {
    title := if truthy then title else .str v.title
    description := (listing.get? "description").getD .none
    tags := match listing.get? "tags" with
      | some (.list items) => items
      | _ => tags.map .str }

/-- The description of a listing, or the video's own. -/
def Listing.descriptionFor (listing : Listing) (v : Video) : Field :=
  match listing.description with
  | .none => .ofOption v.description
  | description => description

/-- The publication of a video on a platform, added if there is none.  A deleted one still
holds the pair.  `insert` is what the driver says to the values of the new row. -/
def publicationOf (videoId : Id) (v : Video) (platform : String) (listing : Listing)
    (insert : Publication → Except PipelineError Unit) : PipelineM (Id × Publication) := do
  let db ← get
  match (db.publicationFor videoId platform).bind fun id =>
      (db.publications[id]?).map fun p => (id, p) with
  | some found => pure found
  | none =>
      let publication : Publication :=
        { videoId, platform, status := .draft, externalId := none, url := none
          title := listing.title, description := listing.descriptionFor v, tags := listing.tags
          publishedAt := none, error := none, deletedAt := none }
      if db.publications.any fun p => p.videoId = videoId ∧ p.platform = platform then
        throw .integrity
      else
        answer (insert publication)
        set { db with publications := db.publications ++ [publication] }
        pure (db.publications.length, publication)

/-- A change to one publication. -/
def updatePublication (id : Id) (f : Publication → Publication) : PipelineM Unit :=
  modify fun db => { db with publications := db.publications.modify id f }

/-- `publish`, with what is handed to the provider.  `dispatch` runs the plugins attached to
`BEFORE_PUBLISH`. -/
def publishUpload (runId : Id) (run : PipelineRun) (platform : String) (tags : List String)
    (dispatch : Payload → Except PipelineError Payload)
    (insert : Publication → Except PipelineError Unit)
    (provider : Except PipelineError PublishProvider) (now : DateTime) :
    PipelineM (Id × Upload) := do
  let v ← video run.videoId
  match (run.artifacts.render.map (·.storageKey)).filter (· ≠ "") with
  | none => throw (.validation "Nothing has been rendered for this run yet.")
  | some videoKey =>
      let payload ← answer (dispatch (payloadOf v platform tags))
      let listing ← answer (Listing.ofPayload v tags payload)
      let (id, publication) ← publicationOf run.videoId v platform listing insert
      updatePublication id fun p => { p with status := .publishing }
      let provider ← answer provider
      -- The plugins' listing is stored on a new row, the video's own title goes out.
      let upload : Upload :=
        { videoKey, title := v.title, description := v.description
          tags := if tags.isEmpty then publication.tags else tags.map .str }
      match provider upload with
      | .error e =>
          updatePublication id fun p => { p with status := .failed, error := some e.text }
          throw e
      | .ok result =>
          updatePublication id fun p =>
            { p with
              status := .published
              externalId := some result.externalId
              url := some result.url
              publishedAt := some now
              error := none }
          modify fun db => { db with
            videos := db.videos.modify run.videoId fun v => { v with status := .published } }
          advance runId .analytics
            (fun a => { a with publish := some ⟨result.externalId, result.url⟩ }) now
          pure (id, upload)

/-- `publish` -/
def publish (runId : Id) (run : PipelineRun) (platform : String) (tags : List String)
    (dispatch : Payload → Except PipelineError Payload)
    (insert : Publication → Except PipelineError Unit)
    (provider : Except PipelineError PublishProvider) (now : DateTime) : PipelineM Id := do
  let (id, _) ← publishUpload runId run platform tags dispatch insert provider now
  pure id

/-- `collect_analytics` -/
def collectAnalytics (publicationId : Id) (provider : Except PipelineError AnalyticsProvider) :
    PipelineM AnalyticsRecord := do
  let db ← get
  match db.publications[publicationId]? with
  | none => throw (.notFound "Publication not found.")
  | some publication =>
      match publication.externalId.filter (· ≠ "") with
      | none => throw (.validation "That publication has not been published yet.")
      | some externalId =>
          let fetch ← answer provider
          let snapshot ← answer (fetch externalId)
          let record : AnalyticsRecord := ⟨publicationId, snapshot⟩
          match db.records.findIdx? fun r =>
              r.publicationId = publicationId ∧ r.snapshot.measuredOn = snapshot.measuredOn with
          | none => set { db with records := db.records ++ [record] }
          | some i => set { db with records := db.records.set i record }
          pure record

/-- The lessons `learn` derives. -/
def lessonsOf (run : PipelineRun) (latest : AnalyticsSnapshot) (ctrTarget : ℚ) :
    List PerformanceLesson :=
  let ctr := latest.clickThroughRate
  let duration := (run.artifacts.render.map (·.durationSeconds)).getD 0
  let clickThrough : List PerformanceLesson :=
    if ctr < ctrTarget then
      [⟨run.videoId, "thumbnail_or_title", 6 / 10,
        .clickThrough latest.views latest.impressions ctr⟩]
    else []
  let retention : List PerformanceLesson :=
    if duration ≠ 0 ∧ latest.views ≠ 0 then
      [⟨run.videoId, "retention", 5 / 10,
        .retention latest.watchTimeSeconds duration
          (latest.watchTimeSeconds / (duration * latest.views))⟩]
    else []
  clickThrough ++ retention

/-- `learn` -/
def learn (runId : Id) (run : PipelineRun) (ctrTarget : ℚ) (now : DateTime) :
    PipelineM (List PerformanceLesson) := do
  let db ← get
  let latest := (db.publicationFor run.videoId "youtube").bind db.latestRecord
  let lessons := (latest.map fun latest => lessonsOf run latest ctrTarget).getD []
  set { db with lessons := db.lessons ++ lessons }
  advance runId .done (fun a => { a with learning := some lessons.length }) now
  pure lessons

end YoutubeFactory.Pipeline
