import YoutubeFactory.Lib.OrderedMap
import Mathlib.Data.Rat.Defs

/-!
# Pipeline tables

The columns of `app/models/video.py` and `app/models/pipeline.py` that the pipeline
service reads or writes, the results of the providers of
`app/core/pipeline/interfaces.py`, and the queries of the service's repositories.

Rows are never removed from a table, so a row's position is its id.  A float is a
rational number.  A moment is a number of seconds and a date a number of days.
-/

namespace YoutubeFactory.Pipeline

/-! ## Columns -/

abbrev Id := Nat

abbrev DateTime := Int

abbrev Date := Int

inductive PipelineStage where
  | research | script | voiceover | render | publish | analytics | learning | done | failed
deriving DecidableEq, Repr

inductive VideoStatus where
  | draft | researching | scripting | rendering | ready | published | failed
deriving DecidableEq, Repr

inductive PublicationStatus where
  | draft | scheduled | publishing | published | failed
deriving DecidableEq, Repr

structure Video where
  projectId : Option Id
  title : String
  description : Option String
  status : VideoStatus
  currentVersionId : Option Id
  deletedAt : Option DateTime

structure VideoVersion where
  videoId : Id
  versionNumber : Nat
  script : Option String

structure ResearchNote where
  videoId : Id
  sourceUrl : Option String
  title : Option String
  summary : String
  relevance : ℚ
  deletedAt : Option DateTime

/-! ## Provider results -/

structure SpeechResult where
  storageKey : String
  durationSeconds : ℚ
  voice : String
  sizeBytes : Int

structure RenderResult where
  storageKey : String
  durationSeconds : ℚ
  width : Int
  height : Int
  sizeBytes : Int

structure PublishResult where
  externalId : String
  url : String

structure AnalyticsSnapshot where
  measuredOn : Date
  views : Int
  likes : Int
  comments : Int
  watchTimeSeconds : Int
  impressions : Int

/-! ## Runs and publications -/

structure ScriptArtifact where
  versionId : Id
  characters : Nat

structure PublishArtifact where
  externalId : String
  url : String

/-- The `artifacts` of a run, keyed by stage. -/
structure Artifacts where
  research : Option Nat
  script : Option ScriptArtifact
  voiceover : Option SpeechResult
  render : Option RenderResult
  publish : Option PublishArtifact
  learning : Option Nat

def Artifacts.empty : Artifacts := ⟨none, none, none, none, none, none⟩

structure PipelineRun where
  videoId : Id
  stage : PipelineStage
  error : Option String
  startedAt : Option DateTime
  finishedAt : Option DateTime
  artifacts : Artifacts
  createdAt : DateTime
  deletedAt : Option DateTime

/-- A value that a plugin may put into a listing.  A float is its bits, and a value of another type
the object that it is, with what `bool()` gives for it, unless that raises. -/
inductive Field where
  | none
  | bool (b : Bool)
  | int (i : Int)
  | float (bits : UInt64)
  | str (s : String)
  | bytes (bs : List UInt8)
  | list (items : List Field)
  | tuple (items : List Field)
  | dict (entries : List (Field × Field))
  | object (identity : Nat) (typeName : String) (truth : Option Bool)

def Field.ofOption : Option String → Field
  | .none => .none
  | some s => .str s

structure Publication where
  videoId : Id
  platform : String
  status : PublicationStatus
  externalId : Option String
  url : Option String
  title : Field
  description : Field
  tags : List Field
  publishedAt : Option DateTime
  error : Option String
  deletedAt : Option DateTime

structure AnalyticsRecord where
  publicationId : Id
  snapshot : AnalyticsSnapshot

/-- `click_through_rate` -/
def AnalyticsSnapshot.clickThroughRate (s : AnalyticsSnapshot) : ℚ :=
  if s.impressions = 0 then 0 else (s.views : ℚ) / s.impressions

/-- The figures a lesson was drawn from. -/
inductive Evidence where
  | clickThrough (views impressions : Int) (ctr : ℚ)
  | retention (watchTimeSeconds : Int) (durationSeconds retention : ℚ)

structure PerformanceLesson where
  videoId : Id
  dimension : String
  confidence : ℚ
  evidence : Evidence

structure PipelineDb where
  videos : List Video
  versions : List VideoVersion
  notes : List ResearchNote
  runs : List PipelineRun
  publications : List Publication
  records : List AnalyticsRecord
  lessons : List PerformanceLesson

inductive PipelineError where
  | notFound (message : String)
  | conflict (message : String) (runId : Id)
  | validation (message : String)
  /-- A version number that the video has already, or a second publication on a platform:
  the pairs are unique. -/
  | integrity
  /-- What a provider or the metering raised. -/
  | outside (text : String)
deriving DecidableEq, Repr

/-- `str(exc)`, as far as the service stores it. -/
def PipelineError.text : PipelineError → String
  | .notFound message => message
  | .conflict message _ => message
  | .validation message => message
  | .integrity => "UNIQUE constraint failed"
  | .outside text => text

/-! ## Queries -/

namespace PipelineDb

variable (db : PipelineDb)

/-- The video of an id, unless it is missing or deleted. -/
def liveVideo (videoId : Id) : Option Video :=
  (db.videos[videoId]?).filter fun video => video.deletedAt.isNone

/-- `_current_version` -/
def currentVersion (video : Video) : Option VideoVersion :=
  video.currentVersionId.bind fun versionId => db.versions[versionId]?

/-- The version the later stages work from: the current one, if it has a script. -/
def scripted (video : Video) : Option (VideoVersion × String) :=
  (db.currentVersion video).bind fun version =>
    (version.script.filter fun script => script ≠ "").map fun script => (version, script)

/-- The runs of a video that are not deleted. -/
def runsOf (videoId : Id) : List Id :=
  (List.range db.runs.length).filter fun id =>
    (db.runs[id]?).any fun run => run.videoId = videoId ∧ run.deletedAt.isNone

/-- Whether a run is among the latest of its video. -/
def isLatest (videoId : Id) (id : Id) : Bool :=
  (db.runs[id]?).any fun run => (db.runsOf videoId).all fun other =>
    (db.runs[other]?).all fun run' => run'.createdAt ≤ run.createdAt

/-- `latest_for_video`.  Runs created at the same moment come in an order that the
database chooses, here by `tie`. -/
def latestForVideo (videoId : Id) (tie : Nat) : Option Id :=
  let latest := (db.runsOf videoId).filter (db.isLatest videoId)
  latest[tie % latest.length]?

/-- `for_video` -/
def publicationFor (videoId : Id) (platform : String) : Option Id :=
  db.publications.findIdx? fun p =>
    p.videoId = videoId ∧ p.platform = platform ∧ p.deletedAt.isNone

/-- The snapshot of a publication with the last date. -/
def latestRecord (publicationId : Id) : Option AnalyticsSnapshot :=
  ((db.records.filter fun r => r.publicationId = publicationId).map (·.snapshot)).foldl
    (fun latest s =>
      match latest with
      | none => some s
      | some l => if l.measuredOn < s.measuredOn then some s else some l)
    none

end PipelineDb

end YoutubeFactory.Pipeline
