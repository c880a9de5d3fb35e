import YoutubeFactory.Lib.Interleaving
import YoutubeFactory.Storage.Areas
import Mathlib.Data.Bool.AllAny
import Mathlib.Data.Nat.Digits.Defs
import Mathlib.Data.List.Sort

/-!
# Uploads

`StorageService` of `app/services/storage_service.py`, with `app/core/storage/media.py`, the table
`MediaFile` of `app/models/media.py` and its repository.  Ids are numbers.  The lengths of columns
and the foreign keys are left out, and so is what the handlers of an event do.

A request that uploads waits for the database, for the storage and for the database again.  In
between, others upload the same bytes, use the storage for something else, and delete or restore
rows.  In whatever order this happens, no upload finds its way in the storage blocked, a content
has one row in a workspace, and what was uploaded is read back (`uploads_safe`).
-/

namespace YoutubeFactory.Storage

open Interleaving (System Turn)
open Objects (Apart Flat Kept)
open Python (PyFloat)

/-! ## Values -/

/-- `ALLOWED_MIME_TYPES` -/
def ALLOWED_MIME_TYPES : List String :=
  ["image/png", "image/jpeg", "image/webp", "image/gif", "video/mp4", "video/webm", "audio/mpeg",
    "audio/wav", "audio/webm", "application/pdf", "text/plain", "application/json"]

structure MediaFile where
  id : Nat
  workspaceId : Nat
  folderId : Option Nat
  filename : String
  storageKey : String
  mimeType : String
  sizeBytes : Nat
  sha256 : String
  createdBy : Nat
  updatedBy : Nat
  deletedAt : Option Int
deriving DecidableEq

/-- `UploadCompleted` -/
structure UploadCompleted where
  storageKey : String
  sizeBytes : Nat
deriving DecidableEq

structure UploadArgs where
  workspaceId : Nat
  filename : String
  data : Bytes
  actorId : Nat
  contentType : Option String
  folderId : Option Nat

/-- What an upload raises. -/
inductive UploadError (Exc : Type) where
  /-- `ValidationError("Unsupported file type.")`, with its `details`. -/
  | unsupported (mime : String) (allowed : List String)
  | storage (exc : Exc)
  /-- The `IntegrityError` of `uq_media_ws_sha`. -/
  | integrity
  /-- The request is cancelled, or fails after the upload. -/
  | interrupted

/-- The storage, the committed rows of `MediaFile`, and the events.  `made` is the number of rows
that there ever were, and the next id. -/
structure Media (State : Type) where
  client : State
  rows : List MediaFile
  made : Nat
  published : List UploadCompleted

/-- What the service is set up with: its storage, `hashlib.sha256` with `hexdigest`, and
`mimetypes.guess_type`. -/
structure StorageService (State Exc : Type) where
  storage : StorageClient State Exc
  computeSha256 : Bytes → String
  guessType : String → Option String

/-! ## The service -/

namespace StorageService

variable {State Exc : Type} (service : StorageService State Exc)

/-- `guess_mime_type` -/
def guessMimeType (filename : String) : String :=
  ((service.guessType filename).filter (· ≠ "")).getD "application/octet-stream"

/-- `content_type or guess_mime_type(filename)` -/
def mimeOf (args : UploadArgs) : String :=
  (args.contentType.filter (· ≠ "")).getD (service.guessMimeType args.filename)

/-- `get_by_hash` -/
def getByHash (rows : List MediaFile) (workspaceId : Nat) (sha256 : String) : Option MediaFile :=
  rows.find? fun row =>
    row.deletedAt.isNone ∧ row.workspaceId = workspaceId ∧ row.sha256 = sha256

/-- `digest[:2]` -/
def shard (digest : String) : String := String.ofList (digest.toList.take 2)

def storageKey (workspaceId : Nat) (digest : String) : String :=
  s!"{workspaceId}/{shard digest}/{digest}"

/-- The row that is added. -/
def mediaFile (args : UploadArgs) (stored : StoredObject) (id : Nat) : MediaFile where
  id
  workspaceId := args.workspaceId
  folderId := args.folderId
  filename := args.filename
  storageKey := stored.key
  mimeType := service.mimeOf args
  sizeBytes := stored.sizeBytes
  sha256 := service.computeSha256 args.data
  createdBy := args.actorId
  updatedBy := args.actorId
  deletedAt := none

/-- The constraint `uq_media_ws_sha`. -/
def taken (rows : List MediaFile) (workspaceId : Nat) (sha256 : String) : Bool :=
  rows.any fun row => row.workspaceId = workspaceId ∧ row.sha256 = sha256

/-- The part of `upload` that adds the row and publishes the event. -/
def record (args : UploadArgs) (stored : StoredObject) (s : Media State) :
    Except (UploadError Exc) MediaFile × Media State :=
  if taken s.rows args.workspaceId (service.computeSha256 args.data) = true then
    (.error .integrity, s)
  else
    let media := service.mediaFile args stored s.made
    let event : UploadCompleted := ⟨stored.key, stored.sizeBytes⟩
    (.ok media,
      { s with
        rows := s.rows ++ [media], made := s.made + 1, published := s.published ++ [event] })

def upload (args : UploadArgs) (s : Media State) :
    Except (UploadError Exc) MediaFile × Media State :=
  let mime := service.mimeOf args
  if mime ∉ ALLOWED_MIME_TYPES then
    (.error (.unsupported mime (ALLOWED_MIME_TYPES.insertionSort (· ≤ ·))), s)
  else
    let digest := service.computeSha256 args.data
    match getByHash s.rows args.workspaceId digest with
    | some existing => (.ok existing, s)
    | none =>
        match service.storage.put (storageKey args.workspaceId digest) args.data mime s.client with
        | (.error exc, client) => (.error (.storage exc), { s with client })
        | (.ok stored, client) => service.record args stored { s with client }

def read (media : MediaFile) (s : Media State) : Except Exc Bytes × Media State :=
  (service.storage.get media.storageKey s.client).map id fun client => { s with client }

end StorageService

/-! ## Requests -/

/-- A request that uploads: before the database is asked, before the storage is, before the row
is added, and at its end. -/
inductive Request (Exc : Type) where
  | asked (args : UploadArgs)
  | missing (args : UploadArgs)
  | stored (args : UploadArgs) (object : StoredObject)
  | ended (args : UploadArgs) (result : Except (UploadError Exc) MediaFile)

/-- What happens to a request in its turn.  One that is rolled back has done its part and fails
before the commit. -/
inductive Fate where
  | goesOn
  | cancelled
  | rolledBack
deriving DecidableEq

/-- What happens around the requests. -/
inductive MediaEvent where
  | begin (args : UploadArgs)
  | turn (turn : Turn Fate)
  | storage (call : ClientCall)
  | softDelete (id : Nat) (now : Int)
  | restore (id : Nat)
  | delete (id : Nat)

/-- Requests on one storage and one table. -/
abbrev MediaSystem (State Exc : Type) := System (Media State) (Request Exc)

namespace StorageService

variable {State Exc : Type} (service : StorageService State Exc)

/-- A turn of a request. -/
def resume (s : Media State) (fate : Fate) : Request Exc → Media State × Request Exc
  | .ended args result => (s, .ended args result)
  | .asked args =>
      let mime := service.mimeOf args
      if fate = .cancelled then (s, .ended args (.error .interrupted))
      else if mime ∉ ALLOWED_MIME_TYPES then
        (s, .ended args
          (.error (.unsupported mime (ALLOWED_MIME_TYPES.insertionSort (· ≤ ·)))))
      else
        match getByHash s.rows args.workspaceId (service.computeSha256 args.data) with
        | some existing => (s, .ended args (.ok existing))
        | none => (s, .missing args)
  | .missing args =>
      if fate = .cancelled then (s, .ended args (.error .interrupted))
      else
        match service.storage.put
            (storageKey args.workspaceId (service.computeSha256 args.data)) args.data
            (service.mimeOf args) s.client with
        | (.error exc, client) => ({ s with client }, .ended args (.error (.storage exc)))
        | (.ok object, client) => ({ s with client }, .stored args object)
  | .stored args object =>
      if fate = .cancelled then (s, .ended args (.error .interrupted))
      else
        let (result, s') := service.record args object s
        -- The event is out, the row is not there.
        if fate = .rolledBack then
          ({ s' with rows := s.rows }, .ended args (result.bind fun _ => .error .interrupted))
        else (s', .ended args result)

/-- A request that is alone uploads. -/
theorem resume_alone (args : UploadArgs) (s : Media State) :
    (fun place => service.resume place.1 .goesOn place.2)^[3] (s, .asked args) =
      ((service.upload args s).2, .ended args (service.upload args s).1) := by
  simp only [Function.iterate_succ, Function.iterate_zero, Function.comp_apply, id_eq, resume,
    upload]
  by_cases hmime : service.mimeOf args ∉ ALLOWED_MIME_TYPES
  · simp [hmime]
  · cases hrow : getByHash s.rows args.workspaceId (service.computeSha256 args.data) with
    | some existing => simp [hmime]
    | none =>
        cases hput : service.storage.put
            (storageKey args.workspaceId (service.computeSha256 args.data)) args.data
            (service.mimeOf args) s.client with
        | mk result client =>
            cases result with
            | error exc => simp [hmime, hput]
            | ok object => simp [hmime, hput]

def step (s : MediaSystem State Exc) : MediaEvent → MediaSystem State Exc
  | .begin args => { s with procs := s.procs ++ [.asked args] }
  | .turn turn => Interleaving.step service.resume s turn
  | .storage call =>
      { s with store := { s.store with client := (service.storage.call s.store.client call).2 } }
  | .softDelete id now =>
      { s with store := { s.store with rows := s.store.rows.map fun row =>
        if row.id = id then { row with deletedAt := some now } else row } }
  | .restore id =>
      { s with store := { s.store with rows := s.store.rows.map fun row =>
        if row.id = id then { row with deletedAt := none } else row } }
  | .delete id =>
      { s with store := { s.store with rows := s.store.rows.filter fun row => row.id ≠ id } }

end StorageService

/-! ## The area of the uploads -/

/-- What `hexdigest` returns. -/
structure HexDigest (digest : String) : Prop where
  length : digest.toList.length = 64
  hex : ∀ c ∈ digest.toList, c ∈ "0123456789abcdef".toList

/-- The path of a content in a workspace. -/
def mediaPath (workspaceId : Nat) (digest : String) : List String :=
  [toString workspaceId, StorageService.shard digest, digest]

def mediaArea (path : List String) : Prop :=
  ∃ workspaceId digest, HexDigest digest ∧ path = mediaPath workspaceId digest

theorem storageKey_eq (workspaceId : Nat) (digest : String) :
    StorageService.storageKey workspaceId digest =
      "/".intercalate (mediaPath workspaceId digest) := by
  rw [← String.toList_inj, toList_intercalate_slash]
  simp [StorageService.storageKey, mediaPath, List.intercalate, ToString.toString]

/-- A part of allowed characters, none of them one that a path is read by. -/
theorem plain_of_chars {part : String} (allowed : Char → Bool) (hne : part ≠ "")
    (h : ∀ c ∈ part.toList, allowed c = true) (hdot : allowed '.' = false)
    (hslash : allowed '/' = false) (hnull : allowed '\x00' = false) : Plain part where
  nonempty := hne
  notHere := by
    rintro rfl
    exact absurd (h '.' (by decide)) (by simp [hdot])
  notAbove := by
    rintro rfl
    exact absurd (h '.' (by decide)) (by simp [hdot])
  slash hmem := absurd (h '/' hmem) (by simp [hslash])
  null hmem := absurd (h '\x00' hmem) (by simp [hnull])

theorem toList_toString (n : Nat) : (toString n).toList = Nat.toDigits 10 n := by
  simp [ToString.toString]

theorem isDigit_of_mem_toString {n : Nat} {c : Char} (h : c ∈ (toString n).toList) :
    c.isDigit = true := by
  rw [toList_toString] at h
  exact Nat.isDigit_of_mem_toDigits (by decide) (by decide) h

theorem plain_toString (n : Nat) : Plain (toString n) := by
  refine plain_of_chars Char.isDigit ?_ (fun _ => isDigit_of_mem_toString) rfl rfl rfl
  intro h
  have hdigits := toList_toString n
  rw [h] at hdigits
  exact Nat.toDigits_ne_nil hdigits.symm

theorem plain_of_hex {part : String} (hne : part ≠ "")
    (h : ∀ c ∈ part.toList, c ∈ "0123456789abcdef".toList) : Plain part :=
  plain_of_chars (fun c => "0123456789abcdef".toList.contains c) hne
    (fun c hc => List.contains_iff_mem.mpr (h c hc)) rfl rfl rfl

theorem HexDigest.plain {digest : String} (h : HexDigest digest) : Plain digest := by
  refine plain_of_hex ?_ h.hex
  rintro rfl
  exact absurd h.length (by decide)

theorem HexDigest.plain_shard {digest : String} (h : HexDigest digest) :
    Plain (StorageService.shard digest) := by
  refine plain_of_hex ?_ fun c hc => h.hex c ?_
  · intro hempty
    have hlength := congrArg (fun s : String => s.toList.length) hempty
    simp [StorageService.shard, h.length] at hlength
  · rw [StorageService.shard, String.toList_ofList] at hc
    exact List.mem_of_mem_take hc

theorem plain_mediaPath (workspaceId : Nat) {digest : String} (h : HexDigest digest) :
    ∀ part ∈ mediaPath workspaceId digest, Plain part := by
  simp only [mediaPath, List.forall_mem_cons]
  exact ⟨plain_toString workspaceId, h.plain_shard, h.plain,
    fun part hpart => absurd hpart List.not_mem_nil⟩

theorem objectPath_storageKey (provider : LocalStorageProvider) (workspaceId : Nat)
    {digest : String} (h : HexDigest digest) :
    provider.objectPath (StorageService.storageKey workspaceId digest) =
      .ok (mediaPath workspaceId digest) := by
  rw [storageKey_eq]
  exact LocalStorageProvider.objectPath_intercalate (plain_mediaPath workspaceId h)
    (List.cons_ne_nil _ _)

theorem mediaArea_flat : Flat mediaArea := by
  rintro p q ⟨workspaceId, digest, -, rfl⟩ ⟨workspaceId', digest', -, rfl⟩ hprefix
  exact hprefix.eq_of_length rfl

/-- Keys that begin with a name are clear of the uploads. -/
theorem clearOf_mediaArea {provider : LocalStorageProvider} {call : ClientCall} {part : String}
    {parts : List String} {c : Char} (hplain : ∀ p ∈ part :: parts, Plain p)
    (hc : c ∈ part.toList) (hname : c.isDigit = false)
    (hkey : LocalStorageProvider.written (LocalStorageProvider.storageCall call) =
      some ("/".intercalate (part :: parts))) :
    LocalStorageProvider.ClearOf provider mediaArea call := by
  intro key hwritten path hpath
  rw [hkey] at hwritten
  obtain rfl := Option.some.inj hwritten
  rw [LocalStorageProvider.objectPath_intercalate hplain (List.cons_ne_nil _ _)] at hpath
  obtain rfl := Except.ok.inj hpath
  refine .inr ?_
  rintro p ⟨workspaceId, digest, -, rfl⟩
  have hne : toString workspaceId ≠ part := by
    rintro rfl
    rw [isDigit_of_mem_toString hc] at hname
    cases hname
  exact ⟨fun h => hne (List.cons_prefix_cons.mp h).1,
    fun h => hne (List.cons_prefix_cons.mp h).1.symm⟩

theorem mediaPath_inj {workspaceId workspaceId' : Nat} {digest digest' : String}
    (h : mediaPath workspaceId digest = mediaPath workspaceId' digest') : digest = digest' := by
  simp only [mediaPath, List.cons.injEq] at h
  exact h.2.2.1

/-! ## The invariant -/

section

variable {State Exc : Type} (service : StorageService State Exc) (provider : LocalStorageProvider)
  (fault : StorageFault → Exc) (shows : State → List (Change String Bytes) → Prop)
  (uploads : UploadArgs → Prop)

/-- The storage serves objects, and no two of the uploads have different contents of one digest. -/
structure Sound : Prop where
  serves : Serves provider service.storage fault shows
  digests : ∀ data, HexDigest (service.computeSha256 data)
  distinct : ∀ args args', uploads args → uploads args' →
    service.computeSha256 args.data = service.computeSha256 args'.data → args.data = args'.data

/-- Where the content of an upload is. -/
def pathOf (args : UploadArgs) : List String :=
  mediaPath args.workspaceId (service.computeSha256 args.data)

def Uploaded (path : List String) (data : Bytes) : Prop :=
  ∃ args, uploads args ∧ path = pathOf service args ∧ data = args.data

/-- There is an object at the path. -/
def Present (changes : List (Change String Bytes)) (path : List String) : Prop :=
  (Objects.current changes path).isSome = true

/-- The row is of the content of an upload, which is there. -/
structure RowOf (changes : List (Change String Bytes)) (row : MediaFile) (args : UploadArgs) :
    Prop where
  workspaceId : row.workspaceId = args.workspaceId
  sha256 : row.sha256 = service.computeSha256 args.data
  sizeBytes : row.sizeBytes = args.data.length
  storageKey : row.storageKey =
    StorageService.storageKey args.workspaceId (service.computeSha256 args.data)
  mimeType : row.mimeType ∈ ALLOWED_MIME_TYPES
  present : Present changes (pathOf service args)

structure Tidy (s : Media State) (changes : List (Change String Bytes)) : Prop where
  shows : shows s.client changes
  kept : Kept mediaArea (Uploaded service uploads) changes
  rows : ∀ row ∈ s.rows, ∃ args, uploads args ∧ RowOf service changes row args
  once : s.rows.Pairwise fun a b => ¬ (a.workspaceId = b.workspaceId ∧ a.sha256 = b.sha256)
  announced : ∀ row ∈ s.rows, ⟨row.storageKey, row.sizeBytes⟩ ∈ s.published

/-- The content of the upload is there and was announced. -/
def Announced (changes : List (Change String Bytes)) (published : List UploadCompleted)
    (args : UploadArgs) : Prop :=
  Present changes (pathOf service args) ∧ ∃ event ∈ published, event.storageKey =
    StorageService.storageKey args.workspaceId (service.computeSha256 args.data)

def EndsWell (changes : List (Change String Bytes)) (published : List UploadCompleted)
    (args : UploadArgs) : Except (UploadError Exc) MediaFile → Prop
  | .ok media => RowOf service changes media args
  | .error (.storage _) => False
  | .error .integrity => Announced service changes published args
  | .error _ => True

def GoesWell (changes : List (Change String Bytes)) (published : List UploadCompleted) :
    Request Exc → Prop
  | .asked args => uploads args
  | .missing args => uploads args ∧ service.mimeOf args ∈ ALLOWED_MIME_TYPES
  | .stored args object => uploads args ∧ service.mimeOf args ∈ ALLOWED_MIME_TYPES ∧
      object.key = StorageService.storageKey args.workspaceId (service.computeSha256 args.data) ∧
      object.sizeBytes = args.data.length ∧ Present changes (pathOf service args)
  | .ended args result => uploads args ∧ EndsWell service changes published args result

end

/-- Nothing of the uploads is lost. -/
structure Grows (changes : List (Change String Bytes)) (published : List UploadCompleted)
    (changes' : List (Change String Bytes)) (published' : List UploadCompleted) : Prop where
  present : ∀ path, mediaArea path → Present changes path → Present changes' path
  published : published ⊆ published'

section

variable {State Exc : Type} {service : StorageService State Exc} {provider : LocalStorageProvider}
  {fault : StorageFault → Exc} {shows : State → List (Change String Bytes) → Prop}
  {uploads : UploadArgs → Prop} {s : Media State}
  {changes changes' : List (Change String Bytes)} {published published' : List UploadCompleted}
  {args : UploadArgs} {row : MediaFile}

theorem Grows.refl : Grows changes published changes published :=
  ⟨fun _ _ h => h, List.Subset.refl _⟩

theorem Sound.area (h : Sound service provider fault shows uploads) (args : UploadArgs) :
    mediaArea (pathOf service args) := ⟨_, _, h.digests args.data, rfl⟩

theorem RowOf.grows (h : Sound service provider fault shows uploads)
    (hgrows : Grows changes published changes' published') (hrow : RowOf service changes row args) :
    RowOf service changes' row args :=
  { hrow with present := hgrows.present _ (h.area args) hrow.present }

theorem GoesWell.grows (h : Sound service provider fault shows uploads)
    (hgrows : Grows changes published changes' published') {request : Request Exc}
    (hrequest : GoesWell service uploads changes published request) :
    GoesWell service uploads changes' published' request := by
  cases request with
  | asked args => exact hrequest
  | missing args => exact hrequest
  | stored args object =>
      obtain ⟨hargs, hmime, hkey, hsize, hpresent⟩ := hrequest
      exact ⟨hargs, hmime, hkey, hsize, hgrows.present _ (h.area args) hpresent⟩
  | ended args result =>
      obtain ⟨hargs, hends⟩ := hrequest
      refine ⟨hargs, ?_⟩
      cases result with
      | ok media => exact RowOf.grows h hgrows hends
      | error e =>
          cases e with
          | storage exc => exact hends
          | integrity =>
              obtain ⟨hpresent, event, hevent, hkey⟩ := hends
              exact ⟨hgrows.present _ (h.area args) hpresent, event, hgrows.published hevent, hkey⟩
          | unsupported mime allowed => trivial
          | interrupted => trivial

/-- What a turn leaves. -/
structure TurnsWell (service : StorageService State Exc)
    (shows : State → List (Change String Bytes) → Prop) (uploads : UploadArgs → Prop)
    (s : Media State) (changes : List (Change String Bytes)) (s' : Media State)
    (request : Request Exc) (changes' : List (Change String Bytes)) : Prop where
  tidy : Tidy service shows uploads s' changes'
  grows : Grows changes s.published changes' s'.published
  request : GoesWell service uploads changes' s'.published request

theorem Tidy.stays (h : Tidy service shows uploads s changes) {request : Request Exc}
    (hrequest : GoesWell service uploads changes s.published request) :
    TurnsWell service shows uploads s changes s request changes :=
  ⟨h, .refl, hrequest⟩

theorem mem_of_getByHash {rows : List MediaFile} {workspaceId : Nat} {sha256 : String}
    (h : StorageService.getByHash rows workspaceId sha256 = some row) :
    row ∈ rows ∧ row.workspaceId = workspaceId ∧ row.sha256 = sha256 := by
  have hfound := List.find?_some h
  simp only [decide_eq_true_eq] at hfound
  exact ⟨List.mem_of_find?_eq_some h, hfound.2⟩

/-- The row of a content is of every upload of that content. -/
theorem Tidy.rowOf (h : Tidy service shows uploads s changes)
    (hsound : Sound service provider fault shows uploads) (hargs : uploads args)
    (hrow : row ∈ s.rows) (hworkspace : row.workspaceId = args.workspaceId)
    (hdigest : row.sha256 = service.computeSha256 args.data) : RowOf service changes row args := by
  obtain ⟨args', hargs', hof⟩ := h.rows row hrow
  have hdata : args'.data = args.data :=
    hsound.distinct args' args hargs' hargs (hof.sha256.symm.trans hdigest)
  have hsame : args'.workspaceId = args.workspaceId := hof.workspaceId.symm.trans hworkspace
  have hpath : pathOf service args' = pathOf service args := by rw [pathOf, pathOf, hsame, hdata]
  exact
    { workspaceId := hworkspace
      sha256 := hdigest
      sizeBytes := hdata ▸ hof.sizeBytes
      storageKey := by rw [hof.storageKey, hsame, hdata]
      mimeType := hof.mimeType
      present := hpath ▸ hof.present }

theorem Tidy.turn_asked (h : Tidy service shows uploads s changes)
    (hsound : Sound service provider fault shows uploads) (hargs : uploads args) (fate : Fate) :
    TurnsWell service shows uploads s changes (service.resume s fate (.asked args)).1
      (service.resume s fate (.asked args)).2 changes := by
  simp only [StorageService.resume]
  split
  · exact h.stays ⟨hargs, trivial⟩
  · split
    · exact h.stays ⟨hargs, trivial⟩
    · next hmime =>
        rw [not_not] at hmime
        cases hfound : StorageService.getByHash s.rows args.workspaceId
            (service.computeSha256 args.data) with
        | none => exact h.stays ⟨hargs, hmime⟩
        | some existing =>
            obtain ⟨hmem, hworkspace, hdigest⟩ := mem_of_getByHash hfound
            exact h.stays ⟨hargs, h.rowOf hsound hargs hmem hworkspace hdigest⟩

/-- The storage takes the bytes of every upload. -/
theorem Tidy.turn_missing (h : Tidy service shows uploads s changes)
    (hsound : Sound service provider fault shows uploads) (hargs : uploads args)
    (hmime : service.mimeOf args ∈ ALLOWED_MIME_TYPES) (fate : Fate) :
    ∃ changes', TurnsWell service shows uploads s changes
      (service.resume s fate (.missing args)).1 (service.resume s fate (.missing args)).2
      changes' := by
  by_cases hfate : fate = .cancelled
  · rw [StorageService.resume, if_pos hfate]
    exact ⟨changes, h.stays ⟨hargs, trivial⟩⟩
  · have hput := h.kept.put mediaArea_flat (hsound.area args) (List.cons_ne_nil _ _) args.data
    obtain ⟨hobject, hshows⟩ := hsound.serves.put h.shows
      (objectPath_storageKey provider args.workspaceId (hsound.digests args.data)) hput
      (service.mimeOf args)
    simp only [StorageService.resume, if_neg hfate]
    cases hcall : service.storage.put (StorageService.storageKey args.workspaceId
        (service.computeSha256 args.data)) args.data (service.mimeOf args) s.client with
    | mk result client =>
        rw [hcall] at hobject hshows
        simp only at hobject hshows
        subst hobject
        have hgrows : Grows changes s.published (⟨pathOf service args, some args.data⟩ :: changes)
            s.published := by
          refine ⟨fun path _ hpresent => ?_, List.Subset.refl _⟩
          unfold Present
          by_cases hpath : pathOf service args = path
          · rw [← hpath, Objects.current_cons_self]
            rfl
          · rw [Objects.current_cons_ne hpath]
            exact hpresent
        refine ⟨_, ?_, hgrows, hargs, hmime, rfl, rfl, ?_⟩
        · exact
            { shows := hshows
              kept := h.kept.cons_inside ⟨args, hargs, rfl, rfl⟩ (hsound.area args)
              rows := fun row hrow => by
                obtain ⟨args', hargs', hof⟩ := h.rows row hrow
                exact ⟨args', hargs', hof.grows hsound hgrows⟩
              once := h.once
              announced := h.announced }
        · unfold Present
          rw [Objects.current_cons_self]
          rfl

/-- The row of an upload is added, or there is one. -/
theorem Tidy.record (h : Tidy service shows uploads s changes) (hargs : uploads args)
    {object : StoredObject} (hmime : service.mimeOf args ∈ ALLOWED_MIME_TYPES)
    (hkey : object.key =
      StorageService.storageKey args.workspaceId (service.computeSha256 args.data))
    (hsize : object.sizeBytes = args.data.length)
    (hpresent : Present changes (pathOf service args)) :
    Tidy service shows uploads (service.record args object s).2 changes ∧
      s.published ⊆ (service.record args object s).2.published ∧
      EndsWell service changes (service.record args object s).2.published args
        (service.record args object s).1 := by
  unfold StorageService.record
  split
  · next htaken =>
      obtain ⟨row, hrow, hsame⟩ := List.any_eq_true.mp htaken
      obtain ⟨hworkspace, hdigest⟩ := of_decide_eq_true hsame
      obtain ⟨args', -, hof⟩ := h.rows row hrow
      refine ⟨h, List.Subset.refl _, hpresent, _, h.announced row hrow, ?_⟩
      rw [hof.storageKey, ← hof.workspaceId, ← hof.sha256, hworkspace, hdigest]
  · next htaken =>
      have hnew : RowOf service changes (service.mediaFile args object s.made) args :=
        ⟨rfl, rfl, hsize, hkey, hmime, hpresent⟩
      refine ⟨?_, List.subset_append_left _ _, hnew⟩
      exact
        { shows := h.shows
          kept := h.kept
          rows := by
            intro row hrow
            rcases List.mem_append.mp hrow with hrow | hrow
            · exact h.rows row hrow
            · obtain rfl := List.mem_singleton.mp hrow
              exact ⟨args, hargs, hnew⟩
          once := by
            refine List.pairwise_append.mpr ⟨h.once, List.pairwise_singleton _ _, ?_⟩
            intro row hrow row' hrow' hsame
            obtain rfl := List.mem_singleton.mp hrow'
            exact htaken (List.any_eq_true.mpr ⟨row, hrow, decide_eq_true hsame⟩)
          announced := by
            intro row hrow
            rcases List.mem_append.mp hrow with hrow | hrow
            · exact List.mem_append_left _ (h.announced row hrow)
            · obtain rfl := List.mem_singleton.mp hrow
              exact List.mem_append_right _ (List.mem_singleton.mpr rfl) }

theorem Tidy.turn_stored (h : Tidy service shows uploads s changes) (hargs : uploads args)
    {object : StoredObject}
    (hstored : GoesWell service uploads changes s.published (.stored args object)) (fate : Fate) :
    TurnsWell service shows uploads s changes (service.resume s fate (.stored args object)).1
      (service.resume s fate (.stored args object)).2 changes := by
  obtain ⟨-, hmime, hkey, hsize, hpresent⟩ := hstored
  obtain ⟨htidy, hpublished, hends⟩ := h.record hargs hmime hkey hsize hpresent
  simp only [StorageService.resume]
  split
  · exact h.stays ⟨hargs, trivial⟩
  · split
    · refine ⟨?_, ⟨fun _ _ hp => hp, hpublished⟩, hargs, ?_⟩
      · exact
          { shows := htidy.shows
            kept := htidy.kept
            rows := h.rows
            once := h.once
            announced := fun row hrow => hpublished (h.announced row hrow) }
      · cases hresult : (service.record args object s).1 with
        | ok media => trivial
        | error e =>
            rw [hresult] at hends
            exact hends
    · exact ⟨htidy, ⟨fun _ _ hp => hp, hpublished⟩, hargs, hends⟩

theorem Tidy.turn (h : Tidy service shows uploads s changes)
    (hsound : Sound service provider fault shows uploads) (fate : Fate) {request : Request Exc}
    (hrequest : GoesWell service uploads changes s.published request) :
    ∃ changes', TurnsWell service shows uploads s changes (service.resume s fate request).1
      (service.resume s fate request).2 changes' := by
  cases request with
  | asked args => exact ⟨changes, h.turn_asked hsound hrequest fate⟩
  | missing args => exact h.turn_missing hsound hrequest.1 hrequest.2 fate
  | stored args object => exact ⟨changes, h.turn_stored hrequest.1 hrequest fate⟩
  | ended args result => exact ⟨changes, h.stays hrequest⟩

/-! ## Runs -/

/-- The state of the requests and of what they share. -/
def Orderly (service : StorageService State Exc) (shows : State → List (Change String Bytes) → Prop)
    (uploads : UploadArgs → Prop) (s : MediaSystem State Exc) : Prop :=
  ∃ changes, Tidy service shows uploads s.store changes ∧
    ∀ request ∈ s.procs, GoesWell service uploads changes s.store.published request

/-- Rows that are changed in nothing but their deletion. -/
theorem Tidy.withRows (h : Tidy service shows uploads s changes) {f : MediaFile → Option MediaFile}
    (hf : ∀ row row', f row = some row' → ∃ deletedAt, row' = { row with deletedAt }) :
    Tidy service shows uploads { s with rows := s.rows.filterMap f } changes where
  shows := h.shows
  kept := h.kept
  rows := by
    intro row' hrow'
    obtain ⟨row, hrow, hfrow⟩ := List.mem_filterMap.mp hrow'
    obtain ⟨deletedAt, rfl⟩ := hf row row' hfrow
    obtain ⟨args, hargs, hof⟩ := h.rows row hrow
    exact ⟨args, hargs, ⟨hof.workspaceId, hof.sha256, hof.sizeBytes, hof.storageKey, hof.mimeType,
      hof.present⟩⟩
  once := by
    refine List.pairwise_filterMap.mpr (h.once.imp ?_)
    rintro a b hdiffer a' ha b' hb
    obtain ⟨_, rfl⟩ := hf a a' ha
    obtain ⟨_, rfl⟩ := hf b b' hb
    exact hdiffer
  announced := by
    intro row' hrow'
    obtain ⟨row, hrow, hfrow⟩ := List.mem_filterMap.mp hrow'
    obtain ⟨deletedAt, rfl⟩ := hf row row' hfrow
    exact h.announced row hrow

theorem Orderly.withRows {s : MediaSystem State Exc} (h : Orderly service shows uploads s)
    {f : MediaFile → Option MediaFile}
    (hf : ∀ row row', f row = some row' → ∃ deletedAt, row' = { row with deletedAt }) :
    Orderly service shows uploads
      { s with store := { s.store with rows := s.store.rows.filterMap f } } := by
  obtain ⟨changes, htidy, hrequests⟩ := h
  exact ⟨changes, htidy.withRows hf, hrequests⟩

theorem Orderly.turn {s : MediaSystem State Exc} (h : Orderly service shows uploads s)
    (hsound : Sound service provider fault shows uploads) (turn : Turn Fate) :
    Orderly service shows uploads (Interleaving.step service.resume s turn) := by
  cases hp : s.procs[turn.proc]? with
  | none =>
      rw [Interleaving.step_of_none hp]
      exact h
  | some request =>
      obtain ⟨changes, htidy, hrequests⟩ := h
      obtain ⟨changes', hturn⟩ :=
        htidy.turn hsound turn.input (hrequests request (List.mem_of_getElem? hp))
      rw [Interleaving.step_of_some hp]
      refine ⟨changes', hturn.tidy, fun other hother => ?_⟩
      rcases List.mem_or_eq_of_mem_set hother with hother | rfl
      · exact (hrequests other hother).grows hsound hturn.grows
      · exact hturn.request

/-- The uploads of a run, and the calls of others that keep clear of them. -/
def Admits (provider : LocalStorageProvider) (uploads : UploadArgs → Prop) : MediaEvent → Prop
  | .begin args => uploads args
  | .storage call => LocalStorageProvider.ClearOf provider mediaArea call
  | _ => True

theorem Orderly.step {s : MediaSystem State Exc} (h : Orderly service shows uploads s)
    (hsound : Sound service provider fault shows uploads) {event : MediaEvent}
    (hevent : Admits provider uploads event) :
    Orderly service shows uploads (service.step s event) := by
  cases event with
  | begin args =>
      obtain ⟨changes, htidy, hrequests⟩ := h
      refine ⟨changes, htidy, fun request hrequest => ?_⟩
      rcases List.mem_append.mp hrequest with hrequest | hrequest
      · exact hrequests request hrequest
      · obtain rfl := List.mem_singleton.mp hrequest
        exact hevent
  | turn turn => exact h.turn hsound turn
  | storage call =>
      obtain ⟨changes, htidy, hrequests⟩ := h
      obtain ⟨hkept, hcurrent⟩ := hevent.kept htidy.kept
      have hgrows : Grows changes s.store.published
          (provider.objects changes (LocalStorageProvider.storageCall call)).2
          s.store.published := by
        refine ⟨fun path harea hpresent => ?_, List.Subset.refl _⟩
        rw [Present, hcurrent path harea]
        exact hpresent
      refine ⟨_, ?_, fun request hrequest => (hrequests request hrequest).grows hsound hgrows⟩
      exact
        { shows := hsound.serves.shows htidy.shows call
          kept := hkept
          rows := fun row hrow => by
            obtain ⟨args, hargs, hof⟩ := htidy.rows row hrow
            exact ⟨args, hargs, hof.grows hsound hgrows⟩
          once := htidy.once
          announced := htidy.announced }
  | softDelete id now =>
      have hrows := h.withRows
        (f := fun row => some (if row.id = id then { row with deletedAt := some now } else row)) (by
          rintro row row' hrow
          obtain rfl := Option.some.inj hrow
          split
          · exact ⟨_, rfl⟩
          · exact ⟨row.deletedAt, rfl⟩)
      rw [List.filterMap_eq_map'] at hrows
      exact hrows
  | restore id =>
      have hrows := h.withRows
        (f := fun row => some (if row.id = id then { row with deletedAt := none } else row)) (by
          rintro row row' hrow
          obtain rfl := Option.some.inj hrow
          split
          · exact ⟨_, rfl⟩
          · exact ⟨row.deletedAt, rfl⟩)
      rw [List.filterMap_eq_map'] at hrows
      exact hrows
  | delete id =>
      have hrows := h.withRows (f := Option.guard fun row => row.id ≠ id) (by
        rintro row row' hrow
        obtain ⟨rfl, -⟩ := Option.guard_eq_some_iff.mp hrow
        exact ⟨row.deletedAt, rfl⟩)
      rw [List.filterMap_eq_filter] at hrows
      exact hrows

/-- What uploads promise. -/
structure Safe (service : StorageService State Exc) (s : MediaSystem State Exc) : Prop where
  /-- No upload ends with a fault of the storage. -/
  faultless : ∀ args exc, .ended args (.error (.storage exc)) ∉ s.procs
  /-- The row that an upload returns is of its bytes, and they are read back. -/
  returned : ∀ args media, .ended args (.ok media) ∈ s.procs →
    media.workspaceId = args.workspaceId ∧ media.sha256 = service.computeSha256 args.data ∧
      media.sizeBytes = args.data.length ∧ (service.read media s.store).1 = .ok args.data
  /-- An upload is refused for another one of its bytes, which was announced. -/
  refused : ∀ args, .ended args (.error .integrity) ∈ s.procs →
    ∃ event ∈ s.store.published, event.storageKey =
        StorageService.storageKey args.workspaceId (service.computeSha256 args.data) ∧
      (service.storage.get event.storageKey s.store.client).1 = .ok args.data
  /-- The bytes of a row are read back. -/
  rows : ∀ row ∈ s.store.rows, row.mimeType ∈ ALLOWED_MIME_TYPES ∧
    ∃ data, (service.read row s.store).1 = .ok data ∧ row.sha256 = service.computeSha256 data ∧
      row.sizeBytes = data.length
  /-- A content has one row in a workspace. -/
  once : s.store.rows.Pairwise fun a b =>
    ¬ (a.workspaceId = b.workspaceId ∧ a.sha256 = b.sha256)
  announced : ∀ row ∈ s.store.rows, ⟨row.storageKey, row.sizeBytes⟩ ∈ s.store.published

/-- What is in the storage at the place of an upload are its bytes. -/
theorem Tidy.get (h : Tidy service shows uploads s changes)
    (hsound : Sound service provider fault shows uploads) (hargs : uploads args)
    (hpresent : Present changes (pathOf service args)) :
    (service.storage.get
      (StorageService.storageKey args.workspaceId (service.computeSha256 args.data))
      s.client).1 = .ok args.data := by
  obtain ⟨data, hcurrent⟩ := Option.isSome_iff_exists.mp hpresent
  obtain ⟨args', hargs', hpath, rfl⟩ := h.kept.current (hsound.area args) hcurrent
  have hdata := hsound.distinct args args' hargs hargs' (mediaPath_inj hpath)
  rw [← hdata] at hcurrent
  exact (hsound.serves.get h.shows
    (objectPath_storageKey provider args.workspaceId (hsound.digests args.data)) hcurrent).1

theorem Orderly.safe {s : MediaSystem State Exc} (h : Orderly service shows uploads s)
    (hsound : Sound service provider fault shows uploads) : Safe service s := by
  obtain ⟨changes, htidy, hrequests⟩ := h
  exact
    { faultless := fun args exc hmem => (hrequests _ hmem).2
      returned := by
        intro args media hmem
        obtain ⟨hargs, hof⟩ := hrequests _ hmem
        have hread : (service.read media s.store).1 = .ok args.data := by
          rw [StorageService.read, hof.storageKey]
          exact htidy.get hsound hargs hof.present
        exact ⟨hof.workspaceId, hof.sha256, hof.sizeBytes, hread⟩
      refused := by
        intro args hmem
        obtain ⟨hargs, hpresent, event, hevent, hkey⟩ := hrequests _ hmem
        exact ⟨event, hevent, hkey, hkey ▸ htidy.get hsound hargs hpresent⟩
      rows := by
        intro row hrow
        obtain ⟨args, hargs, hof⟩ := htidy.rows row hrow
        refine ⟨hof.mimeType, args.data, ?_, hof.sha256, hof.sizeBytes⟩
        rw [StorageService.read, hof.storageKey]
        exact htidy.get hsound hargs hof.present
      once := htidy.once
      announced := htidy.announced }

/-- The requests are safe with any client that serves objects. -/
theorem safe_of_sound (hsound : Sound service provider fault shows uploads) {client : State}
    (hclient : shows client []) {events : List MediaEvent}
    (hevents : ∀ event ∈ events, Admits provider uploads event) :
    Safe service (Run.run service.step ⟨⟨client, [], 0, []⟩, []⟩ events) := by
  have hstart : Orderly service shows uploads ⟨⟨client, [], 0, []⟩, []⟩ := by
    refine ⟨[], ⟨hclient, .nil, ?_, List.Pairwise.nil, ?_⟩, ?_⟩
    · exact fun row hrow => absurd hrow List.not_mem_nil
    · exact fun row hrow => absurd hrow List.not_mem_nil
    · exact fun request hrequest => absurd hrequest List.not_mem_nil
  refine Orderly.safe ?_ hsound
  clear hclient
  generalize (⟨⟨client, [], 0, []⟩, []⟩ : MediaSystem State Exc) = s at hstart ⊢
  induction events generalizing s with
  | nil => exact hstart
  | cons event events ih =>
      rw [List.forall_mem_cons] at hevents
      exact ih hevents.2 _ (hstart.step hsound hevents.1)

end

/-! ## The storage of `get_storage` -/

/-- On the wrapped local storage whose root was empty: whatever is uploaded, together with
whatever else, no upload finds the storage blocked, each content has one row in a workspace, and
what was uploaded is read back.  The digests of the uploads tell their bytes apart, and the other
callers keep clear of the keys of digests. -/
theorem uploads_safe {V : Type} {root : List String} {publicBaseUrl : String} {files₀ files : Files}
    {provider : LocalStorageProvider}
    (hinit : LocalStorageProvider.init root publicBaseUrl files₀ = .ok (provider, files))
    (hempty : ∀ path, path ≠ [] → files₀.entry (root ++ path) = none)
    {metered : MeteredStorageClient Files StorageFault V}
    (hwraps : metered.client = provider.client)
    {process : Process Files V} (hfiles : process.client = files)
    (hinstruments : Instruments.init = .ok process.instruments)
    {service : StorageService (Process Files V × Nat) (MeteredFault StorageFault)}
    (elapsed : Nat → PyFloat) (hservice : service.storage = metered.timedClient elapsed)
    (hdigests : ∀ data, HexDigest (service.computeSha256 data)) (events : List MediaEvent)
    (hdistinct : ∀ args args', .begin args ∈ events → .begin args' ∈ events →
      service.computeSha256 args.data = service.computeSha256 args'.data → args.data = args'.data)
    (hothers : ∀ call, .storage call ∈ events →
      LocalStorageProvider.ClearOf provider mediaArea call) :
    Safe service (Run.run service.step ⟨⟨(process, 0), [], 0, []⟩, []⟩ events) := by
  obtain ⟨hroot, hshows⟩ := LocalStorageProvider.shows_of_init hinit hempty
  have hready : process.instruments.Ready := by
    rw [Instruments.init_eq] at hinstruments
    rw [← Except.ok.inj hinstruments]
    exact ⟨rfl, rfl⟩
  have hserves := MeteredStorageClient.serves (hwraps ▸ provider.serves) elapsed
  rw [← hservice] at hserves
  have hsound : Sound service provider _ _ fun args => .begin args ∈ events :=
    ⟨hserves, hdigests, hdistinct⟩
  refine safe_of_sound hsound ⟨hfiles ▸ hshows, hready⟩ fun event hevent => ?_
  cases event with
  | begin args => exact hevent
  | storage call => exact hothers call hevent
  | turn turn => trivial
  | softDelete id now => trivial
  | restore id => trivial
  | delete id => trivial

/-- The service on the wrapped local storage, with the digests of the bytes of "hi" and of none. -/
def mediaService : StorageService (Process Files String × Nat) (MeteredFault StorageFault) where
  storage := MeteredStorageClient.meteredMedia.timedClient fun _ => .finite 1
  computeSha256 data :=
    if data = [104, 105] then "8f434346648f6b96df89dda901c5176b10a6d83961dd3c1ac88b59b2dc327aa4"
    else "e3b0c44298fc1c149afbf4c8996fb92427ae41e4649b934ca495991b7852b855"
  guessType filename := if filename = "note.txt" then some "text/plain" else none

/-- Two requests upload the same bytes at once, and the storage is used for a narration. -/
def racingUploads : List MediaEvent :=
  let args : UploadArgs := ⟨7, "note.txt", [104, 105], 3, none, none⟩
  [.begin args, .begin { args with actorId := 4 }, .turn ⟨0, .goesOn⟩, .turn ⟨1, .goesOn⟩,
    .turn ⟨1, .goesOn⟩, .turn ⟨0, .goesOn⟩,
    .storage (.put ("/".intercalate ["videos", "1", "audio", "v1"]) [1] "audio/mpeg"),
    .turn ⟨1, .goesOn⟩, .turn ⟨0, .goesOn⟩]

/-- The process at first. -/
def freshProcess : Process Files String :=
  ⟨LocalStorageProvider.bareFiles.withDirs ["srv", "media"], .fresh, ⟨none, none, [], 0⟩⟩

theorem uploads_safe_racing :
    Safe mediaService
        (Run.run mediaService.step ⟨⟨(freshProcess, 0), [], 0, []⟩, []⟩ racingUploads) ∧
      (Run.run mediaService.step ⟨⟨(freshProcess, 0), [], 0, []⟩, []⟩ racingUploads).store.rows.map
        (·.createdBy) = [4] := by
  refine ⟨?_, by decide +kernel⟩
  refine @uploads_safe String ["srv", "media"] "https://cdn.example/"
    LocalStorageProvider.bareFiles _ LocalStorageProvider.mediaProvider rfl (fun path _ => rfl)
    MeteredStorageClient.meteredMedia rfl freshProcess rfl Instruments.init_eq mediaService
    (fun _ => .finite 1) rfl
    ?_ racingUploads ?_ ?_
  · intro data
    unfold mediaService
    dsimp only
    split
    · exact ⟨by decide +kernel, List.all_iff_forall_prop.mp (by decide +kernel)⟩
    · exact ⟨by decide +kernel, List.all_iff_forall_prop.mp (by decide +kernel)⟩
  · intro args args' hargs hargs' _
    simp only [racingUploads, List.mem_cons, MediaEvent.begin.injEq, reduceCtorEq,
      List.not_mem_nil, or_false] at hargs hargs'
    rcases hargs with rfl | rfl <;> rcases hargs' with rfl | rfl <;> rfl
  · intro call hcall
    simp only [racingUploads, List.mem_cons, MediaEvent.storage.injEq, reduceCtorEq, false_or,
      List.not_mem_nil, or_false] at hcall
    subst hcall
    refine clearOf_mediaArea (c := 'v') ?_ (by decide) (by decide) rfl
    simp only [List.forall_mem_cons]
    refine ⟨?_, ?_, ?_, ?_, fun p hp => absurd hp List.not_mem_nil⟩
    all_goals exact ⟨by decide, by decide, by decide, by decide, by decide⟩

end YoutubeFactory.Storage
