import YoutubeFactory.Pipeline.Mock
import YoutubeFactory.Storage.Uploads

/-!
# The artifacts of a run

What a run has made is named by the storage keys of its artifacts, and the bytes are in the
storage.  The tables are written in transactions and may be rolled back, the storage is not.  A
key names a video and a version of it, and the version may be one that was rolled back.

Nevertheless, whatever is called, committed and rolled back, and whatever else the storage is used
for: an artifact is read back, and it was made from the script of the version that its key names
(`artifacts_stored`).  The voice and the size may be those of a later call.
-/

namespace YoutubeFactory.Pipeline

open Numbering (Gapless)
open Objects (Apart Flat Kept)
open Python (PyFloat)
open Storage

/-! ## Links -/

/-- The `storage_key` of the artifact of a stage, if it has one. -/
def PipelineRun.artifactKey (run : PipelineRun) (stage : String) : Option String :=
  if stage = "voiceover" then run.artifacts.voiceover.map (·.storageKey)
  else if stage = "render" then run.artifacts.render.map (·.storageKey)
  else none

namespace MockProviders

variable {State Exc : Type} (mock : MockProviders State Exc)

/-- `artifact_url` -/
def artifactUrl (run : PipelineRun) (stage : String) (s : State) :
    Except Exc (Option String) × State :=
  match (run.artifactKey stage).filter (· ≠ "") with
  | none => (.ok none, s)
  | some key => (mock.storage.presignUrl key 3600 s).map (·.map some) id

end MockProviders

/-! ## Sessions -/

/-- The committed tables, the tables of the session, and the storage. -/
structure Studio (State : Type) where
  committed : PipelineDb
  working : PipelineDb
  client : State

inductive StudioEvent where
  | call (call : StudioCall)
  | commit
  | rollBack
  | storage (call : ClientCall)

def MockProviders.step {State Exc : Type} (mock : MockProviders State Exc) (s : Studio State) :
    StudioEvent → Studio State
  | .call call =>
      let (working, client) := mock.call s.working s.client call
      { s with working, client }
  | .commit => { s with committed := s.working }
  | .rollBack => { s with working := s.committed }
  | .storage call => { s with client := (mock.storage.call s.client call).2 }

/-! ## Keys -/

/-- What a stage writes. -/
inductive Medium where
  | audio
  | video

namespace Medium

def key : Medium → Id → Nat → String
  | audio => audioKey
  | video => renderKey

def path : Medium → Id → Nat → List String
  | audio, videoId, number => ["videos", toString videoId, "audio", s!"v{number}.mp3"]
  | video, videoId, number => ["videos", toString videoId, "render", s!"v{number}.mp4"]

/-- The bytes are made from the script. -/
def Of : Medium → String → Bytes → Prop
  | audio, script, data => ∃ voice, data = audioPayload voice script
  | video, script, data => ∃ width height audio, data = videoPayload width height audio script

theorem key_eq (medium : Medium) (videoId : Id) (number : Nat) :
    medium.key videoId number = "/".intercalate (medium.path videoId number) := by
  rw [← String.toList_inj, toList_intercalate_slash]
  cases medium with
  | audio => simp [key, path, audioKey, List.intercalate, ToString.toString]
  | video => simp [key, path, renderKey, List.intercalate, ToString.toString]

theorem path_inj {medium medium' : Medium} {videoId videoId' : Id} {number number' : Nat}
    (h : medium.path videoId number = medium'.path videoId' number') :
    medium = medium' ∧ videoId = videoId' ∧ number = number' := by
  have hkey : medium.key videoId number = medium'.key videoId' number' := by
    rw [key_eq, key_eq, h]
  cases medium with
  | audio =>
      cases medium' with
      | audio => exact ⟨rfl, audioKey_inj hkey⟩
      | video => exact absurd hkey (audioKey_ne_renderKey _ _ _ _)
  | video =>
      cases medium' with
      | audio => exact absurd hkey.symm (audioKey_ne_renderKey _ _ _ _)
      | video => exact ⟨rfl, renderKey_inj hkey⟩

theorem plain_file (number : Nat) {extension : String} (hslash : '/' ∉ extension.toList)
    (hnull : '\x00' ∉ extension.toList) : Plain s!"v{number}{extension}" := by
  have hchars : (s!"v{number}{extension}").toList =
      'v' :: (Nat.toDigits 10 number ++ extension.toList) := by
    simp [ToString.toString]
  refine ⟨fun h => ?_, fun h => ?_, fun h => ?_, fun h => ?_, fun h => ?_⟩
  · rw [h] at hchars
    cases hchars
  · rw [h] at hchars
    exact absurd (List.cons.inj hchars).1 (by decide)
  · rw [h] at hchars
    exact absurd (List.cons.inj hchars).1 (by decide)
  · rw [hchars, List.mem_cons, List.mem_append] at h
    rcases h with h | h | h
    · exact absurd h (by decide)
    · exact slash_notMem_toDigits number h
    · exact hslash h
  · rw [hchars, List.mem_cons, List.mem_append] at h
    rcases h with h | h | h
    · exact absurd h (by decide)
    · exact absurd (Nat.isDigit_of_mem_toDigits (by decide) (by decide) h) (by decide)
    · exact hnull h

theorem plain_path (medium : Medium) (videoId : Id) (number : Nat) :
    ∀ part ∈ medium.path videoId number, Plain part := by
  have hvideos : Plain "videos" := ⟨by decide, by decide, by decide, by decide, by decide⟩
  have haudio : Plain "audio" := ⟨by decide, by decide, by decide, by decide, by decide⟩
  have hrender : Plain "render" := ⟨by decide, by decide, by decide, by decide, by decide⟩
  cases medium with
  | audio =>
      have hfile : Plain s!"v{number}.mp3" := plain_file number (by decide) (by decide)
      simp only [path, List.forall_mem_cons]
      exact ⟨hvideos, plain_toString videoId, haudio, hfile,
        fun part hpart => absurd hpart List.not_mem_nil⟩
  | video =>
      have hfile : Plain s!"v{number}.mp4" := plain_file number (by decide) (by decide)
      simp only [path, List.forall_mem_cons]
      exact ⟨hvideos, plain_toString videoId, hrender, hfile,
        fun part hpart => absurd hpart List.not_mem_nil⟩

theorem path_ne_nil (medium : Medium) (videoId : Id) (number : Nat) :
    medium.path videoId number ≠ [] := by
  cases medium <;> exact List.cons_ne_nil _ _

theorem objectPath_key (provider : LocalStorageProvider) (medium : Medium) (videoId : Id)
    (number : Nat) :
    provider.objectPath (medium.key videoId number) = .ok (medium.path videoId number) := by
  rw [key_eq]
  exact LocalStorageProvider.objectPath_intercalate (medium.plain_path videoId number)
    (medium.path_ne_nil videoId number)

end Medium

/-- The paths of the artifacts. -/
def artifactArea (path : List String) : Prop :=
  ∃ (medium : Medium) (videoId : Id) (number : Nat), path = medium.path videoId number

theorem artifactArea_flat : Flat artifactArea := by
  rintro p q ⟨medium, videoId, number, rfl⟩ ⟨medium', videoId', number', rfl⟩ hprefix
  refine hprefix.eq_of_length ?_
  cases medium <;> cases medium' <;> rfl

/-! ## What is backed by the storage -/

/-- The key is of a version of the video, and the object was made from its script. -/
def MadeFrom (medium : Medium) (versions : List VideoVersion) (changes : List (Change String Bytes))
    (videoId : Id) (storageKey : String) : Prop :=
  ∃ version ∈ versions, version.videoId = videoId ∧
    storageKey = medium.key videoId version.versionNumber ∧
    ∃ script data, version.script = some script ∧
      Objects.current changes (medium.path videoId version.versionNumber) = some data ∧
      medium.Of script data

/-- The current version of a video is one of its own, the versions are numbered, and what was made
is there. -/
structure Stored (changes : List (Change String Bytes)) (works : Works) : Prop where
  owned : ∀ (videoId id : Id), works.current[videoId]? = some (some id) →
    ∃ version, works.versions[id]? = some version ∧ version.videoId = videoId
  numbered : Gapless VideoVersion.videoId VideoVersion.versionNumber works.versions
  narrated : ∀ work ∈ works.runs, ∀ a, work.voiceover = some a →
    MadeFrom .audio works.versions changes work.videoId a.storageKey
  rendered : ∀ work ∈ works.runs, ∀ a, work.render = some a →
    MadeFrom .video works.versions changes work.videoId a.storageKey

variable {changes : List (Change String Bytes)} {works works' : Works} {medium : Medium}
  {versions versions' : List VideoVersion} {videoId : Id} {storageKey : String}

theorem version_unique (h : Gapless VideoVersion.videoId VideoVersion.versionNumber versions)
    {v w : VideoVersion} (hv : v ∈ versions) (hw : w ∈ versions) (hvideo : v.videoId = w.videoId)
    (hnumber : v.versionNumber = w.versionNumber) : v = w := by
  obtain ⟨i, hi⟩ := List.mem_iff_getElem?.mp hv
  obtain ⟨j, hj⟩ := List.mem_iff_getElem?.mp hw
  have hij := h.eq_of_same hi hj hvideo hnumber
  rw [hij, hj] at hi
  exact (Option.some.inj hi).symm

/-- More versions and other objects do not matter. -/
theorem MadeFrom.mono {changes' : List (Change String Bytes)}
    (h : MadeFrom medium versions changes videoId storageKey) (hversions : versions ⊆ versions')
    (hcurrent : ∀ path, artifactArea path →
      Objects.current changes' path = Objects.current changes path) :
    MadeFrom medium versions' changes' videoId storageKey := by
  obtain ⟨version, hmem, hvideo, hkey, script, data, hscript, hdata, hof⟩ := h
  refine ⟨version, hversions hmem, hvideo, hkey, script, data, hscript, ?_, hof⟩
  rw [hcurrent _ ⟨medium, videoId, version.versionNumber, rfl⟩, hdata]

/-- Neither does a put of what is made from a version. -/
theorem MadeFrom.put (h : MadeFrom medium versions changes videoId storageKey)
    (hversions : versions ⊆ versions')
    (hnumbered : Gapless VideoVersion.videoId VideoVersion.versionNumber versions')
    {version : VideoVersion} (hversion : version ∈ versions') {script : String}
    (hscript : version.script = some script) {other : Medium} {data : Bytes}
    (hof : other.Of script data) :
    MadeFrom medium versions
      (⟨other.path version.videoId version.versionNumber, some data⟩ :: changes) videoId
      storageKey := by
  obtain ⟨version', hmem, hvideo, hkey, script', data', hscript', hdata', hof'⟩ := h
  refine ⟨version', hmem, hvideo, hkey, script', ?_⟩
  by_cases hpath : other.path version.videoId version.versionNumber =
      medium.path videoId version'.versionNumber
  · obtain ⟨rfl, hsame, hnumber⟩ := Medium.path_inj hpath
    obtain rfl := version_unique hnumbered hversion (hversions hmem) (hsame.trans hvideo.symm)
      hnumber
    rw [hscript] at hscript'
    obtain rfl := Option.some.inj hscript'
    rw [hpath, Objects.current_cons_self]
    exact ⟨data, hscript, rfl, hof⟩
  · rw [Objects.current_cons_ne hpath]
    exact ⟨data', hscript', hdata', hof'⟩

theorem Stored.objects {changes' : List (Change String Bytes)} (h : Stored changes works)
    (hcurrent : ∀ path, artifactArea path →
      Objects.current changes' path = Objects.current changes path) : Stored changes' works where
  owned := h.owned
  numbered := h.numbered
  narrated work hwork a ha :=
    (h.narrated work hwork a ha).mono (List.Subset.refl _) hcurrent
  rendered work hwork a ha :=
    (h.rendered work hwork a ha).mono (List.Subset.refl _) hcurrent

theorem Stored.put (h : Stored changes works) (hversions : works.versions ⊆ versions')
    (hnumbered : Gapless VideoVersion.videoId VideoVersion.versionNumber versions')
    {version : VideoVersion} (hversion : version ∈ versions') {script : String}
    (hscript : version.script = some script) {data : Bytes} (hof : medium.Of script data) :
    Stored (⟨medium.path version.videoId version.versionNumber, some data⟩ :: changes) works where
  owned := h.owned
  numbered := h.numbered
  narrated work hwork a ha :=
    (h.narrated work hwork a ha).put hversions hnumbered hversion hscript hof
  rendered work hwork a ha :=
    (h.rendered work hwork a ha).put hversions hnumbered hversion hscript hof

/-- What asks no provider leaves what is there. -/
theorem Stored.grown (h : Stored changes works) (hgrown : works.Grown works') :
    Stored changes works' ∧ works.versions <+: works'.versions := by
  cases hgrown with
  | same => exact ⟨h, List.prefix_rfl⟩
  | run videoId =>
      refine ⟨⟨h.owned, h.numbered, ?_, ?_⟩, List.prefix_rfl⟩
      · intro work hwork a ha
        rcases List.mem_append.mp hwork with hwork | hwork
        · exact h.narrated work hwork a ha
        · obtain rfl := List.mem_singleton.mp hwork
          cases ha
      · intro work hwork a ha
        rcases List.mem_append.mp hwork with hwork | hwork
        · exact h.rendered work hwork a ha
        · obtain rfl := List.mem_singleton.mp hwork
          cases ha
  | version videoId script =>
      have hprefix : works.versions <+: (works.withVersion videoId script).versions :=
        List.prefix_append _ _
      refine ⟨⟨?_, h.numbered.append rfl, ?_, ?_⟩, hprefix⟩
      · intro other id hcurrent
        simp only [Works.withVersion, List.getElem?_modify] at hcurrent ⊢
        obtain ⟨found, hfound, hid⟩ := Option.map_eq_some_iff.mp hcurrent
        by_cases hsame : videoId = other
        · rw [if_pos hsame, Option.some.injEq] at hid
          subst hid
          exact ⟨_, List.getElem?_concat_length, hsame⟩
        · rw [if_neg hsame] at hid
          subst hid
          obtain ⟨version, hversion, hvideo⟩ := h.owned other id hfound
          exact ⟨version, (List.getElem?_append_left
            (List.getElem?_eq_some_iff.mp hversion).1).trans hversion, hvideo⟩
      · intro work hwork a ha
        exact (h.narrated work hwork a ha).mono hprefix.subset fun _ _ => rfl
      · intro work hwork a ha
        exact (h.rendered work hwork a ha).mono hprefix.subset fun _ _ => rfl

/-- A script that a stage works from is of a version of its video. -/
theorem Stored.scriptFor {db : PipelineDb} (h : Stored changes db.works) {version : VideoVersion}
    {script : String} (hscript : scriptFor db videoId = some (version, script)) :
    version ∈ db.versions ∧ version.videoId = videoId ∧ version.script = some script := by
  obtain ⟨v, hv, hscripted⟩ := Option.bind_eq_some_iff.mp hscript
  obtain ⟨found, hfound, hmade⟩ := Option.bind_eq_some_iff.mp hscripted
  obtain ⟨text, htext, hpair⟩ := Option.map_eq_some_iff.mp hmade
  obtain ⟨rfl, rfl⟩ := Prod.mk.inj hpair
  obtain ⟨id, hid, hversion⟩ := Option.bind_eq_some_iff.mp hfound
  obtain ⟨hrow, -⟩ := Option.filter_eq_some_iff.mp hv
  have hcurrent : db.works.current[videoId]? = some (some id) := by
    simp [PipelineDb.works, hrow, hid]
  obtain ⟨owned, howned, hvideo⟩ := h.owned videoId id hcurrent
  have hsame : found = owned := by
    have hboth : some found = some owned := hversion.symm.trans howned
    exact Option.some.inj hboth
  exact ⟨List.mem_of_getElem? hversion, hsame ▸ hvideo, (Option.filter_eq_some_iff.mp htext).1⟩

/-! ## One call -/

section

variable {State Exc : Type} {mock : MockProviders State Exc} {provider : LocalStorageProvider}
  {fault : StorageFault → Exc} {shows : State → List (Change String Bytes) → Prop}
  {db : PipelineDb} {s : State} {runId : Id} {run : PipelineRun} {now : DateTime}

/-- The state of the storage, with the area of the artifacts as it should be. -/
structure Ready (shows : State → List (Change String Bytes) → Prop) (s : State)
    (changes : List (Change String Bytes)) : Prop where
  shows : shows s changes
  kept : Kept artifactArea (fun _ _ => True) changes

theorem Ready.put (h : Ready shows s changes)
    (hserves : Serves provider mock.storage fault shows) (medium : Medium) (videoId : Id)
    (number : Nat) (data : Bytes) (contentType : String) :
    (mock.storage.put (medium.key videoId number) data contentType s).1 =
        .ok ⟨medium.key videoId number, data.length, contentType,
          some (provider.presignUrl (medium.key videoId number))⟩ ∧
      Ready shows (mock.storage.put (medium.key videoId number) data contentType s).2
        (⟨medium.path videoId number, some data⟩ :: changes) := by
  have harea : artifactArea (medium.path videoId number) := ⟨medium, videoId, number, rfl⟩
  obtain ⟨hstored, hshows⟩ := hserves.put h.shows (medium.objectPath_key provider videoId number)
    (h.kept.put artifactArea_flat harea (medium.path_ne_nil videoId number) data) contentType
  exact ⟨hstored, hshows, h.kept.cons_inside trivial harea⟩

theorem Ready.synthesize (h : Ready shows s changes)
    (hserves : Serves provider mock.storage fault shows) (videoId : Id) (number : Nat)
    (text voice : String) :
    (mock.synthesize text voice (audioKey videoId number) s).1 =
        .ok ⟨audioKey videoId number, estimateDuration text, voice,
          (audioPayload voice text).length⟩ ∧
      Ready shows (mock.synthesize text voice (audioKey videoId number) s).2
        (⟨Medium.audio.path videoId number, some (audioPayload voice text)⟩ :: changes) := by
  obtain ⟨hstored, hready⟩ :=
    h.put hserves .audio videoId number (audioPayload voice text) "audio/mpeg"
  simp only [Medium.key] at hstored hready
  simp only [MockProviders.synthesize]
  cases hcall : mock.storage.put (audioKey videoId number) (audioPayload voice text) "audio/mpeg"
      s with
  | mk result client =>
      rw [hcall] at hstored hready
      simp only at hstored hready
      subst hstored
      exact ⟨rfl, hready⟩

theorem Ready.render (h : Ready shows s changes)
    (hserves : Serves provider mock.storage fault shows) (videoId : Id) (number : Nat)
    (width height : Int) (script : String) (audio : Option String) :
    (mock.render (.ok (width, height)) script audio (renderKey videoId number) s).1 =
        .ok ⟨renderKey videoId number, estimateDuration script, width, height,
          (videoPayload width height audio script).length⟩ ∧
      Ready shows (mock.render (.ok (width, height)) script audio (renderKey videoId number) s).2
        (⟨Medium.video.path videoId number, some (videoPayload width height audio script)⟩ ::
          changes) := by
  obtain ⟨hstored, hready⟩ :=
    h.put hserves .video videoId number (videoPayload width height audio script) "video/mp4"
  simp only [Medium.key] at hstored hready
  simp only [MockProviders.render]
  cases hcall : mock.storage.put (renderKey videoId number)
      (videoPayload width height audio script) "video/mp4" s with
  | mk result client =>
      rw [hcall] at hstored hready
      simp only at hstored hready
      subst hstored
      exact ⟨rfl, hready⟩

/-- A video with a script is narrated. -/
theorem Ready.voiceover (h : Ready shows s changes)
    (hserves : Serves provider mock.storage fault shows) {version : VideoVersion} {text : String}
    (hscript : Pipeline.scriptFor db run.videoId = some (version, text)) (voice : Option String) :
    ∃ (result : SpeechResult) (spoken : String),
      result.storageKey = audioKey run.videoId version.versionNumber ∧
      (mock.voiceover db s runId run voice now).1 = .ok result
        { db with runs := db.runs.modify runId fun run =>
            run.advance .render (fun a => { a with voiceover := some result }) now } ∧
      Ready shows (mock.voiceover db s runId run voice now).2
        (⟨Medium.audio.path run.videoId version.versionNumber, some (audioPayload spoken text)⟩ ::
          changes) := by
  obtain ⟨hresult, hready⟩ := h.synthesize hserves run.videoId version.versionNumber text
    ((voice.filter (· ≠ "")).getD "default")
  have hrun : (mock.voiceover db s runId run voice now).1 = _ :=
    voiceover_with hscript voice fun text voice key => (mock.synthesize text voice key s).1
  rw [hresult] at hrun
  have hleft : (mock.voiceover db s runId run voice now).2 =
      (mock.synthesize text ((voice.filter (· ≠ "")).getD "default")
        (audioKey run.videoId version.versionNumber) s).2 := by
    rw [MockProviders.voiceover, hscript]
  rw [← hleft] at hready
  exact ⟨_, _, rfl, hrun, hready⟩

/-- And rendered, unless the options are refused. -/
theorem Ready.renderVideo (h : Ready shows s changes)
    (hserves : Serves provider mock.storage fault shows) {version : VideoVersion} {text : String}
    (hscript : Pipeline.scriptFor db run.videoId = some (version, text)) (width height : Int)
    (metering : Except PipelineError Unit) :
    ∃ (result : RenderResult) (audio : Option String),
      result.storageKey = renderKey run.videoId version.versionNumber ∧
      ((mock.renderVideo db s runId run (.ok (width, height)) metering now).1 =
          .ok result (renderedDb db runId run.videoId result now) ∨
        ∃ e, metering = .error e ∧
          (mock.renderVideo db s runId run (.ok (width, height)) metering now).1 =
            .error e (renderedDb db runId run.videoId result now)) ∧
      Ready shows (mock.renderVideo db s runId run (.ok (width, height)) metering now).2
        (⟨Medium.video.path run.videoId version.versionNumber,
          some (videoPayload width height audio text)⟩ :: changes) := by
  obtain ⟨hresult, hready⟩ := h.render hserves run.videoId version.versionNumber width height text
    (run.artifacts.voiceover.map (·.storageKey))
  have hrender := @render_with db runId run now version text hscript
    (fun script audio key => (mock.render (.ok (width, height)) script audio key s).1) metering
  rw [hresult] at hrender
  have hleft : (mock.renderVideo db s runId run (.ok (width, height)) metering now).2 =
      (mock.render (.ok (width, height)) text (run.artifacts.voiceover.map (·.storageKey))
        (renderKey run.videoId version.versionNumber) s).2 := by
    rw [MockProviders.renderVideo, hscript]
  rw [← hleft] at hready
  exact ⟨_, _, rfl, hrender, hready⟩

/-- Options that are refused leave everything as it was. -/
theorem renderVideo_refused (e : PipelineError) (metering : Except PipelineError Unit) :
    ∃ e', mock.renderVideo db s runId run (.error e) metering now = (.error e' db, s) := by
  cases hscript : Pipeline.scriptFor db run.videoId with
  | none =>
      obtain ⟨e', hrender⟩ := @render_without db runId run now hscript
        (.ok fun script audio key => (mock.render (.error e) script audio key s).1) metering
      exact ⟨e', by rw [MockProviders.renderVideo, hrender, hscript]⟩
  | some scripted =>
      obtain ⟨version, text⟩ := scripted
      have hrender := @render_with db runId run now version text hscript
        (fun script audio key => (mock.render (.error e) script audio key s).1) metering
      refine ⟨e, ?_⟩
      rw [MockProviders.renderVideo, hscript]
      exact Prod.ext hrender rfl

end

/-! ## Sessions -/

theorem works_voiceover {db : PipelineDb} {runId : Id} {run : PipelineRun} {now : DateTime}
    (hrow : db.runs[runId]? = some run) (result : SpeechResult) :
    PipelineDb.works
        { db with
          runs := db.runs.modify runId fun run =>
            run.advance .render (fun a => { a with voiceover := some result }) now } =
      { db.works with
        runs := db.works.runs.set runId { run.work with voiceover := some result } } := by
  simp [PipelineDb.works, Table.modify_eq_set hrow, PipelineRun.work, PipelineRun.advance]

theorem works_render {db : PipelineDb} {runId : Id} {run : PipelineRun} {now : DateTime}
    (hrow : db.runs[runId]? = some run) (videoId : Id) (result : RenderResult) :
    (renderedDb db runId videoId result now).works =
      { db.works with
        runs := db.works.runs.set runId { run.work with render := some result } } := by
  have hvideos : ∀ v : Video, ({ v with status := .rendering } : Video).currentVersionId =
      v.currentVersionId := fun _ => rfl
  simp [PipelineDb.works, renderedDb, Table.modify_eq_set hrow, PipelineRun.work,
    PipelineRun.advance, Table.map_modify db.videos hvideos]

theorem Stored.withWork (h : Stored changes works) {work : Work} (i : Id)
    (hnarrated : ∀ a, work.voiceover = some a →
      MadeFrom .audio works.versions changes work.videoId a.storageKey)
    (hrendered : ∀ a, work.render = some a →
      MadeFrom .video works.versions changes work.videoId a.storageKey) :
    Stored changes { works with runs := works.runs.set i work } where
  owned := h.owned
  numbered := h.numbered
  narrated := by
    intro work' hwork'
    rcases List.mem_or_eq_of_mem_set hwork' with hwork' | rfl
    · exact h.narrated work' hwork'
    · exact hnarrated
  rendered := by
    intro work' hwork'
    rcases List.mem_or_eq_of_mem_set hwork' with hwork' | rfl
    · exact h.rendered work' hwork'
    · exact hrendered

/-- The tables, committed or not, are backed by the storage. -/
structure Backed {State : Type} (shows : State → List (Change String Bytes) → Prop)
    (s : Studio State) (changes : List (Change String Bytes)) : Prop where
  ready : Ready shows s.client changes
  committed : Stored changes s.committed.works
  working : Stored changes s.working.works
  versions : s.committed.works.versions <+: s.working.works.versions

section

variable {State Exc : Type} {mock : MockProviders State Exc} {provider : LocalStorageProvider}
  {fault : StorageFault → Exc} {shows : State → List (Change String Bytes) → Prop}
  {s : Studio State}

/-- A session goes on without the storage. -/
theorem Backed.grown (h : Backed shows s changes) {working : PipelineDb}
    (hgrown : s.working.works.Grown working.works) :
    Backed shows { s with working } changes := by
  obtain ⟨hstored, hversions⟩ := h.working.grown hgrown
  exact ⟨h.ready, h.committed, hstored, h.versions.trans hversions⟩

/-- A session goes on with what it has made. -/
theorem Backed.made (h : Backed shows s changes) {version : VideoVersion} {text : String}
    {runId : Id} {run : PipelineRun} (hrow : s.working.runs[runId]? = some run)
    (hscript : scriptFor s.working run.videoId = some (version, text)) {medium : Medium}
    {data : Bytes} (hof : medium.Of text data) {working : PipelineDb} {client : State} {work : Work}
    (hworks : working.works =
      { s.working.works with runs := s.working.works.runs.set runId work })
    (hvideo : work.videoId = run.videoId)
    (hnarrated : ∀ a, work.voiceover = some a → run.artifacts.voiceover = some a ∨
      medium = .audio ∧ a.storageKey = audioKey run.videoId version.versionNumber)
    (hrendered : ∀ a, work.render = some a → run.artifacts.render = some a ∨
      medium = .video ∧ a.storageKey = renderKey run.videoId version.versionNumber)
    (hready : Ready shows client
      (⟨medium.path run.videoId version.versionNumber, some data⟩ :: changes)) :
    ∃ changes', Backed shows { s with working, client } changes' := by
  obtain ⟨hversion, hsame, htext⟩ := h.working.scriptFor hscript
  have hmem : run.work ∈ s.working.works.runs :=
    List.mem_map_of_mem (List.mem_of_getElem? hrow)
  rw [← hsame] at hready
  have hnew : MadeFrom medium s.working.works.versions
      (⟨medium.path version.videoId version.versionNumber, some data⟩ :: changes) run.videoId
      (medium.key run.videoId version.versionNumber) := by
    refine ⟨version, hversion, hsame, rfl, text, data, htext, ?_, hof⟩
    rw [← hsame, Objects.current_cons_self]
  have hworking := h.working.put (List.Subset.refl _) h.working.numbered hversion htext hof
  have hcommitted := h.committed.put h.versions.subset h.working.numbered hversion htext hof
  refine ⟨_, hready, hcommitted, ?_, ?_⟩
  · rw [hworks]
    refine hworking.withWork runId (fun a ha => ?_) fun a ha => ?_
    · rw [hvideo]
      rcases hnarrated a ha with hold | ⟨rfl, hkey⟩
      · exact hworking.narrated run.work hmem a hold
      · exact hkey ▸ hnew
    · rw [hvideo]
      rcases hrendered a ha with hold | ⟨rfl, hkey⟩
      · exact hworking.rendered run.work hmem a hold
      · exact hkey ▸ hnew
  · rw [hworks]
    exact h.versions

theorem grown_videoService {db : PipelineDb} (h : Stored changes db.works) (videoId : Id)
    (script : Option String) :
    db.works.Grown ((VideoService.addVersion videoId script).run db).state.works := by
  cases hv : db.liveVideo videoId with
  | none =>
      have hrun : (VideoService.addVersion videoId script).run db = _ :=
        EStateM.run_bind_of_error (run_video_none hv)
      rw [hrun]
      exact .same
  | some v =>
      rw [VideoService.run_addVersion h.numbered hv script]
      exact grown_addVersion fun _ => rfl

/-- Everything but the calls of the providers. -/
theorem Backed.other (h : Backed shows s changes) {call : StudioCall}
    (hcall : (mock.call s.working s.client call).2 = s.client)
    (hgrown : s.working.works.Grown (mock.call s.working s.client call).1.works) :
    Backed shows (mock.step s (.call call)) changes := by
  have hstep : mock.step s (.call call) =
      { s with
        working := (mock.call s.working s.client call).1
        client := (mock.call s.working s.client call).2 } := rfl
  rw [hstep, hcall]
  exact h.grown hgrown

theorem Backed.voiceover (h : Backed shows s changes)
    (hserves : Serves provider mock.storage fault shows) (runId : Id) (voice : Option String)
    (now : DateTime) :
    ∃ changes', Backed shows (mock.step s (.call (.voiceover runId voice now))) changes' := by
  cases hrow : s.working.runs[runId]? with
  | none =>
      refine ⟨changes, h.other ?_ ?_⟩
      · simp only [MockProviders.call, hrow]
      · simp only [MockProviders.call, hrow]
        exact .same
  | some run =>
      cases hscript : scriptFor s.working run.videoId with
      | none =>
          obtain ⟨e, hrun⟩ := @voiceover_without s.working runId run now hscript voice
            (.ok fun text voice key => (mock.synthesize text voice key s.client).1)
          refine ⟨changes, h.other ?_ ?_⟩
          · simp only [MockProviders.call, hrow, MockProviders.voiceover, hscript, Prod.map_snd,
              id_eq]
          · simp only [MockProviders.call, hrow, MockProviders.voiceover, hrun, Prod.map_fst]
            exact .same
      | some scripted =>
          obtain ⟨version, text⟩ := scripted
          obtain ⟨result, spoken, hkey, hrun, hready⟩ := @Ready.voiceover changes State Exc mock
            provider fault shows s.working s.client runId run now h.ready hserves version text
            hscript voice
          have hof : Medium.audio.Of text (audioPayload spoken text) := ⟨spoken, rfl⟩
          have hmade := h.made hrow hscript hof (@works_voiceover _ _ _ now hrow result) rfl
            (fun a ha => .inr ⟨rfl, Option.some.inj ha ▸ hkey⟩) (fun a ha => .inl ha) hready
          simp only [MockProviders.step, MockProviders.call, hrow, Prod.map_fst, Prod.map_snd,
            id_eq, hrun]
          exact hmade

theorem Backed.render (h : Backed shows s changes)
    (hserves : Serves provider mock.storage fault shows) (runId : Id)
    (settings : Except PipelineError (Int × Int)) (metering : Except PipelineError Unit)
    (now : DateTime) :
    ∃ changes', Backed shows (mock.step s (.call (.render runId settings metering now)))
      changes' := by
  cases hrow : s.working.runs[runId]? with
  | none =>
      refine ⟨changes, h.other ?_ ?_⟩
      · simp only [MockProviders.call, hrow]
      · simp only [MockProviders.call, hrow]
        exact .same
  | some run =>
      cases settings with
      | error e =>
          obtain ⟨e', hrun⟩ :=
            @renderVideo_refused State Exc mock s.working s.client runId run now e metering
          refine ⟨changes, h.other ?_ ?_⟩
          · simp only [MockProviders.call, hrow, hrun, Prod.map_snd, id_eq]
          · simp only [MockProviders.call, hrow, hrun, Prod.map_fst]
            exact .same
      | ok settings =>
          obtain ⟨width, height⟩ := settings
          cases hscript : scriptFor s.working run.videoId with
          | none =>
              obtain ⟨e, hrun⟩ := @render_without s.working runId run now hscript
                (.ok fun script audio key =>
                  (mock.render (.ok (width, height)) script audio key s.client).1) metering
              refine ⟨changes, h.other ?_ ?_⟩
              · simp only [MockProviders.call, hrow, MockProviders.renderVideo, hscript,
                  Prod.map_snd, id_eq]
              · simp only [MockProviders.call, hrow, MockProviders.renderVideo, hrun, Prod.map_fst]
                exact .same
          | some scripted =>
              obtain ⟨version, text⟩ := scripted
              obtain ⟨result, audio, hkey, hrun, hready⟩ := @Ready.renderVideo changes State Exc
                mock provider fault shows s.working s.client runId run now h.ready hserves version
                text hscript width height metering
              have hof : Medium.video.Of text (videoPayload width height audio text) :=
                ⟨width, height, audio, rfl⟩
              have hmade := h.made hrow hscript hof
                (@works_render _ _ _ now hrow run.videoId result) rfl (fun a ha => .inl ha)
                (fun a ha => .inr ⟨rfl, Option.some.inj ha ▸ hkey⟩) hready
              rcases hrun with hrun | ⟨e, -, hrun⟩
              · simp only [MockProviders.step, MockProviders.call, hrow, Prod.map_fst,
                  Prod.map_snd, id_eq, hrun]
                exact hmade
              · simp only [MockProviders.step, MockProviders.call, hrow, Prod.map_fst,
                  Prod.map_snd, id_eq, hrun]
                exact hmade

theorem Backed.step (h : Backed shows s changes)
    (hserves : Serves provider mock.storage fault shows) {event : StudioEvent}
    (hclear : ∀ call, event = .storage call →
      LocalStorageProvider.ClearOf provider artifactArea call) :
    ∃ changes', Backed shows (mock.step s event) changes' := by
  cases event with
  | call call =>
      cases call with
      | other call hsilent => exact ⟨changes, h.other rfl (call.grown hsilent s.working)⟩
      | addVersion videoId script =>
          exact ⟨changes, h.other rfl (grown_videoService h.working videoId script)⟩
      | voiceover runId voice now => exact h.voiceover hserves runId voice now
      | render runId settings metering now => exact h.render hserves runId settings metering now
  | commit => exact ⟨changes, h.ready, h.working, h.working, List.prefix_rfl⟩
  | rollBack => exact ⟨changes, h.ready, h.committed, h.committed, List.prefix_rfl⟩
  | storage call =>
      obtain ⟨hkept, hcurrent⟩ := (hclear call rfl).kept h.ready.kept
      exact ⟨_, ⟨hserves.shows h.ready.shows call, hkept⟩, h.committed.objects hcurrent,
        h.working.objects hcurrent, h.versions⟩

/-! ## Runs -/

/-- The object of an artifact is read back, and is made from a version of the video. -/
def Reads (mock : MockProviders State Exc) (client : State) (versions : List VideoVersion)
    (medium : Medium) (videoId : Id) (storageKey : String) : Prop :=
  ∃ version ∈ versions, version.videoId = videoId ∧
    storageKey = medium.key videoId version.versionNumber ∧
    ∃ script data, version.script = some script ∧
      (mock.storage.get storageKey client).1 = .ok data ∧ medium.Of script data

/-- What the tables promise of their artifacts. -/
structure Promises (mock : MockProviders State Exc) (provider : LocalStorageProvider)
    (client : State) (db : PipelineDb) : Prop where
  voiceover : ∀ run ∈ db.runs, ∀ a, run.artifacts.voiceover = some a →
    Reads mock client db.versions .audio run.videoId a.storageKey
  render : ∀ run ∈ db.runs, ∀ a, run.artifacts.render = some a →
    Reads mock client db.versions .video run.videoId a.storageKey
  url : ∀ run ∈ db.runs, ∀ stage, (mock.artifactUrl run stage client).1 =
    .ok ((run.artifactKey stage).map provider.presignUrl)

theorem Ready.reads {client : State} (h : Ready shows client changes)
    (hserves : Serves provider mock.storage fault shows) {storageKey : String}
    (hmade : MadeFrom medium versions changes videoId storageKey) :
    Reads mock client versions medium videoId storageKey := by
  obtain ⟨version, hmem, hvideo, rfl, script, data, hscript, hcurrent, hof⟩ := hmade
  obtain ⟨hget, -⟩ := hserves.get h.shows (medium.objectPath_key provider videoId _) hcurrent
  exact ⟨version, hmem, hvideo, rfl, script, data, hscript, hget, hof⟩

theorem Medium.key_ne_empty (medium : Medium) (videoId : Id) (number : Nat) :
    medium.key videoId number ≠ "" := by
  intro h
  have hchars := congrArg String.toList h
  cases medium with
  | audio =>
      rw [key, toList_audioKey] at hchars
      cases hchars
  | video =>
      rw [key, toList_renderKey] at hchars
      cases hchars

theorem Ready.url {client : State} (h : Ready shows client changes)
    (hserves : Serves provider mock.storage fault shows) {db : PipelineDb}
    (hstored : Stored changes db.works) {run : PipelineRun} (hrun : run ∈ db.runs)
    (stage : String) : (mock.artifactUrl run stage client).1 =
      .ok ((run.artifactKey stage).map provider.presignUrl) := by
  unfold MockProviders.artifactUrl
  cases hkey : run.artifactKey stage with
  | none => rfl
  | some storageKey =>
      have hmem : run.work ∈ db.works.runs := List.mem_map_of_mem hrun
      have hne : storageKey ≠ "" := by
        unfold PipelineRun.artifactKey at hkey
        split at hkey
        · obtain ⟨a, ha, rfl⟩ := Option.map_eq_some_iff.mp hkey
          obtain ⟨version, -, -, hstorage, -⟩ := hstored.narrated run.work hmem a ha
          rw [hstorage]
          exact Medium.key_ne_empty .audio _ _
        · split at hkey
          · obtain ⟨a, ha, rfl⟩ := Option.map_eq_some_iff.mp hkey
            obtain ⟨version, -, -, hstorage, -⟩ := hstored.rendered run.work hmem a ha
            rw [hstorage]
            exact Medium.key_ne_empty .video _ _
          · cases hkey
      have hfilter : (some storageKey).filter (fun key => decide (key ≠ "")) = some storageKey := by
        simp [hne]
      rw [hfilter]
      simp [hserves.presignUrl h.shows storageKey 3600]

theorem Ready.promises {client : State} (h : Ready shows client changes)
    (hserves : Serves provider mock.storage fault shows) {db : PipelineDb}
    (hstored : Stored changes db.works) : Promises mock provider client db where
  voiceover _ hrun a ha :=
    h.reads hserves (hstored.narrated _ (List.mem_map_of_mem hrun) a ha)
  render _ hrun a ha :=
    h.reads hserves (hstored.rendered _ (List.mem_map_of_mem hrun) a ha)
  url _ hrun stage := h.url hserves hstored hrun stage

theorem stored_empty {db : PipelineDb} (hversions : db.versions = []) (hruns : db.runs = [])
    (hcurrent : ∀ v ∈ db.videos, v.currentVersionId = none) : Stored [] db.works where
  owned := by
    intro videoId id hid
    obtain ⟨v, hv, hsome⟩ := List.mem_map.mp (List.mem_of_getElem? hid)
    rw [hcurrent v hv] at hsome
    cases hsome
  numbered := by
    show Gapless _ _ db.versions
    rw [hversions]
    exact Numbering.gapless_nil
  narrated := by
    intro work hwork
    rw [PipelineDb.works, hruns] at hwork
    exact absurd hwork List.not_mem_nil
  rendered := by
    intro work hwork
    rw [PipelineDb.works, hruns] at hwork
    exact absurd hwork List.not_mem_nil

/-- The tables stay backed with any client that serves objects. -/
theorem Backed.run (hserves : Serves provider mock.storage fault shows) {events : List StudioEvent}
    (hclear : ∀ call, .storage call ∈ events →
      LocalStorageProvider.ClearOf provider artifactArea call) :
    ∀ {s : Studio State} {changes : List (Change String Bytes)}, Backed shows s changes →
      ∃ changes', Backed shows (Run.run mock.step s events) changes' := by
  induction events with
  | nil => exact fun h => ⟨_, h⟩
  | cons event events ih =>
      intro s changes h
      have hfirst : ∀ call, event = .storage call →
          LocalStorageProvider.ClearOf provider artifactArea call := by
        rintro call rfl
        exact hclear call List.mem_cons_self
      obtain ⟨changes', hstep⟩ := h.step hserves hfirst
      exact ih (fun call hcall => hclear call (List.mem_cons_of_mem event hcall)) hstep

/-- What holds of the session and the storage at every moment. -/
structure Sound (mock : MockProviders State Exc) (provider : LocalStorageProvider)
    (s : Studio State) : Prop where
  committed : Promises mock provider s.client s.committed
  working : Promises mock provider s.client s.working
  /-- No narration fails for the storage. -/
  voiceover : ∀ runId run voice now, (scriptFor s.working run.videoId).isSome = true →
    ∃ result db, (mock.voiceover s.working s.client runId run voice now).1 = .ok result db
  /-- Nor does a render, if its options are accepted and its metering returns. -/
  render : ∀ runId run width height now, (scriptFor s.working run.videoId).isSome = true →
    ∃ result db, (mock.renderVideo s.working s.client runId run (.ok (width, height)) (.ok ())
      now).1 = .ok result db

theorem Backed.sound (h : Backed shows s changes)
    (hserves : Serves provider mock.storage fault shows) : Sound mock provider s where
  committed := h.ready.promises hserves h.committed
  working := h.ready.promises hserves h.working
  voiceover := by
    intro runId run voice now hsome
    obtain ⟨⟨version, text⟩, hscript⟩ := Option.isSome_iff_exists.mp hsome
    obtain ⟨result, -, -, hrun, -⟩ := @Ready.voiceover changes State Exc mock provider fault shows
      s.working s.client runId run now h.ready hserves version text hscript voice
    exact ⟨result, _, hrun⟩
  render := by
    intro runId run width height now hsome
    obtain ⟨⟨version, text⟩, hscript⟩ := Option.isSome_iff_exists.mp hsome
    obtain ⟨result, -, -, hrun, -⟩ := @Ready.renderVideo changes State Exc mock provider fault
      shows s.working s.client runId run now h.ready hserves version text hscript width height
      (.ok ())
    rcases hrun with hrun | ⟨e, he, -⟩
    · exact ⟨result, _, hrun⟩
    · cases he

end

/-- On the wrapped local storage whose root was empty, with the mock providers: whatever the
service is asked for, committed and rolled back, every artifact of every run is read back and
linked to, and it was made from the script of a version of its video.  No narration and no render
fails for the storage.  The other callers of the storage keep clear of the keys of artifacts. -/
theorem artifacts_stored {V : Type} {root : List String} {publicBaseUrl : String}
    {files₀ files : Files} {provider : LocalStorageProvider}
    (hinit : LocalStorageProvider.init root publicBaseUrl files₀ = .ok (provider, files))
    (hempty : ∀ path, path ≠ [] → files₀.entry (root ++ path) = none)
    {metered : MeteredStorageClient Files StorageFault V}
    (hwraps : metered.client = provider.client)
    {process : Process Files V} (hfiles : process.client = files)
    (hinstruments : Instruments.init = .ok process.instruments)
    {mock : MockProviders (Process Files V × Nat) (MeteredFault StorageFault)}
    (elapsed : Nat → PyFloat) (hmock : mock.storage = metered.timedClient elapsed)
    {db : PipelineDb} (hversions : db.versions = []) (hruns : db.runs = [])
    (hcurrent : ∀ v ∈ db.videos, v.currentVersionId = none) (events : List StudioEvent)
    (hothers : ∀ call, .storage call ∈ events →
      LocalStorageProvider.ClearOf provider artifactArea call) :
    Sound mock provider (Run.run mock.step ⟨db, db, (process, 0)⟩ events) := by
  obtain ⟨hroot, hshows⟩ := LocalStorageProvider.shows_of_init hinit hempty
  have hready : process.instruments.Ready := by
    rw [Instruments.init_eq] at hinstruments
    rw [← Except.ok.inj hinstruments]
    exact ⟨rfl, rfl⟩
  have hserves := MeteredStorageClient.serves (hwraps ▸ provider.serves) elapsed
  rw [← hmock] at hserves
  have hstored := stored_empty hversions hruns hcurrent
  have hshown : FileTree.Shows provider.root process.client [] := by
    rw [hfiles]
    exact hshows
  obtain ⟨changes, hbacked⟩ := Backed.run hserves hothers (s := ⟨db, db, (process, 0)⟩)
    ⟨⟨⟨hshown, hready⟩, .nil⟩, hstored, hstored, List.prefix_rfl⟩
  exact hbacked.sound hserves

/-- The mock providers on the wrapped local storage. -/
def mockMedia : MockProviders (Process Files String × Nat) (MeteredFault StorageFault) where
  storage := MeteredStorageClient.meteredMedia.timedClient fun _ => .finite 1
  raised _ := .outside "storage"

/-- A narration whose script is rolled back, and then another script with its narration. -/
def rolledBack : List StudioEvent :=
  [.call (.other (.start 0 1 1 0) trivial), .commit,
    .call (.other (.stage 0 (.script "Rain.") 2) trivial), .call (.voiceover 0 none 3), .rollBack,
    .call (.other (.stage 0 (.script "Snow.") 4) trivial), .call (.voiceover 0 (some "ann") 5),
    .commit]

theorem artifacts_stored_rolledBack :
    Sound mockMedia LocalStorageProvider.mediaProvider
        (Run.run mockMedia.step ⟨newVideo, newVideo, (freshProcess, 0)⟩ rolledBack) ∧
      (Run.run mockMedia.step ⟨newVideo, newVideo, (freshProcess, 0)⟩ rolledBack).committed.runs.map
        (fun run => run.artifacts.voiceover.map (·.storageKey)) =
          [some "videos/0/audio/v1.mp3"] := by
  refine ⟨?_, by decide +kernel⟩
  refine @artifacts_stored String ["srv", "media"] "https://cdn.example/"
    LocalStorageProvider.bareFiles _ LocalStorageProvider.mediaProvider rfl (fun path _ => rfl)
    MeteredStorageClient.meteredMedia rfl freshProcess rfl Instruments.init_eq mockMedia
    (fun _ => .finite 1) rfl newVideo rfl rfl (by decide) rolledBack ?_
  intro call hcall
  simp [rolledBack] at hcall

end YoutubeFactory.Pipeline
