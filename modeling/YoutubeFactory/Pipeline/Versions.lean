import YoutubeFactory.Lib.Frames
import YoutubeFactory.Lib.Numbering
import YoutubeFactory.Pipeline.Flight

/-!
# Versions of a video

`VideoService.add_version` of `app/services/content.py` takes the next number from the greatest one,
`VideoPipelineService.script` from the count of the versions.  The numbers of a video are 1 to n
whichever is called and in whatever order, so the two agree (`versions_numbered`).  A storage key
says the video and the number, so no two versions share one.
-/

namespace YoutubeFactory.Pipeline

open Python Numbering

/-! ## The content service -/

/-- `next_version_number` -/
def PipelineDb.nextVersionNumber (db : PipelineDb) (videoId : Id) : Nat :=
  ((db.versions.filter fun v => v.videoId = videoId).map (·.versionNumber)).foldr max 0 + 1

/-- `add_version` -/
def VideoService.addVersion (videoId : Id) (script : Option String) : PipelineM Id := do
  let _ ← video videoId
  let db ← get
  let version : VideoVersion :=
    { videoId, versionNumber := db.nextVersionNumber videoId, script }
  if db.versions.any fun v =>
      v.videoId = videoId ∧ v.versionNumber = version.versionNumber then
    throw .integrity
  else
    set { db with
      versions := db.versions ++ [version]
      videos := db.videos.modify videoId fun v =>
        { v with currentVersionId := some db.versions.length } }
    pure db.versions.length

/-! ## Calls -/

/-- A new version of a video, by either service. -/
inductive VersionCall where
  | addVersion (videoId : Id) (script : Option String)
  | script (runId : Id) (run : PipelineRun) (text : String) (now : DateTime)

namespace VersionCall

def videoId : VersionCall → Id
  | .addVersion videoId _ => videoId
  | .script _ run _ _ => run.videoId

/-- The script of the version. -/
def text : VersionCall → Option String
  | .addVersion _ given => given
  | .script _ _ given _ => some given

def body : VersionCall → PipelineM Id
  | .addVersion videoId given => VideoService.addVersion videoId given
  | .script runId run given now => Pipeline.script runId run given now

/-- The video is there, and a script of the pipeline is not blank. -/
def Accepted (db : PipelineDb) (call : VersionCall) : Prop :=
  (db.liveVideo call.videoId).isSome = true ∧
    match call with
    | .addVersion _ _ => True
    | .script _ _ given _ => strip given ≠ ""

/-- What the call leaves, returned or raised. -/
def step (db : PipelineDb) (call : VersionCall) : PipelineDb := (call.body.run db).state

def after (db : PipelineDb) (calls : List VersionCall) : PipelineDb := Run.run step db calls

end VersionCall

/-! ## The law -/

def PipelineDb.versionsOf (db : PipelineDb) (videoId : Id) : List VideoVersion :=
  db.versions.filter fun v => v.videoId = videoId

/-- The storage keys of a version. -/
def VideoVersion.keys (version : VideoVersion) : List String :=
  [audioKey version.videoId version.versionNumber, renderKey version.videoId version.versionNumber]

/-- The versions of each video are numbered from one in their order, and no two versions have a
storage key in common. -/
structure VersionsNumbered (db : PipelineDb) : Prop where
  fromOne : ∀ videoId, (db.versionsOf videoId).map (·.versionNumber) =
    List.range' 1 (db.versionsOf videoId).length
  keys : ∀ (i j : Id) (v w : VideoVersion), db.versions[i]? = some v → db.versions[j]? = some w →
    i ≠ j → v.keys.Disjoint w.keys

/-- The call adds a version with the next number, which is the current one of its video. -/
structure Allocates (db db' : PipelineDb) (call : VersionCall) (id : Id) : Prop where
  versions : db'.versions = db.versions ++
    [⟨call.videoId, (db.versionsOf call.videoId).length + 1, call.text⟩]
  returned : id = db.versions.length
  current : ∃ v, db'.liveVideo call.videoId = some v ∧ v.currentVersionId = some id ∧
    db'.currentVersion v =
      some ⟨call.videoId, (db.versionsOf call.videoId).length + 1, call.text⟩

/-! ## Keys -/

theorem slash_notMem_toDigits (n : Nat) : '/' ∉ Nat.toDigits 10 n := fun h =>
  absurd (Nat.isDigit_of_mem_toDigits (by decide) (by decide) h) (by decide)

theorem toList_audioKey (videoId number : Nat) :
    (audioKey videoId number).toList = "videos/".toList ++ (Nat.toDigits 10 videoId ++
      '/' :: ("audio/v".toList ++ (Nat.toDigits 10 number ++ ".mp3".toList))) := by
  simp [audioKey, ToString.toString]

theorem toList_renderKey (videoId number : Nat) :
    (renderKey videoId number).toList = "videos/".toList ++ (Nat.toDigits 10 videoId ++
      '/' :: ("render/v".toList ++ (Nat.toDigits 10 number ++ ".mp4".toList))) := by
  simp [renderKey, ToString.toString]

/-- What stands between two slashes, and the number before the extension. -/
theorem key_inj {folder extension : List Char} {videoId videoId' number number' : Nat}
    (h : Nat.toDigits 10 videoId ++ '/' :: (folder ++ (Nat.toDigits 10 number ++ extension)) =
      Nat.toDigits 10 videoId' ++ '/' :: (folder ++ (Nat.toDigits 10 number' ++ extension))) :
    videoId = videoId' ∧ number = number' := by
  obtain ⟨hvideo, hrest⟩ :=
    Frames.append_sep_inj (slash_notMem_toDigits _) (slash_notMem_toDigits _) h
  have hnumber := List.append_cancel_right (List.append_cancel_left hrest)
  have hread : ∀ {n n' : Nat}, Nat.toDigits 10 n = Nat.toDigits 10 n' → n = n' := by
    intro n n' hdigits
    rw [← @Nat.ofDigitChars_ten_toDigits n, hdigits, Nat.ofDigitChars_ten_toDigits]
  exact ⟨hread hvideo, hread hnumber⟩

theorem audioKey_inj {videoId videoId' number number' : Nat}
    (h : audioKey videoId number = audioKey videoId' number') :
    videoId = videoId' ∧ number = number' := by
  have hlists := congrArg String.toList h
  rw [toList_audioKey, toList_audioKey] at hlists
  exact key_inj (List.append_cancel_left hlists)

theorem renderKey_inj {videoId videoId' number number' : Nat}
    (h : renderKey videoId number = renderKey videoId' number') :
    videoId = videoId' ∧ number = number' := by
  have hlists := congrArg String.toList h
  rw [toList_renderKey, toList_renderKey] at hlists
  exact key_inj (List.append_cancel_left hlists)

theorem audioKey_ne_renderKey (videoId videoId' number number' : Nat) :
    audioKey videoId number ≠ renderKey videoId' number' := by
  intro h
  have hlists := congrArg String.toList h
  rw [toList_audioKey, toList_renderKey] at hlists
  obtain ⟨-, hrest⟩ := Frames.append_sep_inj (slash_notMem_toDigits _) (slash_notMem_toDigits _)
    (List.append_cancel_left hlists)
  exact absurd (List.cons.inj hrest).1 (by decide)

/-- A key that two versions have in common is of one video and one number. -/
theorem same_of_common_key {v w : VideoVersion} (h : ¬ v.keys.Disjoint w.keys) :
    v.videoId = w.videoId ∧ v.versionNumber = w.versionNumber := by
  obtain ⟨key, hv, hw⟩ : ∃ key, key ∈ v.keys ∧ key ∈ w.keys := by
    unfold List.Disjoint at h
    push Not at h
    simpa using h
  simp only [VideoVersion.keys, List.mem_cons, List.not_mem_nil, or_false] at hv hw
  rcases hv with rfl | rfl
  · rcases hw with hkey | hkey
    · exact audioKey_inj hkey
    · exact absurd hkey (audioKey_ne_renderKey _ _ _ _)
  · rcases hw with hkey | hkey
    · exact absurd hkey.symm (audioKey_ne_renderKey _ _ _ _)
    · exact renderKey_inj hkey

/-! ## One call -/

/-- The table of versions is gapless in its videos. -/
abbrev Numbered (db : PipelineDb) : Prop :=
  Gapless VideoVersion.videoId VideoVersion.versionNumber db.versions

variable {db : PipelineDb} {call : VersionCall}

theorem Numbered.not_taken (h : Numbered db) (videoId : Id) :
    ∀ v ∈ db.versions, v.videoId = videoId →
      v.versionNumber ≠ (db.versionsOf videoId).length + 1 := by
  intro v hv hvideo htaken
  have hmem : v.versionNumber ∈
      numbers VideoVersion.videoId VideoVersion.versionNumber db.versions videoId :=
    List.mem_map_of_mem (List.mem_filter.mpr ⟨hv, decide_eq_true hvideo⟩)
  rw [htaken] at hmem
  exact h.next_notMem videoId hmem

theorem VideoService.run_addVersion {videoId : Id} {v : Video} (h : Numbered db)
    (hv : db.liveVideo videoId = some v) (given : Option String) :
    (VideoService.addVersion videoId given).run db = .ok db.versions.length
      { db with
        versions := db.versions ++ [⟨videoId, (db.versionsOf videoId).length + 1, given⟩]
        videos := db.videos.modify videoId fun v =>
          { v with currentVersionId := some db.versions.length } } := by
  have hnext : db.nextVersionNumber videoId = (db.versionsOf videoId).length + 1 :=
    h.nextByMax_eq videoId
  unfold VideoService.addVersion
  rw [EStateM.run_bind_of_ok (run_video_some hv), EStateM.run_bind_of_ok (EStateM.run_get db),
    hnext, if_neg]
  · rfl
  · intro htaken
    obtain ⟨w, hw, hsame⟩ := List.any_eq_true.mp htaken
    obtain ⟨hvideo, hnumber⟩ := of_decide_eq_true hsame
    exact h.not_taken videoId w hw hvideo hnumber

theorem liveVideo_modify {videoId : Id} {v : Video} {f : Video → Video}
    (hf : (f v).deletedAt = v.deletedAt) (hv : db.liveVideo videoId = some v) :
    ((db.videos.modify videoId f)[videoId]?).filter (fun video => video.deletedAt.isNone) =
      some (f v) := by
  unfold PipelineDb.liveVideo at hv
  obtain ⟨hrow, hlive⟩ := Option.filter_eq_some_iff.mp hv
  rw [List.getElem?_modify_eq, hrow, Option.map_eq_map, Option.map_some, Option.filter_some, hf,
    if_pos hlive]

/-- The version that a call adds is the one its video points to. -/
theorem Allocates.of_modify {db' : PipelineDb} {v : Video} {f : Video → Video}
    (hv : db.liveVideo call.videoId = some v) (hf : (f v).deletedAt = v.deletedAt)
    (hcurrent : (f v).currentVersionId = some db.versions.length)
    (hversions : db'.versions = db.versions ++
      [⟨call.videoId, (db.versionsOf call.videoId).length + 1, call.text⟩])
    (hvideos : db'.videos = db.videos.modify call.videoId f) :
    Allocates db db' call db.versions.length where
  versions := hversions
  returned := rfl
  current := by
    refine ⟨f v, ?_, hcurrent, ?_⟩
    · unfold PipelineDb.liveVideo
      rw [hvideos]
      exact liveVideo_modify hf hv
    · unfold PipelineDb.currentVersion
      rw [hcurrent, Option.bind_some, hversions, List.getElem?_concat_length]

/-- A call that is accepted adds the next version of its video and makes it the current one. -/
theorem VersionCall.allocates (h : Numbered db) (haccepted : call.Accepted db) :
    ∃ id db', call.body.run db = .ok id db' ∧ Allocates db db' call id := by
  obtain ⟨hlive, haccepted⟩ := haccepted
  obtain ⟨v, hv⟩ := Option.isSome_iff_exists.mp hlive
  cases call with
  | addVersion videoId given =>
      exact ⟨_, _, VideoService.run_addVersion h hv given, .of_modify hv rfl rfl rfl rfl⟩
  | script runId run given now =>
      change db.liveVideo run.videoId = some v at hv
      have hadd := run_addVersion_ok given (h.not_taken run.videoId)
      have hrun : ∃ db', (Pipeline.script runId run given now).run db =
          .ok db.versions.length db' ∧
          db'.versions = db.versions ++
            [⟨run.videoId, (db.versionsOf run.videoId).length + 1, some given⟩] ∧
          db'.videos = db.videos.modify run.videoId fun v =>
            { v with currentVersionId := some db.versions.length, status := .scripting } := by
        unfold Pipeline.script
        rw [if_neg haccepted, EStateM.run_bind_of_ok (run_video_some hv),
          EStateM.run_bind_of_ok hadd]
        exact ⟨_, rfl, rfl, rfl⟩
      obtain ⟨db', hrun, hversions, hvideos⟩ := hrun
      exact ⟨_, db', hrun, .of_modify hv rfl rfl hversions hvideos⟩

/-- A call that is not accepted raises and changes nothing. -/
theorem VersionCall.raises (h : ¬ call.Accepted db) : ∃ e, call.body.run db = .error e db := by
  cases hv : db.liveVideo call.videoId with
  | none =>
      cases call with
      | addVersion videoId given => exact ⟨_, EStateM.run_bind_of_error (run_video_none hv)⟩
      | script runId run given now =>
          unfold VersionCall.body Pipeline.script
          dsimp only
          split
          · exact ⟨_, rfl⟩
          · exact ⟨_, EStateM.run_bind_of_error (run_video_none hv)⟩
  | some v =>
      cases call with
      | addVersion videoId given => exact absurd ⟨hv ▸ rfl, trivial⟩ h
      | script runId run given now =>
          have hblank : strip given = "" := by
            by_contra htext
            exact h ⟨hv ▸ rfl, htext⟩
          unfold VersionCall.body Pipeline.script
          dsimp only
          rw [if_pos hblank]
          exact ⟨_, rfl⟩

/-! ## Runs -/

theorem VersionCall.step_numbered (h : Numbered db) (call : VersionCall) :
    Numbered (call.step db) := by
  by_cases haccepted : call.Accepted db
  · obtain ⟨id, db', hrun, hallocates⟩ := VersionCall.allocates h haccepted
    unfold VersionCall.step
    rw [hrun]
    show Gapless _ _ db'.versions
    rw [hallocates.versions]
    exact h.append rfl
  · obtain ⟨e, hrun⟩ := VersionCall.raises haccepted
    unfold VersionCall.step
    rw [hrun]
    exact h

theorem Numbered.versionsNumbered (h : Numbered db) : VersionsNumbered db where
  fromOne := by
    intro videoId
    have hnumbers := h videoId
    unfold numbers at hnumbers
    rw [List.length_map] at hnumbers
    exact hnumbers
  keys := by
    intro i j v w hi hj hne
    by_contra hcommon
    obtain ⟨hvideo, hnumber⟩ := same_of_common_key hcommon
    exact hne (h.eq_of_same hi hj hvideo hnumber)

/-- From no versions on, whichever calls are made and in whatever order: the versions of each video
are numbered from one, no two share a storage key, and the next call that is accepted, of either
service, allocates the next number and makes its version the current one. -/
theorem versions_numbered (db : PipelineDb) (hnone : db.versions = [])
    (calls : List VersionCall) :
    VersionsNumbered (VersionCall.after db calls) ∧
      ∀ call : VersionCall,
        (call.Accepted (VersionCall.after db calls) →
          ∃ id db', call.body.run (VersionCall.after db calls) = .ok id db' ∧
            Allocates (VersionCall.after db calls) db' call id) ∧
        (¬ call.Accepted (VersionCall.after db calls) →
          ∃ e, call.body.run (VersionCall.after db calls) =
            .error e (VersionCall.after db calls)) := by
  have hstart : Numbered db := by
    show Gapless _ _ db.versions
    rw [hnone]
    exact gapless_nil
  have hstep : ∀ (db : PipelineDb) (call : VersionCall), Numbered db → Numbered (call.step db) :=
    fun _ call h => VersionCall.step_numbered h call
  have hnumbered : Numbered (VersionCall.after db calls) := Run.run_invariant hstep calls hstart
  exact ⟨hnumbered.versionsNumbered, fun call =>
    ⟨VersionCall.allocates hnumbered, VersionCall.raises⟩⟩

/-- A draft, a script of a run, and a version without one. -/
def mixedCalls : List VersionCall :=
  [.addVersion 0 (some "It rains."),
    .script 0 ⟨0, .script, none, none, none, .empty, 0, none⟩ "It pours." 5, .addVersion 0 none]

theorem versions_numbered_mixed :
    ((VersionCall.after newVideo mixedCalls).versionsOf 0).map (·.versionNumber) = [1, 2, 3] ∧
      VersionsNumbered (VersionCall.after newVideo mixedCalls) :=
  ⟨by decide, (versions_numbered newVideo rfl mixedCalls).1⟩

end YoutubeFactory.Pipeline
