import YoutubeFactory.Pipeline.Versions
import YoutubeFactory.Pipeline.Listing

/-!
# What a run publishes

The artifacts of a run stay when an earlier stage is repeated, and no stage method looks at the
stage of its run.  So `publish` uploads the last render of the run, whatever was written since.

`Line` says what has been made on a run: the current version of the video, the last narration with
the version it was synthesised from, and the last render with its version and its narration.  The
calls of the service follow it (`Production.shows`).  The render is one of the current version, with
narration from the same version, exactly where a narration and then a render have been made since
the last script (`published_current_iff`).
-/

namespace YoutubeFactory.Pipeline

open Python

/-! ## The line -/

/-- A narration, with the version that was current when it was synthesised. -/
structure Narration where
  version : Option Id
  key : String

/-- A render, with the version that was current and the narration of the run at that time. -/
structure Rendering where
  version : Option Id
  narration : Option Narration
  key : String

/-- What has been made on a run. -/
structure Line where
  current : Option Id
  versions : Nat
  narration : Option Narration
  rendering : Option Rendering

/-- What a call makes. -/
inductive Made where
  | script
  | voiceover (key : String)
  | render (key : String)

def Line.make (line : Line) : Made → Line
  | .script => { line with current := some line.versions, versions := line.versions + 1 }
  | .voiceover key => { line with narration := some ⟨line.current, key⟩ }
  | .render key => { line with rendering := some ⟨line.current, line.narration, key⟩ }

/-- The render and its narration are of the current version. -/
def Rendering.Current (rendering : Rendering) (current : Option Id) : Prop :=
  rendering.version = current ∧ ∃ narration, rendering.narration = some narration ∧
    narration.version = current

/-- What has been made since the last script: nothing, a narration, or a narration and then a
render. -/
inductive Freshness where
  | stale | narrated | rendered
deriving DecidableEq, Repr

def Freshness.next (freshness : Freshness) : Made → Freshness
  | .script => .stale
  | .voiceover _ => if freshness = .stale then .narrated else freshness
  | .render _ => if freshness = .narrated then .rendered else freshness

/-- What has been made is of versions there are, and the freshness says what is of the current
one. -/
structure Line.Tracks (line : Line) (freshness : Freshness) : Prop where
  narration_lt : ∀ narration ∈ line.narration, ∀ version ∈ narration.version,
    version < line.versions
  rendering_lt : ∀ rendering ∈ line.rendering, ∀ version ∈ rendering.version,
    version < line.versions
  narrated : (∃ narration ∈ line.narration, narration.version = line.current) ↔ freshness ≠ .stale
  rendered : (∃ rendering ∈ line.rendering, rendering.Current line.current) ↔
    freshness = .rendered

/-- Something is narrated or rendered only if the current version is there. -/
def Made.Possible (line : Line) : Made → Prop
  | .script => True
  | .voiceover _ | .render _ => ∀ version ∈ line.current, version < line.versions

theorem Line.Tracks.make {line : Line} {freshness : Freshness} (h : line.Tracks freshness)
    {m : Made} (hm : m.Possible line) : (line.make m).Tracks (freshness.next m) := by
  cases m with
  | script =>
      have hnarration : ¬ ∃ narration ∈ line.narration,
          narration.version = some line.versions := by
        rintro ⟨narration, hmem, hversion⟩
        exact absurd (h.narration_lt narration hmem _ hversion) (lt_irrefl _)
      have hrendering : ¬ ∃ rendering ∈ line.rendering,
          rendering.Current (some line.versions) := by
        rintro ⟨rendering, hmem, hversion, -⟩
        exact absurd (h.rendering_lt rendering hmem _ hversion) (lt_irrefl _)
      exact
        { narration_lt := fun n hn v hv => Nat.lt_succ_of_lt (h.narration_lt n hn v hv)
          rendering_lt := fun r hr v hv => Nat.lt_succ_of_lt (h.rendering_lt r hr v hv)
          narrated := iff_of_false hnarration fun hne => hne rfl
          rendered := iff_of_false hrendering (by simp [Freshness.next]) }
  | voiceover key =>
      refine ⟨?_, h.rendering_lt, ?_, ?_⟩
      · intro narration hmem
        cases hmem
        exact hm
      · refine iff_of_true ⟨_, rfl, rfl⟩ ?_
        cases freshness <;> simp [Freshness.next]
      · refine h.rendered.trans ?_
        cases freshness <;> simp [Freshness.next]
  | render key =>
      refine ⟨h.narration_lt, ?_, ?_, ?_⟩
      · intro rendering hmem
        cases hmem
        exact hm
      · refine h.narrated.trans ?_
        cases freshness <;> simp [Freshness.next]
      · have hcurrent : (∃ rendering ∈ (line.make (.render key)).rendering,
            rendering.Current line.current) ↔
            ∃ narration ∈ line.narration, narration.version = line.current := by
          constructor
          · rintro ⟨rendering, hmem, -, hnarration⟩
            cases hmem
            exact hnarration
          · exact fun hnarration => ⟨_, rfl, rfl, hnarration⟩
        refine (hcurrent.trans h.narrated).trans ?_
        cases freshness <;> simp [Freshness.next]

/-! ## What the tables show of it -/

/-- What is stored of a line. -/
structure Shown where
  videoId : Option Id
  current : Option Id
  versions : Nat
  narrationKey : Option String
  videoKey : Option String

def PipelineDb.shown (db : PipelineDb) (runId videoId : Id) : Shown where
  videoId := (db.runs[runId]?).map (·.videoId)
  current := (db.videos[videoId]?).bind (·.currentVersionId)
  versions := db.versions.length
  narrationKey := (db.runs[runId]?).bind fun run => run.artifacts.voiceover.map (·.storageKey)
  videoKey := (db.runs[runId]?).bind fun run => run.artifacts.render.map (·.storageKey)

def Line.shown (line : Line) (videoId : Id) : Shown where
  videoId := some videoId
  current := line.current
  versions := line.versions
  narrationKey := line.narration.map (·.key)
  videoKey := line.rendering.map (·.key)

/-- The stored line after something has been made. -/
def Shown.make (shown : Shown) : Made → Shown
  | .script => { shown with current := some shown.versions, versions := shown.versions + 1 }
  | .voiceover key => { shown with narrationKey := some key }
  | .render key => { shown with videoKey := some key }

theorem Line.shown_make (line : Line) (videoId : Id) (m : Made) :
    (line.make m).shown videoId = (line.shown videoId).make m := by
  cases m <;> rfl

/-! ## Calls on a run -/

/-- A stage call on the run, and whether its writes are kept when it raises. -/
structure StageRequest where
  call : StageCall
  now : DateTime
  kept : Bool

namespace StageRequest

def request (r : StageRequest) (runId : Id) : Request := ⟨.stage runId r.call r.now, r.kept⟩

/-- What the call makes.  A render whose metering raises has been made if its writes are kept. -/
def made (db : PipelineDb) (runId : Id) (run : PipelineRun) (r : StageRequest) : Option Made :=
  match r.call with
  | .script text =>
      ((Pipeline.script runId run text r.now).run db).value?.map fun _ => .script
  | .voiceover voice provider =>
      ((Pipeline.voiceover runId run voice provider r.now).run db).value?.map fun result =>
        .voiceover result.storageKey
  | .render provider metering =>
      let rendered := ((Pipeline.render runId run provider (.ok ()) r.now).run db).value?
      let returned := ((Pipeline.render runId run provider metering r.now).run db).value?
      if r.kept = true ∨ returned.isSome = true then
        rendered.map fun result => .render result.storageKey
      else none
  | .research | .publish _ _ _ _ _ => none

end StageRequest

/-- The tables, and what has been made on the run so far. -/
structure Production where
  db : PipelineDb
  log : List Made

def Production.step (runId : Id) (p : Production) (r : StageRequest) : Production where
  db := (r.request runId).step p.db
  log := p.log ++ (((p.db.runs[runId]?).bind fun run => r.made p.db runId run).toList)

/-- What has been made on a run without artifacts. -/
def Production.line (current : Option Id) (versions : Nat) (p : Production) : Line :=
  p.log.foldl Line.make ⟨current, versions, none, none⟩

def Production.freshness (p : Production) : Freshness := p.log.foldl Freshness.next .stale

/-! ## The stage methods -/

variable {db : PipelineDb} {runId : Id} {run : PipelineRun} {now : DateTime}

theorem shown_modify {videoId : Id} {f : PipelineRun → PipelineRun}
    (hvideo : ∀ run, (f run).videoId = run.videoId) :
    PipelineDb.shown { db with runs := db.runs.modify runId f } runId videoId =
      { db.shown runId videoId with
        narrationKey := (db.runs[runId]?).bind fun run =>
          (f run).artifacts.voiceover.map (·.storageKey)
        videoKey := (db.runs[runId]?).bind fun run =>
          (f run).artifacts.render.map (·.storageKey) } := by
  unfold PipelineDb.shown
  simp only [List.getElem?_modify_eq]
  cases db.runs[runId]? with
  | none => rfl
  | some run => simp [hvideo]

/-- The video is there and its current version has a script. -/
def HasScript (db : PipelineDb) (videoId : Id) : Prop :=
  ∃ v version text, db.liveVideo videoId = some v ∧ db.scripted v = some (version, text)

theorem HasScript.current_lt {videoId : Id} (h : HasScript db videoId) :
    ∀ version ∈ (db.shown runId videoId).current, version < (db.shown runId videoId).versions := by
  obtain ⟨v, version, text, hv, hscript⟩ := h
  obtain ⟨hrow, -⟩ := Option.filter_eq_some_iff.mp hv
  obtain ⟨current, hcurrent, -⟩ := Option.bind_eq_some_iff.mp hscript
  obtain ⟨id, hid, hversion⟩ := Option.bind_eq_some_iff.mp hcurrent
  intro other hother
  unfold PipelineDb.shown at hother ⊢
  dsimp only at hother ⊢
  rw [hrow, Option.bind_some, hid] at hother
  cases hother
  exact (List.getElem?_eq_some_iff.mp hversion).1

theorem voiceover_cases (voice : Option String) (provider : Except PipelineError SpeechProvider) :
    (HasScript db run.videoId ∧
      ∃ result, (Pipeline.voiceover runId run voice provider now).run db = .ok result
        { db with runs := db.runs.modify runId fun run =>
            run.advance .render (fun a => { a with voiceover := some result }) now }) ∨
    ∃ e, (Pipeline.voiceover runId run voice provider now).run db = .error e db := by
  unfold Pipeline.voiceover
  cases hv : db.liveVideo run.videoId with
  | none => exact .inr ⟨_, EStateM.run_bind_of_error (run_video_none hv)⟩
  | some v =>
      rw [EStateM.run_bind_of_ok (run_video_some hv), EStateM.run_bind_of_ok (EStateM.run_get db)]
      cases hscript : db.scripted v with
      | none => exact .inr ⟨_, rfl⟩
      | some scripted =>
          obtain ⟨version, text⟩ := scripted
          dsimp only
          cases provider with
          | error e => exact .inr ⟨_, rfl⟩
          | ok synthesize =>
              rw [EStateM.run_bind_of_ok (run_answer_ok synthesize db)]
              cases synthesize text ((voice.filter (· ≠ "")).getD "default")
                  (audioKey run.videoId version.versionNumber) with
              | error e => exact .inr ⟨_, rfl⟩
              | ok result => exact .inl ⟨⟨v, version, text, hv, hscript⟩, result, rfl⟩

/-- The tables after a render. -/
def renderedDb (db : PipelineDb) (runId videoId : Id) (result : RenderResult) (now : DateTime) :
    PipelineDb :=
  { db with
    videos := db.videos.modify videoId fun v => { v with status := .rendering }
    runs := db.runs.modify runId fun run =>
      run.advance .publish (fun a => { a with render := some result }) now }

/-- Whether a render is made is not up to its metering. -/
theorem render_cases (provider : Except PipelineError RenderProvider)
    (metering : Except PipelineError Unit) :
    (HasScript db run.videoId ∧
      ∃ result,
        (Pipeline.render runId run provider (.ok ()) now).run db =
          .ok result (renderedDb db runId run.videoId result now) ∧
        ((Pipeline.render runId run provider metering now).run db =
            .ok result (renderedDb db runId run.videoId result now) ∨
          ∃ e, (Pipeline.render runId run provider metering now).run db =
            .error e (renderedDb db runId run.videoId result now))) ∨
    ∃ e, ∀ metering, (Pipeline.render runId run provider metering now).run db = .error e db := by
  unfold Pipeline.render
  cases hv : db.liveVideo run.videoId with
  | none => exact .inr ⟨_, fun _ => EStateM.run_bind_of_error (run_video_none hv)⟩
  | some v =>
      simp only [EStateM.run_bind_of_ok (run_video_some hv),
        EStateM.run_bind_of_ok (EStateM.run_get db)]
      cases hscript : db.scripted v with
      | none => exact .inr ⟨_, fun _ => rfl⟩
      | some scripted =>
          obtain ⟨version, text⟩ := scripted
          dsimp only
          cases provider with
          | error e => exact .inr ⟨_, fun _ => rfl⟩
          | ok render =>
              simp only [EStateM.run_bind_of_ok (run_answer_ok render db)]
              cases render text (run.artifacts.voiceover.map (·.storageKey))
                  (renderKey run.videoId version.versionNumber) with
              | error e => exact .inr ⟨_, fun _ => rfl⟩
              | ok result =>
                  refine .inl ⟨⟨v, version, text, hv, hscript⟩, result, ?_⟩
                  cases hproject : v.projectId with
                  | none => exact ⟨rfl, .inl rfl⟩
                  | some projectId =>
                      cases metering with
                      | ok u => exact ⟨rfl, .inl rfl⟩
                      | error e => exact ⟨rfl, .inr ⟨e, rfl⟩⟩

theorem script_cases (text : String) :
    ((∃ v, db.videos[run.videoId]? = some v) ∧ ∃ number,
      (Pipeline.script runId run text now).run db = .ok db.versions.length
        { db with
          versions := db.versions ++ [⟨run.videoId, number, some text⟩]
          videos := db.videos.modify run.videoId fun v =>
            { v with currentVersionId := some db.versions.length, status := .scripting }
          runs := db.runs.modify runId fun run => run.advance .voiceover
            (fun a => { a with script := some ⟨db.versions.length, text.length⟩ }) now }) ∨
    ∃ e, (Pipeline.script runId run text now).run db = .error e db := by
  unfold Pipeline.script
  by_cases htext : strip text = ""
  · rw [if_pos htext]
    exact .inr ⟨_, rfl⟩
  rw [if_neg htext]
  cases hv : db.liveVideo run.videoId with
  | none => exact .inr ⟨_, EStateM.run_bind_of_error (run_video_none hv)⟩
  | some v =>
      rw [EStateM.run_bind_of_ok (run_video_some hv)]
      by_cases hnumber : ∀ v ∈ db.versions, v.videoId = run.videoId → v.versionNumber ≠
          (db.versions.filter fun v => v.videoId = run.videoId).length + 1
      · rw [EStateM.run_bind_of_ok (run_addVersion_ok text hnumber)]
        exact .inl ⟨⟨v, (Option.filter_eq_some_iff.mp hv).1⟩, _, rfl⟩
      · exact .inr ⟨_, EStateM.run_bind_of_error (run_addVersion_error hnumber)⟩

/-! ## What they leave as it is -/

theorem answer_keeps {View α : Type} {view : PipelineDb → View} (r : Except PipelineError α) :
    EStateM.Keeps view (answer r) := by
  intro db
  cases r <;> rfl

/-- A change of a video that keeps its current version. -/
theorem shown_modifyVideo {videoId : Id} (other : Id) {f : Video → Video}
    (hf : ∀ v, (f v).currentVersionId = v.currentVersionId) :
    PipelineDb.shown { db with videos := db.videos.modify other f } runId videoId =
      db.shown runId videoId := by
  have hcurrent : ((db.videos.modify other f)[videoId]?).bind (·.currentVersionId) =
      (db.videos[videoId]?).bind (·.currentVersionId) := by
    rw [List.getElem?_modify]
    split
    · cases db.videos[videoId]? with
      | none => rfl
      | some v => exact hf v
    · cases db.videos[videoId]? <;> rfl
  unfold PipelineDb.shown
  rw [hcurrent]

/-- An advance that leaves the narration and the render of the run. -/
theorem shown_advance {videoId : Id} {stage : PipelineStage} {artifacts : Artifacts → Artifacts}
    (hvoiceover : ∀ a, (artifacts a).voiceover = a.voiceover)
    (hrender : ∀ a, (artifacts a).render = a.render) :
    PipelineDb.shown
        { db with runs := db.runs.modify runId fun run => run.advance stage artifacts now }
        runId videoId =
      db.shown runId videoId := by
  have hshown := @shown_modify db runId videoId (fun run => run.advance stage artifacts now)
    fun _ => rfl
  rw [hshown]
  simp only [PipelineRun.advance, hvoiceover, hrender]
  rfl

/-- `publish` leaves what is shown. -/
theorem publishUpload_keeps (videoId : Id) (platform : String) (tags : List String)
    (dispatch : Payload → Except PipelineError Payload)
    (insert : Publication → Except PipelineError Unit)
    (provider : Except PipelineError PublishProvider) :
    EStateM.Keeps (fun db => PipelineDb.shown db runId videoId)
      (publishUpload runId run platform tags dispatch insert provider now) := by
  unfold publishUpload
  refine EStateM.Keeps.bind (video_keeps _) fun v => ?_
  split
  · exact EStateM.Keeps.throw _
  · refine EStateM.Keeps.bind (answer_keeps _) fun payload => ?_
    refine EStateM.Keeps.bind (answer_keeps _) fun listing => ?_
    refine EStateM.Keeps.bind (publicationOf_keeps (fun _ _ => rfl) _ _ _ _ _) fun found => ?_
    obtain ⟨id, publication⟩ := found
    refine EStateM.Keeps.bind (EStateM.Keeps.modify fun _ => rfl) fun _ => ?_
    refine EStateM.Keeps.bind (answer_keeps _) fun provider => ?_
    dsimp only
    split
    · refine EStateM.Keeps.bind (EStateM.Keeps.modify fun _ => rfl) fun _ => ?_
      exact EStateM.Keeps.throw _
    · refine EStateM.Keeps.bind (EStateM.Keeps.modify fun _ => rfl) fun _ => ?_
      refine EStateM.Keeps.bind (EStateM.Keeps.modify fun _ => ?_) fun _ => ?_
      · exact shown_modifyVideo _ fun _ => rfl
      · refine EStateM.Keeps.bind (EStateM.Keeps.modify fun _ => ?_) fun _ => ?_
        · exact shown_advance (fun _ => rfl) fun _ => rfl
        · exact EStateM.Keeps.pure _

/-! ## One call -/

theorem shown_scripted {v : Video} (hv : db.videos[run.videoId]? = some v) (number : Nat)
    (text : String) :
    PipelineDb.shown
        { db with
          versions := db.versions ++ [⟨run.videoId, number, some text⟩]
          videos := db.videos.modify run.videoId fun v =>
            { v with currentVersionId := some db.versions.length, status := .scripting }
          runs := db.runs.modify runId fun run => run.advance .voiceover
            (fun a => { a with script := some ⟨db.versions.length, text.length⟩ }) now }
        runId run.videoId =
      (db.shown runId run.videoId).make .script := by
  have hshown := @shown_advance
    { db with
      versions := db.versions ++ [⟨run.videoId, number, some text⟩]
      videos := db.videos.modify run.videoId fun v =>
        { v with currentVersionId := some db.versions.length, status := .scripting } }
    runId now run.videoId .voiceover
    (fun a => { a with script := some ⟨db.versions.length, text.length⟩ }) (fun _ => rfl)
    fun _ => rfl
  refine hshown.trans ?_
  unfold PipelineDb.shown Shown.make
  simp [List.getElem?_modify_eq, hv]

theorem shown_voiceover (hrun : db.runs[runId]? = some run) (videoId : Id)
    (result : SpeechResult) :
    PipelineDb.shown
        { db with runs := db.runs.modify runId fun run =>
            run.advance .render (fun a => { a with voiceover := some result }) now }
        runId videoId =
      (db.shown runId videoId).make (.voiceover result.storageKey) := by
  have hshown := @shown_modify db runId videoId
    (fun run => run.advance .render (fun a => { a with voiceover := some result }) now)
    fun _ => rfl
  rw [hshown]
  unfold PipelineDb.shown Shown.make
  simp [hrun, PipelineRun.advance]

theorem shown_rendered (hrun : db.runs[runId]? = some run) (videoId : Id)
    (result : RenderResult) :
    (renderedDb db runId videoId result now).shown runId videoId =
      (db.shown runId videoId).make (.render result.storageKey) := by
  have hshown := @shown_modify
    { db with videos := db.videos.modify videoId fun v => { v with status := .rendering } } runId
    videoId (fun run => run.advance .publish (fun a => { a with render := some result }) now)
    fun _ => rfl
  have hvideo := @shown_modifyVideo db runId videoId videoId
    (fun v => { v with status := .rendering }) fun _ => rfl
  unfold renderedDb
  rw [hshown, hvideo]
  unfold PipelineDb.shown Shown.make
  simp [hrun, PipelineRun.advance]

namespace StageRequest

theorem step_eq (hrun : db.runs[runId]? = some run) (r : StageRequest) :
    (r.request runId).step db =
      match (r.call.body runId run r.now).run db with
      | .ok _ db' => db'
      | .error _ db' => if r.kept = true then db' else db := by
  have hbody : (r.request runId).call.body db = r.call.body runId run r.now := by
    simp only [request, Call.body, hrun]
  have hstep : (r.request runId).step db =
      match ((r.request runId).call.body db).run db with
      | .ok _ db' => db'
      | .error _ db' => if r.kept = true then db' else db := rfl
  rw [hstep, hbody]

/-- A call shows what it makes, and it makes what is possible. -/
theorem shows (hrun : db.runs[runId]? = some run) (r : StageRequest) :
    ((r.request runId).step db).shown runId run.videoId =
        (r.made db runId run).toList.foldl Shown.make (db.shown runId run.videoId) ∧
      ∀ m ∈ r.made db runId run, m = .script ∨ HasScript db run.videoId := by
  rw [step_eq hrun]
  obtain ⟨call, now, kept⟩ := r
  unfold made
  cases call with
  | research =>
      refine ⟨?_, nofun⟩
      exact shown_advance (fun _ => rfl) fun _ => rfl
  | script text =>
      rcases @script_cases db runId run now text with ⟨⟨v, hv⟩, number, hscript⟩ | ⟨e, hscript⟩
      · have hbody : (StageCall.body runId run now (.script text)).run db = _ :=
          EStateM.run_discard_of_ok hscript
        rw [hbody]
        dsimp only
        rw [hscript]
        refine ⟨shown_scripted hv number text, ?_⟩
        rintro m hm
        cases hm
        exact .inl rfl
      · have hbody : (StageCall.body runId run now (.script text)).run db = _ :=
          EStateM.run_discard_of_error hscript
        rw [hbody]
        dsimp only
        rw [hscript, ite_self]
        exact ⟨rfl, nofun⟩
  | voiceover voice provider =>
      rcases @voiceover_cases db runId run now voice provider with
        ⟨hready, result, hvoiceover⟩ | ⟨e, hvoiceover⟩
      · have hbody : (StageCall.body runId run now (.voiceover voice provider)).run db = _ :=
          EStateM.run_discard_of_ok hvoiceover
        rw [hbody]
        dsimp only
        rw [hvoiceover]
        exact ⟨shown_voiceover hrun run.videoId result, fun m _ => .inr hready⟩
      · have hbody : (StageCall.body runId run now (.voiceover voice provider)).run db = _ :=
          EStateM.run_discard_of_error hvoiceover
        rw [hbody]
        dsimp only
        rw [hvoiceover, ite_self]
        exact ⟨rfl, nofun⟩
  | render provider metering =>
      rcases @render_cases db runId run now provider metering with
        ⟨hready, result, hmade, hreturned | ⟨e, hraised⟩⟩ | ⟨e, hrender⟩
      · have hbody : (StageCall.body runId run now (.render provider metering)).run db = _ :=
          EStateM.run_discard_of_ok hreturned
        rw [hbody]
        dsimp only
        rw [hmade, hreturned, if_pos (.inr rfl)]
        exact ⟨shown_rendered hrun run.videoId result, fun m _ => .inr hready⟩
      · have hbody : (StageCall.body runId run now (.render provider metering)).run db = _ :=
          EStateM.run_discard_of_error hraised
        rw [hbody]
        dsimp only
        rw [hmade, hraised]
        cases kept with
        | true => exact ⟨shown_rendered hrun run.videoId result, fun m _ => .inr hready⟩
        | false => exact ⟨rfl, nofun⟩
      · have hbody : (StageCall.body runId run now (.render provider metering)).run db = _ :=
          EStateM.run_discard_of_error (hrender metering)
        rw [hbody]
        dsimp only
        rw [hrender, hrender, ite_self, EStateM.Result.value?, Option.map_none, ite_self]
        exact ⟨rfl, nofun⟩
  | publish platform tags dispatch insert provider =>
      refine ⟨?_, nofun⟩
      have hkeeps : EStateM.Keeps (fun db => PipelineDb.shown db runId run.videoId)
          (StageCall.body runId run now (.publish platform tags dispatch insert provider)) :=
        EStateM.Keeps.discard (EStateM.Keeps.bind
          (publishUpload_keeps run.videoId platform tags dispatch insert provider)
          fun _ => EStateM.Keeps.pure _)
      have hdb := hkeeps db
      dsimp only
      cases hbody : (StageCall.body runId run now
          (.publish platform tags dispatch insert provider)).run db with
      | ok u db' =>
          rw [hbody] at hdb
          exact hdb
      | error e db' =>
          rw [hbody] at hdb
          dsimp only
          split
          · exact hdb
          · rfl

end StageRequest

/-! ## Runs -/

/-- The tables show the line that the log tells of, and its freshness tracks it. -/
structure Production.Shows (runId videoId : Id) (current : Option Id) (versions : Nat)
    (p : Production) : Prop where
  shown : p.db.shown runId videoId = (p.line current versions).shown videoId
  tracks : (p.line current versions).Tracks p.freshness

theorem Production.Shows.step {videoId versions : Nat} {current : Option Id} {p : Production}
    (h : p.Shows runId videoId current versions) (r : StageRequest) :
    (p.step runId r).Shows runId videoId current versions := by
  have hrow : ∃ run, p.db.runs[runId]? = some run ∧ run.videoId = videoId := by
    have hvideo := congrArg Shown.videoId h.shown
    exact Option.map_eq_some_iff.mp hvideo
  obtain ⟨run, hrun, rfl⟩ := hrow
  obtain ⟨hshown, hpossible⟩ := StageRequest.shows hrun r
  have hlog : (p.step runId r).log = p.log ++ (r.made p.db runId run).toList := by
    unfold Production.step
    rw [hrun]
    rfl
  have hline : (p.step runId r).line current versions =
      (r.made p.db runId run).toList.foldl Line.make (p.line current versions) := by
    unfold Production.line
    rw [hlog, List.foldl_append]
  have hfreshness : (p.step runId r).freshness =
      (r.made p.db runId run).toList.foldl Freshness.next p.freshness := by
    unfold Production.freshness
    rw [hlog, List.foldl_append]
  have hdb : (p.step runId r).db = (r.request runId).step p.db := rfl
  cases hmade : r.made p.db runId run with
  | none =>
      rw [hmade] at hshown hline hfreshness
      constructor
      · rw [hdb, hshown, hline]
        exact h.shown
      · rw [hline, hfreshness]
        exact h.tracks
  | some m =>
      rw [hmade] at hshown hline hfreshness
      constructor
      · rw [hdb, hshown, hline, h.shown]
        exact (Line.shown_make _ _ m).symm
      · rw [hline, hfreshness]
        refine h.tracks.make ?_
        rcases hpossible m hmade with rfl | hready
        · trivial
        · have hlt : ∀ version ∈ (p.db.shown runId run.videoId).current,
              version < (p.db.shown runId run.videoId).versions := hready.current_lt
          rw [h.shown] at hlt
          cases m with
          | script => trivial
          | voiceover key => exact hlt
          | render key => exact hlt

/-- What a run without artifacts starts from. -/
theorem Production.shows_start (hrun : db.runs[runId]? = some run)
    (hempty : run.artifacts = .empty) :
    Production.Shows runId run.videoId (db.shown runId run.videoId).current db.versions.length
      ⟨db, []⟩ where
  shown := by
    unfold PipelineDb.shown
    rw [hrun, Option.map_some, Option.bind_some, Option.bind_some, hempty]
    rfl
  tracks :=
    { narration_lt := nofun
      rendering_lt := nofun
      narrated := iff_of_false nofun fun h => h rfl
      rendered := iff_of_false nofun nofun }

def Production.after (runId : Id) (db : PipelineDb) (requests : List StageRequest) : Production :=
  Run.run (Production.step runId) ⟨db, []⟩ requests

theorem Production.shows_after (hrun : db.runs[runId]? = some run)
    (hempty : run.artifacts = .empty) (requests : List StageRequest) :
    (Production.after runId db requests).Shows runId run.videoId
      (db.shown runId run.videoId).current db.versions.length := by
  have hstep : ∀ (p : Production) (r : StageRequest),
      p.Shows runId run.videoId (db.shown runId run.videoId).current db.versions.length →
        (p.step runId r).Shows runId run.videoId (db.shown runId run.videoId).current
          db.versions.length := fun _ r h => h.step r
  exact Run.run_invariant hstep requests (Production.shows_start hrun hempty)

/-- What `publish` uploads is the last render of the run.  It is one of the current version, with
narration from the same version, if a narration and then a render have been made since the last
script, and else not. -/
theorem published_current_iff (hrun : db.runs[runId]? = some run)
    (hempty : run.artifacts = .empty) (requests : List StageRequest)
    {run' : PipelineRun} (hrun' : (Production.after runId db requests).db.runs[runId]? = some run')
    {platform : String} {tags : List String} {dispatch : Payload → Except PipelineError Payload}
    {insert : Publication → Except PipelineError Unit}
    {provider : Except PipelineError PublishProvider} {id : Id} {upload : Upload}
    {db' : PipelineDb}
    (hpublish : (publishUpload runId run' platform tags dispatch insert provider now).run
      (Production.after runId db requests).db = .ok (id, upload) db') :
    ∃ rendering,
      ((Production.after runId db requests).line (db.shown runId run.videoId).current
        db.versions.length).rendering = some rendering ∧
      upload.videoKey = rendering.key ∧
      (rendering.Current ((Production.after runId db requests).db.shown runId run.videoId).current ↔
        (Production.after runId db requests).freshness = .rendered) := by
  have hshows := Production.shows_after hrun hempty requests
  obtain ⟨_, _, _, _, _, -, hkey, -⟩ := publishUpload_ok hpublish
  have hstored : ((Production.after runId db requests).db.shown runId run.videoId).videoKey =
      some upload.videoKey := by
    unfold PipelineDb.shown
    rw [hrun']
    exact hkey
  rw [hshows.shown] at hstored ⊢
  obtain ⟨rendering, hrendering, hkey⟩ := Option.map_eq_some_iff.mp hstored
  refine ⟨rendering, hrendering, hkey.symm, ?_⟩
  rw [← hshows.tracks.rendered, hrendering]
  simp [Line.shown]

/-! ## A script after the render -/

def draftRun : PipelineRun := ⟨0, .script, none, some 0, none, .empty, 0, none⟩

def drafted : PipelineDb := { newVideo with runs := [draftRun] }

/-- Providers that write under the key they are given. -/
def narrate : StageCall :=
  .voiceover none (.ok fun _ voice key => .ok ⟨key, 60, voice, 9⟩)

def renderIt : StageCall :=
  .render (.ok fun _ _ key => .ok ⟨key, 60, 1920, 1080, 9⟩) (.ok ())

def producedOnce : List StageRequest :=
  [⟨.script "It rains.", 1, false⟩, ⟨narrate, 2, false⟩, ⟨renderIt, 3, false⟩]

def rescripted : List StageRequest := producedOnce ++ [⟨.script "It pours.", 4, false⟩]

/-- `publish` of the run, on a platform that takes everything. -/
def publishRun (p : Production) : EStateM.Result PipelineError PipelineDb (Id × Upload) :=
  match p.db.runs[0]? with
  | none => .error (.notFound "Pipeline run not found.") p.db
  | some run =>
      (publishUpload 0 run "youtube" [] .ok (fun _ => .ok ())
        (.ok fun _ => .ok ⟨"abc", "https://youtu.be/abc"⟩) 5).run p.db

/-- Each stage once, in order: the render of the current version is uploaded. -/
theorem published_current_produced :
    ∃ (id : Id) (upload : Upload) (db' : PipelineDb) (rendering : Rendering),
    publishRun (Production.after 0 drafted producedOnce) = .ok (id, upload) db' ∧
      upload.videoKey = rendering.key ∧ rendering.Current (some 0) := by
  have hrow : ∃ run', (Production.after 0 drafted producedOnce).db.runs[0]? = some run' :=
    ⟨_, rfl⟩
  obtain ⟨run', hrow⟩ := hrow
  have hpublish : ∃ id upload db',
      publishRun (Production.after 0 drafted producedOnce) = .ok (id, upload) db' :=
    ⟨_, _, _, rfl⟩
  obtain ⟨id, upload, db', hpublish⟩ := hpublish
  have hrun := hpublish
  unfold publishRun at hrun
  rw [hrow] at hrun
  obtain ⟨rendering, -, hkey, hcurrent⟩ := @published_current_iff drafted 0 draftRun 5 rfl rfl
    producedOnce run' hrow _ _ _ _ _ _ _ _ hrun
  exact ⟨id, upload, db', rendering, hpublish, hkey, hcurrent.mpr rfl⟩

/-- After a second script the first render is uploaded all the same. -/
theorem stale_render_published : ∃ (id : Id) (upload : Upload) (db' : PipelineDb),
    publishRun (Production.after 0 drafted rescripted) = .ok (id, upload) db' ∧
      upload.videoKey = renderKey 0 1 ∧
      ((Production.after 0 drafted rescripted).db.shown 0 0).current = some 1 ∧
      ¬ ∃ rendering,
        ((Production.after 0 drafted rescripted).line none 0).rendering = some rendering ∧
        rendering.Current (some 1) := by
  refine ⟨_, _, _, rfl, rfl, rfl, ?_⟩
  rintro ⟨rendering, hrendering, hversion, -⟩
  cases hrendering
  cases hversion

end YoutubeFactory.Pipeline
