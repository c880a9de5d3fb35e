import YoutubeFactory.Access.PublicApi
import YoutubeFactory.Lib.Paging

/-!
# The videos of the public API

`list_videos`, `get_video` and `create_video` of `app/api/public/v1.py`, on one database and with
one key.  The list leaves deleted videos out, and sorts the others by the moment they were created
at alone.  The detail endpoint does not look at `deleted_at`, and `create_video` looks up the
project of the request but not its channel.

So the two endpoints agree about a video of the organization exactly if it is not deleted and one
page has room for all that were created with it (`endpoints_agree_iff`).
-/

namespace YoutubeFactory.PublicApi

open Access Content Python

/-! ## Walking the list -/

/-- Newest first. -/
def Newest (a b : Video × Id) : Prop := b.1.createdAt ≤ a.1.createdAt

instance : DecidableRel Newest := fun a b =>
  inferInstanceAs (Decidable (b.1.createdAt ≤ a.1.createdAt))

theorem newest_total (a b : Video × Id) : Newest a b ∨ Newest b a := le_total _ _

theorem newest_trans (a b c : Video × Id) (hab : Newest a b) (hbc : Newest b c) : Newest a c :=
  le_trans hbc hab

/-- How the database answers a query.  Which of the rows created at one moment come first is its
choice. -/
structure Answering where
  answer : List (Video × Id) → List (Video × Id)
  orders : ∀ rows, Paging.Orders Newest rows (answer rows)

/-- Rows created at one moment stay in the order of the table. -/
def Answering.stable : Answering where
  answer rows := rows.insertionSort Newest
  orders _ := ⟨List.perm_insertionSort _ _,
    Sorting.pairwise_insertionSort newest_total newest_trans _⟩

/-- The page of an answer. -/
def pageOf (answering : Answering) (rows : List (Video × Id)) (params : PageParams) :
    Page Video where
  items := ((answering.answer rows).drop params.offset).take params.limit
  total := rows.length
  page := params.page
  size := params.limit

/-- `list_videos`, on a database that answers so. -/
def PublicDb.listVideosBy (answering : Answering) (db : PublicDb) (presented : Presented)
    (params : PageParams) (projectId : Option Id) (status : Option String) :
    Except ApiError (PublicList PublicVideo × PublicDb) := do
  let (principal, db) ← db.withScope presented "video:read"
  let organizationId ← principal.requireOrganization
  let owned := db.projectIdsForOrg organizationId
  let projectIds := match projectId with
    | none => owned
    | some p => owned.filter (· = p)
  if projectIds = [] then return (⟨[], metaOf 0 params⟩, db)
  else
    let wanted := status.getD ""
    let rows := db.content.videos.zipIdx.filter fun r =>
      r.1.projectId ∈ projectIds ∧ (wanted = "" ∨ r.1.status = wanted) ∧ r.1.deletedAt = none
    return (publicPage PublicVideo.ofRow (pageOf answering rows params) params, db)

theorem listVideosBy_stable (db : PublicDb) (presented : Presented) (params : PageParams)
    (projectId : Option Id) (status : Option String) :
    db.listVideosBy .stable presented params projectId status =
      db.listVideos presented params projectId status := by
  have hpage : ∀ (passes : Video → Bool) (rows : List Video),
      paginate Video.createdAt passes rows params =
        pageOf .stable (rows.zipIdx.filter fun r => passes r.1) params := by
    intro passes rows
    unfold pageOf paginate matching
    rw [List.length_insertionSort]
    rfl
  unfold PublicDb.listVideos
  simp only [hpage]
  rfl

/-- The sizes that the route accepts. -/
structure PageSize where
  size : Nat
  size_pos : 1 ≤ size
  size_le : size ≤ 100

/-- The page after the first `k` ones. -/
def PageSize.page (size : PageSize) (k : Nat) : PageParams :=
  ⟨k + 1, size.size, Nat.le_add_left 1 k, size.size_pos, size.size_le⟩

/-- Asking for pages from the `k`-th on with one key, until one has no next.  The database chooses
anew for each page. -/
inductive VideosWalked (answering : Nat → Answering) (presented : Presented) (size : PageSize) :
    Nat → PublicDb → List (PublicList PublicVideo) → Prop
  | last {k : Nat} {db db' : PublicDb} {response : PublicList PublicVideo}
      (served : db.listVideosBy (answering k) presented (size.page k) none none =
        .ok (response, db'))
      (hasNext : response.pageMeta.hasNext = false) :
      VideosWalked answering presented size k db [response]
  | next {k : Nat} {db db' : PublicDb} {response : PublicList PublicVideo}
      {responses : List (PublicList PublicVideo)}
      (served : db.listVideosBy (answering k) presented (size.page k) none none =
        .ok (response, db'))
      (hasNext : response.pageMeta.hasNext = true)
      (rest : VideosWalked answering presented size (k + 1) db' responses) :
      VideosWalked answering presented size k db (response :: responses)

/-- One of the responses shows the video. -/
def Shown (responses : List (PublicList PublicVideo)) (video : PublicVideo) : Prop :=
  ∃ response ∈ responses, video ∈ response.data

/-! ## Agreement -/

/-- The detail endpoint returns what walking the list shows, and that is a video of the organization
that is not deleted. -/
structure Agree (db : PublicDb) (presented : Presented) (organizationId : Id) (size : PageSize)
    (videoId : Id) : Prop where
  same : ∀ answering responses, VideosWalked answering presented size 0 db responses →
    ∀ video : PublicVideo, video.id = videoId →
      ((∃ db', db.getVideo presented videoId = .ok (video, db')) ↔ Shown responses video)
  visible : ∀ r, db.getVideo presented videoId = .ok r →
    ∃ video, db.content.videos[videoId]? = some video ∧ video.deletedAt = none ∧
      db.content.projectOrganization video.projectId = some organizationId

/-- A video that is created refers to a project and a channel of the organization. -/
structure CreatesInside (db : PublicDb) (presented : Presented) (organizationId : Id)
    (body : PublicVideoCreate) (createdAt : DateTime) : Prop where
  project : ∀ r, db.createVideo presented body createdAt = .ok r →
    db.content.projectOrganization r.1.projectId = some organizationId
  channel : ∀ r, db.createVideo presented body createdAt = .ok r → ∀ c ∈ r.1.channelId,
    ∃ channel, db.content.channels[c]? = some channel ∧
      db.content.projectOrganization channel.projectId = some organizationId

/-! ## What the endpoints return -/

/-- The videos the list of an organization selects. -/
def PublicDb.listed (db : PublicDb) (organizationId : Id) : List (Video × Id) :=
  db.content.videos.zipIdx.filter fun r =>
    r.1.projectId ∈ db.projectIdsForOrg organizationId ∧ r.1.deletedAt = none

section

variable {db : PublicDb} {presented : Presented} {keyId organizationId : Id} {key : ApiKey}

theorem mem_listed {video : Video} {videoId : Id} :
    (video, videoId) ∈ db.listed organizationId ↔ db.content.videos[videoId]? = some video ∧
      video.projectId ∈ db.projectIdsForOrg organizationId ∧ video.deletedAt = none := by
  rw [PublicDb.listed, List.mem_filter, List.mem_zipIdx_iff_getElem?, decide_eq_true_eq]

theorem nodup_listed : (db.listed organizationId).Nodup :=
  (List.Nodup.of_map Prod.snd (by simp [List.nodup_range'])).filter _

theorem organization_of_mem {projectId : Id}
    (h : projectId ∈ db.projectIdsForOrg organizationId) :
    db.content.projectOrganization projectId = some organizationId := by
  rw [PublicDb.projectIdsForOrg, List.mem_filter, decide_eq_true_eq] at h
  exact h.2.1

@[simp] theorem projectIdsForOrg_used (later : DateTime) :
    (db.used keyId key later).projectIdsForOrg = db.projectIdsForOrg := rfl

@[simp] theorem content_used (later : DateTime) :
    (db.used keyId key later).content = db.content := rfl

/-- A key can be used again. -/
theorem presents_used (h : presented.headers.Presents presented.library db.keys keyId key)
    (later : DateTime) :
    presented.headers.Presents presented.library (db.used keyId key later).keys keyId
      { key with lastUsedAt := some later } := by
  obtain ⟨raw, hcredential, hkey, hfound, hrow⟩ := h
  obtain ⟨hlt, hkeyed, hearlier⟩ := List.findIdx?_eq_some_iff_getElem.mp hfound
  refine ⟨raw, hcredential, hkey, ?_, List.getElem?_set_self hlt⟩
  refine List.findIdx?_eq_some_iff_getElem.mpr ⟨?_, ?_, fun j hj => ?_⟩
  · simpa [PublicDb.used] using hlt
  · simp [PublicDb.used]
  · simpa [PublicDb.used, List.getElem_set_ne (Nat.ne_of_gt hj)] using hearlier j hj

/-- Whoever is served with the key has its scope. -/
theorem authenticated_of_withScope {scope : String} {r : ApiPrincipal × PublicDb}
    (hpresents : presented.headers.Presents presented.library db.keys keyId key)
    (h : db.withScope presented scope = .ok r) : Authenticated db presented keyId key scope := by
  obtain ⟨key', hauthenticated, -⟩ := withScope_ok h
  obtain ⟨hid, rfl⟩ := hpresents.unique hauthenticated.presents
  rw [hid]
  exact hauthenticated

theorem listVideosBy_eq (h : Authenticated db presented keyId key "video:read")
    (horganization : key.organizationId = some organizationId) (answering : Answering)
    (params : PageParams) :
    db.listVideosBy answering presented params none none =
      .ok (publicPage PublicVideo.ofRow (pageOf answering (db.listed organizationId) params)
        params, db.used keyId key presented.later) := by
  unfold PublicDb.listVideosBy
  rw [withScope_of_authenticated h (by decide), Except.ok_bind]
  dsimp only
  rw [requireOrganization_of_some horganization, Except.ok_bind]
  simp only [projectIdsForOrg_used, content_used]
  by_cases hnone : db.projectIdsForOrg organizationId = []
  · have hempty : db.listed organizationId = [] := by
      refine List.filter_eq_nil_iff.mpr fun r _ => ?_
      simp [hnone]
    have hanswer : answering.answer [] = [] := (answering.orders []).perm.eq_nil
    refine (if_pos hnone).trans ?_
    rw [hempty, pageOf, hanswer]
    simp [publicPage]
  · refine (if_neg hnone).trans ?_
    refine congrArg (fun rows => Except.ok (publicPage PublicVideo.ofRow
      (pageOf answering rows params) params, db.used keyId key presented.later)) ?_
    refine List.filter_congr fun r _ => ?_
    simp

theorem listVideosBy_ok {answering : Answering} {params : PageParams}
    {response : PublicList PublicVideo} {db' : PublicDb}
    (hpresents : presented.headers.Presents presented.library db.keys keyId key)
    (horganization : key.organizationId = some organizationId)
    (h : db.listVideosBy answering presented params none none = .ok (response, db')) :
    response = publicPage PublicVideo.ofRow (pageOf answering (db.listed organizationId) params)
        params ∧ db' = db.used keyId key presented.later := by
  obtain ⟨r, hscope, -⟩ := Except.bind_eq_ok.mp h
  have hauthenticated := authenticated_of_withScope hpresents hscope
  rw [listVideosBy_eq hauthenticated horganization] at h
  cases h
  exact ⟨rfl, rfl⟩

theorem getVideo_iff {videoId : Id} {shown : PublicVideo}
    (hpresents : presented.headers.Presents presented.library db.keys keyId key)
    (horganization : key.organizationId = some organizationId) :
    (∃ db', db.getVideo presented videoId = .ok (shown, db')) ↔
      Authenticated db presented keyId key "video:read" ∧
        ∃ video, db.content.videos[videoId]? = some video ∧
          video.projectId ∈ db.projectIdsForOrg organizationId ∧
          PublicVideo.ofRow (video, videoId) = shown := by
  have hget : Authenticated db presented keyId key "video:read" →
      db.getVideo presented videoId = (do
        let video ← db.ownedVideo videoId organizationId
        return (PublicVideo.ofRow (video, videoId), db.used keyId key presented.later)) := by
    intro hauthenticated
    unfold PublicDb.getVideo
    rw [withScope_of_authenticated hauthenticated (by decide), Except.ok_bind]
    dsimp only
    rw [requireOrganization_of_some horganization, Except.ok_bind]
    rfl
  constructor
  · rintro ⟨db', h⟩
    obtain ⟨r, hscope, -⟩ := Except.bind_eq_ok.mp h
    have hauthenticated := authenticated_of_withScope hpresents hscope
    rw [hget hauthenticated] at h
    obtain ⟨video, howned, hreturned⟩ := Except.bind_eq_ok.mp h
    cases hreturned
    unfold PublicDb.ownedVideo at howned
    split at howned
    · cases howned
    · next hrow =>
        split at howned
        · next hmem =>
            cases howned
            exact ⟨hauthenticated, video, hrow, hmem, rfl⟩
        · cases howned
  · rintro ⟨hauthenticated, video, hrow, hmem, rfl⟩
    refine ⟨db.used keyId key presented.later, ?_⟩
    rw [hget hauthenticated, PublicDb.ownedVideo, hrow]
    dsimp only
    rw [if_pos hmem, Except.ok_bind]
    rfl

/-! ## Walks -/

variable {size : PageSize} {k : Nat}

theorem limit_page : (size.page k).limit = size.size := by
  have hpos := size.size_pos
  have hle := size.size_le
  simp only [PageParams.limit, PageSize.page]
  omega

theorem items_pageOf (answering : Answering) (rows : List (Video × Id)) :
    (pageOf answering rows (size.page k)).items =
      Paging.page size.size k (answering.answer rows) := by
  rw [pageOf, PageParams.offset, limit_page]
  simp [Paging.page, PageSize.page]

theorem mem_data {answering : Answering} {rows : List (Video × Id)} {video : PublicVideo} :
    video ∈ (publicPage PublicVideo.ofRow (pageOf answering rows (size.page k))
        (size.page k)).data ↔
      ∃ row ∈ Paging.page size.size k (answering.answer rows), PublicVideo.ofRow row = video := by
  rw [publicPage, items_pageOf, List.mem_map]

theorem hasNext_page (answering : Answering) (rows : List (Video × Id)) :
    (publicPage PublicVideo.ofRow (pageOf answering rows (size.page k))
      (size.page k)).pageMeta.hasNext = decide ((k + 1) * size.size < rows.length) := by
  show decide ((k + 1) * (size.page k).limit < rows.length) = _
  rw [limit_page]

/-- After the last page there are no rows. -/
theorem page_le {answering : Answering} {rows : List (Video × Id)} {row : Video × Id} {j : Nat}
    (hlast : rows.length ≤ (k + 1) * size.size)
    (hrow : row ∈ Paging.page size.size j (answering.answer rows)) : j ≤ k := by
  obtain ⟨i, hi, rfl⟩ := (Paging.mem_page size.size_pos).mp hrow
  have hlt : i < (k + 1) * size.size := by
    refine lt_of_lt_of_le (List.getElem?_eq_some_iff.mp hi).1 ?_
    rw [(answering.orders rows).perm.length_eq]
    exact hlast
  exact Nat.le_of_lt_succ ((Nat.div_lt_iff_lt_mul size.size_pos).mpr hlt)

/-- A walk from the `k`-th page on shows what stands on this page and those after it. -/
theorem VideosWalked.shown_iff {answering : Nat → Answering}
    {responses : List (PublicList PublicVideo)}
    (h : VideosWalked answering presented size k db responses) :
    ∀ {key : ApiKey}, presented.headers.Presents presented.library db.keys keyId key →
      key.organizationId = some organizationId → ∀ video : PublicVideo,
      (Shown responses video ↔ ∃ j, k ≤ j ∧ ∃ row ∈ Paging.page size.size j
        ((answering j).answer (db.listed organizationId)), PublicVideo.ofRow row = video) := by
  induction h with
  | @last k db db' response served hasNext =>
      intro key hpresents horganization video
      obtain ⟨rfl, rfl⟩ := listVideosBy_ok hpresents horganization served
      rw [hasNext_page, decide_eq_false_iff_not, not_lt] at hasNext
      constructor
      · rintro ⟨response, hmem, hshown⟩
        rw [List.mem_singleton] at hmem
        subst hmem
        exact ⟨k, le_refl k, mem_data.mp hshown⟩
      · rintro ⟨j, hj, row, hrow, hvideo⟩
        obtain rfl : j = k := Nat.le_antisymm (page_le hasNext hrow) hj
        exact ⟨_, List.mem_singleton_self _, mem_data.mpr ⟨row, hrow, hvideo⟩⟩
  | @next k db db' response responses served hasNext rest ih =>
      intro key hpresents horganization video
      obtain ⟨rfl, rfl⟩ := listVideosBy_ok hpresents horganization served
      have hrest := ih (presents_used hpresents presented.later) horganization video
      constructor
      · rintro ⟨response, hmem, hshown⟩
        rcases List.mem_cons.mp hmem with rfl | hmem
        · exact ⟨k, le_refl k, mem_data.mp hshown⟩
        · obtain ⟨j, hj, hpage⟩ := hrest.mp ⟨response, hmem, hshown⟩
          exact ⟨j, Nat.le_of_succ_le hj, hpage⟩
      · rintro ⟨j, hj, hpage⟩
        rcases Nat.eq_or_lt_of_le hj with rfl | hj
        · exact ⟨_, List.mem_cons_self, mem_data.mpr hpage⟩
        · obtain ⟨response, hmem, hshown⟩ := hrest.mpr ⟨j, hj, hpage⟩
          exact ⟨response, List.mem_cons_of_mem _ hmem, hshown⟩

/-- With a key of the scope the list can be walked to its end, by induction on the number of pages
that are left. -/
theorem exists_walk (answering : Nat → Answering) :
    ∀ (n k : Nat) {db : PublicDb} {key : ApiKey},
      Authenticated db presented keyId key "video:read" →
      key.organizationId = some organizationId →
      (db.listed organizationId).length ≤ (k + n + 1) * size.size →
      ∃ responses, VideosWalked answering presented size k db responses
  | 0, k, db, key, hauthenticated, horganization, hlength => by
      have hserved := listVideosBy_eq hauthenticated horganization (answering k) (size.page k)
      refine ⟨_, .last hserved ?_⟩
      rw [hasNext_page, decide_eq_false_iff_not, not_lt]
      exact hlength
  | n + 1, k, db, key, hauthenticated, horganization, hlength => by
      have hserved := listVideosBy_eq hauthenticated horganization (answering k) (size.page k)
      by_cases hnext : (k + 1) * size.size < (db.listed organizationId).length
      · have hagain : Authenticated (db.used keyId key presented.later) presented keyId
            { key with lastUsedAt := some presented.later } "video:read" :=
          ⟨presents_used hauthenticated.presents presented.later,
            ⟨hauthenticated.usable.unrevoked, hauthenticated.usable.undeleted,
              hauthenticated.usable.unexpired⟩, hauthenticated.carries⟩
        obtain ⟨responses, hwalk⟩ := exists_walk answering n (k + 1) hagain horganization
          (by rw [show k + 1 + n + 1 = k + (n + 1) + 1 by omega]; exact hlength)
        refine ⟨_, .next hserved ?_ hwalk⟩
        rw [hasNext_page, decide_eq_true_eq]
        exact hnext
      · refine ⟨_, .last hserved ?_⟩
        rw [hasNext_page, decide_eq_false_iff_not]
        exact hnext

theorem VideosWalked.authenticated {answering : Nat → Answering}
    {responses : List (PublicList PublicVideo)}
    (h : VideosWalked answering presented size k db responses)
    (hpresents : presented.headers.Presents presented.library db.keys keyId key) :
    Authenticated db presented keyId key "video:read" := by
  cases h with
  | last served hasNext =>
      obtain ⟨r, hscope, -⟩ := Except.bind_eq_ok.mp served
      exact authenticated_of_withScope hpresents hscope
  | next served hasNext rest =>
      obtain ⟨r, hscope, -⟩ := Except.bind_eq_ok.mp served
      exact authenticated_of_withScope hpresents hscope

/-! ## Where the endpoints agree -/

/-- The video is not deleted, and one page has room for all that were created with it. -/
structure SeenWhole (db : PublicDb) (organizationId : Id) (size : PageSize) (video : Video)
    (videoId : Id) : Prop where
  undeleted : video.deletedAt = none
  onePage : Paging.before Newest (db.listed organizationId) (video, videoId) / size.size =
    (Paging.upTo Newest (db.listed organizationId) (video, videoId) - 1) / size.size

/-- A database that answers one query in this order, and sorts the rows of every other. -/
def answeringOf (rows order : List (Video × Id)) [DecidableEq (Video × Id)]
    (h : Paging.Orders Newest rows order) : Answering where
  answer rows' := if rows' = rows then order else rows'.insertionSort Newest
  orders rows' := by
    split
    · next heq => exact heq ▸ h
    · exact Answering.stable.orders rows'

variable {videoId : Id}

theorem agree_iff (hpresents : presented.headers.Presents presented.library db.keys keyId key)
    (horganization : key.organizationId = some organizationId) :
    Agree db presented organizationId size videoId ↔
      (Authenticated db presented keyId key "video:read" →
        ∀ video, db.content.videos[videoId]? = some video →
          video.projectId ∈ db.projectIdsForOrg organizationId →
            SeenWhole db organizationId size video videoId) := by
  classical
  have hmem_of_page : ∀ {answering : Answering} {j : Nat} {row : Video × Id},
      row ∈ Paging.page size.size j (answering.answer (db.listed organizationId)) →
      row ∈ db.listed organizationId := by
    intro answering j row hrow
    exact (answering.orders _).perm.mem_iff.mp
      (List.mem_of_mem_drop (List.mem_of_mem_take hrow))
  constructor
  · intro hagree hauthenticated video hrow hproject
    obtain ⟨db', hget⟩ := (getVideo_iff hpresents horganization).mpr
      ⟨hauthenticated, video, hrow, hproject, rfl⟩
    have hundeleted : video.deletedAt = none := by
      obtain ⟨found, hfound, hnone, -⟩ := hagree.visible _ hget
      cases hrow.symm.trans hfound
      exact hnone
    refine ⟨hundeleted, ?_⟩
    have hlisted : (video, videoId) ∈ db.listed organizationId :=
      mem_listed.mpr ⟨hrow, hproject, hundeleted⟩
    refine (Paging.shown_always_iff newest_total newest_trans size.size_pos nodup_listed
      hlisted).mp fun orders horders => ?_
    have hlength : (db.listed organizationId).length ≤
        (0 + (db.listed organizationId).length + 1) * size.size := by
      refine (Nat.le_succ _).trans ?_
      rw [Nat.zero_add]
      exact Nat.le_mul_of_pos_right _ size.size_pos
    obtain ⟨responses, hwalk⟩ := exists_walk
      (fun j => answeringOf _ (orders j) (horders j)) _ 0 hauthenticated horganization hlength
    obtain ⟨j, -, row, hpage, heq⟩ := (hwalk.shown_iff hpresents horganization _).mp
      ((hagree.same _ _ hwalk _ rfl).mp ⟨db', hget⟩)
    have hid : row.2 = videoId := congrArg PublicVideo.id heq
    have hsame : row = (video, videoId) := by
      obtain ⟨found, id⟩ := row
      obtain ⟨hfound, -⟩ := mem_listed.mp (hmem_of_page hpage)
      dsimp only at hid
      subst hid
      cases hrow.symm.trans hfound
      rfl
    rw [hsame] at hpage
    simp only [answeringOf, if_true] at hpage
    exact ⟨j, hpage⟩
  · intro hseen
    constructor
    · intro answering responses hwalk shown hid
      rw [getVideo_iff hpresents horganization, hwalk.shown_iff hpresents horganization]
      constructor
      · rintro ⟨hauthenticated, video, hrow, hproject, heq⟩
        have hwhole := hseen hauthenticated video hrow hproject
        have hlisted : (video, videoId) ∈ db.listed organizationId :=
          mem_listed.mpr ⟨hrow, hproject, hwhole.undeleted⟩
        obtain ⟨j, hpage⟩ := (Paging.shown_always_iff newest_total newest_trans size.size_pos
          nodup_listed hlisted).mpr hwhole.onePage _ fun j => (answering j).orders _
        exact ⟨j, Nat.zero_le j, _, hpage, heq⟩
      · rintro ⟨j, -, ⟨video, id⟩, hpage, heq⟩
        obtain ⟨hrow, hproject, -⟩ := mem_listed.mp (hmem_of_page hpage)
        have hsame : id = videoId := (congrArg PublicVideo.id heq).trans hid
        subst hsame
        exact ⟨hwalk.authenticated hpresents, video, hrow, hproject, heq⟩
    · rintro ⟨shown, db'⟩ hget
      obtain ⟨hauthenticated, video, hrow, hproject, -⟩ :=
        (getVideo_iff hpresents horganization).mp ⟨db', hget⟩
      exact ⟨video, hrow, (hseen hauthenticated video hrow hproject).undeleted,
        organization_of_mem hproject⟩

/-! ## Where a created video stays inside -/

variable {body : PublicVideoCreate} {createdAt : DateTime}

theorem createVideo_iff {created : PublicVideo}
    (hpresents : presented.headers.Presents presented.library db.keys keyId key)
    (horganization : key.organizationId = some organizationId) :
    (∃ db', db.createVideo presented body createdAt = .ok (created, db')) ↔
      Authenticated db presented keyId key "video:write" ∧
        body.projectId ∈ db.projectIdsForOrg organizationId ∧
        (∀ c ∈ body.channelId, c < db.content.channels.length) ∧
        PublicVideo.ofRow (body.video createdAt, db.content.videos.length) = created := by
  have hroute : Authenticated db presented keyId key "video:write" →
      db.createVideo presented body createdAt =
        (if body.projectId ∉ db.projectIdsForOrg organizationId then
          .error (.notFound "Project not found." [])
        else if body.channelId.any fun c => db.content.channels.length ≤ c then .error .integrity
        else .ok (PublicVideo.ofRow (body.video createdAt, db.content.videos.length),
          { db.used keyId key presented.later with
            content := { db.content with
              videos := db.content.videos ++ [body.video createdAt] } })) := by
    intro hauthenticated
    unfold PublicDb.createVideo
    rw [withScope_of_authenticated hauthenticated (by decide), Except.ok_bind]
    dsimp only
    rw [requireOrganization_of_some horganization, Except.ok_bind]
    rfl
  have hexists : ¬ (body.channelId.any fun c => db.content.channels.length ≤ c) = true ↔
      ∀ c ∈ body.channelId, c < db.content.channels.length := by
    cases body.channelId with
    | none => simp
    | some c => simp
  constructor
  · rintro ⟨db', h⟩
    obtain ⟨r, hscope, -⟩ := Except.bind_eq_ok.mp h
    have hauthenticated := authenticated_of_withScope hpresents hscope
    rw [hroute hauthenticated] at h
    split at h
    · cases h
    · next hproject =>
        split at h
        · cases h
        · next hchannel =>
            cases h
            exact ⟨hauthenticated, not_not.mp hproject, hexists.mp hchannel, rfl⟩
  · rintro ⟨hauthenticated, hproject, hchannel, rfl⟩
    rw [hroute hauthenticated, if_neg (not_not.mpr hproject), if_neg (hexists.mpr hchannel)]
    exact ⟨_, rfl⟩

theorem createsInside_iff
    (hpresents : presented.headers.Presents presented.library db.keys keyId key)
    (horganization : key.organizationId = some organizationId) :
    CreatesInside db presented organizationId body createdAt ↔
      (Authenticated db presented keyId key "video:write" →
        body.projectId ∈ db.projectIdsForOrg organizationId →
          ∀ c ∈ body.channelId, ∀ channel, db.content.channels[c]? = some channel →
            db.content.projectOrganization channel.projectId = some organizationId) := by
  constructor
  · intro hinside hauthenticated hproject c hc channel hrow
    have hexists : ∀ c ∈ body.channelId, c < db.content.channels.length := by
      intro c' hc'
      obtain rfl := Option.mem_unique hc hc'
      exact (List.getElem?_eq_some_iff.mp hrow).1
    obtain ⟨db', hcreated⟩ := (createVideo_iff hpresents horganization).mpr
      ⟨hauthenticated, hproject, hexists, rfl⟩
    obtain ⟨found, hfound, howned⟩ := hinside.channel _ hcreated c hc
    cases hrow.symm.trans hfound
    exact howned
  · intro howned
    constructor
    · rintro ⟨created, db'⟩ hcreated
      obtain ⟨-, hproject, -, rfl⟩ := (createVideo_iff hpresents horganization).mp ⟨db', hcreated⟩
      exact organization_of_mem hproject
    · rintro ⟨created, db'⟩ hcreated c hc
      obtain ⟨hauthenticated, hproject, hexists, rfl⟩ :=
        (createVideo_iff hpresents horganization).mp ⟨db', hcreated⟩
      have hrow := List.getElem?_eq_getElem (hexists c hc)
      exact ⟨_, hrow, howned hauthenticated hproject c hc _ hrow⟩

/-- With a key of an organization the list and the detail endpoint agree about a video exactly if,
should the key have the scope and the video be of the organization, it is not deleted and one page
has room for all that were created with it; and what a request creates stays inside exactly if,
should it be served, its channel is of the organization. -/
theorem endpoints_agree_iff
    (hpresents : presented.headers.Presents presented.library db.keys keyId key)
    (horganization : key.organizationId = some organizationId) :
    (∀ size videoId, Agree db presented organizationId size videoId ↔
      (Authenticated db presented keyId key "video:read" →
        ∀ video, db.content.videos[videoId]? = some video →
          video.projectId ∈ db.projectIdsForOrg organizationId →
            SeenWhole db organizationId size video videoId)) ∧
      ∀ body createdAt, CreatesInside db presented organizationId body createdAt ↔
        (Authenticated db presented keyId key "video:write" →
          body.projectId ∈ db.projectIdsForOrg organizationId →
            ∀ c ∈ body.channelId, ∀ channel, db.content.channels[c]? = some channel →
              db.content.projectOrganization channel.projectId = some organizationId) :=
  ⟨fun _ _ => agree_iff hpresents horganization,
    fun _ _ => createsInside_iff hpresents horganization⟩

end

/-! ## Two organizations -/

/-- Organization 0 has a video, a deleted video, a channel and a key; organization 1 has a
channel. -/
def sharedDb : PublicDb where
  access := ⟨[⟨true, false, none⟩], [], []⟩
  keys := [⟨0, some 0, "sync", "ayf_1", "one", ["video:read", "video:write"], none, none, none,
    none⟩]
  content :=
    { workspaces := [⟨0, "Studio", "studio", none, 0, none⟩, ⟨1, "Rival", "rival", none, 0, none⟩]
      projects := [⟨0, "Kids", "kids", none, "active", none, 0, none⟩,
        ⟨1, "Toys", "toys", none, "active", none, 0, none⟩]
      channels := [⟨1, "Rival TV", none, none, true, 0, none⟩,
        ⟨0, "Kids TV", none, none, true, 1, none⟩]
      videos := [⟨0, none, "Trailer", none, "draft", none, 0, none⟩,
        ⟨0, none, "Teaser", none, "draft", none, 1, some 2⟩] }
  runs := []
  books := ⟨⟨[], []⟩, [], [], []⟩

theorem sharedDb_presents : viewerPresents.headers.Presents viewerPresents.library sharedDb.keys 0
    (sharedDb.keys.get ⟨0, by decide⟩) :=
  ⟨"ayf_1.one", rfl, ⟨"one", by decide, rfl⟩, by decide, rfl⟩

/-- A new video, in a channel or in none. -/
def trailer (channelId : Option Id) : PublicVideoCreate :=
  ⟨0, "Trailer", none, channelId, by decide, by simp⟩

def largePages : PageSize := ⟨100, by decide, le_refl 100⟩

theorem endpoints_agree_shared :
    Agree sharedDb viewerPresents 0 largePages 0 ∧
      CreatesInside sharedDb viewerPresents 0 (trailer (some 1)) 3 := by
  have hiff := endpoints_agree_iff sharedDb_presents rfl
  refine ⟨(hiff.1 largePages 0).mpr fun _ video hrow _ => ?_,
    (hiff.2 (trailer (some 1)) 3).mpr fun _ _ c hc channel hrow => ?_⟩
  · cases hrow
    exact ⟨rfl, by decide⟩
  · cases hc
    cases hrow
    decide

/-- The deleted video is returned, and the rival's channel is taken. -/
theorem endpoints_disagree :
    (¬ ∀ (db : PublicDb) (presented : Presented) (keyId : Id) (key : ApiKey) (organizationId : Id)
      (size : PageSize) (videoId : Id),
      presented.headers.Presents presented.library db.keys keyId key →
      key.organizationId = some organizationId →
      Agree db presented organizationId size videoId) ∧
    ¬ ∀ (db : PublicDb) (presented : Presented) (keyId : Id) (key : ApiKey) (organizationId : Id)
      (body : PublicVideoCreate) (createdAt : DateTime),
      presented.headers.Presents presented.library db.keys keyId key →
      key.organizationId = some organizationId →
      CreatesInside db presented organizationId body createdAt := by
  constructor
  · intro hagrees
    have hagree := hagrees sharedDb viewerPresents 0 _ 0 largePages 1 sharedDb_presents rfl
    obtain ⟨video, hrow, hundeleted, -⟩ := hagree.visible _ rfl
    cases hrow
    cases hundeleted
  · intro hcreates
    have hinside :=
      hcreates sharedDb viewerPresents 0 _ 0 (trailer (some 0)) 3 sharedDb_presents rfl
    obtain ⟨channel, hrow, howned⟩ := hinside.channel _ rfl 0 rfl
    cases hrow
    revert howned
    decide

end YoutubeFactory.PublicApi
