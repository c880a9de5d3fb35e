import YoutubeFactory.Repositories.Base
import Mathlib.Tactic.Linarith

/-!
# Walking the pages

Walking the pages of the default sort shows each matching row once, whatever order the database
chooses in each query, exactly if the rows created at one moment stand on one page.
-/

namespace YoutubeFactory.Repositories

variable {Row Value Operand : Type} [LinearOrder Value]

/-! ## Sorts -/

theorem comesBefore_total : ∀ (keys : List (SortKey Row Value)) (a b : Row),
    ComesBefore keys a b ∨ ComesBefore keys b a
  | [], _, _ => .inl trivial
  | (column, descending) :: keys, a, b => by
      have hrest := comesBefore_total keys a b
      cases descending with
      | true =>
          rcases lt_trichotomy (column b) (column a) with h | h | h
          · exact .inl (.inl h)
          · exact hrest.imp (fun hab => .inr ⟨h, hab⟩) fun hba => .inr ⟨h.symm, hba⟩
          · exact .inr (.inl h)
      | false =>
          rcases lt_trichotomy (column a) (column b) with h | h | h
          · exact .inl (.inl h)
          · exact hrest.imp (fun hab => .inr ⟨h, hab⟩) fun hba => .inr ⟨h.symm, hba⟩
          · exact .inr (.inl h)

/-- Two steps of a lexicographic order. -/
theorem lex_trans {x y z : Value} {P Q R : Prop} (hPQ : P → Q → R) (hxy : x < y ∨ x = y ∧ P)
    (hyz : y < z ∨ y = z ∧ Q) : x < z ∨ x = z ∧ R := by
  rcases hxy with hxy | ⟨rfl, hP⟩
  · rcases hyz with hyz | ⟨rfl, -⟩
    · exact .inl (hxy.trans hyz)
    · exact .inl hxy
  · exact hyz.imp_right fun ⟨heq, hQ⟩ => ⟨heq, hPQ hP hQ⟩

theorem comesBefore_trans : ∀ (keys : List (SortKey Row Value)) (a b c : Row),
    ComesBefore keys a b → ComesBefore keys b c → ComesBefore keys a c
  | [], _, _, _, _, _ => trivial
  | (column, descending) :: keys, a, b, c, hab, hbc => by
      have hrest := comesBefore_trans keys a b c
      cases descending with
      | true =>
          have hswap := @lex_trans _ _ (column c) (column b) (column a) _ _ _
            (fun h h' => hrest h' h) hbc hab
          exact hswap
      | false => exact lex_trans hrest hab hbc

/-- The default sort. -/
abbrev newestFirst (createdAt : Row → Value) : List (SortKey Row Value) := [(createdAt, true)]

theorem comesBefore_newestFirst {createdAt : Row → Value} {a b : Row} :
    ComesBefore (newestFirst createdAt) a b ↔ createdAt b ≤ createdAt a := by
  show createdAt b < createdAt a ∨ createdAt b = createdAt a ∧ True ↔ _
  rw [and_true, le_iff_lt_or_eq]

/-! ## One page -/

theorem limit_pos (params : PageParams) : 0 < params.limit := by
  unfold PageParams.limit
  omega

theorem offset_succ (k : Nat) (size : Int) :
    (PageParams.mk (k + 1) size).offset = k * (PageParams.mk (k + 1) size).limit := by
  have hpage : max ((k : Int) + 1) 1 - 1 = k := by omega
  show ((max ((k : Int) + 1) 1 - 1) * _).toNat = _
  rw [hpage]
  exact Int.toNat_natCast _

namespace Model

variable (model : Model Row Value Operand) {table : Table Row}
  {filters : List (FilterSpec Operand)} {passes : Row → Bool}

/-- The rows that match. -/
def matching (table : Table Row) (includeDeleted : Bool) (passes : Row → Bool) : List Row :=
  table.rows.filter (model.selects includeDeleted passes)

/-- The rows created after this one. -/
def newer (rows : List Row) (row : Row) : Nat :=
  rows.countP fun other => model.createdAt row < model.createdAt other

/-- The rows created when this one was, or after it. -/
def atLeastAsNew (rows : List Row) (row : Row) : Nat :=
  rows.countP fun other => model.createdAt row ≤ model.createdAt other

/-- The rows created at one moment stand on one page, however they are ordered. -/
def MomentsOnOnePage (limit : Nat) (rows : List Row) : Prop :=
  ∀ row ∈ rows, model.newer rows row / limit = (model.atLeastAsNew rows row - 1) / limit

instance (limit : Nat) (rows : List Row) : Decidable (model.MomentsOnOnePage limit rows) :=
  inferInstanceAs (Decidable (∀ row ∈ rows, _))

theorem momentsOnOnePage_iff {limit : Nat} {rows : List Row} :
    model.MomentsOnOnePage limit rows ↔
      Paging.TiesOnOnePage (ComesBefore (newestFirst model.createdAt)) limit rows := by
  have hnewer : ∀ row, model.newer rows row =
      Paging.before (ComesBefore (newestFirst model.createdAt)) rows row := by
    intro row
    unfold newer Paging.before
    refine List.countP_congr fun other _ => ?_
    rw [decide_eq_true_eq, decide_eq_true_eq, comesBefore_newestFirst, comesBefore_newestFirst,
      not_le]
    exact ⟨fun h => ⟨h.le, h⟩, fun h => h.2⟩
  have hupTo : ∀ row, model.atLeastAsNew rows row =
      Paging.upTo (ComesBefore (newestFirst model.createdAt)) rows row := by
    intro row
    unfold atLeastAsNew Paging.upTo
    refine List.countP_congr fun other _ => ?_
    rw [decide_eq_true_eq, decide_eq_true_eq, comesBefore_newestFirst]
  unfold MomentsOnOnePage Paging.TiesOnOnePage
  simp only [hnewer, hupTo]

/-- A page of the default sort. -/
theorem paginate_default (hfilters : model.applyFilters filters = .ok passes)
    (database : Database Value table) (includeDeleted : Bool) (k : Nat) (size : Int) :
    model.paginate database ⟨k + 1, size⟩ filters [] includeDeleted = .ok
      { items := Paging.page (PageParams.mk (k + 1) size).limit k
          (database.answer (model.selects includeDeleted passes) (newestFirst model.createdAt))
        total := (model.matching table includeDeleted passes).length
        page := k + 1
        size := (PageParams.mk (k + 1) size).limit } := by
  have hkeys : model.applySort [⟨"created_at", true⟩] = .ok (newestFirst model.createdAt) := by
    simp [applySort, model.column_createdAt, newestFirst]
  simp only [paginate, count, hfilters, Except.ok_bind, Except.pure_eq_ok, List.isEmpty_nil,
    if_true, hkeys, offset_succ]
  rfl

/-! ## All pages -/

/-- The first `n` pages, each from a database of its own. -/
def walkPages (databases : Nat → Database Value table) (filters : List (FilterSpec Operand))
    (includeDeleted : Bool) (size : Int) (n : Nat) : Except String (List (Page Row)) :=
  (List.range n).mapM fun k =>
    model.paginate (databases k) ⟨k + 1, size⟩ filters [] includeDeleted

end Model

/-- The pages show each of these rows once, and the last one only has no next. -/
structure VisitsOnce (shown : List (Page Row)) (rows : List Row) : Prop where
  each : (shown.flatMap Page.items).Perm rows
  pages : ∀ page ∈ shown, page.pages = shown.length
  hasNext : ∀ page ∈ shown, page.hasNext = false ↔ page.page = page.pages

namespace Model

variable (model : Model Row Value Operand) {table : Table Row}
  {filters : List (FilterSpec Operand)} {passes : Row → Bool}

/-- Walking pages 1 to `pages` shows every matching row once. -/
def WalksOnce (databases : Nat → Database Value table) (filters : List (FilterSpec Operand))
    (includeDeleted : Bool) (size : Int) (rows : List Row) : Prop :=
  ∃ shown, model.walkPages databases filters includeDeleted size
      (Paging.pageCount (PageParams.mk 1 size).limit rows.length) = .ok shown ∧
    VisitsOnce shown rows

/-- The page after the first `k` ones. -/
def pageAfter (database : Database Value table) (includeDeleted : Bool) (passes : Row → Bool)
    (size : Int) (k : Nat) : Page Row where
  items := Paging.page (PageParams.mk 1 size).limit k
    (database.answer (model.selects includeDeleted passes) (newestFirst model.createdAt))
  total := (model.matching table includeDeleted passes).length
  page := k + 1
  size := (PageParams.mk 1 size).limit

theorem pages_pageAfter (database : Database Value table) (includeDeleted : Bool)
    (passes : Row → Bool) (size : Int) (k : Nat) :
    (model.pageAfter database includeDeleted passes size k).pages =
      Paging.pageCount (PageParams.mk 1 size).limit
        (model.matching table includeDeleted passes).length :=
  if_neg (limit_pos (PageParams.mk 1 size)).ne'

/-- Walking never raises. -/
theorem walkPages_eq (hfilters : model.applyFilters filters = .ok passes)
    (includeDeleted : Bool) (size : Int) (databases : Nat → Database Value table) (n : Nat) :
    model.walkPages databases filters includeDeleted size n = .ok ((List.range n).map fun k =>
      model.pageAfter (databases k) includeDeleted passes size k) := by
  have hevery : (fun k : Nat =>
      model.paginate (databases k) ⟨k + 1, size⟩ filters [] includeDeleted) =
        fun k => pure (model.pageAfter (databases k) includeDeleted passes size k) := by
    funext k
    rw [model.paginate_default hfilters]
    rfl
  unfold walkPages
  rw [hevery, List.mapM_pure]
  rfl

theorem walksOnce_iff (hfilters : model.applyFilters filters = .ok passes)
    (includeDeleted : Bool) (size : Int) (databases : Nat → Database Value table) :
    model.WalksOnce databases filters includeDeleted size
        (model.matching table includeDeleted passes) ↔
      (Paging.walk (PageParams.mk 1 size).limit (model.matching table includeDeleted passes)
        fun k => (databases k).answer (model.selects includeDeleted passes)
          (newestFirst model.createdAt)).Perm (model.matching table includeDeleted passes) := by
  obtain ⟨n, hn⟩ : ∃ n, n = Paging.pageCount (PageParams.mk 1 size).limit
    (model.matching table includeDeleted passes).length := ⟨_, rfl⟩
  have hitems : ((List.range n).map fun k => model.pageAfter (databases k) includeDeleted
      passes size k).flatMap Page.items =
      Paging.walk (PageParams.mk 1 size).limit (model.matching table includeDeleted passes)
        fun k => (databases k).answer (model.selects includeDeleted passes)
          (newestFirst model.createdAt) := by
    rw [List.flatMap_map, hn]
    rfl
  rw [← hitems]
  unfold WalksOnce
  rw [← hn, model.walkPages_eq hfilters]
  constructor
  · rintro ⟨shown, hwalk, hvisits⟩
    cases hwalk
    exact hvisits.each
  · intro hperm
    refine ⟨_, rfl, hperm, fun page hpage => ?_, fun page hpage => ?_⟩
    · obtain ⟨k, -, rfl⟩ := List.mem_map.mp hpage
      rw [pages_pageAfter, ← hn, List.length_map, List.length_range]
    · obtain ⟨k, hk, rfl⟩ := List.mem_map.mp hpage
      have hlt : k < n := List.mem_range.mp hk
      rw [Page.hasNext, pages_pageAfter, ← hn, decide_eq_false_iff_not]
      show ¬ ((k : Int) + 1 < n) ↔ (k : Int) + 1 = n
      omega

/-- A database that answers one query in this order, and sorts the rows of every other. -/
noncomputable def databaseOf (table : Table Row) (selects : Row → Bool)
    (keys : List (SortKey Row Value)) (order : List Row)
    (h : Paging.Orders (ComesBefore keys) (table.rows.filter selects) order) :
    Database Value table where
  answer selects' keys' :=
    open Classical in
    if selects' = selects ∧ keys' = keys then order
    else (table.rows.filter selects').insertionSort (ComesBefore keys')
  orders selects' keys' := by
    split
    · next hquery =>
        rw [hquery.1, hquery.2]
        exact h
    · exact ⟨List.perm_insertionSort _ _,
        Sorting.pairwise_insertionSort (comesBefore_total keys') (comesBefore_trans keys') _⟩

/-- Walking the pages of the default sort shows every matching row once, with every choice of the
database in every query, exactly if the rows created at one moment stand on one page. -/
theorem pages_visit_once_iff (table : Table Row) (includeDeleted : Bool) (size : Int)
    (hfilters : model.applyFilters filters = .ok passes) :
    (∀ databases : Nat → Database Value table, model.WalksOnce databases filters includeDeleted
        size (model.matching table includeDeleted passes)) ↔
      model.MomentsOnOnePage (PageParams.mk 1 size).limit
        (model.matching table includeDeleted passes) := by
  classical
  have hnodup : (model.matching table includeDeleted passes).Nodup := table.nodup.filter _
  rw [momentsOnOnePage_iff, ← Paging.walk_iff (comesBefore_total _) (comesBefore_trans _)
    (limit_pos _) hnodup]
  constructor
  · intro hwalks orders horders
    have hwalk := (model.walksOnce_iff hfilters includeDeleted size fun k =>
      databaseOf table _ _ (orders k) (horders k)).mp (hwalks _)
    have hanswer : ∀ k, (databaseOf table _ _ (orders k) (horders k)).answer
        (model.selects includeDeleted passes) (newestFirst model.createdAt) = orders k :=
      fun k => if_pos ⟨rfl, rfl⟩
    simp only [hanswer] at hwalk
    exact hwalk
  · intro hperm databases
    exact (model.walksOnce_iff hfilters includeDeleted size databases).mpr
      (hperm _ fun k => (databases k).orders _ _)

end Model

/-! ## Videos created together -/

/-- Rows of a number and the moment they were created at. -/
def videoModel : Model (Nat × Int) Int Unit where
  column name := if name = "created_at" then some Prod.snd else none
  deletedAt := none
  holds _ _ _ := true
  createdAt := Prod.snd
  column_createdAt := rfl

/-- Two videos of one transaction, and one of another. -/
def videoTable : Table (Nat × Int) := ⟨[(0, 60), (1, 60), (2, 90)], by decide⟩

/-- With three rows on a page the two are not parted. -/
theorem videos_visited_once :
    videoModel.MomentsOnOnePage 3 (videoModel.matching videoTable false fun _ => true) ∧
      ∀ databases : Nat → Database Int videoTable, videoModel.WalksOnce databases [] false 3
        (videoModel.matching videoTable false fun _ => true) := by
  have hpages : videoModel.MomentsOnOnePage 3
      (videoModel.matching videoTable false fun _ => true) := by
    decide
  exact ⟨hpages, (videoModel.pages_visit_once_iff videoTable false 3 rfl).mpr hpages⟩

/-- Two videos of one transaction. -/
def twinTable : Table (Nat × Int) := ⟨[(0, 60), (1, 60)], by decide⟩

/-- The first query returns one first, the others return the other first. -/
def twinOrder (k : Nat) : List (Nat × Int) :=
  if k = 0 then [(0, 60), (1, 60)] else [(1, 60), (0, 60)]

theorem twinOrder_orders (k : Nat) : Paging.Orders (ComesBefore (newestFirst videoModel.createdAt))
    (twinTable.rows.filter (videoModel.selects false fun _ => true)) (twinOrder k) := by
  unfold twinOrder
  split
  · exact ⟨by decide, by decide⟩
  · exact ⟨by decide, by decide⟩

/-- On pages of one row the first video is shown twice, and the second never. -/
theorem twin_shown_twice :
    ¬ ∀ (table : Table (Nat × Int)) (size : Int) (databases : Nat → Database Int table),
      videoModel.WalksOnce databases [] false size
        (videoModel.matching table false fun _ => true) := by
  intro hwalks
  have hwalk := (videoModel.walksOnce_iff rfl false 1 fun k =>
    Model.databaseOf twinTable _ _ (twinOrder k) (twinOrder_orders k)).mp (hwalks twinTable 1 _)
  have hanswer : ∀ k, (Model.databaseOf twinTable _ _ (twinOrder k) (twinOrder_orders k)).answer
      (videoModel.selects false fun _ => true) (newestFirst videoModel.createdAt) = twinOrder k :=
    fun k => if_pos ⟨rfl, rfl⟩
  simp only [hanswer] at hwalk
  revert hwalk
  decide

end YoutubeFactory.Repositories
