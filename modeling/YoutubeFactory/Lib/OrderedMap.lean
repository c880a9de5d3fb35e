import Mathlib.Data.List.Nodup

/-!
# Insertion-ordered maps

A list of entries with distinct keys.  Setting a key that is there keeps its place,
another key goes to the end.  An update sets the entries of another map one after
the other, and changes nothing exactly when they are all there already
(`update_eq_self_iff`).
-/

/-- A map that remembers the order in which its keys were set. -/
structure OrderedMap (κ V : Type) where
  entries : List (κ × V)
  nodup : (entries.map Prod.fst).Nodup
deriving DecidableEq

namespace OrderedMap

variable {κ V : Type} [DecidableEq κ]

/-! ## Entries -/

def setEntry (k : κ) (v : V) : List (κ × V) → List (κ × V)
  | [] => [(k, v)]
  | e :: es => if e.1 = k then (e.1, v) :: es else e :: setEntry k v es

def findEntry (k : κ) (es : List (κ × V)) : Option V := (es.find? fun e => e.1 = k).map Prod.snd

theorem keys_setEntry (k : κ) (v : V) (es : List (κ × V)) :
    (setEntry k v es).map Prod.fst =
      if k ∈ es.map Prod.fst then es.map Prod.fst else es.map Prod.fst ++ [k] := by
  induction es with
  | nil => rfl
  | cons e es ih =>
      rw [setEntry]
      by_cases he : e.1 = k
      · rw [if_pos he, List.map_cons, List.map_cons, if_pos (List.mem_cons.mpr (.inl he.symm))]
      · rw [if_neg he, List.map_cons, List.map_cons, ih]
        by_cases hk : k ∈ es.map Prod.fst
        · rw [if_pos hk, if_pos (List.mem_cons_of_mem _ hk)]
        · have hnot : k ∉ e.1 :: es.map Prod.fst := fun hmem =>
            (List.mem_cons.mp hmem).elim (fun heq => he heq.symm) hk
          rw [if_neg hk, if_neg hnot, List.cons_append]

theorem setEntry_of_notMem {k : κ} (v : V) :
    ∀ {es : List (κ × V)}, k ∉ es.map Prod.fst → setEntry k v es = es ++ [(k, v)]
  | [], _ => rfl
  | e :: es, h => by
      rw [List.map_cons, List.mem_cons, not_or] at h
      rw [setEntry, if_neg (Ne.symm h.1), setEntry_of_notMem v h.2, List.cons_append]

theorem findEntry_setEntry (k l : κ) (v : V) (es : List (κ × V)) :
    findEntry l (setEntry k v es) = if l = k then some v else findEntry l es := by
  induction es with
  | nil =>
      by_cases hl : l = k
      · simp [setEntry, findEntry, hl]
      · simp [setEntry, findEntry, hl, Ne.symm hl]
  | cons e es ih =>
      unfold findEntry at ih ⊢
      rw [setEntry]
      by_cases he : e.1 = k
      · rw [if_pos he]
        by_cases hl : l = k
        · simp [hl, he]
        · simp [hl, he, Ne.symm hl]
      · rw [if_neg he]
        by_cases hl : e.1 = l
        · have hlk : l ≠ k := fun h => he (hl.trans h)
          simp [hl, hlk]
        · rw [List.find?_cons_of_neg (by simpa using hl),
            List.find?_cons_of_neg (by simpa using hl), ih]

/-- Setting a key adds at most its own value. -/
theorem countP_setEntry_le (P : V → Bool) (k : κ) (v : V) (es : List (κ × V)) :
    ((setEntry k v es).map Prod.snd).countP P ≤
      (es.map Prod.snd).countP P + if P v = true then 1 else 0 := by
  induction es with
  | nil => simp [setEntry, List.countP_cons]
  | cons e es ih =>
      rw [setEntry]
      split
      · simp only [List.map_cons, List.countP_cons]
        omega
      · simp only [List.map_cons, List.countP_cons]
        omega

theorem setEntry_eq_self_iff {k : κ} {v : V} {es : List (κ × V)} :
    setEntry k v es = es ↔ findEntry k es = some v := by
  induction es with
  | nil => simp [setEntry, findEntry]
  | cons e es ih =>
      unfold findEntry at ih ⊢
      rw [setEntry]
      by_cases he : e.1 = k
      · rw [if_pos he, List.find?_cons_of_pos (by simpa using he), Option.map_some,
          Option.some.injEq, List.cons.injEq, Prod.ext_iff]
        simp [eq_comm]
      · rw [if_neg he, List.find?_cons_of_neg (by simpa using he), List.cons.injEq, ih]
        simp

/-! ## Maps -/

omit [DecidableEq κ] in
@[ext] theorem ext {m n : OrderedMap κ V} (h : m.entries = n.entries) : m = n := by
  cases m
  cases n
  cases h
  rfl

def empty : OrderedMap κ V := ⟨[], List.nodup_nil⟩

/-- The value of a key. -/
def get? (m : OrderedMap κ V) (k : κ) : Option V := findEntry k m.entries

def keys (m : OrderedMap κ V) : List κ := m.entries.map Prod.fst

/-- Sets one key. -/
def set (m : OrderedMap κ V) (k : κ) (v : V) : OrderedMap κ V where
  entries := setEntry k v m.entries
  nodup := by
    rw [keys_setEntry]
    split
    · exact m.nodup
    · next hk =>
        refine List.nodup_append.mpr ⟨m.nodup, List.nodup_singleton k, ?_⟩
        rintro l hl _ hk' rfl
        exact hk (List.mem_singleton.mp hk' ▸ hl)

/-- Sets the entries of a list, one after the other. -/
def setAll (m : OrderedMap κ V) (es : List (κ × V)) : OrderedMap κ V :=
  es.foldl (fun m e => m.set e.1 e.2) m

/-- Sets the entries of another map. -/
def update (m patch : OrderedMap κ V) : OrderedMap κ V := m.setAll patch.entries

/-- The map of a list of entries, where a later entry of a key wins. -/
def ofList (es : List (κ × V)) : OrderedMap κ V := empty.setAll es

@[simp] theorem get?_set (m : OrderedMap κ V) (k l : κ) (v : V) :
    (m.set k v).get? l = if l = k then some v else m.get? l := findEntry_setEntry k l v m.entries

@[simp] theorem get?_empty (k : κ) : (empty : OrderedMap κ V).get? k = none := rfl

theorem set_eq_self_iff {m : OrderedMap κ V} {k : κ} {v : V} :
    m.set k v = m ↔ m.get? k = some v := by
  refine Iff.trans ⟨fun h => congrArg entries h, fun h => ext h⟩ setEntry_eq_self_iff

theorem get?_of_mem {m : OrderedMap κ V} {e : κ × V} (h : e ∈ m.entries) :
    m.get? e.1 = some e.2 := by
  obtain ⟨entries, nodup⟩ := m
  unfold get? findEntry
  dsimp only at h ⊢
  induction entries with
  | nil => cases h
  | cons f entries ih =>
      rw [List.map_cons, List.nodup_cons] at nodup
      rcases List.mem_cons.mp h with rfl | h
      · rw [List.find?_cons_of_pos (by simp)]
        rfl
      · have hne : f.1 ≠ e.1 := fun heq => nodup.1 (heq ▸ List.mem_map_of_mem h)
        rw [List.find?_cons_of_neg (by simpa using hne)]
        exact ih nodup.2 h

theorem mem_of_get? {m : OrderedMap κ V} {k : κ} {v : V} (h : m.get? k = some v) :
    (k, v) ∈ m.entries := by
  unfold get? findEntry at h
  obtain ⟨e, he, rfl⟩ := Option.map_eq_some_iff.mp h
  have hkey : e.1 = k := by simpa using List.find?_some he
  exact hkey ▸ List.mem_of_find?_eq_some he

theorem get?_eq_none_iff {m : OrderedMap κ V} {k : κ} : m.get? k = none ↔ k ∉ m.keys := by
  unfold get? findEntry keys
  rw [Option.map_eq_none_iff, List.find?_eq_none, List.mem_map]
  constructor
  · rintro h ⟨e, he, rfl⟩
    exact h e he (decide_eq_true rfl)
  · intro h e he hk
    exact h ⟨e, he, of_decide_eq_true hk⟩

/-! ## Updates -/

theorem keys_set (m : OrderedMap κ V) (k : κ) (v : V) :
    (m.set k v).keys = if k ∈ m.keys then m.keys else m.keys ++ [k] := keys_setEntry k v m.entries

theorem length_set (m : OrderedMap κ V) (k : κ) (v : V) : (m.set k v).entries.length =
    if k ∈ m.keys then m.entries.length else m.entries.length + 1 := by
  have hkeys := congrArg List.length (keys_set m k v)
  unfold keys at hkeys ⊢
  rw [List.length_map] at hkeys
  rw [hkeys]
  split
  · exact List.length_map _
  · rw [List.length_append, List.length_map, List.length_singleton]

/-- A key that the entries do not set. -/
theorem get?_setAll_of_notMem {es : List (κ × V)} {k : κ} (h : k ∉ es.map Prod.fst) :
    ∀ m : OrderedMap κ V, (m.setAll es).get? k = m.get? k := by
  induction es with
  | nil => exact fun _ => rfl
  | cons e es ih =>
      intro m
      rw [List.map_cons, List.mem_cons, not_or] at h
      have hcons : m.setAll (e :: es) = (m.set e.1 e.2).setAll es := rfl
      rw [hcons, ih h.2, get?_set, if_neg h.1]

/-- What a key is set to, where the entries have distinct keys. -/
theorem get?_setAll_of_mem {es : List (κ × V)} (hnodup : (es.map Prod.fst).Nodup) {e : κ × V}
    (h : e ∈ es) : ∀ m : OrderedMap κ V, (m.setAll es).get? e.1 = some e.2 := by
  induction es with
  | nil => cases h
  | cons f es ih =>
      intro m
      rw [List.map_cons, List.nodup_cons] at hnodup
      have hcons : m.setAll (f :: es) = (m.set f.1 f.2).setAll es := rfl
      rw [hcons]
      rcases List.mem_cons.mp h with rfl | h
      · rw [get?_setAll_of_notMem hnodup.1, get?_set, if_pos rfl]
      · exact ih hnodup.2 h _

theorem get?_update (m patch : OrderedMap κ V) (k : κ) :
    (m.update patch).get? k = (patch.get? k).or (m.get? k) := by
  cases hpatch : patch.get? k with
  | none => exact get?_setAll_of_notMem (get?_eq_none_iff.mp hpatch) m
  | some v =>
      obtain ⟨e, he, hv⟩ := Option.map_eq_some_iff.mp hpatch
      have hk : e.1 = k := by simpa using List.find?_some he
      have hset := get?_setAll_of_mem patch.nodup (List.mem_of_find?_eq_some he) m
      rw [hk, hv] at hset
      exact hset

/-- An update changes nothing exactly when all it sets is there. -/
theorem update_eq_self_iff {m patch : OrderedMap κ V} :
    m.update patch = m ↔ ∀ e ∈ patch.entries, m.get? e.1 = some e.2 := by
  constructor
  · intro h e he
    rw [← h]
    exact get?_setAll_of_mem patch.nodup he m
  · intro h
    unfold update setAll
    revert h
    induction patch.entries with
    | nil => exact fun _ => rfl
    | cons e es ih =>
        intro h
        rw [List.forall_mem_cons] at h
        rw [List.foldl_cons, set_eq_self_iff.mpr h.1]
        exact ih h.2

/-! ## Mapping the values -/

section

variable {W : Type}

def mapEntries (f : V → W) (es : List (κ × V)) : List (κ × W) := es.map fun e => (e.1, f e.2)

omit [DecidableEq κ] in
theorem keys_mapEntries (f : V → W) (es : List (κ × V)) :
    (mapEntries f es).map Prod.fst = es.map Prod.fst := by
  unfold mapEntries
  rw [List.map_map]
  rfl

theorem setEntry_mapEntries (f : V → W) (k : κ) (v : V) (es : List (κ × V)) :
    setEntry k (f v) (mapEntries f es) = mapEntries f (setEntry k v es) := by
  induction es with
  | nil => rfl
  | cons e es ih =>
      unfold mapEntries at ih ⊢
      rw [List.map_cons, setEntry, setEntry]
      by_cases he : e.1 = k
      · rw [if_pos he, if_pos he, List.map_cons]
      · rw [if_neg he, if_neg he, List.map_cons, ih]

/-- The map with a function applied to its values. -/
def map (f : V → W) (m : OrderedMap κ V) : OrderedMap κ W where
  entries := mapEntries f m.entries
  nodup := by
    rw [keys_mapEntries]
    exact m.nodup

theorem map_set (f : V → W) (m : OrderedMap κ V) (k : κ) (v : V) :
    (m.set k v).map f = (m.map f).set k (f v) :=
  ext (setEntry_mapEntries f k v m.entries).symm

theorem map_setAll (f : V → W) (es : List (κ × V)) :
    ∀ m : OrderedMap κ V, (m.setAll es).map f = (m.map f).setAll (mapEntries f es) := by
  induction es with
  | nil => exact fun _ => rfl
  | cons e es ih =>
      intro m
      have hcons : m.setAll (e :: es) = (m.set e.1 e.2).setAll es := rfl
      rw [hcons, ih, map_set]
      rfl

theorem map_update (f : V → W) (m patch : OrderedMap κ V) :
    (m.update patch).map f = (m.map f).update (patch.map f) :=
  map_setAll f patch.entries m

omit [DecidableEq κ] in
theorem keys_map (f : V → W) (m : OrderedMap κ V) : (m.map f).keys = m.keys :=
  keys_mapEntries f m.entries

omit [DecidableEq κ] in
theorem map_eq_map_iff {f g : V → W} {m : OrderedMap κ V} :
    m.map f = m.map g ↔ ∀ e ∈ m.entries, f e.2 = g e.2 := by
  have hentries : m.map f = m.map g ↔ mapEntries f m.entries = mapEntries g m.entries :=
    ⟨fun h => congrArg entries h, fun h => ext h⟩
  rw [hentries]
  unfold mapEntries
  rw [List.map_inj_left]
  refine forall₂_congr fun e _ => ?_
  rw [Prod.mk.injEq, and_iff_right rfl]

theorem get?_map (f : V → W) (m : OrderedMap κ V) (k : κ) :
    (m.map f).get? k = (m.get? k).map f := by
  unfold get? findEntry map mapEntries
  rw [List.find?_map, Option.map_map, Option.map_map]
  rfl

end

/-! ## Maps with the same keys -/

theorem keys_set_congr {m n : OrderedMap κ V} (h : m.keys = n.keys) (k : κ) (v w : V) :
    (m.set k v).keys = (n.set k w).keys := by
  unfold keys at h ⊢
  unfold set
  rw [keys_setEntry, keys_setEntry, h]

theorem keys_setAll_congr (es : List (κ × V)) :
    ∀ {m n : OrderedMap κ V}, m.keys = n.keys → (m.setAll es).keys = (n.setAll es).keys := by
  induction es with
  | nil => exact fun h => h
  | cons e es ih => exact fun h => ih (keys_set_congr h e.1 e.2 e.2)

theorem eq_of_get? {m n : OrderedMap κ V} (hkeys : m.keys = n.keys)
    (hget : ∀ k ∈ m.keys, m.get? k = n.get? k) : m = n := by
  have hlength : m.entries.length = n.entries.length := by
    have := congrArg List.length hkeys
    unfold keys at this
    rwa [List.length_map, List.length_map] at this
  refine ext (List.ext_getElem hlength fun i hm hn => ?_)
  have hfst : m.entries[i].1 = n.entries[i].1 := by
    have hi := congrArg (fun l : List κ => l[i]?) hkeys
    unfold keys at hi
    simpa [List.getElem?_map, hm, hn] using hi
  have hsnd := hget m.entries[i].1 (List.mem_map_of_mem (List.getElem_mem hm))
  rw [get?_of_mem (List.getElem_mem hm), hfst, get?_of_mem (List.getElem_mem hn),
    Option.some.injEq] at hsnd
  exact Prod.ext hfst hsnd

/-- A key that is set twice has its second value. -/
theorem set_set (m : OrderedMap κ V) (k : κ) (v w : V) : (m.set k v).set k w = m.set k w := by
  have hmem : k ∈ (m.set k v).keys := by
    rw [keys_set]
    split
    · next hk => exact hk
    · exact List.mem_append_right _ (List.mem_singleton_self k)
  have hkeys : ((m.set k v).set k w).keys = (m.set k w).keys := by
    rw [keys_set, if_pos hmem]
    exact keys_set_congr rfl k v w
  refine eq_of_get? hkeys fun l _ => ?_
  rw [get?_set, get?_set, get?_set]
  split
  · rfl
  · rfl

/-- Two readings of a map agree under an update exactly when they agree on the values that
it does not replace. -/
theorem update_map_eq_iff {W : Type} {f g : V → W} {m : OrderedMap κ V} {q : OrderedMap κ W} :
    (m.map f).update q = (m.map g).update q ↔
      ∀ e ∈ m.entries, e.1 ∉ q.keys → f e.2 = g e.2 := by
  constructor
  · intro h e he hq
    have hget := congrArg (fun n : OrderedMap κ W => n.get? e.1) h
    rw [get?_update, get?_update, get?_eq_none_iff.mpr hq, Option.none_or, Option.none_or, get?_map,
      get?_map, get?_of_mem he] at hget
    exact Option.some.inj hget
  · intro h
    refine eq_of_get? (keys_setAll_congr q.entries ((keys_map f m).trans (keys_map g m).symm))
      fun k _ => ?_
    rw [get?_update, get?_update, get?_map, get?_map]
    cases hq : q.get? k with
    | some w => rfl
    | none =>
        rw [Option.none_or, Option.none_or]
        cases hm : m.get? k with
        | none => rfl
        | some v =>
            obtain ⟨e, he, hv⟩ := Option.map_eq_some_iff.mp hm
            have hk : e.1 = k := by simpa using List.find?_some he
            subst hk
            subst hv
            have hagree := h e (List.mem_of_find?_eq_some he) (get?_eq_none_iff.mp hq)
            rw [Option.map_some, Option.map_some, hagree]

/-- An update leaves a map reading as before exactly when it sets keys of the map to what
they read as, and the other values read as before. -/
theorem map_update_eq_map_iff {W : Type} {f g : V → W} {m patch : OrderedMap κ V} :
    (m.update patch).map f = m.map g ↔
      (∀ e ∈ m.entries, e.1 ∉ patch.keys → f e.2 = g e.2) ∧
        ∀ e ∈ patch.entries, (m.get? e.1).map g = some (f e.2) := by
  have hself : (∀ e ∈ patch.entries, (m.get? e.1).map g = some (f e.2)) ↔
      (m.map g).update (patch.map f) = m.map g := by
    rw [update_eq_self_iff]
    unfold map mapEntries
    rw [List.forall_mem_map]
    refine forall₂_congr fun e _ => ?_
    rw [← get?_map]
    rfl
  have hfields : (∀ e ∈ m.entries, e.1 ∉ patch.keys → f e.2 = g e.2) ↔
      (m.map f).update (patch.map f) = (m.map g).update (patch.map f) := by
    rw [update_map_eq_iff, keys_map]
  rw [map_update, hself, hfields]
  constructor
  · intro h
    have hupdate : (m.map g).update (patch.map f) = m.map g := by
      rw [update_eq_self_iff]
      intro e he
      rw [← h, get?_update, get?_of_mem he, Option.some_or]
    exact ⟨h.trans hupdate.symm, hupdate⟩
  · exact fun h => h.1.trans h.2

end OrderedMap
