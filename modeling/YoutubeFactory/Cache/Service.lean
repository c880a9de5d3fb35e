import YoutubeFactory.Lib.Frames
import YoutubeFactory.Lib.Noninterference
import YoutubeFactory.Python.Json
import YoutubeFactory.Python.Text
import Mathlib.Data.Rat.Defs
import Mathlib.Data.Set.Defs

/-!
# The cache

`CacheService` of `app/core/cache/service.py` over `InMemoryCache` of
`app/core/cache/backend.py`.  An entry holds what `json.loads` makes of its text here; the texts
themselves are those of `YoutubeFactory.Cache.Texts`.

A cache is meant to be a map from pairs of a namespace and a key (`PairMap`).  The service joins
a pair into one string, and clears a namespace by a start of that string.  So it is that map
exactly on the pairs and namespaces that the strings tell apart (`isolated_iff`).
-/

namespace YoutubeFactory.Cache

open Python

/-! ## The backend -/

/-- A value, and until when it is kept. -/
structure Entry (V : Type) where
  value : V
  expires : Option ℚ

namespace Entry

variable {V : Type}

/-- `expires < time.monotonic()` -/
def expired (entry : Entry V) (now : ℚ) : Bool := entry.expires.any (· < now)

/-- The entry that `set` stores.  A time to live of zero is none. -/
def ofTtl (value : V) (ttl : Option Int) (now : ℚ) : Entry V where
  value
  expires := (ttl.filter (· ≠ 0)).map fun seconds => now + seconds

end Entry

abbrev InMemoryCache (V : Type) := Dict (Entry V)

namespace InMemoryCache

variable {V : Type} (cache : InMemoryCache V)

/-- An entry that has expired is popped. -/
def get (now : ℚ) (key : String) : Option V × InMemoryCache V :=
  match cache.lookup key with
  | none => (none, cache)
  | some entry =>
      if entry.expired now then (none, cache.erase key) else (some entry.value, cache)

def set (now : ℚ) (key : String) (value : V) (ttl : Option Int) : InMemoryCache V :=
  cache.insert key (.ofTtl value ttl now)

def delete (keys : List String) : InMemoryCache V :=
  keys.foldl (fun cache key => cache.erase key) cache

def scanKeys (pattern : String) : List String :=
  cache.keys.filter fun k => startsWith k (rstripChars "*" pattern)

theorem lookup_delete (keys : List String) (k : String) :
    (cache.delete keys).lookup k = if k ∈ keys then none else cache.lookup k := by
  induction keys generalizing cache with
  | nil => rfl
  | cons key keys ih =>
      have hfirst : cache.delete (key :: keys) = delete (cache.erase key) keys := rfl
      rw [hfirst, ih]
      by_cases hkeys : k ∈ keys
      · rw [if_pos hkeys, if_pos (List.mem_cons_of_mem key hkeys)]
      · rw [if_neg hkeys]
        by_cases hk : k = key
        · rw [if_pos (List.mem_cons.mpr (.inl hk)), hk, AList.lookup_erase]
        · have hnot : k ∉ key :: keys := fun h => (List.mem_cons.mp h).elim hk hkeys
          rw [if_neg hnot, AList.lookup_erase_ne hk]

end InMemoryCache

/-! ## The service -/

/-- The prefix of all keys. -/
structure CacheService where
  keyPrefix : String

inductive CacheCall where
  | get (ns key : String)
  | set (ns key : String) (value : Json) (ttl : Option Int)
  | delete (ns key : String)
  | invalidateNamespace (ns : String)

namespace CacheService

variable (service : CacheService)

/-- `_key` -/
def key (ns key : String) : String := service.keyPrefix ++ ":" ++ ns ++ ":" ++ key

def get (cache : InMemoryCache Json) (now : ℚ) (ns key : String) : Json × InMemoryCache Json :=
  let (raw, cache) := cache.get now (service.key ns key)
  (raw.getD .null, cache)

def set (cache : InMemoryCache Json) (now : ℚ) (ns key : String) (value : Json) (ttl : Option Int) :
    InMemoryCache Json :=
  cache.set now (service.key ns key) value ttl

def delete {V : Type} (cache : InMemoryCache V) (ns key : String) : InMemoryCache V :=
  cache.delete [service.key ns key]

def invalidateNamespace {V : Type} (cache : InMemoryCache V) (ns : String) : InMemoryCache V :=
  cache.delete (cache.scanKeys (service.key ns "*"))

/-- A call at a moment: what it returns, and the cache that it leaves. -/
def serve (cache : InMemoryCache Json) : CacheCall × ℚ → Json × InMemoryCache Json
  | (.get ns key, now) => service.get cache now ns key
  | (.set ns key value ttl, now) => (.null, service.set cache now ns key value ttl)
  | (.delete ns key, _) => (.null, service.delete cache ns key)
  | (.invalidateNamespace ns, _) => (.null, service.invalidateNamespace cache ns)

end CacheService

/-! ## A map from pairs -/

abbrev PairMap := String × String → Option (Entry Json)

/-- The same calls on a map from pairs. -/
def PairMap.serve (map : PairMap) : CacheCall × ℚ → Json × PairMap
  | (.get ns key, now) =>
      match map (ns, key) with
      | none => (.null, map)
      | some entry =>
          if entry.expired now then (.null, Function.update map (ns, key) none)
          else (entry.value, map)
  | (.set ns key value ttl, now) =>
      (.null, Function.update map (ns, key) (some (.ofTtl value ttl now)))
  | (.delete ns key, _) => (.null, Function.update map (ns, key) none)
  | (.invalidateNamespace ns, _) => (.null, fun pair => if pair.1 = ns then none else map pair)

/-- The call uses these pairs and clears these namespaces only. -/
def CacheCall.Within (pairs : Set (String × String)) (namespaces : Set String) : CacheCall → Prop
  | .get ns key => (ns, key) ∈ pairs
  | .set ns key _ _ => (ns, key) ∈ pairs
  | .delete ns key => (ns, key) ∈ pairs
  | .invalidateNamespace ns => ns ∈ namespaces

/-- The keys tell the pairs apart, and the start of a namespace is the start of its own pairs
only. -/
structure CacheService.Separates (service : CacheService) (pairs : Set (String × String))
    (namespaces : Set String) : Prop where
  keys : ∀ p ∈ pairs, ∀ q ∈ pairs, service.key p.1 p.2 = service.key q.1 q.2 → p = q
  starts : ∀ ns ∈ namespaces, ∀ p ∈ pairs,
    startsWith (service.key p.1 p.2) (service.key ns "") = true → p.1 = ns

/-! ## Keys -/

section

variable {service : CacheService}

theorem toList_key (ns key : String) : (service.key ns key).toList =
    service.keyPrefix.toList ++ ':' :: (ns.toList ++ ':' :: key.toList) := by
  simp [CacheService.key]

/-- The pattern of a namespace without its star. -/
theorem rstripChars_pattern (ns : String) :
    rstripChars "*" (service.key ns "*") = service.key ns "" := by
  refine String.toList_inj.mp ?_
  rw [rstripChars, String.toList_ofList, toList_key, toList_key]
  simp

theorem startsWith_key (ns key : String) :
    startsWith (service.key ns key) (service.key ns "") = true := by
  rw [startsWith, List.isPrefixOf_iff_prefix, toList_key, toList_key]
  exact ⟨key.toList, by simp⟩

/-- What is cleared is what starts as the namespace does. -/
theorem lookup_invalidateNamespace {V : Type} (cache : InMemoryCache V) (ns k : String) :
    (service.invalidateNamespace cache ns).lookup k =
      if startsWith k (service.key ns "") = true then none else cache.lookup k := by
  rw [CacheService.invalidateNamespace, InMemoryCache.scanKeys, rstripChars_pattern,
    InMemoryCache.lookup_delete]
  by_cases hstart : startsWith k (service.key ns "") = true
  · rw [if_pos hstart]
    split
    · rfl
    · next hnot =>
        have hkey : k ∉ cache := fun hkey => hnot (List.mem_filter.mpr ⟨hkey, hstart⟩)
        exact AList.lookup_eq_none.mpr hkey
  · have hkept : k ∉ cache.keys.filter fun k => startsWith k (service.key ns "") :=
      fun hmem => hstart (List.mem_filter.mp hmem).2
    rw [if_neg hstart, if_neg hkept]

theorem get_of_lookup {cache : InMemoryCache Json} {now : ℚ} {ns key : String}
    {entry : Entry Json} (h : cache.lookup (service.key ns key) = some entry)
    (hlive : entry.expired now = false) :
    (service.get cache now ns key).1 = entry.value := by
  rw [CacheService.get, InMemoryCache.get, h]
  simp [hlive]

theorem get_of_none {cache : InMemoryCache Json} {now : ℚ} {ns key : String}
    (h : cache.lookup (service.key ns key) = none) :
    (service.get cache now ns key).1 = .null := by
  rw [CacheService.get, InMemoryCache.get, h]
  rfl

/-- Namespaces without the separator are told apart, with any keys. -/
theorem separates_of_no_separator {pairs : Set (String × String)} {namespaces : Set String}
    (hpairs : ∀ p ∈ pairs, ':' ∉ p.1.toList) (hnamespaces : ∀ ns ∈ namespaces, ':' ∉ ns.toList) :
    service.Separates pairs namespaces where
  keys p hp q hq h := by
    have hlists := congrArg String.toList h
    rw [toList_key, toList_key, List.append_cancel_left_eq, List.cons.injEq] at hlists
    obtain ⟨hns, hkey⟩ := Frames.append_sep_inj (hpairs p hp) (hpairs q hq) hlists.2
    exact Prod.ext (String.toList_inj.mp hns) (String.toList_inj.mp hkey)
  starts ns hns p hp h := by
    rw [startsWith, List.isPrefixOf_iff_prefix, toList_key, toList_key] at h
    obtain ⟨rest, hrest⟩ := h
    have hlists : ns.toList ++ ':' :: rest = p.1.toList ++ ':' :: p.2.toList := by simpa using hrest
    obtain ⟨hsame, -⟩ := Frames.append_sep_inj (hnamespaces ns hns) (hpairs p hp) hlists
    exact (String.toList_inj.mp hsame).symm

/-! ## The service is a map from the pairs -/

/-- The cache holds what the map has for these pairs. -/
def Represents (service : CacheService) (pairs : Set (String × String))
    (cache : InMemoryCache Json) (map : PairMap) : Prop :=
  ∀ p ∈ pairs, cache.lookup (service.key p.1 p.2) = map p

variable {pairs : Set (String × String)} {namespaces : Set String} {cache : InMemoryCache Json}
  {map : PairMap}

theorem Represents.update {cache' : InMemoryCache Json} {p : String × String}
    {entry : Option (Entry Json)}
    (h : Represents service pairs cache map) (hsep : service.Separates pairs namespaces)
    (hp : p ∈ pairs) (hat : cache'.lookup (service.key p.1 p.2) = entry)
    (helsewhere : ∀ k, k ≠ service.key p.1 p.2 → cache'.lookup k = cache.lookup k) :
    Represents service pairs cache' (Function.update map p entry) := by
  intro q hq
  by_cases hqp : q = p
  · rw [hqp, Function.update_self, hat]
  · have hkey : service.key q.1 q.2 ≠ service.key p.1 p.2 := fun h => hqp (hsep.keys q hq p hp h)
    rw [Function.update_of_ne hqp, helsewhere _ hkey, h q hq]

/-- One call. -/
theorem serve_represents (h : Represents service pairs cache map)
    (hsep : service.Separates pairs namespaces) {call : CacheCall × ℚ}
    (hcall : call.1.Within pairs namespaces) :
    (service.serve cache call).1 = (map.serve call).1 ∧
      Represents service pairs (service.serve cache call).2 (map.serve call).2 := by
  obtain ⟨call, now⟩ := call
  cases call with
  | get ns key =>
      have hentry := h (ns, key) hcall
      simp only [CacheService.serve, CacheService.get, InMemoryCache.get, PairMap.serve]
      cases hmap : map (ns, key) with
      | none =>
          rw [hmap] at hentry
          rw [hentry]
          exact ⟨rfl, h⟩
      | some entry =>
          rw [hmap] at hentry
          rw [hentry]
          dsimp only
          split
          · exact ⟨rfl, h.update hsep hcall (AList.lookup_erase _ _)
              fun k hk => AList.lookup_erase_ne hk⟩
          · exact ⟨rfl, h⟩
  | set ns key value ttl =>
      exact ⟨rfl, h.update hsep hcall (AList.lookup_insert _) fun k hk => AList.lookup_insert_ne hk⟩
  | delete ns key =>
      exact ⟨rfl, h.update hsep hcall (AList.lookup_erase _ _) fun k hk => AList.lookup_erase_ne hk⟩
  | invalidateNamespace ns =>
      refine ⟨rfl, fun p hp => ?_⟩
      show (service.invalidateNamespace cache ns).lookup (service.key p.1 p.2) =
        if p.1 = ns then none else map p
      rw [lookup_invalidateNamespace, ← h p hp]
      by_cases hns : p.1 = ns
      · rw [if_pos hns, ← hns, if_pos (startsWith_key p.1 p.2)]
      · rw [if_neg hns, if_neg fun hstart => hns (hsep.starts ns hcall p hp hstart)]

/-- Every run. -/
theorem outputs_represents (hsep : service.Separates pairs namespaces) :
    ∀ {calls : List (CacheCall × ℚ)} {cache : InMemoryCache Json} {map : PairMap},
      Represents service pairs cache map → (∀ call ∈ calls, call.1.Within pairs namespaces) →
      Noninterference.outputs service.serve cache calls =
        Noninterference.outputs PairMap.serve map calls
  | [], _, _, _, _ => rfl
  | call :: calls, cache, map, h, hcalls => by
      obtain ⟨houtput, hnext⟩ := serve_represents h hsep (hcalls call List.mem_cons_self)
      rw [Noninterference.outputs, Noninterference.outputs, houtput,
        outputs_represents hsep hnext fun c hc => hcalls c (List.mem_cons_of_mem call hc)]

/-! ## Pairs that are not told apart -/

/-- A value is set, and read from a pair with the same key. -/
def setThenGet (p q : String × String) : List (CacheCall × ℚ) :=
  [(.set p.1 p.2 (.bool true) none, 0), (.get q.1 q.2, 0)]

/-- A value is set, a namespace is cleared, and the value is read. -/
def setClearGet (p : String × String) (ns : String) : List (CacheCall × ℚ) :=
  [(.set p.1 p.2 (.bool true) none, 0), (.invalidateNamespace ns, 0), (.get p.1 p.2, 0)]

variable {p q : String × String}

theorem setThenGet_revealed (hkey : service.key p.1 p.2 = service.key q.1 q.2) :
    Noninterference.outputs service.serve ∅ (setThenGet p q) = [.null, .bool true] := by
  have hget := @get_of_lookup service (service.set ∅ 0 p.1 p.2 (.bool true) none) 0 q.1 q.2
    ⟨.bool true, none⟩ (by rw [← hkey]; exact AList.lookup_insert _) rfl
  simp only [setThenGet, Noninterference.outputs, CacheService.serve, hget]

theorem setThenGet_apart (hne : p ≠ q) :
    Noninterference.outputs PairMap.serve (fun _ => none) (setThenGet p q) = [.null, .null] := by
  simp [Noninterference.outputs, setThenGet, PairMap.serve, Function.update_of_ne hne.symm]

theorem setClearGet_cleared {ns : String}
    (hstart : startsWith (service.key p.1 p.2) (service.key ns "") = true) :
    Noninterference.outputs service.serve ∅ (setClearGet p ns) = [.null, .null, .null] := by
  have hget := @get_of_none service
    (service.invalidateNamespace (service.set ∅ 0 p.1 p.2 (.bool true) none) ns) 0 p.1 p.2
    (by rw [lookup_invalidateNamespace, if_pos hstart])
  simp only [setClearGet, Noninterference.outputs, CacheService.serve, hget]

theorem setClearGet_kept {ns : String} (hne : p.1 ≠ ns) :
    Noninterference.outputs PairMap.serve (fun _ => none) (setClearGet p ns) =
      [.null, .null, .bool true] := by
  simp [Noninterference.outputs, setClearGet, PairMap.serve, hne, Entry.ofTtl, Entry.expired]

end

/-- On calls with these pairs and namespaces the service answers as the map from pairs does, in
every run, exactly if the keys tell the pairs and the namespaces apart. -/
theorem isolated_iff (service : CacheService) (pairs : Set (String × String))
    (namespaces : Set String) :
    (∀ calls : List (CacheCall × ℚ), (∀ call ∈ calls, call.1.Within pairs namespaces) →
      Noninterference.outputs service.serve ∅ calls =
        Noninterference.outputs PairMap.serve (fun _ => none) calls) ↔
      service.Separates pairs namespaces := by
  constructor
  · intro hruns
    constructor
    · intro p hp q hq hkey
      by_contra hne
      have hrun := hruns (setThenGet p q) (by
        intro call hcall
        rcases List.mem_cons.mp hcall with rfl | hcall
        · exact hp
        · rw [List.mem_singleton.mp hcall]
          exact hq)
      rw [setThenGet_revealed hkey, setThenGet_apart hne] at hrun
      cases hrun
    · intro ns hns p hp hstart
      by_contra hne
      have hrun := hruns (setClearGet p ns) (by
        intro call hcall
        rcases List.mem_cons.mp hcall with rfl | hcall
        · exact hp
        · rcases List.mem_cons.mp hcall with rfl | hcall
          · exact hns
          · rw [List.mem_singleton.mp hcall]
            exact hp)
      rw [setClearGet_cleared hstart, setClearGet_kept hne] at hrun
      cases hrun
  · intro hsep calls hcalls
    exact outputs_represents hsep (fun _ _ => rfl) hcalls

/-- A value of `llm:response` is returned for a key of `llm`. -/
theorem other_pair_revealed :
    ¬ ∀ (service : CacheService) (calls : List (CacheCall × ℚ)),
      Noninterference.outputs service.serve ∅ calls =
        Noninterference.outputs PairMap.serve (fun _ => none) calls := by
  intro hisolated
  have hrun := hisolated ⟨"ayf"⟩ (setThenGet ("llm:response", "a") ("llm", "response:a"))
  have hkey : (CacheService.mk "ayf").key "llm:response" "a" =
      (CacheService.mk "ayf").key "llm" "response:a" := by decide
  rw [@setThenGet_revealed ⟨"ayf"⟩ ("llm:response", "a") ("llm", "response:a") hkey,
    setThenGet_apart (by decide)] at hrun
  cases hrun

end YoutubeFactory.Cache
