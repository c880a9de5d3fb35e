import YoutubeFactory.Cache.Service
import YoutubeFactory.Python.Dumps

/-!
# The texts of the cache

`CacheService` of `app/core/cache/service.py` with the `json` that it reads and writes its entries
by, over the backend of `YoutubeFactory.Cache.Service` as it stores their texts.
-/

namespace YoutubeFactory.Cache

open Python

variable {F : Type}

/-- The backend as it stores texts. -/
abbrev TextStore := InMemoryCache (List Char)

/-- The service, with the way that floats are written. -/
structure JsonCache (F : Type) where
  service : CacheService
  format : FloatFormat F

inductive JsonCall (F : Type) where
  | get (ns key : String)
  | set (ns key : String) (value : Dumpable F) (ttl : Option Int)
  | delete (ns key : String)
  | invalidateNamespace (ns : String)
  | clear

/-- The namespace of a call, if it is for one. -/
def JsonCall.namespace? : JsonCall F → Option String
  | .get ns _ | .set ns _ _ _ | .delete ns _ | .invalidateNamespace ns => some ns
  | .clear => none

namespace JsonCache

variable (cache : JsonCache F)

/-- `json.loads(raw) if raw is not None else None` -/
def get (store : TextStore) (now : ℚ) (ns key : String) :
    Except DecodeFault (Loaded F) × TextStore :=
  let raw := store.get now (cache.service.key ns key)
  (match raw.1 with
    | none => .ok .null
    | some text => loads cache.format.parse text, raw.2)

/-- `json.dumps(value, default=str)` -/
def text (value : Dumpable F) : List Char := dumps cache.format .spaced value

def set (store : TextStore) (now : ℚ) (ns key : String) (value : Dumpable F) (ttl : Option Int) :
    TextStore :=
  store.set now (cache.service.key ns key) (cache.text value) ttl

/-- What a call leaves. -/
def after (store : TextStore) (now : ℚ) : JsonCall F → TextStore
  | .get ns key => (cache.get store now ns key).2
  | .set ns key value ttl => cache.set store now ns key value ttl
  | .delete ns key => cache.service.delete store ns key
  | .invalidateNamespace ns => cache.service.invalidateNamespace store ns
  | .clear => ∅

end JsonCache

/-! ## What a call leaves alone -/

/-- The call has nothing to do with a key. -/
def JsonCall.Leaves (service : CacheService) (k : String) : JsonCall F → Prop
  | .get ns key | .set ns key _ _ | .delete ns key => service.key ns key ≠ k
  | .invalidateNamespace ns => startsWith k (service.key ns "") = false
  | .clear => False

section

variable {cache : JsonCache F} {store : TextStore} {now : ℚ} {k : String}

theorem lookup_after {call : JsonCall F} (h : call.Leaves cache.service k) :
    (cache.after store now call).lookup k = store.lookup k := by
  cases call with
  | get ns key =>
      show (store.get now (cache.service.key ns key)).2.lookup k = _
      unfold InMemoryCache.get
      split
      · rfl
      · split
        · exact AList.lookup_erase_ne (Ne.symm h)
        · rfl
  | set ns key value ttl => exact AList.lookup_insert_ne (Ne.symm h)
  | delete ns key =>
      exact (InMemoryCache.lookup_delete _ _ _).trans
        (if_neg fun hmem => h (List.mem_singleton.mp hmem).symm)
  | invalidateNamespace ns =>
      exact (lookup_invalidateNamespace store ns k).trans (if_neg (Bool.eq_false_iff.mp h))
  | clear => exact absurd h not_false

/-- What is stored under a key is read, until it has expired. -/
theorem get_of_lookup_text {ns key : String} {value : Dumpable F} {expires : Option ℚ}
    (h : store.lookup (cache.service.key ns key) = some ⟨cache.text value, expires⟩) :
    cache.get store now ns key =
      if expires.any (· < now) then (.ok .null, store.erase (cache.service.key ns key))
      else (.ok (value.loaded cache.format), store) := by
  simp only [JsonCache.get, InMemoryCache.get, h]
  have hexpired : Entry.expired ⟨cache.text value, expires⟩ now = expires.any (· < now) := rfl
  rw [hexpired]
  cases expires.any (· < now) with
  | true => rfl
  | false =>
      show (loads cache.format.parse (cache.text value), store) = _
      rw [JsonCache.text, loads_dumps]
      rfl

theorem get_of_lookup_none {ns key : String}
    (h : store.lookup (cache.service.key ns key) = none) :
    cache.get store now ns key = (.ok .null, store) := by
  simp only [JsonCache.get, InMemoryCache.get, h]

/-- A call in a namespace without a separator leaves the keys of the others alone, also of those
with one. -/
theorem leaves_of_namespace {call : JsonCall F} {ns other key : String} {first more : List Char}
    (hns : ns.toList = first ++ ':' :: more) (hfirst : ':' ∉ first)
    (hcall : call.namespace? = some other) (hother : ':' ∉ other.toList ∧ other.toList ≠ first) :
    call.Leaves cache.service (cache.service.key ns key) := by
  have hlist : (cache.service.key ns key).toList =
      cache.service.keyPrefix.toList ++ ':' :: (first ++ ':' :: (more ++ ':' :: key.toList)) := by
    rw [toList_key, hns]
    simp
  have hne : ∀ key' : String, cache.service.key other key' ≠ cache.service.key ns key := by
    intro key' h
    have hlists := congrArg String.toList h
    rw [hlist, toList_key, List.append_cancel_left_eq, List.cons.injEq] at hlists
    exact hother.2 (Frames.append_sep_inj hother.1 hfirst hlists.2).1
  cases call with
  | get ns' key' =>
      cases hcall
      exact hne key'
  | set ns' key' value ttl =>
      cases hcall
      exact hne key'
  | delete ns' key' =>
      cases hcall
      exact hne key'
  | invalidateNamespace ns' =>
      cases hcall
      refine Bool.eq_false_iff.mpr fun h => ?_
      rw [startsWith, List.isPrefixOf_iff_prefix, toList_key, hlist] at h
      obtain ⟨tail, htail⟩ := h
      rw [String.toList_empty, List.append_assoc, List.cons_append, List.append_assoc,
        List.cons_append, List.nil_append, List.append_cancel_left_eq, List.cons.injEq] at htail
      exact hother.2 (Frames.append_sep_inj hother.1 hfirst htail.2).1
  | clear => cases hcall

end

end YoutubeFactory.Cache
