import YoutubeFactory.Storage.Metered

/-!
# Areas of the storage

A key with plain parts is an object at the path of its parts.  A client serves the objects of a
provider if it answers as they do, and the wrapped client of `get_storage` serves those of the
client that it wraps.  Whoever keeps the objects of an area to itself can put them and read them
back, whatever the other callers do.
-/

namespace YoutubeFactory.Storage

open FileTree (Shows)
open Objects (Apart Flat Kept)
open Observability
open Python (PyFloat)

/-! ## Plain keys -/

/-- A part of a key that is the name of an entry. -/
structure Plain (part : String) : Prop where
  nonempty : part ≠ ""
  notHere : part ≠ "."
  notAbove : part ≠ ".."
  slash : '/' ∉ part.toList
  null : '\x00' ∉ part.toList

theorem toList_intercalate_slash (parts : List String) :
    ("/".intercalate parts).toList = ['/'].intercalate (parts.map String.toList) :=
  String.toList_intercalate

theorem lstripSlash_intercalate {parts : List String} (hplain : ∀ part ∈ parts, Plain part) :
    lstripSlash ("/".intercalate parts) = ("/".intercalate parts).toList := by
  rw [lstripSlash, toList_intercalate_slash]
  cases parts with
  | nil => rfl
  | cons part parts =>
      have hpart := hplain part List.mem_cons_self
      cases hchars : part.toList with
      | nil => exact absurd (String.toList_eq_nil_iff.mp hchars) hpart.nonempty
      | cons c rest =>
          have hc : c ≠ '/' := by
            rintro rfl
            exact hpart.slash (hchars ▸ List.mem_cons_self)
          cases parts <;> simp [hchars, List.intercalate, hc]

theorem keyParts_intercalate {parts : List String} (hplain : ∀ part ∈ parts, Plain part)
    (hne : parts ≠ []) : keyParts ("/".intercalate parts) = parts := by
  rw [keyParts, lstripSlash_intercalate hplain, toList_intercalate_slash,
    List.splitOn_intercalate '/' ?_ (by simpa using hne)]
  · have hmap : (parts.map String.toList).map String.ofList = parts := by
      simp [Function.comp_def]
    rw [hmap, List.filter_eq_self]
    intro part hpart
    simp [(hplain part hpart).nonempty, (hplain part hpart).notHere]
  · intro chars hchars
    obtain ⟨part, hpart, rfl⟩ := List.mem_map.mp hchars
    exact (hplain part hpart).slash

theorem foldl_climb {parts : List String} (hplain : ∀ part ∈ parts, Plain part)
    (path : List String) : parts.foldl climb path = path ++ parts := by
  induction parts generalizing path with
  | nil => simp
  | cons part parts ih =>
      rw [List.forall_mem_cons] at hplain
      rw [List.foldl_cons, climb, if_neg hplain.1.notAbove, ih hplain.2, List.append_assoc,
        List.singleton_append]

theorem null_notMem_intercalate {parts : List String} (hplain : ∀ part ∈ parts, Plain part) :
    '\x00' ∉ ("/".intercalate parts).toList := by
  rw [toList_intercalate_slash]
  induction parts with
  | nil => simp
  | cons part parts ih =>
      rw [List.forall_mem_cons] at hplain
      have hrest := ih hplain.2
      cases parts with
      | nil => simpa [List.intercalate] using hplain.1.null
      | cons part' parts =>
          simp only [List.map_cons, List.intercalate, List.intersperse_cons_cons, List.flatten_cons,
            List.mem_append] at hrest ⊢
          simpa [hplain.1.null] using hrest

namespace LocalStorageProvider

variable {provider : LocalStorageProvider}

theorem objectPath_intercalate {parts : List String} (hplain : ∀ part ∈ parts, Plain part)
    (hne : parts ≠ []) : provider.objectPath ("/".intercalate parts) = .ok parts := by
  have hresolve : provider.resolve ("/".intercalate parts) = .ok (provider.root ++ parts) := by
    rw [resolve, if_neg (null_notMem_intercalate hplain), keyParts_intercalate hplain hne,
      foldl_climb hplain]
    exact if_pos (List.prefix_append _ _)
  rw [objectPath, hresolve, Except.ok_map, List.drop_left]

end LocalStorageProvider

/-! ## Clients that serve objects -/

section

variable {State Exc : Type}

open LocalStorageProvider (storageCall)

/-- The client answers as the objects of the provider, and what it raises is told apart from what
they raise by nothing but `fault`. -/
structure Serves (provider : LocalStorageProvider) (client : StorageClient State Exc)
    (fault : StorageFault → Exc) (shows : State → List (Change String Bytes) → Prop) : Prop where
  answer : ∀ {s changes}, shows s changes → ∀ call, (client.call s call).1 =
    (provider.objects changes (storageCall call)).1.mapError fault
  shows : ∀ {s changes}, shows s changes → ∀ call,
    shows (client.call s call).2 (provider.objects changes (storageCall call)).2

theorem LocalStorageProvider.serves (provider : LocalStorageProvider) :
    Serves provider provider.client id (Shows provider.root) where
  answer h call := by
    rw [client_call, (step_refines h _).answer]
    cases (provider.objects _ (storageCall call)).1 <;> rfl
  shows h call := by
    rw [client_call]
    exact (step_refines h _).shows

namespace Serves

variable {provider : LocalStorageProvider} {client : StorageClient State Exc}
  {fault : StorageFault → Exc} {shows : State → List (Change String Bytes) → Prop} {s : State}
  {changes changes' : List (Change String Bytes)} {key : String} {path : List String}
  {data : Bytes}

theorem put (h : Serves provider client fault shows) (hs : shows s changes)
    (hpath : provider.objectPath key = .ok path)
    (hput : Objects.put changes path data = .ok changes') (contentType : String) :
    (client.put key data contentType s).1 =
        .ok ⟨key, data.length, contentType, some (provider.presignUrl key)⟩ ∧
      shows (client.put key data contentType s).2 changes' := by
  have hobjects : provider.objects changes (.put key data contentType) =
      (.ok (.stored ⟨key, data.length, contentType, some (provider.presignUrl key)⟩),
        changes') := by
    simp only [LocalStorageProvider.objects, hpath, Except.ok_bind, hput]
    rfl
  have hanswer := h.answer hs (.put key data contentType)
  have hshows := h.shows hs (.put key data contentType)
  simp only [storageCall, hobjects] at hanswer hshows
  refine ⟨?_, hshows⟩
  simp only [StorageClient.call, Prod.map_fst] at hanswer
  cases hresult : (client.put key data contentType s).1 with
  | error e =>
      rw [hresult] at hanswer
      cases hanswer
  | ok object =>
      rw [hresult] at hanswer
      cases hanswer
      rfl

theorem get (h : Serves provider client fault shows) (hs : shows s changes)
    (hpath : provider.objectPath key = .ok path)
    (hcurrent : Objects.current changes path = some data) :
    (client.get key s).1 = .ok data ∧ shows (client.get key s).2 changes := by
  have hobjects : provider.objects changes (.get key) = (.ok (.bytes data), changes) := by
    simp only [LocalStorageProvider.objects, hpath, Except.ok_bind, hcurrent]
    rfl
  have hanswer := h.answer hs (.get key)
  have hshows := h.shows hs (.get key)
  simp only [storageCall, hobjects] at hanswer hshows
  refine ⟨?_, hshows⟩
  simp only [StorageClient.call, Prod.map_fst] at hanswer
  cases hresult : (client.get key s).1 with
  | error e =>
      rw [hresult] at hanswer
      cases hanswer
  | ok data =>
      rw [hresult] at hanswer
      cases hanswer
      rfl

theorem presignUrl (h : Serves provider client fault shows) (hs : shows s changes) (key : String)
    (expiresIn : Nat) :
    (client.presignUrl key expiresIn s).1 = .ok (provider.presignUrl key) := by
  have hanswer := h.answer hs (.presignUrl key expiresIn)
  simp only [StorageClient.call, Prod.map_fst, storageCall, LocalStorageProvider.objects] at hanswer
  cases hresult : (client.presignUrl key expiresIn s).1 with
  | error e =>
      rw [hresult] at hanswer
      cases hanswer
  | ok url =>
      rw [hresult] at hanswer
      cases hanswer
      rfl

end Serves

end

/-! ## The wrapped client -/

namespace MeteredStorageClient

variable {State Exc V : Type} (metered : MeteredStorageClient State Exc V)

/-- The wrapper as a client.  `elapsed` is how long its calls take, one after the other. -/
def timedClient (elapsed : Nat → PyFloat) :
    StorageClient (Process State V × Nat) (MeteredFault Exc) where
  put key data contentType s :=
    (metered.put (elapsed s.2) s.1 key data contentType).map id fun process => (process, s.2 + 1)
  get key s := (metered.get (elapsed s.2) s.1 key).map id fun process => (process, s.2 + 1)
  delete key s := (metered.delete (elapsed s.2) s.1 key).map id fun process => (process, s.2 + 1)
  presignUrl key expiresIn s :=
    (metered.presignUrl (elapsed s.2) s.1 key expiresIn).map id fun process => (process, s.2 + 1)
  healthCheck s := (metered.healthCheck (elapsed s.2) s.1).map id fun process => (process, s.2 + 1)

theorem call_timedClient (elapsed : Nat → PyFloat) (s : Process State V × Nat)
    (call : ClientCall) :
    (metered.timedClient elapsed).call s call =
      (metered.step s.1 (call, elapsed s.2)).map id fun process => (process, s.2 + 1) := by
  cases call <;> rfl

/-- What the client shows is shown by its wrapper. -/
theorem serves {metered : MeteredStorageClient State Exc V} {provider : LocalStorageProvider}
    {fault : StorageFault → Exc} {shows : State → List (Change String Bytes) → Prop}
    (h : Serves provider metered.client fault shows) (elapsed : Nat → PyFloat) :
    Serves provider (metered.timedClient elapsed) (.client ∘ fault) fun s changes =>
      shows s.1.client changes ∧ s.1.instruments.Ready where
  answer := by
    intro s changes hs call
    rw [call_timedClient]
    simp only [Prod.map_fst, id_eq, (metered.step_spec hs.2 call (elapsed s.2)).answer,
      h.answer hs.1 call]
    cases (provider.objects changes (LocalStorageProvider.storageCall call)).1 <;> rfl
  shows := by
    intro s changes hs call
    have hstep := metered.step_spec hs.2 call (elapsed s.2)
    rw [call_timedClient]
    simp only [Prod.map_snd]
    constructor
    · rw [hstep.client]
      exact h.shows hs.1 call
    · rw [hstep.instruments]
      exact record_ready hs.2 _

end MeteredStorageClient

/-! ## Other callers -/

namespace LocalStorageProvider

variable {provider : LocalStorageProvider} {area : List String → Prop}
  {holds : List String → Bytes → Prop} {changes : List (Change String Bytes)}

/-- The call changes nothing in the area or on the way to it. -/
def ClearOf (provider : LocalStorageProvider) (area : List String → Prop)
    (call : ClientCall) : Prop :=
  ∀ key, written (storageCall call) = some key → ∀ path, provider.objectPath key = .ok path →
    path = [] ∨ ∀ p, area p → Apart p path

/-- Other callers keep the area as it is. -/
theorem ClearOf.kept {call : ClientCall} (h : ClearOf provider area call)
    (hkept : Kept area holds changes) :
    Kept area holds (provider.objects changes (storageCall call)).2 ∧
      ∀ path, area path → Objects.current (provider.objects changes (storageCall call)).2 path =
        Objects.current changes path := by
  rcases changes_objects provider changes (storageCall call) with hsame | hmore
  · rw [hsame]
    exact ⟨hkept, fun _ _ => rfl⟩
  · obtain ⟨key, path, data, hwritten, hpath, hne, hchanges⟩ := hmore
    have hapart := (h key hwritten path hpath).resolve_left hne
    rw [hchanges]
    refine ⟨hkept.cons_outside hapart data, fun p hp => Objects.current_cons_ne ?_⟩
    rintro rfl
    exact (hapart _ hp).1 List.prefix_rfl

end LocalStorageProvider

end YoutubeFactory.Storage
