import YoutubeFactory.Lib.FileTree
import YoutubeFactory.Lib.Noninterference
import YoutubeFactory.Python.Text
import Mathlib.Data.List.TakeWhile

/-!
# The local storage

`LocalStorageProvider` of `app/core/storage/local.py`, on a file system without links, and the
values of `app/core/storage/interfaces.py`.  The limits of a file system on names and space are
left out.

A key is resolved to a path, and whatever the keys, two keys of one path are one object, and no
call reaches a file outside the root.  So the provider answers as a store of objects
(`local_refines`).
-/

namespace YoutubeFactory.Storage

open FileTree (Shows SameOutside Follows)

/-! ## Values -/

abbrev Bytes := List UInt8

abbrev Files := FileTree String Bytes

structure StoredObject where
  key : String
  sizeBytes : Nat
  contentType : String
  url : Option String
deriving DecidableEq

/-- What a call raises, with the key that the `details` name. -/
inductive StorageFault where
  /-- `StorageError("Invalid storage key.")` -/
  | invalidKey (key : String)
  /-- `NotFoundError("Stored object not found.")` -/
  | notFound (key : String)
  /-- An `OSError`. -/
  | os (error : FileError)
  /-- The `ValueError` of a path with a null character in it. -/
  | embeddedNull
deriving DecidableEq

/-! ## Keys -/

/-- `key.lstrip("/")` -/
def lstripSlash (key : String) : List Char := key.toList.dropWhile (· = '/')

/-- The parts of `root / key` after the root. -/
def keyParts (key : String) : List String :=
  (((lstripSlash key).splitOn '/').map String.ofList).filter fun part => part ≠ "" ∧ part ≠ "."

/-- One part of a path that is resolved.  The directory above the top is the top. -/
def climb (path : List String) (part : String) : List String :=
  if part = ".." then path.dropLast else path ++ [part]

/-- `root` is resolved, and `public_base_url` ends in no slash. -/
structure LocalStorageProvider where
  root : List String
  publicBaseUrl : String

namespace LocalStorageProvider

/-- The constructor, with the directory that it makes. -/
def init (root : List String) (publicBaseUrl : String) (files : Files) :
    Except StorageFault (LocalStorageProvider × Files) :=
  match files.mkdirs root with
  | .error e => .error (.os e)
  | .ok files => .ok (⟨root, Python.rstripChars "/" publicBaseUrl⟩, files)

variable (provider : LocalStorageProvider)

/-- `_resolve` -/
def resolve (key : String) : Except StorageFault (List String) :=
  if '\x00' ∈ key.toList then .error .embeddedNull
  else
    let candidate := (keyParts key).foldl climb provider.root
    if provider.root <+: candidate then .ok candidate else .error (.invalidKey key)

/-- `presign_url` -/
def presignUrl (key : String) : String :=
  provider.publicBaseUrl ++ "/" ++ String.ofList (lstripSlash key)

def put (files : Files) (key : String) (data : Bytes) (contentType : String) :
    Except StorageFault (StoredObject × Files) := do
  let path ← provider.resolve key
  let files ← (files.put path data).mapError .os
  let object : StoredObject :=
    { key, sizeBytes := data.length, contentType, url := some (provider.presignUrl key) }
  pure (object, files)

def get (files : Files) (key : String) : Except StorageFault Bytes := do
  let path ← provider.resolve key
  match files.content path with
  | some data => pure data
  | none => throw (.notFound key)

def delete (files : Files) (key : String) : Except StorageFault Files := do
  let path ← provider.resolve key
  (files.delete path).mapError .os

/-- `exists` -/
def has (files : Files) (key : String) : Except StorageFault Bool := do
  let path ← provider.resolve key
  pure (files.isFile path)

def healthCheck (files : Files) : Bool := files.isDir provider.root

end LocalStorageProvider

/-! ## Calls -/

inductive StorageCall where
  | put (key : String) (data : Bytes) (contentType : String)
  | get (key : String)
  | delete (key : String)
  | presignUrl (key : String)
  | has (key : String)
  | healthCheck

inductive Answer where
  | stored (object : StoredObject)
  | bytes (data : Bytes)
  | done
  | url (url : String)
  | flag (flag : Bool)
deriving DecidableEq

/-- A call that raises leaves the storage as it was. -/
def settle {State : Type} (state : State) (result : Except StorageFault (Answer × State)) :
    Except StorageFault Answer × State :=
  match result with
  | .ok (answer, state) => (.ok answer, state)
  | .error e => (.error e, state)

namespace LocalStorageProvider

variable (provider : LocalStorageProvider)

def step (files : Files) : StorageCall → Except StorageFault Answer × Files
  | .put key data contentType => settle files <|
      (provider.put files key data contentType).map fun r => (.stored r.1, r.2)
  | .get key => settle files ((provider.get files key).map fun data => (.bytes data, files))
  | .delete key => settle files ((provider.delete files key).map fun files => (.done, files))
  | .presignUrl key => (.ok (.url (provider.presignUrl key)), files)
  | .has key => settle files ((provider.has files key).map fun found => (.flag found, files))
  | .healthCheck => (.ok (.flag (provider.healthCheck files)), files)

/-! ## The store of objects -/

/-- The path of an object from the root. -/
def objectPath (key : String) : Except StorageFault (List String) :=
  (provider.resolve key).map (List.drop provider.root.length)

/-- The answers of a store of objects, by the changes that were made to it. -/
def objects (changes : List (Change String Bytes)) :
    StorageCall → Except StorageFault Answer × List (Change String Bytes)
  | .put key data contentType => settle changes do
      let path ← provider.objectPath key
      let changes ← (Objects.put changes path data).mapError .os
      let object : StoredObject :=
        { key, sizeBytes := data.length, contentType, url := some (provider.presignUrl key) }
      pure (.stored object, changes)
  | .get key => settle changes do
      let path ← provider.objectPath key
      match Objects.current changes path with
      | some data => pure (.bytes data, changes)
      | none => throw (.notFound key)
  | .delete key => settle changes do
      let path ← provider.objectPath key
      let changes ← (Objects.delete changes path).mapError .os
      pure (.done, changes)
  | .presignUrl key => (.ok (.url (provider.presignUrl key)), changes)
  | .has key => settle changes do
      let path ← provider.objectPath key
      pure (.flag (Objects.current changes path).isSome, changes)
  | .healthCheck => (.ok (.flag true), changes)

variable {provider} {files : Files} {changes : List (Change String Bytes)}

theorem resolve_eq (provider : LocalStorageProvider) (key : String) :
    provider.resolve key = (provider.objectPath key).map (provider.root ++ ·) := by
  unfold objectPath
  cases h : provider.resolve key with
  | error e => rfl
  | ok path =>
      have hroot : provider.root <+: path := by
        unfold resolve at h
        split at h
        · cases h
        · dsimp only at h
          split at h
          · next hprefix =>
              cases h
              exact hprefix
          · cases h
      obtain ⟨rest, rfl⟩ := hroot
      simp

/-- What a call on the files is for the objects. -/
structure StepRefines (provider : LocalStorageProvider) (files : Files)
    (result : Except StorageFault Answer × Files)
    (result' : Except StorageFault Answer × List (Change String Bytes)) : Prop where
  answer : result.1 = result'.1
  shows : Shows provider.root result.2 result'.2
  outside : SameOutside provider.root files result.2

/-- A change of the files that follows one of the objects. -/
theorem stepRefines_settle (h : Shows provider.root files changes) (answer : Answer)
    {result : Except FileError Files} {result' : Except FileError (List (Change String Bytes))}
    (hfollows : Follows provider.root files result result') :
    StepRefines provider files
      (settle files ((result.mapError .os).map fun files => (answer, files)))
      (settle changes ((result'.mapError .os).map fun changes => (answer, changes))) := by
  cases result with
  | error e =>
      cases result' with
      | error e' =>
          have he : e = e' := hfollows
          exact ⟨by rw [he]; rfl, h, .rfl⟩
      | ok changes' => exact absurd hfollows id
  | ok files' =>
      cases result' with
      | error e' => exact absurd hfollows id
      | ok changes' => exact ⟨rfl, hfollows.1, hfollows.2⟩

theorem stepRefines_self (h : Shows provider.root files changes)
    (answer : Except StorageFault Answer) :
    StepRefines provider files (answer, files) (answer, changes) := ⟨rfl, h, .rfl⟩

theorem step_refines (h : Shows provider.root files changes) (call : StorageCall) :
    StepRefines provider files (provider.step files call) (provider.objects changes call) := by
  cases call with
  | put key data contentType =>
      simp only [step, objects, put, resolve_eq]
      cases provider.objectPath key with
      | error e => exact stepRefines_self h (.error e)
      | ok path =>
          have hput := stepRefines_settle h (.stored
            ⟨key, data.length, contentType, some (provider.presignUrl key)⟩) (h.put path data)
          simp only [Except.ok_map, Except.ok_bind]
          cases hfiles : files.put (provider.root ++ path) data <;>
            cases hchanges : Objects.put changes path data <;>
            rwa [hfiles, hchanges] at hput
  | get key =>
      simp only [step, objects, get, resolve_eq]
      cases provider.objectPath key with
      | error e => exact stepRefines_self h (.error e)
      | ok path =>
          simp only [Except.ok_map, Except.ok_bind, h.content]
          cases Objects.current changes path with
          | none => exact stepRefines_self h (.error (.notFound key))
          | some data => exact stepRefines_self h (.ok (.bytes data))
  | delete key =>
      simp only [step, objects, delete, resolve_eq]
      cases provider.objectPath key with
      | error e => exact stepRefines_self h (.error e)
      | ok path => exact stepRefines_settle h .done (h.delete path)
  | presignUrl key => exact stepRefines_self h _
  | has key =>
      simp only [step, objects, has, resolve_eq]
      cases provider.objectPath key with
      | error e => exact stepRefines_self h (.error e)
      | ok path =>
          simp only [Except.ok_map, Except.ok_bind, h.isFile]
          exact stepRefines_self h (.ok (.flag _))
  | healthCheck =>
      simp only [step, objects, healthCheck, h.isDir_top]
      exact stepRefines_self h (.ok (.flag true))

/-- For any keys and in any order of the calls, the provider answers as the store of objects, and
nothing outside its root is made, changed or removed. -/
theorem local_refines (h : Shows provider.root files changes) (calls : List StorageCall) :
    Noninterference.outputs provider.step files calls =
        Noninterference.outputs provider.objects changes calls ∧
      Shows provider.root (Run.run (fun s call => (provider.step s call).2) files calls)
        (Run.run (fun s call => (provider.objects s call).2) changes calls) ∧
      SameOutside provider.root files
        (Run.run (fun s call => (provider.step s call).2) files calls) := by
  induction calls generalizing files changes with
  | nil => exact ⟨rfl, h, .rfl⟩
  | cons call calls ih =>
      have hstep := step_refines h call
      obtain ⟨houtputs, hshows, houtside⟩ := ih hstep.shows
      refine ⟨?_, hshows, hstep.outside.trans houtside⟩
      rw [Noninterference.outputs, Noninterference.outputs, hstep.answer, houtputs]

/-! ## What is read back -/

/-- The key of a call that changes an object. -/
def written : StorageCall → Option String
  | .put key _ _ => some key
  | .delete key => some key
  | _ => none

/-- The changes that a call makes. -/
theorem changes_objects (provider : LocalStorageProvider) (changes : List (Change String Bytes))
    (call : StorageCall) :
    (provider.objects changes call).2 = changes ∨
      ∃ key path data, written call = some key ∧ provider.objectPath key = .ok path ∧ path ≠ [] ∧
        (provider.objects changes call).2 = ⟨path, data⟩ :: changes := by
  have hroot : Objects.isDir changes ([] : List String) = true := rfl
  cases call with
  | put key data contentType =>
      simp only [objects]
      cases hpath : provider.objectPath key with
      | error e => exact .inl rfl
      | ok path =>
          simp only [Except.ok_bind]
          cases hput : Objects.put changes path data with
          | error e => exact .inl rfl
          | ok changes' =>
              simp only [Objects.put] at hput
              split at hput
              · cases hput
              · next hdir =>
                  have hne : path ≠ [] := by
                    rintro rfl
                    exact hdir hroot
                  split at hput
                  · cases hput
                  · split at hput
                    · cases hput
                    · cases hput
                      exact .inr ⟨key, path, some data, rfl, hpath, hne, rfl⟩
  | delete key =>
      simp only [objects]
      cases hpath : provider.objectPath key with
      | error e => exact .inl rfl
      | ok path =>
          simp only [Except.ok_bind]
          cases hdelete : Objects.delete changes path with
          | error e => exact .inl rfl
          | ok changes' =>
              simp only [Objects.delete] at hdelete
              split at hdelete
              · cases hdelete
              · next hdir =>
                  have hne : path ≠ [] := by
                    rintro rfl
                    exact hdir hroot
                  split at hdelete
                  · cases hdelete
                    exact .inr ⟨key, path, none, rfl, hpath, hne, rfl⟩
                  · split at hdelete
                    · cases hdelete
                    · cases hdelete
                      exact .inl rfl
  | get key =>
      simp only [objects]
      cases provider.objectPath key with
      | error e => exact .inl rfl
      | ok path =>
          simp only [Except.ok_bind]
          cases Objects.current changes path <;> exact .inl rfl
  | presignUrl key => exact .inl rfl
  | has key =>
      simp only [objects]
      cases provider.objectPath key <;> exact .inl rfl
  | healthCheck => exact .inl rfl

/-- A call that changes no object of the path. -/
theorem current_objects {path : List String} {call : StorageCall}
    (h : ∀ key, written call = some key → provider.objectPath key ≠ .ok path) :
    Objects.current (provider.objects changes call).2 path = Objects.current changes path := by
  rcases changes_objects provider changes call with hsame | hmore
  · rw [hsame]
  · obtain ⟨key, p, data, hwritten, hpath, -, hchanges⟩ := hmore
    rw [hchanges]
    refine Objects.current_cons_ne ?_
    rintro rfl
    exact h key hwritten hpath

theorem current_run {path : List String} {calls : List StorageCall}
    (h : ∀ call ∈ calls, ∀ key, written call = some key → provider.objectPath key ≠ .ok path) :
    Objects.current (Run.run (fun s call => (provider.objects s call).2) changes calls) path =
      Objects.current changes path := by
  induction calls generalizing changes with
  | nil => rfl
  | cons call calls ih =>
      rw [List.forall_mem_cons] at h
      rw [Run.run_cons, ih h.2, current_objects h.1]

/-- What a put that returned has stored. -/
theorem current_of_put {key contentType : String} {data : Bytes} {answer : Answer}
    (h : (provider.objects changes (.put key data contentType)).1 = .ok answer) :
    ∃ path, provider.objectPath key = .ok path ∧
      Objects.current (provider.objects changes (.put key data contentType)).2 path =
        some data := by
  simp only [objects] at h ⊢
  cases hpath : provider.objectPath key with
  | error e =>
      rw [hpath] at h
      cases h
  | ok path =>
      refine ⟨path, rfl, ?_⟩
      rw [hpath, Except.ok_bind] at h
      simp only [Except.ok_bind]
      cases hput : Objects.put changes path data with
      | error e =>
          rw [hput] at h
          cases h
      | ok changes' =>
          simp only [Objects.put] at hput
          split at hput
          · cases hput
          · split at hput
            · cases hput
            · split at hput
              · cases hput
              · cases hput
                exact Objects.current_cons_self (some data)

theorem objects_get {key : String} {path : List String} {data : Bytes}
    (hpath : provider.objectPath key = .ok path)
    (hcurrent : Objects.current changes path = some data) :
    (provider.objects changes (.get key)).1 = .ok (.bytes data) := by
  simp only [objects, hpath, Except.ok_bind, hcurrent]
  rfl

theorem shows_of_init {root : List String} {publicBaseUrl : String} {files₀ : Files}
    (hinit : init root publicBaseUrl files₀ = .ok (provider, files))
    (hempty : ∀ path, path ≠ [] → files₀.entry (root ++ path) = none) :
    provider.root = root ∧ Shows provider.root files [] := by
  unfold init at hinit
  cases hmade : files₀.mkdirs root with
  | error e =>
      rw [hmade] at hinit
      cases hinit
  | ok made =>
      rw [hmade] at hinit
      cases hinit
      obtain rfl := FileTree.eq_withDirs_of_mkdirs hmade
      refine ⟨rfl, .of_empty ?_ fun path hpath => ?_⟩
      · simp [FileTree.isDir_iff, FileTree.withDirs]
      · have hlonger : ¬ root ++ path <+: root := by
          intro hprefix
          have hlength := hprefix.length_le
          have hpositive := List.length_pos_iff.mpr hpath
          rw [List.length_append] at hlength
          omega
        simpa [FileTree.withDirs, hlonger] using hempty path hpath

/-- A provider whose root was empty answers as a store of objects, whatever the keys, and changes
nothing outside the root.  What a put has stored is read back by every key of its path, until a
call changes an object of that path. -/
theorem local_store {root : List String} {publicBaseUrl : String} {files₀ : Files}
    (hinit : init root publicBaseUrl files₀ = .ok (provider, files))
    (hempty : ∀ path, path ≠ [] → files₀.entry (root ++ path) = none)
    (calls : List StorageCall) :
    Noninterference.outputs provider.step files calls =
        Noninterference.outputs provider.objects [] calls ∧
      SameOutside root files (Run.run (fun s call => (provider.step s call).2) files calls) ∧
      ∀ earlier key data contentType later key',
        calls = earlier ++ .put key data contentType :: later →
        provider.resolve key' = provider.resolve key →
        (∀ call ∈ later, ∀ k, written call = some k → provider.resolve k ≠ provider.resolve key) →
        (∃ answer, (provider.step
          (Run.run (fun s call => (provider.step s call).2) files earlier)
          (.put key data contentType)).1 = .ok answer) →
        (provider.step (Run.run (fun s call => (provider.step s call).2) files calls)
          (.get key')).1 = .ok (.bytes data) := by
  obtain ⟨hroot, hshows⟩ := shows_of_init hinit hempty
  obtain ⟨houtputs, -, houtside⟩ := local_refines hshows calls
  refine ⟨houtputs, hroot ▸ houtside, ?_⟩
  rintro earlier key data contentType later key' rfl hsame hlater ⟨answer, hput⟩
  have hbefore := (local_refines hshows earlier).2.1
  have hafter := (local_refines hshows (earlier ++ .put key data contentType :: later)).2.1
  rw [(step_refines hbefore _).answer] at hput
  obtain ⟨path, hpath, hcurrent⟩ := current_of_put hput
  have hread : provider.objectPath key' = .ok path := by
    rw [objectPath, hsame]
    exact hpath
  have hkept : ∀ call ∈ later, ∀ k, written call = some k → provider.objectPath k ≠ .ok path := by
    intro call hcall k hwritten hk
    refine hlater call hcall k hwritten ?_
    rw [resolve_eq, resolve_eq, hk, hpath]
  rw [(step_refines hafter _).answer]
  refine objects_get hread ?_
  rw [Run.run_append, Run.run_cons, current_run hkept, hcurrent]

/-- A file system with nothing in it. -/
def bareFiles : Files where
  entry
    | [] => some .dir
    | _ => none
  top := rfl
  closed path name h := absurd (by cases path <;> rfl) h

/-- A root in the bare file system. -/
def mediaProvider : LocalStorageProvider := ⟨["srv", "media"], "https://cdn.example"⟩

/-- Two keys of one object, and one that leaves the root. -/
theorem local_store_media :
    Noninterference.outputs mediaProvider.step (bareFiles.withDirs ["srv", "media"])
        [.put "a/b.txt" [104, 105] "text/plain", .get "//a/./x/../b.txt", .get "../../etc/passwd",
          .put "a" [1] "text/plain"] =
      [.ok (.stored ⟨"a/b.txt", 2, "text/plain", some "https://cdn.example/a/b.txt"⟩),
        .ok (.bytes [104, 105]), .error (.invalidKey "../../etc/passwd"),
        .error (.os .isDirectory)] := by
  rw [(@local_store mediaProvider (bareFiles.withDirs ["srv", "media"]) ["srv", "media"]
    "https://cdn.example/" bareFiles rfl (fun path _ => rfl) _).1]
  decide +kernel

end LocalStorageProvider

end YoutubeFactory.Storage
