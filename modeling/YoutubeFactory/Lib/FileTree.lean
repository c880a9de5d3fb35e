import YoutubeFactory.Lib.Except
import Mathlib.Data.List.Infix

/-!
# File trees

A tree of directories and files without links.  A path is the list of the names on the way from
the top.  The operations fail as those of a kernel do: a file on the way to a path is not a
directory, and a directory is neither written nor unlinked.

*Objects.*  A directory of the tree may hold the objects of a store, one file an object.  What
such a store shows of itself depends on the changes that were made to it, and on nothing else
(`Objects`): an object has the data it was last given, and a directory stays once an object was
put below it.  The tree shows the objects of its changes after every change (`Shows.put`,
`Shows.delete`), and is the same outside the directory (`SameOutside`).
-/

inductive FileEntry (Data : Type) where
  | file (data : Data)
  | dir

/-- What an operation raises. -/
inductive FileError where
  | notFound
  | notDirectory
  | isDirectory
  | fileExists
deriving DecidableEq

/-- The top is a directory, and whatever is in the tree is in a directory. -/
structure FileTree (Name Data : Type) where
  entry : List Name → Option (FileEntry Data)
  top : entry [] = some .dir
  closed : ∀ path name, entry (path ++ [name]) ≠ none → entry path = some .dir

namespace FileTree

variable {Name Data : Type} (tree : FileTree Name Data)

def isFile (path : List Name) : Bool :=
  match tree.entry path with
  | some (.file _) => true
  | _ => false

def isDir (path : List Name) : Bool :=
  match tree.entry path with
  | some .dir => true
  | _ => false

/-- The data of a file. -/
def content (path : List Name) : Option Data :=
  match tree.entry path with
  | some (.file data) => some data
  | _ => none

/-- A file is on the way to the path. -/
def blocked (path : List Name) : Bool := path.dropLast.inits.any tree.isFile

theorem isFile_eq (path : List Name) : tree.isFile path = (tree.content path).isSome := by
  unfold isFile content
  cases tree.entry path with
  | none => rfl
  | some entry => cases entry <;> rfl

variable {tree} {path : List Name}

theorem isDir_iff : tree.isDir path = true ↔ tree.entry path = some .dir := by
  unfold isDir
  cases tree.entry path with
  | none => simp
  | some entry => cases entry <;> simp

theorem content_eq_some_iff {data : Data} :
    tree.content path = some data ↔ tree.entry path = some (.file data) := by
  unfold content
  cases tree.entry path with
  | none => simp
  | some entry => cases entry <;> simp

theorem isDir_of_isFile (h : tree.isFile path = true) : tree.isDir path = false := by
  unfold isFile at h
  unfold isDir
  cases hentry : tree.entry path with
  | none => rfl
  | some entry =>
      cases entry with
      | file data => rfl
      | dir => simp [hentry] at h

theorem content_of_isDir (h : tree.isDir path = true) : tree.content path = none := by
  unfold content
  rw [isDir_iff.mp h]

/-- Every directory on the way to what is in the tree is there. -/
theorem isDir_above {p : List Name} (h : tree.entry path ≠ none) (hp : p <+: path)
    (hne : p ≠ path) : tree.isDir p = true := by
  obtain ⟨rest, rfl⟩ := hp
  induction rest using List.reverseRecOn with
  | nil => simp at hne
  | append_singleton rest name ih =>
      rw [← List.append_assoc] at h
      have hdir := tree.closed _ _ h
      cases rest with
      | nil => simpa [isDir_iff] using hdir
      | cons first rest => exact ih (by simp [hdir]) (by simp)

theorem blocked_iff : tree.blocked path = true ↔
    ∃ p, p <+: path.dropLast ∧ tree.isFile p = true := by
  simp [blocked, List.any_eq_true, List.mem_inits]

theorem prefix_append_cases {top p : List Name} (h : p <+: top ++ path) :
    p <+: top ∨ ∃ q, p = top ++ q ∧ q <+: path := by
  rcases List.prefix_or_prefix_of_prefix h (List.prefix_append top path) with hp | ⟨q, rfl⟩
  · exact .inl hp
  · exact .inr ⟨q, rfl, (List.prefix_append_right_inj top).mp h⟩

/-- Nothing that is not in the directory is changed. -/
def SameOutside (top : List Name) (tree tree' : FileTree Name Data) : Prop :=
  ∀ path, ¬ top <+: path → tree'.entry path = tree.entry path

theorem SameOutside.rfl {top : List Name} : SameOutside top tree tree := fun _ _ => Eq.refl _

theorem SameOutside.trans {top : List Name} {tree' tree'' : FileTree Name Data}
    (h : SameOutside top tree tree')
    (h' : SameOutside top tree' tree'') : SameOutside top tree tree'' :=
  fun path hpath => (h' path hpath).trans (h path hpath)

/-! ## Operations -/

section

variable [DecidableEq Name] (tree) (path)

/-- All directories on the way to the path, and one at it. -/
def withDirs : FileTree Name Data where
  entry p := if p <+: path then some .dir else tree.entry p
  top := if_pos List.nil_prefix
  closed p name := by
    intro h
    by_cases hp : p <+: path
    · exact if_pos hp
    · have hname : ¬ p ++ [name] <+: path := fun hname => hp ((List.prefix_append p _).trans hname)
      rw [if_neg hname] at h
      rw [if_neg hp]
      exact tree.closed p name h

def withFile (data : Data) (hparent : tree.isDir path.dropLast = true)
    (hpath : tree.isDir path = false) : FileTree Name Data where
  entry p := if p = path then some (.file data) else tree.entry p
  top := by
    rw [if_neg, tree.top]
    rintro rfl
    simp [isDir, tree.top] at hpath
  closed p name := by
    intro h
    have hdir : tree.entry p = some .dir := by
      by_cases hname : p ++ [name] = path
      · rw [← hname, List.dropLast_concat] at hparent
        exact isDir_iff.mp hparent
      · rw [if_neg hname] at h
        exact tree.closed p name h
    rw [if_neg, hdir]
    rintro rfl
    simp [isDir, hdir] at hpath

def withoutFile (hpath : tree.isDir path = false) : FileTree Name Data where
  entry p := if p = path then none else tree.entry p
  top := by
    rw [if_neg, tree.top]
    rintro rfl
    simp [isDir, tree.top] at hpath
  closed p name := by
    intro h
    by_cases hname : p ++ [name] = path
    · simp [hname] at h
    · rw [if_neg hname] at h
      have hdir := tree.closed p name h
      rw [if_neg, hdir]
      rintro rfl
      simp [isDir, hdir] at hpath

/-- `mkdir`, with the parents, where a directory may be there already. -/
def mkdirs : Except FileError (FileTree Name Data) :=
  if tree.isFile path = true then .error .fileExists
  else if tree.blocked path = true then .error .notDirectory
  else .ok (tree.withDirs path)

/-- To open the file for writing, and write the data. -/
def write (data : Data) : Except FileError (FileTree Name Data) :=
  if hpath : tree.isDir path = false then
    if hparent : tree.isDir path.dropLast = true then .ok (tree.withFile path data hparent hpath)
    else if tree.blocked path = true then .error .notDirectory
    else .error .notFound
  else .error .isDirectory

def unlink : Except FileError (FileTree Name Data) :=
  if hpath : tree.isDir path = false then
    if tree.isFile path = true then .ok (tree.withoutFile path hpath)
    else if tree.blocked path = true then .error .notDirectory
    else .error .notFound
  else .error .isDirectory

/-- The data, in a file with the directories on the way to it. -/
def put (data : Data) : Except FileError (FileTree Name Data) := do
  let tree ← tree.mkdirs path.dropLast
  tree.write path data

variable {tree path} in
theorem eq_withDirs_of_mkdirs {tree' : FileTree Name Data} (h : tree.mkdirs path = .ok tree') :
    tree' = tree.withDirs path := by
  unfold mkdirs at h
  split at h
  · cases h
  · split at h
    · cases h
    · exact (Except.ok.inj h).symm

/-- `unlink`, where the file may be missing. -/
def delete : Except FileError (FileTree Name Data) :=
  match tree.unlink path with
  | .error .notFound => .ok tree
  | result => result

end

end FileTree

/-! ## Objects -/

/-- A change of an object, which has data from then on or is gone. -/
structure Change (Name Data : Type) where
  path : List Name
  data : Option Data

/-! What a store shows of itself after some changes, the latest first. -/

namespace Objects

variable {Name Data : Type} [DecidableEq Name] (changes : List (Change Name Data))
  (path : List Name)

/-- What the object was last given. -/
def current : Option Data := (changes.find? fun change => change.path = path).bind Change.data

/-- The top is a directory, and so is what an object was put below. -/
def isDir : Bool :=
  path.isEmpty ||
    changes.any fun change =>
      change.data.isSome && (path.isPrefixOf change.path && path ≠ change.path)

/-- An object is on the way to the path. -/
def blocked : Bool := path.dropLast.inits.any fun p => (current changes p).isSome

def put (data : Data) : Except FileError (List (Change Name Data)) :=
  if isDir changes path = true then .error .isDirectory
  else if (current changes path.dropLast).isSome = true then .error .fileExists
  else if blocked changes path.dropLast = true then .error .notDirectory
  else .ok (⟨path, some data⟩ :: changes)

def delete : Except FileError (List (Change Name Data)) :=
  if isDir changes path = true then .error .isDirectory
  else if (current changes path).isSome = true then .ok (⟨path, none⟩ :: changes)
  else if blocked changes path = true then .error .notDirectory
  else .ok changes

variable {changes path}

@[simp] theorem current_cons_self (data : Option Data) :
    current (⟨path, data⟩ :: changes) path = data := by simp [current]

theorem current_cons_ne {change : Change Name Data} (h : change.path ≠ path) :
    current (change :: changes) path = current changes path := by simp [current, h]

theorem isDir_iff : isDir changes path = true ↔ path = [] ∨
    ∃ change ∈ changes, change.data.isSome = true ∧ path <+: change.path ∧ path ≠ change.path := by
  simp [isDir, List.isEmpty_iff]

theorem isDir_cons_some (p : List Name) (data : Data) :
    isDir (⟨p, some data⟩ :: changes) path = true ↔
      isDir changes path = true ∨ path <+: p ∧ path ≠ p := by
  simp only [isDir_iff, List.exists_mem_cons_iff, Option.isSome_some, true_and]
  rw [or_assoc]
  exact or_congr_right or_comm

theorem isDir_cons_none (p : List Name) :
    isDir (⟨p, none⟩ :: changes) path = isDir changes path := by simp [isDir]

theorem blocked_iff : blocked changes path = true ↔
    ∃ p, p <+: path.dropLast ∧ (current changes p).isSome = true := by
  simp [blocked, List.mem_inits]

/-- There is no object on a free way. -/
theorem current_of_free (hlast : (current changes path).isSome = false)
    (hblocked : blocked changes path = false) {p : List Name} (hp : p <+: path) :
    current changes p = none := by
  rw [← Option.isNone_iff_eq_none, ← Option.isSome_eq_false_iff]
  by_cases heq : p = path
  · rw [heq, hlast]
  · rw [Bool.eq_false_iff]
    intro hsome
    have hdropped : p <+: path.dropLast := by
      cases path using List.reverseRecOn with
      | nil => simpa using hp
      | append_singleton path name =>
          rw [List.dropLast_concat]
          exact (List.prefix_concat_iff.mp hp).resolve_left heq
    rw [blocked_iff.mpr ⟨p, hdropped, hsome⟩] at hblocked
    cases hblocked

theorem exists_change_of_current {data : Data} (h : current changes path = some data) :
    ∃ change ∈ changes, change.path = path ∧ change.data = some data := by
  obtain ⟨change, hfound, hdata⟩ := Option.bind_eq_some_iff.mp h
  exact ⟨change, List.mem_of_find?_eq_some hfound, by simpa using List.find?_some hfound, hdata⟩

/-- A put on a free way. -/
theorem put_eq_ok (hdir : isDir changes path = false)
    (hway : ∀ p, p <+: path → p ≠ path → current changes p = none) (data : Data) :
    put changes path data = .ok (⟨path, some data⟩ :: changes) := by
  cases path using List.reverseRecOn with
  | nil => simp [isDir] at hdir
  | append_singleton path name =>
      have hway' : ∀ p, p <+: path → current changes p = none := by
        intro p hp
        refine hway p (hp.trans (List.prefix_append path [name])) ?_
        rintro rfl
        have hlength := hp.length_le
        rw [List.length_append, List.length_singleton] at hlength
        omega
      have hblocked : blocked changes path = false := by
        rw [Bool.eq_false_iff, ne_eq, blocked_iff]
        rintro ⟨p, hp, hsome⟩
        rw [hway' p (hp.trans (List.dropLast_prefix path))] at hsome
        cases hsome
      simp [put, hdir, hway' path List.prefix_rfl, hblocked]

/-! ### Areas

An area is some of the paths, none of them on the way to another.  Whoever puts objects there
alone always finds the way free. -/

/-- Neither path is on the way to the other. -/
def Apart (p q : List Name) : Prop := ¬ p <+: q ∧ ¬ q <+: p

def Flat (area : List Name → Prop) : Prop := ∀ p q, area p → area q → p <+: q → p = q

/-- Nothing but what holds was put in the area, nothing was deleted there, and the other changes
were made apart from it. -/
structure Kept (area : List Name → Prop) (holds : List Name → Data → Prop)
    (changes : List (Change Name Data)) : Prop where
  inside : ∀ change ∈ changes, area change.path →
    ∃ data, change.data = some data ∧ holds change.path data
  outside : ∀ change ∈ changes, ¬ area change.path → ∀ p, area p → Apart p change.path

section

variable {area : List Name → Prop} {holds : List Name → Data → Prop}

omit [DecidableEq Name] in
theorem Kept.nil : Kept area holds ([] : List (Change Name Data)) where
  inside _ h := absurd h List.not_mem_nil
  outside _ h := absurd h List.not_mem_nil

theorem Kept.current (h : Kept area holds changes) (harea : area path) {data : Data}
    (hcurrent : Objects.current changes path = some data) : holds path data := by
  obtain ⟨change, hchange, rfl, hdata⟩ := exists_change_of_current hcurrent
  obtain ⟨data', hdata', hholds⟩ := h.inside change hchange harea
  rw [hdata] at hdata'
  cases hdata'
  exact hholds

omit [DecidableEq Name] in
theorem Kept.cons_inside (h : Kept area holds changes) {data : Data} (hholds : holds path data)
    (harea : area path) : Kept area holds (⟨path, some data⟩ :: changes) where
  inside := by
    intro change hchange hpath
    rcases List.mem_cons.mp hchange with rfl | hchange
    · exact ⟨data, rfl, hholds⟩
    · exact h.inside change hchange hpath
  outside := by
    intro change hchange hpath
    rcases List.mem_cons.mp hchange with rfl | hchange
    · exact absurd harea hpath
    · exact h.outside change hchange hpath

omit [DecidableEq Name] in
theorem Kept.cons_outside (h : Kept area holds changes) (hapart : ∀ p, area p → Apart p path)
    (data : Option Data) : Kept area holds (⟨path, data⟩ :: changes) where
  inside := by
    intro change hchange hpath
    rcases List.mem_cons.mp hchange with rfl | hchange
    · exact absurd List.prefix_rfl (hapart _ hpath).1
    · exact h.inside change hchange hpath
  outside := by
    intro change hchange hpath
    rcases List.mem_cons.mp hchange with rfl | hchange
    · exact hapart
    · exact h.outside change hchange hpath

/-- Every put in the area goes through. -/
theorem Kept.put (h : Kept area holds changes) (hflat : Flat area) (harea : area path)
    (hne : path ≠ []) (data : Data) :
    Objects.put changes path data = .ok (⟨path, some data⟩ :: changes) := by
  refine put_eq_ok ?_ (fun p hp hp' => ?_) data
  · rw [Bool.eq_false_iff, ne_eq, isDir_iff]
    rintro (hnil | ⟨change, hchange, -, hway, hother⟩)
    · exact hne hnil
    · by_cases hpath : area change.path
      · exact hother (hflat _ _ harea hpath hway)
      · exact (h.outside change hchange hpath path harea).1 hway
  · rw [Option.eq_none_iff_forall_ne_some]
    intro data hcurrent
    obtain ⟨change, hchange, rfl, -⟩ := exists_change_of_current hcurrent
    by_cases hpath : area change.path
    · exact hp' (hflat _ _ hpath harea hp)
    · exact (h.outside change hchange hpath path harea).2 hp

end

end Objects

/-! ## The objects of a directory -/

namespace FileTree

variable {Name Data : Type} [DecidableEq Name] {top : List Name} {tree tree' : FileTree Name Data}
  {changes changes' : List (Change Name Data)} {path : List Name}

/-- The directory shows the objects of the changes. -/
structure Shows (top : List Name) (tree : FileTree Name Data) (changes : List (Change Name Data)) :
    Prop where
  isDir : ∀ path, tree.isDir (top ++ path) = Objects.isDir changes path
  content : ∀ path, tree.content (top ++ path) = Objects.current changes path

/-- Both raise the same, or the directory shows the objects afterwards. -/
def Follows (top : List Name) (tree : FileTree Name Data) :
    Except FileError (FileTree Name Data) → Except FileError (List (Change Name Data)) → Prop
  | .ok tree', .ok changes' => Shows top tree' changes' ∧ SameOutside top tree tree'
  | .error e, .error e' => e = e'
  | _, _ => False

namespace Shows

theorem isDir_top (h : Shows top tree changes) : tree.isDir top = true := by
  have hdir := h.isDir []
  rw [List.append_nil] at hdir
  rw [hdir]
  rfl

theorem isFile (h : Shows top tree changes) (path : List Name) :
    tree.isFile (top ++ path) = (Objects.current changes path).isSome := by
  rw [isFile_eq, h.content path]

/-- The way to the directory is free. -/
theorem isDir_of_prefix_top (h : Shows top tree changes) {p : List Name} (hp : p <+: top) :
    tree.isDir p = true := by
  by_cases heq : p = top
  · rw [heq]
    exact h.isDir_top
  · have htop := isDir_iff.mp h.isDir_top
    exact isDir_above (by simp [htop]) hp heq

theorem blocked (h : Shows top tree changes) (path : List Name) :
    tree.blocked (top ++ path) = Objects.blocked changes path := by
  rw [Bool.eq_iff_iff, blocked_iff, Objects.blocked_iff]
  constructor
  · rintro ⟨p, hp, hfile⟩
    have hway : p <+: top ∨ ∃ q, p = top ++ q ∧ q <+: path.dropLast := by
      cases path using List.reverseRecOn with
      | nil =>
          rw [List.append_nil] at hp
          exact .inl (hp.trans (List.dropLast_prefix top))
      | append_singleton path name =>
          rw [← List.append_assoc, List.dropLast_concat] at hp
          rw [List.dropLast_concat]
          exact prefix_append_cases hp
    rcases hway with htop | ⟨q, rfl, hq⟩
    · have hdir := isDir_of_isFile hfile
      rw [h.isDir_of_prefix_top htop] at hdir
      cases hdir
    · exact ⟨q, hq, h.isFile q ▸ hfile⟩
  · rintro ⟨q, hq, hsome⟩
    refine ⟨top ++ q, ?_, (h.isFile q).trans hsome⟩
    cases path using List.reverseRecOn with
    | nil =>
        rw [List.dropLast_nil, List.prefix_nil] at hq
        have hfile := (h.isFile q).trans hsome
        rw [hq, List.append_nil] at hfile
        have hdir := isDir_of_isFile hfile
        rw [h.isDir_top] at hdir
        cases hdir
    | append_singleton path name =>
        rw [List.dropLast_concat] at hq
        rw [← List.append_assoc, List.dropLast_concat]
        exact (List.prefix_append_right_inj top).mpr hq

/-- A file with the directories on the way to it. -/
theorem withFile {name : Name} (h : Shows top tree changes) (data : Data)
    (hpath : Objects.isDir changes (path ++ [name]) = false)
    (hway : ∀ p, p <+: path → Objects.current changes p = none)
    (hparent : (tree.withDirs (top ++ path)).isDir (top ++ (path ++ [name])).dropLast = true)
    (hfile : (tree.withDirs (top ++ path)).isDir (top ++ (path ++ [name])) = false) :
    Shows top ((tree.withDirs (top ++ path)).withFile (top ++ (path ++ [name])) data hparent hfile)
      (⟨path ++ [name], some data⟩ :: changes) := by
  have hentry : ∀ p, ((tree.withDirs (top ++ path)).withFile (top ++ (path ++ [name])) data hparent
      hfile).entry (top ++ p) = if p = path ++ [name] then some (.file data)
        else if p <+: path then some .dir else tree.entry (top ++ p) := by
    intro p
    simp [FileTree.withFile, withDirs, List.prefix_append_right_inj]
  refine ⟨fun p => ?_, fun p => ?_⟩
  · rw [Bool.eq_iff_iff, isDir_iff, hentry, Objects.isDir_cons_some, ← h.isDir, isDir_iff,
      List.prefix_concat_iff]
    by_cases hp : p = path ++ [name]
    · subst hp
      rw [← h.isDir, Bool.eq_false_iff, ne_eq, isDir_iff] at hpath
      simp [hpath]
    · by_cases habove : p <+: path
      · simp [hp, habove]
      · simp [hp, habove]
  · by_cases hp : p = path ++ [name]
    · rw [hp, Objects.current_cons_self, content_eq_some_iff, hentry, if_pos rfl]
    · rw [Objects.current_cons_ne (Ne.symm hp)]
      by_cases habove : p <+: path
      · rw [hway p habove, FileTree.content, hentry, if_neg hp, if_pos habove]
      · rw [← h.content p, FileTree.content, FileTree.content, hentry, if_neg hp, if_neg habove]

theorem sameOutside_withFile {name : Name} (h : Shows top tree changes) (data : Data)
    (hparent : (tree.withDirs (top ++ path)).isDir (top ++ (path ++ [name])).dropLast = true)
    (hfile : (tree.withDirs (top ++ path)).isDir (top ++ (path ++ [name])) = false) :
    SameOutside top tree
      ((tree.withDirs (top ++ path)).withFile (top ++ (path ++ [name])) data hparent hfile) := by
  intro p hp
  have hne : p ≠ top ++ (path ++ [name]) := by
    rintro rfl
    exact hp (List.prefix_append _ _)
  show (if p = top ++ (path ++ [name]) then _ else if p <+: top ++ path then _ else _) = _
  rw [if_neg hne]
  by_cases hway : p <+: top ++ path
  · rcases prefix_append_cases hway with htop | ⟨q, rfl, -⟩
    · rw [if_pos hway, isDir_iff.mp (h.isDir_of_prefix_top htop)]
    · exact absurd (List.prefix_append _ _) hp
  · rw [if_neg hway]

theorem not_isFile_of_prefix_top (h : Shows top tree changes) {p : List Name} (hp : p <+: top) :
    tree.isFile p = false := by
  rw [Bool.eq_false_iff]
  intro hfile
  have hdir := isDir_of_isFile hfile
  rw [h.isDir_of_prefix_top hp] at hdir
  cases hdir

theorem mkdirs_of_prefix_top (h : Shows top tree changes) {p : List Name} (hp : p <+: top) :
    tree.mkdirs p = .ok (tree.withDirs p) := by
  have hblocked : tree.blocked p = false := by
    rw [Bool.eq_false_iff, ne_eq, blocked_iff]
    rintro ⟨q, hq, hfile⟩
    rw [h.not_isFile_of_prefix_top ((hq.trans (List.dropLast_prefix p)).trans hp)] at hfile
    cases hfile
  simp [mkdirs, h.not_isFile_of_prefix_top hp, hblocked]

/-- A put in the directory does what it does to the objects. -/
theorem put (h : Shows top tree changes) (path : List Name) (data : Data) :
    Follows top tree (tree.put (top ++ path) data) (Objects.put changes path data) := by
  cases path using List.reverseRecOn with
  | nil =>
      have hdir : (tree.withDirs top.dropLast).isDir top = true := by
        simp [isDir_iff, withDirs, isDir_iff.mp h.isDir_top]
      rw [List.append_nil, FileTree.put, h.mkdirs_of_prefix_top (List.dropLast_prefix top)]
      simp [FileTree.write, hdir, Objects.put, Objects.isDir, Follows]
  | append_singleton path name =>
      have hparent : (top ++ (path ++ [name])).dropLast = top ++ path := by
        rw [← List.append_assoc, List.dropLast_concat]
      rw [FileTree.put, hparent, mkdirs, h.isFile, h.blocked, Objects.put, List.dropLast_concat]
      cases hpath : Objects.isDir changes (path ++ [name]) with
      | true =>
          -- What is on the way to a directory is a directory, so the way is free.
          have htree := (h.isDir (path ++ [name])).trans hpath
          have hway : ∀ p, p <+: path → Objects.current changes p = none := by
            intro p hp
            have hlength := hp.length_le
            have hthere : tree.entry (top ++ (path ++ [name])) ≠ none := by
              simp [isDir_iff.mp htree]
            rw [← h.content p]
            refine content_of_isDir (isDir_above hthere ?_ ?_)
            · rw [List.prefix_append_right_inj]
              exact hp.trans (List.prefix_append path [name])
            · rw [ne_eq, List.append_cancel_left_eq]
              rintro rfl
              rw [List.length_append, List.length_singleton] at hlength
              omega
          have hblocked : Objects.blocked changes path = false := by
            rw [Bool.eq_false_iff, ne_eq, Objects.blocked_iff]
            rintro ⟨p, hp, hsome⟩
            rw [hway p (hp.trans (List.dropLast_prefix path))] at hsome
            cases hsome
          have hdir : (tree.withDirs (top ++ path)).isDir (top ++ (path ++ [name])) = true := by
            simp [isDir_iff, withDirs, isDir_iff.mp htree]
          simp [hway path List.prefix_rfl, hblocked, FileTree.write, hdir, Follows]
      | false =>
          cases hcurrent : (Objects.current changes path).isSome with
          | true => simp [Follows]
          | false =>
              cases hblocked : Objects.blocked changes path with
              | true => simp [Follows]
              | false =>
                  have hmade : (tree.withDirs (top ++ path)).isDir
                      (top ++ (path ++ [name])).dropLast = true := by
                    simp [hparent, isDir_iff, withDirs]
                  have hfile : (tree.withDirs (top ++ path)).isDir
                      (top ++ (path ++ [name])) = false := by
                    have htree := (h.isDir (path ++ [name])).trans hpath
                    have hlonger : ¬ path ++ [name] <+: path := by
                      intro habove
                      have hlength := habove.length_le
                      rw [List.length_append, List.length_singleton] at hlength
                      omega
                    rw [Bool.eq_false_iff, ne_eq, isDir_iff] at htree ⊢
                    simpa [withDirs, List.prefix_append_right_inj, hlonger] using htree
                  have hway := fun p => Objects.current_of_free (p := p) hcurrent hblocked
                  simp only [Bool.false_eq_true, if_false, Except.ok_bind, FileTree.write,
                    dif_pos hfile, dif_pos hmade, Follows]
                  exact ⟨h.withFile data hpath hway hmade hfile,
                    h.sameOutside_withFile data hmade hfile⟩

theorem withoutFile (h : Shows top tree changes) (hfile : tree.isDir (top ++ path) = false) :
    Shows top (tree.withoutFile (top ++ path) hfile) (⟨path, none⟩ :: changes) := by
  have hentry : ∀ p, (tree.withoutFile (top ++ path) hfile).entry (top ++ p) =
      if p = path then none else tree.entry (top ++ p) := by
    intro p
    simp [FileTree.withoutFile]
  refine ⟨fun p => ?_, fun p => ?_⟩
  · rw [Bool.eq_iff_iff, isDir_iff, hentry, Objects.isDir_cons_none, ← h.isDir, isDir_iff]
    by_cases hp : p = path
    · subst hp
      rw [Bool.eq_false_iff, ne_eq, isDir_iff] at hfile
      simp [hfile]
    · simp [hp]
  · by_cases hp : p = path
    · rw [hp, Objects.current_cons_self, FileTree.content, hentry, if_pos rfl]
    · rw [Objects.current_cons_ne (Ne.symm hp), ← h.content p, FileTree.content, FileTree.content,
        hentry, if_neg hp]

/-- A deletion in the directory does what it does to the objects. -/
theorem delete (h : Shows top tree changes) (path : List Name) :
    Follows top tree (tree.delete (top ++ path)) (Objects.delete changes path) := by
  rw [FileTree.delete, FileTree.unlink, Objects.delete, h.isFile, h.blocked]
  cases hpath : Objects.isDir changes path with
  | true => simp [(h.isDir path).trans hpath, Follows]
  | false =>
      have hfile := (h.isDir path).trans hpath
      rw [dif_pos hfile]
      cases hcurrent : (Objects.current changes path).isSome with
      | true =>
          refine ⟨h.withoutFile hfile, fun p hp => if_neg ?_⟩
          rintro rfl
          exact hp (List.prefix_append top path)
      | false =>
          cases hblocked : Objects.blocked changes path with
          | true => simp [Follows]
          | false => exact ⟨h, fun _ _ => rfl⟩

/-- A directory with nothing in it. -/
theorem of_empty (htop : tree.isDir top = true)
    (hempty : ∀ path, path ≠ [] → tree.entry (top ++ path) = none) : Shows top tree [] := by
  refine ⟨fun path => ?_, fun path => ?_⟩
  · cases path with
    | nil =>
        rw [List.append_nil, htop]
        rfl
    | cons name path => simp [FileTree.isDir, hempty, Objects.isDir]
  · cases path with
    | nil =>
        rw [List.append_nil, content_of_isDir htop]
        rfl
    | cons name path => simp [FileTree.content, hempty, Objects.current]

end Shows

end FileTree
