import YoutubeFactory.Lib.FirstMax
import YoutubeFactory.Lib.OrderedMap
import YoutubeFactory.Workflow.Cron
import Mathlib.Data.List.Induction
import Mathlib.Data.List.Lex

/-!
# The agent registry

`AgentRegistry` of `app/agents/registry/registry.py`.  A class of agents is known by its identity.

The version that is found by default is the greatest by `_version_key`, which takes what is no
number for zero and drops leading zeros.  So two versions may have one key, and then the one that
was registered first is found (`order_free_iff`).
-/

namespace YoutubeFactory.AgentCore

open FirstMax

/-! ## The code -/

/-- What `identity()` says of a class. -/
structure AgentIdentity where
  name : String
  slug : String
  description : String
  version : String
  capabilities : List String
  tags : List String
  category : String

structure AgentRegistration (Class : Type) where
  slug : String
  version : String
  agentCls : Class
  name : String
  description : String
  capabilities : List String
  tags : List String
  category : String
  requiredPermission : String
  providerIndependent : Bool

/-- An agent is an instance of its class. -/
structure Agent (Class : Type) where
  cls : Class
deriving DecidableEq

/-- `AgentRegistration.create` -/
def AgentRegistration.create {Class : Type} (r : AgentRegistration Class) : Agent Class :=
  ⟨r.agentCls⟩

/-- What a lookup raises. -/
inductive LookupError where
  | keyError (message : String)
  | valueError
deriving DecidableEq, Repr

/-- `int(chunk)` of a text of digits.  A digit may have no decimal value, and there may be too many
of them. -/
def intOf (digits : Workflow.Digits) (chunk : List Char) : Except LookupError Nat :=
  if 4300 < chunk.length then .error .valueError
  else
    match digits.parseNat chunk with
    | some n => .ok n
    | none => .error .valueError

/-- `_version_key` -/
def versionKey (digits : Workflow.Digits) (version : String) : Except LookupError (List Nat) :=
  (version.toList.splitOn '.').mapM fun chunk =>
    if chunk ≠ [] ∧ chunk.all digits.isDigit = true then intOf digits chunk else pure 0

/-- The registrations, by slug and version. -/
abbrev AgentRegistry (Class : Type) :=
  OrderedMap String (OrderedMap String (AgentRegistration Class))

section

variable {Class : Type}

/-- The registration of a class with the permission it requires. -/
def registrationOf (identity : Class → AgentIdentity) (c : Class × String) :
    AgentRegistration Class where
  slug := (identity c.1).slug
  version := (identity c.1).version
  agentCls := c.1
  name := (identity c.1).name
  description := (identity c.1).description
  capabilities := (identity c.1).capabilities
  tags := (identity c.1).tags
  category := (identity c.1).category
  requiredPermission := c.2
  providerIndependent := true

namespace AgentRegistry

/-- The versions of a slug. -/
def versionsOf (registry : AgentRegistry Class) (slug : String) :
    OrderedMap String (AgentRegistration Class) :=
  (registry.get? slug).getD .empty

/-- `register`, which also returns the registration. -/
def register (identity : Class → AgentIdentity) (registry : AgentRegistry Class)
    (c : Class × String) : AgentRegistry Class :=
  let r := registrationOf identity c
  registry.set r.slug ((registry.versionsOf r.slug).set r.version r)

/-- `get` -/
def get (digits : Workflow.Digits) (registry : AgentRegistry Class) (slug : String)
    (version : Option String) : Except LookupError (AgentRegistration Class) :=
  let unregistered := .error (.keyError s!"No agent registered for slug '{slug}'.")
  match registry.get? slug with
  | none => unregistered
  | some versions =>
      match versions.keys with
      | [] => unregistered
      | first :: rest =>
          match version with
          | some version =>
              match versions.get? version with
              | none => .error (.keyError s!"Agent '{slug}' has no version '{version}'.")
              | some r => .ok r
          | none => do
              let latest ← firstMax (versionKey digits) first rest
              match versions.get? latest with
              | none => .error (.keyError latest)
              | some r => .ok r

/-- `create` -/
def create (digits : Workflow.Digits) (registry : AgentRegistry Class) (slug : String)
    (version : Option String) : Except LookupError (Agent Class) :=
  (get digits registry slug version).map AgentRegistration.create

/-- `all` -/
def all (digits : Workflow.Digits) (registry : AgentRegistry Class) :
    Except LookupError (List (AgentRegistration Class)) :=
  registry.keys.mapM fun slug => get digits registry slug none

/-- What a filter of `discover` lets through.  `None` and the empty text let everything through. -/
def passes (wanted : Option String) (has : String → Bool) : Bool :=
  wanted.all fun w => w = "" || has w

/-- `discover` -/
def discover (digits : Workflow.Digits) (registry : AgentRegistry Class)
    (capability tag category : Option String) :
    Except LookupError (List (AgentRegistration Class)) :=
  (all digits registry).map fun rs => rs.filter fun r =>
    passes capability r.capabilities.contains && passes tag r.tags.contains &&
      passes category fun c => r.category = c

/-- The registry of some classes, registered one after the other. -/
def registerAll (identity : Class → AgentIdentity) (classes : List (Class × String)) :
    AgentRegistry Class :=
  classes.foldl (register identity) .empty

end AgentRegistry

end

/-! ## What is registered -/

section

variable {Class : Type} (digits : Workflow.Digits) (identity : Class → AgentIdentity)

/-- The registrations of a slug. -/
def registered (classes : List (Class × String)) (slug : String) :
    List (AgentRegistration Class) :=
  (classes.map (registrationOf identity)).filter fun r => r.slug = slug

/-- No two classes have both the slug and the version. -/
def Distinct (classes : List (Class × String)) : Prop :=
  (classes.map fun c => ((identity c.1).slug, (identity c.1).version)).Nodup

variable {identity} {classes classes' : List (Class × String)} {slug : String}
  {r : AgentRegistration Class}

theorem registered_concat (c : Class × String) : registered identity (classes ++ [c]) slug =
    registered identity classes slug ++ registered identity [c] slug := by
  unfold registered
  rw [List.map_append, List.filter_append]

theorem mem_registered : r ∈ registered identity classes slug ↔
    ∃ c ∈ classes, registrationOf identity c = r ∧ r.slug = slug := by
  unfold registered
  rw [List.mem_filter, List.mem_map, decide_eq_true_iff]
  constructor
  · rintro ⟨⟨c, hc, hr⟩, hslug⟩
    exact ⟨c, hc, hr, hslug⟩
  · rintro ⟨c, hc, hr, hslug⟩
    exact ⟨⟨c, hc, hr⟩, hslug⟩

theorem registered_perm (h : classes'.Perm classes) (slug : String) :
    (registered identity classes' slug).Perm (registered identity classes slug) :=
  (h.map _).filter _

theorem Distinct.of_perm (h : Distinct identity classes) (hperm : classes'.Perm classes) :
    Distinct identity classes' :=
  (hperm.map _).nodup_iff.mpr h

theorem versionsOf_register (registry : AgentRegistry Class) (c : Class × String) :
    (registry.register identity c).versionsOf slug =
      if slug = (registrationOf identity c).slug then
        (registry.versionsOf slug).set (registrationOf identity c).version
          (registrationOf identity c)
      else registry.versionsOf slug := by
  unfold AgentRegistry.register AgentRegistry.versionsOf
  dsimp only
  rw [OrderedMap.get?_set]
  split
  · next hslug =>
      rw [hslug]
      rfl
  · rfl

theorem registered_singleton (c : Class × String) : registered identity [c] slug =
    if slug = (registrationOf identity c).slug then [registrationOf identity c] else [] := by
  unfold registered
  rw [List.map_singleton]
  split
  · next hslug => exact List.filter_cons_of_pos (decide_eq_true hslug.symm)
  · next hslug =>
      exact List.filter_cons_of_neg fun h => hslug (of_decide_eq_true h).symm

theorem registerAll_concat (c : Class × String) :
    AgentRegistry.registerAll identity (classes ++ [c]) =
      (AgentRegistry.registerAll identity classes).register identity c :=
  List.foldl_append

/-- The entries of a slug are its registrations, in order. -/
theorem entries_versionsOf (h : Distinct identity classes) (slug : String) :
    ((AgentRegistry.registerAll identity classes).versionsOf slug).entries =
      (registered identity classes slug).map fun r => (r.version, r) := by
  induction classes using List.reverseRecOn generalizing slug with
  | nil => rfl
  | append_singleton classes c ih =>
      unfold Distinct at h
      rw [List.map_append, List.nodup_append] at h
      obtain ⟨hclasses, -, hnew⟩ := h
      have hentries := ih hclasses slug
      rw [registerAll_concat, versionsOf_register, registered_concat, registered_singleton]
      split
      · next hslug =>
          have hfree : (registrationOf identity c).version ∉
              ((registered identity classes slug).map fun r => (r.version, r)).map Prod.fst := by
            rw [List.map_map, List.mem_map]
            rintro ⟨r, hr, hversion⟩
            obtain ⟨d, hd, rfl, hslug'⟩ := mem_registered.mp hr
            refine hnew _ (List.mem_map_of_mem hd) _ (List.mem_singleton_self _) ?_
            exact Prod.ext (hslug'.trans hslug) hversion
          unfold OrderedMap.set
          dsimp only
          rw [hentries, OrderedMap.setEntry_of_notMem _ hfree, List.map_append]
          rfl
      · rw [hentries, List.append_nil]

theorem mem_keys_registerAll : slug ∈ (AgentRegistry.registerAll identity classes).keys ↔
    registered identity classes slug ≠ [] := by
  have hget : ∀ registry : AgentRegistry Class, slug ∈ registry.keys ↔
      registry.get? slug ≠ none := fun registry => by
    rw [ne_eq, OrderedMap.get?_eq_none_iff, not_not]
  induction classes using List.reverseRecOn with
  | nil => exact iff_of_false List.not_mem_nil (not_not.mpr rfl)
  | append_singleton classes c ih =>
      rw [registerAll_concat, hget, registered_concat, registered_singleton]
      unfold AgentRegistry.register
      dsimp only
      rw [OrderedMap.get?_set]
      split
      · exact iff_of_true (Option.some_ne_none _) (List.append_ne_nil_of_right_ne_nil _ nofun)
      · rw [List.append_nil]
        exact (hget _).symm.trans ih

/-! ## What is found -/

/-- The default version, as the first of the greatest registrations. -/
theorem get_registerAll (h : Distinct identity classes) (slug : String) :
    AgentRegistry.get digits (.registerAll identity classes) slug none =
      match registered identity classes slug with
      | [] => .error (.keyError s!"No agent registered for slug '{slug}'.")
      | r :: rs => firstMax (fun r => versionKey digits r.version) r rs := by
  have hentries := entries_versionsOf h slug
  have hkeys : slug ∈ (AgentRegistry.registerAll identity classes).keys ↔
      registered identity classes slug ≠ [] := mem_keys_registerAll
  unfold AgentRegistry.get
  dsimp only
  cases hget : (AgentRegistry.registerAll identity classes).get? slug with
  | none =>
      rw [OrderedMap.get?_eq_none_iff, hkeys, not_not] at hget
      rw [hget]
  | some versions =>
      have hversions : (AgentRegistry.registerAll identity classes).versionsOf slug = versions := by
        rw [AgentRegistry.versionsOf, hget]
        rfl
      rw [hversions] at hentries
      cases hregistered : registered identity classes slug with
      | nil =>
          have hempty : versions.keys = [] := by
            rw [OrderedMap.keys, hentries, hregistered]
            rfl
          dsimp only
          rw [hempty]
      | cons r rs =>
          have hall : versions.keys = r.version :: rs.map fun r => r.version := by
            rw [OrderedMap.keys, hentries, hregistered, List.map_map]
            rfl
          dsimp only
          rw [hall]
          dsimp only
          rw [firstMax_map]
          cases hmax : firstMax (fun r => versionKey digits r.version) r rs with
          | error e => rfl
          | ok latest =>
              have hmem : (latest.version, latest) ∈ versions.entries := by
                rw [hentries, hregistered]
                exact List.mem_map_of_mem (greatest_of_firstMax hmax).mem
              dsimp only [Except.map]
              rw [Except.ok_bind, OrderedMap.get?_of_mem hmem]

/-- The registration has the greatest key of its slug. -/
def IsLatest (identity : Class → AgentIdentity) (classes : List (Class × String)) (slug : String) :
    AgentRegistration Class → Prop :=
  Greatest (fun r => versionKey digits r.version) (registered identity classes slug)

/-- One registration at most has the greatest key of the slug. -/
def OneLatest (identity : Class → AgentIdentity) (classes : List (Class × String))
    (slug : String) : Prop :=
  ∀ r s, IsLatest digits identity classes slug r → IsLatest digits identity classes slug s → r = s

variable {digits}

theorem IsLatest.of_perm (h : IsLatest digits identity classes slug r)
    (hperm : classes'.Perm classes) : IsLatest digits identity classes' slug r :=
  Greatest.of_subset h fun _ => (registered_perm hperm slug).mem_iff.symm

theorem OneLatest.of_perm (h : OneLatest digits identity classes slug)
    (hperm : classes'.Perm classes) : OneLatest digits identity classes' slug :=
  fun r s hr hs => h r s (hr.of_perm hperm.symm) (hs.of_perm hperm.symm)

theorem isLatest_of_get (h : Distinct identity classes)
    (hget : AgentRegistry.get digits (.registerAll identity classes) slug none = .ok r) :
    IsLatest digits identity classes slug r := by
  rw [get_registerAll digits h] at hget
  unfold IsLatest
  cases hregistered : registered identity classes slug with
  | nil =>
      rw [hregistered] at hget
      cases hget
  | cons s rs =>
      rw [hregistered] at hget
      exact greatest_of_firstMax hget

/-- Where there is one, it is found. -/
theorem get_eq_ok_iff (h : Distinct identity classes)
    (hone : OneLatest digits identity classes slug) :
    AgentRegistry.get digits (.registerAll identity classes) slug none = .ok r ↔
      IsLatest digits identity classes slug r := by
  refine ⟨isLatest_of_get h, fun hlatest => ?_⟩
  rw [get_registerAll digits h]
  unfold OneLatest at hone
  unfold IsLatest at hlatest hone
  cases hregistered : registered identity classes slug with
  | nil =>
      rw [hregistered] at hlatest
      cases hlatest.mem
  | cons s rs =>
      rw [hregistered] at hlatest hone
      exact (firstMax_eq_iff hone).mpr hlatest

/-- A latest registration is found in an order of the classes that has its own first. -/
theorem exists_perm_get (h : Distinct identity classes)
    (hlatest : IsLatest digits identity classes slug r) :
    ∃ classes', classes'.Perm classes ∧
      AgentRegistry.get digits (.registerAll identity classes') slug none = .ok r := by
  obtain ⟨c, hc, rfl, hslug⟩ := mem_registered.mp hlatest.mem
  obtain ⟨before, after, rfl⟩ := List.append_of_mem hc
  have hperm : (c :: (before ++ after)).Perm (before ++ c :: after) := List.perm_middle.symm
  refine ⟨c :: (before ++ after), hperm, ?_⟩
  have hfirst : registered identity (c :: (before ++ after)) slug =
      registrationOf identity c :: registered identity (before ++ after) slug :=
    List.filter_cons_of_pos (decide_eq_true hslug)
  have hlatest' := hlatest.of_perm hperm
  unfold IsLatest at hlatest'
  rw [get_registerAll digits (h.of_perm hperm), hfirst]
  rw [hfirst] at hlatest'
  exact firstMax_of_head hlatest'

/-- `all` finds a registration if no slug raises and it is that of its slug. -/
theorem mem_all_iff :
    (∃ rs, AgentRegistry.all digits (.registerAll identity classes) = .ok rs ∧ r ∈ rs) ↔
      (∀ slug, registered identity classes slug ≠ [] → ∃ s,
        AgentRegistry.get digits (.registerAll identity classes) slug none = .ok s) ∧
      ∃ slug, registered identity classes slug ≠ [] ∧
        AgentRegistry.get digits (.registerAll identity classes) slug none = .ok r := by
  unfold AgentRegistry.all
  constructor
  · rintro ⟨rs, hall, hr⟩
    obtain ⟨slug, hslug, hget⟩ := (Except.mem_of_mapM hall).mp hr
    refine ⟨fun slug' hslug' => ?_, slug, mem_keys_registerAll.mp hslug, hget⟩
    exact Except.exists_mapM_eq_ok_iff.mp ⟨rs, hall⟩ slug' (mem_keys_registerAll.mpr hslug')
  · rintro ⟨hnone, slug, hslug, hget⟩
    obtain ⟨rs, hall⟩ := Except.exists_mapM_eq_ok_iff.mpr fun slug' hslug' =>
      hnone slug' (mem_keys_registerAll.mp hslug')
    exact ⟨rs, hall, (Except.mem_of_mapM hall).mpr ⟨slug, mem_keys_registerAll.mpr hslug, hget⟩⟩

/-- `discover` finds what `all` finds and the filters let through. -/
theorem mem_discover_iff {registry : AgentRegistry Class}
    {capability tag category : Option String} :
    (∃ rs, registry.discover digits capability tag category = .ok rs ∧ r ∈ rs) ↔
      (∃ rs, registry.all digits = .ok rs ∧ r ∈ rs) ∧
        (AgentRegistry.passes capability r.capabilities.contains &&
          AgentRegistry.passes tag r.tags.contains &&
          AgentRegistry.passes category fun c => r.category = c) = true := by
  unfold AgentRegistry.discover
  constructor
  · rintro ⟨rs, hdiscover, hr⟩
    obtain ⟨found, hall, rfl⟩ := Except.map_eq_ok.mp hdiscover
    obtain ⟨hfound, hpasses⟩ := List.mem_filter.mp hr
    exact ⟨⟨found, hall, hfound⟩, hpasses⟩
  · rintro ⟨⟨found, hall, hfound⟩, hpasses⟩
    exact ⟨_, Except.map_eq_ok.mpr ⟨found, hall, rfl⟩, List.mem_filter.mpr ⟨hfound, hpasses⟩⟩

/-- What is found does not depend on the order of the classes, and has the greatest key. -/
structure OrderFree (digits : Workflow.Digits) (identity : Class → AgentIdentity)
    (classes : List (Class × String)) : Prop where
  get : ∀ classes', classes'.Perm classes → ∀ slug r,
    AgentRegistry.get digits (.registerAll identity classes') slug none = .ok r ↔
      AgentRegistry.get digits (.registerAll identity classes) slug none = .ok r
  create : ∀ classes', classes'.Perm classes → ∀ slug agent,
    AgentRegistry.create digits (.registerAll identity classes') slug none = .ok agent ↔
      AgentRegistry.create digits (.registerAll identity classes) slug none = .ok agent
  all : ∀ classes', classes'.Perm classes → ∀ r,
    (∃ rs, AgentRegistry.all digits (.registerAll identity classes') = .ok rs ∧ r ∈ rs) ↔
      ∃ rs, AgentRegistry.all digits (.registerAll identity classes) = .ok rs ∧ r ∈ rs
  discover : ∀ classes', classes'.Perm classes → ∀ capability tag category r,
    (∃ rs, AgentRegistry.discover digits (.registerAll identity classes') capability tag category =
      .ok rs ∧ r ∈ rs) ↔
      ∃ rs, AgentRegistry.discover digits (.registerAll identity classes) capability tag category =
        .ok rs ∧ r ∈ rs
  greatest : ∀ slug r,
    AgentRegistry.get digits (.registerAll identity classes) slug none = .ok r →
      ∃ k, versionKey digits r.version = .ok k ∧
        ∀ s ∈ registered identity classes slug, ∃ l, versionKey digits s.version = .ok l ∧ l ≤ k

/-- Lookups do not depend on the order of registration if and only if no two versions of a slug
have both its greatest key. -/
theorem order_free_iff (h : Distinct identity classes) :
    OrderFree digits identity classes ↔ ∀ slug, OneLatest digits identity classes slug := by
  constructor
  · intro hfree slug r s hr hs
    obtain ⟨first, hfirst, hr'⟩ := exists_perm_get h hr
    obtain ⟨second, hsecond, hs'⟩ := exists_perm_get h hs
    have hsame := ((hfree.get first hfirst slug r).mp hr').symm.trans
      ((hfree.get second hsecond slug s).mp hs')
    exact Except.ok.inj hsame
  · intro hone
    have hget : ∀ classes', classes'.Perm classes → ∀ slug r,
        AgentRegistry.get digits (.registerAll identity classes') slug none = .ok r ↔
          AgentRegistry.get digits (.registerAll identity classes) slug none = .ok r := by
      intro classes' hperm slug r
      rw [get_eq_ok_iff (h.of_perm hperm) ((hone slug).of_perm hperm), get_eq_ok_iff h (hone slug)]
      exact ⟨fun hlatest => hlatest.of_perm hperm.symm, fun hlatest => hlatest.of_perm hperm⟩
    have hall : ∀ classes', classes'.Perm classes → ∀ r,
        (∃ rs, AgentRegistry.all digits (.registerAll identity classes') = .ok rs ∧ r ∈ rs) ↔
          ∃ rs, AgentRegistry.all digits (.registerAll identity classes) = .ok rs ∧ r ∈ rs := by
      intro classes' hperm r
      have hslugs : ∀ slug, registered identity classes' slug ≠ [] ↔
          registered identity classes slug ≠ [] := fun slug => by
        rw [← List.length_pos_iff, ← List.length_pos_iff, (registered_perm hperm slug).length_eq]
      rw [mem_all_iff, mem_all_iff]
      refine and_congr (forall_congr' fun slug => ?_) (exists_congr fun slug => ?_)
      · exact imp_congr (hslugs slug) (exists_congr fun s => hget classes' hperm slug s)
      · exact and_congr (hslugs slug) (hget classes' hperm slug r)
    refine ⟨hget, fun classes' hperm slug agent => ?_, hall,
      fun classes' hperm capability tag category r => ?_, fun slug r hr => ?_⟩
    · unfold AgentRegistry.create
      rw [Except.map_eq_ok, Except.map_eq_ok]
      exact exists_congr fun r => and_congr_left fun _ => hget classes' hperm slug r
    · rw [mem_discover_iff, mem_discover_iff, hall classes' hperm]
    · exact (isLatest_of_get h hr).greatest

end

/-- A class is its own identity. -/
def echo (version : String) : AgentIdentity × String :=
  (⟨"Echo", "echo", "", version, [], [], "general"⟩, "agent.run")

theorem versions_order_free :
    Distinct id [echo "1.9.0", echo "1.10.0"] ∧
      OrderFree Workflow.asciiDigits id [echo "1.9.0", echo "1.10.0"] := by
  have hdistinct : Distinct id [echo "1.9.0", echo "1.10.0"] := by
    unfold Distinct
    decide
  have hlatest : ∀ slug r, IsLatest Workflow.asciiDigits id [echo "1.9.0", echo "1.10.0"] slug r →
      r = registrationOf id (echo "1.10.0") := by
    intro slug r h
    obtain ⟨c, hc, rfl, hslug⟩ := mem_registered.mp h.mem
    rcases List.mem_pair.mp hc with rfl | rfl
    · obtain ⟨k, hk, hall⟩ := h.greatest
      obtain ⟨l, hl, hle⟩ := hall (registrationOf id (echo "1.10.0"))
        (mem_registered.mpr ⟨_, List.mem_cons_of_mem _ (List.mem_singleton_self _), rfl, hslug⟩)
      have hnine : versionKey Workflow.asciiDigits "1.9.0" = .ok [1, 9, 0] := rfl
      have hten : versionKey Workflow.asciiDigits "1.10.0" = .ok [1, 10, 0] := rfl
      cases hk.symm.trans hnine
      cases hl.symm.trans hten
      exact absurd hle (by decide)
    · rfl
  refine ⟨hdistinct, (order_free_iff hdistinct).mpr fun slug r s hr hs => ?_⟩
  rw [hlatest slug r hr, hlatest slug s hs]

/-- The release and its beta have one key. -/
theorem first_registered_found :
    let found := fun classes => ((AgentRegistry.get Workflow.asciiDigits
      (.registerAll id classes) "echo" none).toOption.map AgentRegistration.version)
    found [echo "1.0.0-beta", echo "1.0.0"] = some "1.0.0-beta" ∧
      found [echo "1.0.0", echo "1.0.0-beta"] = some "1.0.0" ∧
      ¬ OrderFree Workflow.asciiDigits id [echo "1.0.0", echo "1.0.0-beta"] := by
  refine ⟨by decide, by decide, fun hfree => ?_⟩
  have hbeta : AgentRegistry.get Workflow.asciiDigits
      (.registerAll id [echo "1.0.0-beta", echo "1.0.0"]) "echo" none =
        .ok (registrationOf id (echo "1.0.0-beta")) := rfl
  have hrelease : AgentRegistry.get Workflow.asciiDigits
      (.registerAll id [echo "1.0.0", echo "1.0.0-beta"]) "echo" none =
        .ok (registrationOf id (echo "1.0.0")) := rfl
  have hsame := (hfree.get _ (List.Perm.swap _ _ []) "echo" _).mp hbeta
  have hversion := congrArg AgentRegistration.version (Except.ok.inj (hrelease.symm.trans hsame))
  exact absurd hversion (by decide)

end YoutubeFactory.AgentCore
