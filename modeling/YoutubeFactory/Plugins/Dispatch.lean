import YoutubeFactory.Lib.Sorting
import YoutubeFactory.Plugins.Registry

/-!
# Dispatch as a fold

The plugins of a hook run in the order of priority and name, which no order of
registration changes.  Each is given the payload with the patches of the ones
before it, and its result says what its handler did (`dispatch_is_fold`).
-/

namespace YoutubeFactory.Plugins

open Python

section

variable {H κ V : Type}

namespace PluginRegistry

/-! ## Registrations -/

/-- Several registrations, one after the other. -/
def registerAll (setting : String) :
    List (PluginManifest × Handlers H) → PluginRegistry H →
      Except ValidationError (PluginRegistry H)
  | [], registry => .ok registry
  | r :: rs, registry => do
      let registry' ← registry.register setting r.1 r.2
      registerAll setting rs registry'

/-- The plugin of an accepted registration. -/
def pluginOf (setting : String) (r : PluginManifest × Handlers H) : RegisteredPlugin H :=
  ⟨r.1, r.2, grant setting r.1⟩

/-- Each declared hook has a handler, and each handler a declared hook. -/
def Matches (r : PluginManifest × Handlers H) : Prop :=
  sortedValues (r.1.hooks.filter fun h => (r.2 h).isNone) = [] ∧
    sortedValues (HookName.all.filter fun h => (r.2 h).isSome && h ∉ r.1.hooks) = []

theorem register_ok_iff {setting : String} {registry registry' : PluginRegistry H}
    {r : PluginManifest × Handlers H} :
    registry.register setting r.1 r.2 = .ok registry' ↔
      r.1.name ∉ registry.plugins.map RegisteredPlugin.name ∧ Matches r ∧
        registry'.plugins = registry.plugins ++ [pluginOf setting r] := by
  unfold register Matches
  constructor
  · intro h
    split at h
    · cases h
    · next hfree =>
        dsimp only at h
        split at h
        · cases h
        · next hdeclared =>
            split at h
            · cases h
            · next hsupplied =>
                cases h
                exact ⟨hfree, ⟨hdeclared, hsupplied⟩, rfl⟩
  · rintro ⟨hfree, ⟨hdeclared, hsupplied⟩, hplugins⟩
    rw [dif_neg hfree]
    dsimp only
    rw [hdeclared]
    dsimp only
    split
    · next heq =>
        rw [hsupplied] at heq
        cases heq
    · obtain ⟨plugins, names_nodup⟩ := registry'
      cases hplugins
      rfl

theorem registerAll_ok_iff {setting : String} :
    ∀ {rs : List (PluginManifest × Handlers H)} {registry registry' : PluginRegistry H},
      registerAll setting rs registry = .ok registry' ↔
        ((registry.plugins ++ rs.map (pluginOf setting)).map RegisteredPlugin.name).Nodup ∧
          (∀ r ∈ rs, Matches r) ∧
          registry'.plugins = registry.plugins ++ rs.map (pluginOf setting)
  | [], registry, registry' => by
      rw [List.map_nil, List.append_nil]
      constructor
      · intro h
        cases h
        exact ⟨registry.names_nodup, nofun, rfl⟩
      · rintro ⟨-, -, hplugins⟩
        obtain ⟨plugins, names_nodup⟩ := registry'
        cases hplugins
        rfl
  | r :: rs, registry, registry' => by
      rw [registerAll, Except.bind_eq_ok]
      constructor
      · rintro ⟨next, hnext, hrest⟩
        obtain ⟨hfree, hmatches, hplugins⟩ := register_ok_iff.mp hnext
        obtain ⟨hnodup, hall, hplugins'⟩ := registerAll_ok_iff.mp hrest
        rw [hplugins, List.append_assoc] at hnodup hplugins'
        exact ⟨hnodup, List.forall_mem_cons.mpr ⟨hmatches, hall⟩, hplugins'⟩
      · rintro ⟨hnodup, hall, hplugins⟩
        rw [List.forall_mem_cons] at hall
        have hfirst : ((registry.plugins ++ [pluginOf setting r]).map
            RegisteredPlugin.name).Nodup := by
          rw [List.map_cons, ← List.singleton_append, ← List.append_assoc,
            List.map_append] at hnodup
          exact (List.nodup_append.mp hnodup).1
        have hfree : r.1.name ∉ registry.plugins.map RegisteredPlugin.name := by
          rw [List.map_append, List.nodup_append] at hfirst
          exact fun hmem => hfirst.2.2 _ hmem _ List.mem_cons_self rfl
        refine ⟨⟨_, hfirst⟩, register_ok_iff.mpr ⟨hfree, hall.1, rfl⟩, ?_⟩
        rw [registerAll_ok_iff]
        dsimp only
        rw [List.append_assoc]
        exact ⟨hnodup, hall.2, hplugins⟩

/-! ## The order of the plugins -/

theorem runsBefore_total (p q : RegisteredPlugin H) : RunsBefore p q ∨ RunsBefore q p := by
  unfold RunsBefore
  rcases Nat.lt_trichotomy p.manifest.priority q.manifest.priority with h | h | h
  · exact .inl (.inl h)
  · exact (strLe_total p.name q.name).imp (fun hle => .inr ⟨h, hle⟩) fun hle => .inr ⟨h.symm, hle⟩
  · exact .inr (.inl h)

theorem runsBefore_trans (p q r : RegisteredPlugin H) (hpq : RunsBefore p q)
    (hqr : RunsBefore q r) : RunsBefore p r := by
  unfold RunsBefore at *
  rcases hpq with hpq | ⟨hpq, hpq'⟩
  · rcases hqr with hqr | ⟨hqr, -⟩
    · exact .inl (Nat.lt_trans hpq hqr)
    · exact .inl (hqr ▸ hpq)
  · rcases hqr with hqr | ⟨hqr, hqr'⟩
    · exact .inl (hpq ▸ hqr)
    · exact .inr ⟨hpq.trans hqr, strLe_trans hpq' hqr'⟩

/-- Plugins of one priority that stand below each other have one name. -/
theorem name_eq_of_runsBefore {p q : RegisteredPlugin H} (hpq : RunsBefore p q)
    (hqp : RunsBefore q p) : p.name = q.name := by
  unfold RunsBefore at *
  rcases hpq with hpq | ⟨hpq, hpq'⟩
  · rcases hqp with hqp | ⟨hqp, -⟩
    · exact absurd hqp (Nat.lt_asymm hpq)
    · exact absurd hpq (hqp ▸ Nat.lt_irrefl _)
  · rcases hqp with hqp | ⟨-, hqp'⟩
    · exact absurd hqp (hpq ▸ Nat.lt_irrefl _)
    · exact strLe_antisymm hpq' hqp'

theorem eq_of_name_eq (registry : PluginRegistry H) {p q : RegisteredPlugin H}
    (hp : p ∈ registry.plugins) (hq : q ∈ registry.plugins) (h : p.name = q.name) : p = q :=
  List.inj_on_of_nodup_map registry.names_nodup hp hq h

/-- The plugins of a hook depend on the set of plugins only. -/
theorem forHook_eq_of_perm {registry registry' : PluginRegistry H}
    (h : registry.plugins.Perm registry'.plugins) (hook : HookName) :
    registry.forHook hook = registry'.forHook hook := by
  unfold forHook all
  rw [Sorting.insertionSort_eq_of_perm runsBefore_total runsBefore_trans
    (fun p hp q hq hpq hqp => registry.eq_of_name_eq hp hq (name_eq_of_runsBefore hpq hqp)) h]

theorem mem_forHook {registry : PluginRegistry H} {hook : HookName}
    {plugin : RegisteredPlugin H} :
    plugin ∈ registry.forHook hook ↔
      plugin ∈ registry.plugins ∧ (plugin.handlers hook).isSome = true := by
  unfold forHook all
  rw [List.mem_filter, List.mem_insertionSort]

theorem nodup_names_forHook (registry : PluginRegistry H) (hook : HookName) :
    ((registry.forHook hook).map RegisteredPlugin.name).Nodup := by
  have hsorted : (registry.all.map RegisteredPlugin.name).Nodup :=
    ((List.perm_insertionSort RunsBefore registry.plugins).map _).nodup_iff.mpr
      registry.names_nodup
  exact (List.filter_sublist.map _).nodup hsorted

theorem pairwise_forHook (registry : PluginRegistry H) (hook : HookName) :
    (registry.forHook hook).Pairwise RunsBefore :=
  (Sorting.pairwise_insertionSort runsBefore_total runsBefore_trans registry.plugins).sublist
    List.filter_sublist

/-- Without one plugin, the others run in the order they had. -/
theorem forHook_unregister (registry : PluginRegistry H) (name : String) (hook : HookName) :
    (registry.unregister name).forHook hook =
      (registry.forHook hook).filter fun p => p.name ≠ name := by
  unfold forHook all unregister
  rw [Sorting.insertionSort_filter runsBefore_total runsBefore_trans _
    fun p hp q hq hpq hqp => registry.eq_of_name_eq hp hq (name_eq_of_runsBefore hpq hqp),
    List.filter_filter, List.filter_filter]
  exact List.filter_congr fun p _ => Bool.and_comm _ _

/-- What the allow-list does not decide: a plugin is granted `WRITE_CONTEXT` when it asks
for it. -/
theorem writeContext_granted_iff (setting : String) (manifest : PluginManifest) :
    .writeContext ∈ grant setting manifest ↔ .writeContext ∈ manifest.capabilities := by
  unfold grant
  split
  · simp [PRIVILEGED_CAPABILITIES]
  · simp [PRIVILEGED_CAPABILITIES]

end PluginRegistry

/-! ## The fold -/

/-- A behaviour that a dispatch records: an exception is an `Exception` with a text. -/
def Behaviour.Contained : Behaviour κ V → Prop
  | .raises exc => exc.isTimeout = true ∨ (exc.isException = true ∧ ∃ text, exc.text = .ok text)
  | _ => True

/-- The result names the plugin, is ok exactly for a dictionary or `None`, and has the
dictionary as its patch. -/
def HookResult.Reports (result : HookResult κ V) (plugin : String) (b : Behaviour κ V) : Prop :=
  result.plugin = plugin ∧
    match b with
    | .returns (.dict patch) => result.ok = true ∧ result.patch = some patch
    | .returns .none => result.ok = true ∧ result.patch = none
    | _ => result.ok = false ∧ result.patch = none

theorem HookResult.of_contained (plugin : String) {b : Behaviour κ V} (h : b.Contained) :
    ∃ result, HookResult.of plugin b = .ok result ∧ result.Reports plugin b := by
  cases b with
  | timesOut => exact ⟨_, rfl, rfl, rfl, rfl⟩
  | returns value =>
      cases value with
      | dict patch => exact ⟨_, rfl, rfl, rfl, rfl⟩
      | none => exact ⟨_, rfl, rfl, rfl, rfl⟩
      | other typeName => exact ⟨_, rfl, rfl, rfl, rfl⟩
  | raises exc =>
      unfold HookResult.of
      dsimp only
      by_cases htimeout : exc.isTimeout = true
      · rw [if_pos htimeout]
        exact ⟨_, rfl, rfl, rfl, rfl⟩
      · obtain ⟨hexception, text, htext⟩ := h.resolve_left htimeout
        rw [if_neg htimeout, if_pos hexception, htext]
        exact ⟨_, rfl, rfl, rfl, rfl⟩

variable [DecidableEq κ]

/-- The payload with the patches of some results. -/
def patched (payload : OrderedMap κ V) (results : List (HookResult κ V)) : OrderedMap κ V :=
  (results.filterMap (·.patch)).foldl OrderedMap.update payload

theorem patched_cons (payload : OrderedMap κ V) (result : HookResult κ V)
    (results : List (HookResult κ V)) :
    patched payload (result :: results) = patched (result.applyTo payload) results := by
  unfold patched HookResult.applyTo
  rw [List.filterMap_cons]
  cases result.patch with
  | none => rfl
  | some patch => rfl

namespace PluginRegistry

theorem dispatch_eq (registry : PluginRegistry (HookHandler κ V)) (hook : HookName) (payload : OrderedMap κ V)
    (organizationId : Option String) :
    registry.dispatch hook payload organizationId =
      runPlugins hook organizationId (registry.forHook hook) payload [] := by
  unfold dispatch
  split
  · next h =>
      rw [h]
      rfl
  · rfl

/-- The loop over plugins whose handlers are contained. -/
theorem runPlugins_contained (hook : HookName) (organizationId : Option String) :
    ∀ {plugins : List (RegisteredPlugin (HookHandler κ V))} (current : OrderedMap κ V)
      (before : List (HookResult κ V)),
      (∀ p ∈ plugins, ∃ handler, p.handlers hook = some handler ∧
        ∀ context, (handler context).Contained) →
      ∃ results, runPlugins hook organizationId plugins current before =
          .ok (patched current results, before ++ results) ∧
        results.length = plugins.length ∧
        ∀ (i : Nat) plugin result handler, plugins[i]? = some plugin → results[i]? = some result →
          plugin.handlers hook = some handler →
          result.Reports plugin.name (handler
            ⟨hook, patched current (results.take i), organizationId, plugin.granted⟩)
  | [], current, before, _ => by
      refine ⟨[], ?_, rfl, fun i plugin result handler hp => ?_⟩
      · rw [List.append_nil]
        rfl
      · rw [List.getElem?_nil] at hp
        cases hp
  | plugin :: plugins, current, before, h => by
      rw [List.forall_mem_cons] at h
      obtain ⟨⟨handler, hhandler, hcontained⟩, hrest⟩ := h
      obtain ⟨result, hresult, hreports⟩ := HookResult.of_contained plugin.name
        (hcontained ⟨hook, current, organizationId, plugin.granted⟩)
      have hinvoke : plugin.invoke hook current organizationId = .ok result := by
        unfold RegisteredPlugin.invoke
        rw [hhandler]
        exact hresult
      obtain ⟨results, hrun, hlength, hall⟩ := runPlugins_contained hook organizationId
        (result.applyTo current) (before ++ [result]) hrest
      refine ⟨result :: results, ?_, by rw [List.length_cons, List.length_cons, hlength],
        fun i p r handler' hp hr hhandler' => ?_⟩
      · rw [runPlugins, hinvoke, Except.ok_bind, hrun, patched_cons, List.append_assoc,
          List.singleton_append]
      · cases i with
        | zero =>
            cases hp
            cases hr
            rw [hhandler, Option.some.injEq] at hhandler'
            subst hhandler'
            exact hreports
        | succ i =>
            rw [List.take_succ_cons, patched_cons]
            exact hall i p r handler' hp hr hhandler'

/-- A dispatch to plugins whose handlers are contained is a fold: it returns the payload
with the patches in the order of the plugins, and one result for each of them, whose
handler was given the payload as patched before it.  The order of registration does not
matter. -/
theorem dispatch_is_fold (setting : String) (registrations : List (PluginManifest × Handlers (HookHandler κ V)))
    {registry : PluginRegistry (HookHandler κ V)}
    (hregister : registerAll setting registrations empty = .ok registry)
    (hook : HookName) (payload : OrderedMap κ V) (organizationId : Option String)
    (hcontained : ∀ r ∈ registrations, ∀ handler, r.2 hook = some handler →
      ∀ context, (handler context).Contained) :
    (∀ plugin, plugin ∈ registry.forHook hook ↔
      ∃ r ∈ registrations, plugin = pluginOf setting r ∧ (r.2 hook).isSome = true) ∧
    ((registry.forHook hook).Pairwise fun p q =>
      p.manifest.priority < q.manifest.priority ∨ (p.manifest.priority = q.manifest.priority ∧
        strLe p.name q.name = true ∧ p.name ≠ q.name)) ∧
    ∃ results,
      registry.dispatch hook payload organizationId = .ok (patched payload results, results) ∧
      results.length = (registry.forHook hook).length ∧
      (∀ (i : Nat) plugin result handler, (registry.forHook hook)[i]? = some plugin →
        results[i]? = some result → plugin.handlers hook = some handler →
        result.Reports plugin.name (handler
          ⟨hook, patched payload (results.take i), organizationId, plugin.granted⟩)) ∧
      ∀ registrations', registrations'.Perm registrations →
        ∃ registry', registerAll setting registrations' empty = .ok registry' ∧
          registry'.dispatch hook payload organizationId =
            .ok (patched payload results, results) := by
  obtain ⟨hnodup, hmatches, hplugins⟩ := registerAll_ok_iff.mp hregister
  have hempty : (empty : PluginRegistry (HookHandler κ V)).plugins = [] := rfl
  rw [hempty, List.nil_append] at hnodup hplugins
  have hmem : ∀ plugin, plugin ∈ registry.forHook hook ↔
      ∃ r ∈ registrations, plugin = pluginOf setting r ∧ (r.2 hook).isSome = true := by
    intro plugin
    rw [mem_forHook, hplugins, List.mem_map]
    constructor
    · rintro ⟨⟨r, hr, rfl⟩, hhook⟩
      exact ⟨r, hr, rfl, hhook⟩
    · rintro ⟨r, hr, rfl, hhook⟩
      exact ⟨⟨r, hr, rfl⟩, hhook⟩
  have hhandlers : ∀ p ∈ registry.forHook hook, ∃ handler, p.handlers hook = some handler ∧
      ∀ context, (handler context).Contained := by
    intro p hp
    obtain ⟨r, hr, rfl, hhook⟩ := (hmem p).mp hp
    obtain ⟨handler, hhandler⟩ := Option.isSome_iff_exists.mp hhook
    exact ⟨handler, hhandler, hcontained r hr handler hhandler⟩
  obtain ⟨results, hrun, hlength, hall⟩ :=
    runPlugins_contained hook organizationId payload [] hhandlers
  rw [List.nil_append] at hrun
  refine ⟨hmem, ?_, results, (dispatch_eq ..).trans hrun, hlength, hall,
    fun registrations' hperm => ?_⟩
  · have hnames := List.pairwise_map.mp (registry.nodup_names_forHook hook)
    refine ((registry.pairwise_forHook hook).and hnames).imp ?_
    rintro p q ⟨hlt | ⟨heq, hle⟩, hne⟩
    · exact .inl hlt
    · exact .inr ⟨heq, hle, hne⟩
  · have hpermuted : (registrations'.map (pluginOf setting)).Perm registry.plugins := by
      rw [hplugins]
      exact hperm.map _
    have hnodup' : ((registrations'.map (pluginOf setting)).map RegisteredPlugin.name).Nodup :=
      ((hperm.map _).map _).nodup_iff.mpr hnodup
    refine ⟨⟨registrations'.map (pluginOf setting), hnodup'⟩, ?_, ?_⟩
    · exact registerAll_ok_iff.mpr ⟨hnodup', fun r hr => hmatches r (hperm.mem_iff.mp hr), rfl⟩
    · rw [dispatch_eq, forHook_eq_of_perm hpermuted]
      exact hrun

/-- The priority of a manifest that names none. -/
def defaultPriority : Fin 1001 := 100

def earlyPriority : Fin 1001 := 50

/-- A plugin for the hook before a publication, which asks for one capability. -/
def beforePublishPlugin {H : Type} (name : String) (hname : nameMatches name = true)
    (capability : Capability) (priority : Fin 1001) (handler : H) :
    PluginManifest × Handlers H where
  fst := {
    name := name
    hooks := [.beforePublish]
    capabilities := [capability]
    priority := priority.val
    name_matches := hname
    hooks_ne_nil := List.cons_ne_nil _ _
    hooks_nodup := List.nodup_singleton _
    capabilities_nodup := List.nodup_singleton _
    priority_le := Nat.le_of_lt_succ priority.isLt }
  snd
    | .beforePublish => some handler
    | _ => none

theorem matches_beforePublishPlugin {H : Type} (name : String) (hname : nameMatches name = true)
    (capability : Capability) (priority : Fin 1001) (handler : H) :
    Matches (beforePublishPlugin name hname capability priority handler) :=
  ⟨rfl, rfl⟩

def withTitle {V : Type} (title : V) : OrderedMap String V :=
  ⟨[("title", title)], List.nodup_singleton _⟩

/-- Three plugins, registered last to first: one sets a title and a tag, the second raises, and
the third marks the title that it finds. -/
def threePlugins : List (PluginManifest × Handlers (HookHandler String String)) :=
  [beforePublishPlugin "marker" (by decide) .writeContext defaultPriority fun context =>
      .returns (.dict (withTitle ((context.payload.get? "title").getD "" ++ "!"))),
    beforePublishPlugin "broken" (by decide) .writeContext 75 fun _ =>
      .raises ⟨"ValueError", true, false, .ok "bad"⟩,
    beforePublishPlugin "tagger" (by decide) .writeContext earlyPriority fun _ =>
      .returns (.dict ⟨[("title", "Mine"), ("tags", "lean")], by decide⟩)]

/-- The registry after these registrations. -/
def threeRegistry : PluginRegistry (HookHandler String String) :=
  ⟨threePlugins.map (pluginOf ""), by decide⟩

theorem three_registered : registerAll "" threePlugins empty = .ok threeRegistry := by
  refine registerAll_ok_iff.mpr ⟨threeRegistry.names_nodup, ?_, rfl⟩
  rw [threePlugins, List.forall_mem_cons, List.forall_mem_cons, List.forall_mem_singleton]
  exact ⟨matches_beforePublishPlugin .., matches_beforePublishPlugin ..,
    matches_beforePublishPlugin ..⟩

/-- The tagger runs first, and the marker is given the title that the tagger set. -/
theorem three_dispatch_is_fold : ∃ results,
    (threeRegistry.forHook .beforePublish).map RegisteredPlugin.name =
        ["tagger", "broken", "marker"] ∧
      threeRegistry.dispatch .beforePublish (withTitle "Draft") none =
        .ok (patched (withTitle "Draft") results, results) ∧
      (patched (withTitle "Draft") results).entries = [("title", "Mine!"), ("tags", "lean")] ∧
      results.map (fun result => (result.plugin, result.ok)) =
        [("tagger", true), ("broken", false), ("marker", true)] ∧
      ∀ registrations', registrations'.Perm threePlugins →
        ∃ registry', registerAll "" registrations' empty = .ok registry' ∧
          registry'.dispatch .beforePublish (withTitle "Draft") none =
            .ok (patched (withTitle "Draft") results, results) := by
  obtain ⟨-, -, results, hdispatch, -, -, hperm⟩ := dispatch_is_fold "" threePlugins
    three_registered .beforePublish (withTitle "Draft") none
    (by
      rw [threePlugins, List.forall_mem_cons, List.forall_mem_cons, List.forall_mem_singleton]
      refine ⟨?_, ?_, ?_⟩
      · rintro _ ⟨⟩ context
        trivial
      · rintro _ ⟨⟩ context
        exact .inr ⟨rfl, _, rfl⟩
      · rintro _ ⟨⟩ context
        trivial)
  have hrun : (threeRegistry.dispatch .beforePublish (withTitle "Draft") none).map
      (fun r => (r.1.entries, r.2.map fun result => (result.plugin, result.ok))) =
        .ok ([("title", "Mine!"), ("tags", "lean")],
          [("tagger", true), ("broken", false), ("marker", true)]) := rfl
  rw [hdispatch] at hrun
  obtain ⟨hpayload, hresults⟩ := Prod.mk.inj (Except.ok.inj hrun)
  exact ⟨results, rfl, hdispatch, hpayload, hresults, hperm⟩

/-- A cancellation is no `Exception`. -/
def cancelled : HookHandler String String := fun _ => .raises ⟨"CancelledError", false, false, .ok ""⟩

def cancelledRegistry : PluginRegistry (HookHandler String String) :=
  ⟨[pluginOf "" (beforePublishPlugin "titler" (by decide) .readContext defaultPriority cancelled)],
    List.nodup_singleton _⟩

theorem cancellation_escapes :
    registerAll "" [beforePublishPlugin "titler" (by decide) .readContext defaultPriority
        cancelled] empty = .ok cancelledRegistry ∧
      cancelledRegistry.dispatch .beforePublish (withTitle "Draft") none =
        .error "CancelledError" := by
  refine ⟨registerAll_ok_iff.mpr ⟨List.nodup_singleton _, ?_, rfl⟩, rfl⟩
  rw [List.forall_mem_singleton]
  exact matches_beforePublishPlugin ..

end PluginRegistry

end

end YoutubeFactory.Plugins
