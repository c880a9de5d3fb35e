import YoutubeFactory.Plugins.Heap

/-!
# Plugins that may only read

A dispatch does not look at what a plugin was granted.  The patch of a plugin without
`WRITE_CONTEXT` is applied, and what it changes in place in the lists and dictionaries of
the payload is there for the plugins after it.

Such a plugin passes on the payload it is given exactly when its handler is contained,
its patch sets only what is there already, and no change it makes in place can be read in
a field that it does not set (`keepsPayload_iff`).  Then the dispatch goes as if it were
not registered, provided that the other handlers respond to what they read
(`no_effect_iff`).
-/

namespace YoutubeFactory.Plugins

section

variable {κ A : Type}

/-! ## What is seen of a payload -/

/-- A payload as it reads at each depth. -/
abbrev View (κ A : Type) := Nat → OrderedMap κ (Tree κ A)

namespace Call

/-- The payload that the handler is given. -/
def given (call : Call κ A) : View κ A := fun n => call.before.readAll n call.current

variable [DecidableEq κ]

/-- The payload after the call, if the call does not escape. -/
def passedOn (call : Call κ A) : Except Escaped (View κ A) :=
  match call.result with
  | .ok result => .ok fun n => call.after.readAll n (result.applyTo call.current)
  | .error e => .error e

/-- The call does not escape, its patch sets fields to what they read as already, and the other
fields read as before. -/
structure KeepsPayload (call : Call κ A) : Prop where
  contained : ∃ result, call.result = .ok result
  fields : ∀ result, call.result = .ok result → ∀ e ∈ call.current.entries,
    (∀ patch, result.patch = some patch → e.1 ∉ patch.keys) →
      ∀ n, call.after.read n e.2 = call.before.read n e.2
  patched : ∀ result patch, call.result = .ok result → result.patch = some patch →
    ∀ e ∈ patch.entries, ∃ v, call.current.get? e.1 = some v ∧
      ∀ n, call.after.read n e.2 = call.before.read n v

end Call

variable [DecidableEq κ]

/-- A call passes on what it is given exactly when it keeps the payload. -/
theorem Call.keepsPayload_iff {call : Call κ A} :
    call.KeepsPayload ↔ call.passedOn = .ok call.given := by
  unfold Call.passedOn Call.given Heap.readAll
  cases hresult : call.result with
  | error e =>
      refine iff_of_false (fun h => ?_) nofun
      obtain ⟨result, hok⟩ := h.contained
      rw [hresult] at hok
      cases hok
  | ok result =>
      dsimp only
      rw [Except.ok.injEq, funext_iff]
      unfold HookResult.applyTo
      cases hpatch : result.patch with
      | none =>
          simp only [OrderedMap.map_eq_map_iff]
          constructor
          · intro h n e he
            refine h.fields result hresult e he (fun patch hsome => ?_) n
            rw [hpatch] at hsome
            cases hsome
          · refine fun h => ⟨⟨result, hresult⟩, fun _ _ e he _ n => h n e he,
              fun result' patch hok hsome => ?_⟩
            rw [hresult, Except.ok.injEq] at hok
            subst hok
            rw [hpatch] at hsome
            cases hsome
      | some patch =>
          simp only [OrderedMap.map_update_eq_map_iff]
          constructor
          · refine fun h n => ⟨fun e he hkey => ?_, fun e he => ?_⟩
            · refine h.fields result hresult e he (fun patch' hsome => ?_) n
              rw [hpatch, Option.some.injEq] at hsome
              exact hsome ▸ hkey
            · obtain ⟨v, hv, hread⟩ := h.patched result patch hresult hpatch e he
              rw [hv, Option.map_some, hread n]
          · refine fun h => ⟨⟨result, hresult⟩, fun result' hok e he hkeys n => ?_,
              fun result' patch' hok hsome e he => ?_⟩
            · rw [hresult, Except.ok.injEq] at hok
              subst hok
              exact (h n).1 e he (hkeys patch hpatch)
            · rw [hresult, Except.ok.injEq] at hok
              subst hok
              rw [hpatch, Option.some.injEq] at hsome
              subst hsome
              obtain ⟨v, hv, -⟩ := Option.map_eq_some_iff.mp ((h 0).2 e he)
              refine ⟨v, hv, fun n => ?_⟩
              have hread := (h n).2 e he
              rw [hv, Option.map_some, Option.some.injEq] at hread
              exact hread.symm

/-! ## The runs with and without a plugin -/

/-- The payload at the end of a dispatch, as it reads. -/
def endView :
    Heap κ A × Except Escaped (OrderedMap κ (Val A) × List (HookResult κ (Val A))) →
      Except Escaped (View κ A)
  | (heap, .ok (current, _)) => .ok fun n => heap.readAll n current
  | (_, .error e) => .error e

/-- What a call shows of the run: its plugin and what that is given. -/
def Call.seen (call : Call κ A) : String × View κ A := (call.plugin, call.given)

/-- Calls in the same place of two runs, given payloads that read alike, pass on payloads that
read alike. -/
def RespondAlike (calls calls' : List (Call κ A)) : Prop :=
  ∀ (i : Nat) call call', calls[i]? = some call → calls'[i]? = some call' →
    call.given = call'.given → call.passedOn = call'.passedOn

theorem RespondAlike.head {call call' : Call κ A} {calls calls' : List (Call κ A)}
    (h : RespondAlike (call :: calls) (call' :: calls')) (hgiven : call.given = call'.given) :
    call.passedOn = call'.passedOn :=
  h 0 call call' rfl rfl hgiven

theorem RespondAlike.tail {call call' : Call κ A} {calls calls' : List (Call κ A)}
    (h : RespondAlike (call :: calls) (call' :: calls')) : RespondAlike calls calls' :=
  fun i => h (i + 1)

variable {hook : HookName} {organizationId : Option String}

/-- The end of a run does not depend on the results before it. -/
theorem endView_run (plugins : List (HeapPlugin κ A)) :
    ∀ (heap : Heap κ A) (current : OrderedMap κ (Val A))
      (before before' : List (HookResult κ (Val A))),
      endView (runHeapPlugins hook organizationId plugins heap current before) =
        endView (runHeapPlugins hook organizationId plugins heap current before') := by
  induction plugins with
  | nil => exact fun _ _ _ _ => rfl
  | cons plugin plugins ih =>
      intro heap current before before'
      rw [runHeapPlugins, runHeapPlugins]
      cases (plugin.call hook organizationId heap current).result with
      | error e => rfl
      | ok result => exact ih _ _ _ _

theorem callsFrom_plugin (plugins : List (HeapPlugin κ A)) :
    ∀ (heap : Heap κ A) (current : OrderedMap κ (Val A)),
      ∀ call ∈ callsFrom hook organizationId plugins heap current,
        call.plugin ∈ plugins.map HeapPlugin.name := by
  induction plugins with
  | nil => exact fun _ _ _ hcall => by cases hcall
  | cons plugin plugins ih =>
      intro heap current call hcall
      rw [callsFrom] at hcall
      rcases List.mem_cons.mp hcall with rfl | hcall
      · exact List.mem_cons_self
      · split at hcall
        · cases hcall
        · exact List.mem_cons_of_mem _ (ih _ _ call hcall)

/-- Two runs of the same plugins from payloads that read alike. -/
theorem runs_alike : ∀ {plugins : List (HeapPlugin κ A)} {heap heap' : Heap κ A}
    {current current' : OrderedMap κ (Val A)},
    (∀ n, heap.readAll n current = heap'.readAll n current') →
    RespondAlike (callsFrom hook organizationId plugins heap current)
      (callsFrom hook organizationId plugins heap' current') →
    (callsFrom hook organizationId plugins heap current).map Call.seen =
        (callsFrom hook organizationId plugins heap' current').map Call.seen ∧
      endView (runHeapPlugins hook organizationId plugins heap current []) =
        endView (runHeapPlugins hook organizationId plugins heap' current' [])
  | [], heap, heap', current, current', hview, _ =>
      ⟨rfl, congrArg Except.ok (funext hview)⟩
  | plugin :: plugins, heap, heap', current, current', hview, halike => by
      rw [callsFrom, callsFrom] at halike ⊢
      rw [runHeapPlugins, runHeapPlugins]
      have hgiven : (plugin.call hook organizationId heap current).given =
          (plugin.call hook organizationId heap' current').given := funext hview
      have hpassed := halike.head hgiven
      have hseen : (plugin.call hook organizationId heap current).seen =
          (plugin.call hook organizationId heap' current').seen := congrArg (Prod.mk _) hgiven
      unfold Call.passedOn at hpassed
      rw [List.map_cons, List.map_cons, hseen]
      cases hresult : (plugin.call hook organizationId heap current).result with
      | error e =>
          rw [hresult] at hpassed
          cases hresult' : (plugin.call hook organizationId heap' current').result with
          | error e' =>
              rw [hresult'] at hpassed
              cases hpassed
              exact ⟨rfl, rfl⟩
          | ok result' =>
              rw [hresult'] at hpassed
              cases hpassed
      | ok result =>
          rw [hresult] at hpassed
          cases hresult' : (plugin.call hook organizationId heap' current').result with
          | error e' =>
              rw [hresult'] at hpassed
              cases hpassed
          | ok result' =>
              rw [hresult, hresult'] at halike
              rw [hresult'] at hpassed
              obtain ⟨hcalls, hend⟩ :=
                runs_alike (congrFun (Except.ok.inj hpassed)) halike.tail
              refine ⟨congrArg (List.cons _) hcalls, ?_⟩
              exact (endView_run plugins _ _ _ _).trans (hend.trans (endView_run plugins _ _ _ _))

/-- With the plugins of one name left out, the others are given payloads that read alike, and
the run ends alike. -/
def Unaffected (hook : HookName) (organizationId : Option String) (name : String)
    (plugins : List (HeapPlugin κ A)) (heap : Heap κ A) (current : OrderedMap κ (Val A)) : Prop :=
  ((callsFrom hook organizationId plugins heap current).filter (·.plugin ≠ name)).map Call.seen =
      (callsFrom hook organizationId (plugins.filter (·.name ≠ name)) heap current).map
        Call.seen ∧
    endView (runHeapPlugins hook organizationId plugins heap current []) =
      endView (runHeapPlugins hook organizationId (plugins.filter (·.name ≠ name)) heap current [])

/-- The others respond alike in the runs with and without the plugins of one name. -/
def OthersRespondAlike (hook : HookName) (organizationId : Option String) (name : String)
    (plugins : List (HeapPlugin κ A)) (heap : Heap κ A) (current : OrderedMap κ (Val A)) : Prop :=
  RespondAlike ((callsFrom hook organizationId plugins heap current).filter (·.plugin ≠ name))
    (callsFrom hook organizationId (plugins.filter (·.name ≠ name)) heap current)

omit [DecidableEq κ] in
theorem filter_names_eq_self {name : String} {plugins : List (HeapPlugin κ A)}
    (h : name ∉ plugins.map HeapPlugin.name) : plugins.filter (·.name ≠ name) = plugins :=
  List.filter_eq_self.mpr fun _ hp => decide_eq_true fun heq => h (heq ▸ List.mem_map_of_mem hp)

theorem filter_calls_eq_self {name : String} {plugins : List (HeapPlugin κ A)}
    (h : name ∉ plugins.map HeapPlugin.name) (heap : Heap κ A) (current : OrderedMap κ (Val A)) :
    (callsFrom hook organizationId plugins heap current).filter (·.plugin ≠ name) =
      callsFrom hook organizationId plugins heap current :=
  List.filter_eq_self.mpr fun call hcall => decide_eq_true fun heq =>
    h (heq ▸ callsFrom_plugin plugins heap current call hcall)

/-- The plugin that runs first. -/
theorem unaffected_head_iff {plugin : HeapPlugin κ A} {others : List (HeapPlugin κ A)}
    {heap : Heap κ A} {current : OrderedMap κ (Val A)}
    (hother : plugin.name ∉ others.map HeapPlugin.name)
    (halike : OthersRespondAlike hook organizationId plugin.name (plugin :: others) heap current) :
    Unaffected hook organizationId plugin.name (plugin :: others) heap current ↔
      (plugin.call hook organizationId heap current).KeepsPayload := by
  have hname : (plugin.call hook organizationId heap current).plugin = plugin.name := rfl
  rw [Call.keepsPayload_iff]
  unfold OthersRespondAlike at halike
  unfold Unaffected
  rw [List.filter_cons_of_neg (by simp), filter_names_eq_self hother] at halike ⊢
  rw [callsFrom, List.filter_cons_of_neg (by simp [hname])] at halike ⊢
  rw [runHeapPlugins]
  unfold Call.passedOn
  cases hresult : (plugin.call hook organizationId heap current).result with
  | error e =>
      refine iff_of_false ?_ (by rintro ⟨⟩)
      rintro ⟨hcalls, hend⟩
      cases others with
      | nil => cases hend
      | cons other others =>
          rw [callsFrom] at hcalls
          cases hcalls
  | ok result =>
      rw [hresult] at halike
      dsimp only at halike ⊢
      rw [filter_calls_eq_self hother] at halike ⊢
      rw [endView_run others _ _ _ []]
      constructor
      · rintro ⟨hcalls, hend⟩
        cases others with
        | nil => exact hend
        | cons other others =>
            rw [callsFrom, callsFrom] at hcalls
            exact congrArg Except.ok (Prod.mk.inj (List.cons.inj hcalls).1).2
      · exact fun hview => runs_alike (congrFun (Except.ok.inj hview)) halike

/-- The plugin in its place among the others. -/
theorem unaffected_iff {name : String} : ∀ {plugins : List (HeapPlugin κ A)} {heap : Heap κ A}
    {current : OrderedMap κ (Val A)}, (plugins.map HeapPlugin.name).Nodup →
    OthersRespondAlike hook organizationId name plugins heap current →
    (Unaffected hook organizationId name plugins heap current ↔
      ∀ call ∈ callsFrom hook organizationId plugins heap current,
        call.plugin = name → call.KeepsPayload)
  | [], _, _, _, _ => iff_of_true ⟨rfl, rfl⟩ fun call hcall => by cases hcall
  | plugin :: plugins, heap, current, hnodup, halike => by
      rw [List.map_cons, List.nodup_cons] at hnodup
      have hplugin : (plugin.call hook organizationId heap current).plugin = plugin.name := rfl
      by_cases hname : plugin.name = name
      · subst hname
        rw [unaffected_head_iff hnodup.1 halike, callsFrom, List.forall_mem_cons]
        refine ⟨fun h => ⟨fun _ => h, fun call hcall heq => ?_⟩, fun h => h.1 rfl⟩
        split at hcall
        · cases hcall
        · exact absurd (heq ▸ callsFrom_plugin plugins _ _ call hcall) hnodup.1
      · unfold OthersRespondAlike at halike
        unfold Unaffected
        rw [List.filter_cons_of_pos (by simpa using hname), callsFrom, callsFrom] at halike
        rw [List.filter_cons_of_pos (by simpa using hname), callsFrom, callsFrom,
          runHeapPlugins, runHeapPlugins, List.forall_mem_cons]
        rw [List.filter_cons_of_pos (by simpa [hplugin] using hname)] at halike ⊢
        rw [List.map_cons, List.map_cons, List.cons.injEq, and_iff_right rfl,
          and_iff_right fun heq => absurd (hplugin.symm.trans heq) hname]
        cases hresult : (plugin.call hook organizationId heap current).result with
        | error e => exact iff_of_true ⟨rfl, rfl⟩ fun call hcall => by cases hcall
        | ok result =>
            rw [hresult] at halike
            have ih := @unaffected_iff name plugins
              (plugin.call hook organizationId heap current).after (result.applyTo current)
              hnodup.2 halike.tail
            unfold Unaffected at ih
            dsimp only
            rw [endView_run plugins _ _ _ [], endView_run (plugins.filter _) _ _ _ []]
            exact ih

/-- What is seen after a call: the payload that the next one is given, or the end of the run. -/
def seenAfter (calls : List (Call κ A)) (ending : Except Escaped (View κ A)) (i : Nat) :
    Except Escaped (View κ A) :=
  match calls[i + 1]? with
  | some call => .ok call.given
  | none => ending

theorem seenAfter_eq_passedOn : ∀ {plugins : List (HeapPlugin κ A)} {heap : Heap κ A}
    {current : OrderedMap κ (Val A)} {i : Nat} {call : Call κ A},
    (callsFrom hook organizationId plugins heap current)[i]? = some call →
      seenAfter (callsFrom hook organizationId plugins heap current)
        (endView (runHeapPlugins hook organizationId plugins heap current [])) i = call.passedOn
  | [], _, _, i, call, hcall => by cases hcall
  | plugin :: plugins, heap, current, i, call, hcall => by
      rw [callsFrom] at hcall ⊢
      rw [runHeapPlugins]
      cases i with
      | zero =>
          cases hcall
          unfold seenAfter Call.passedOn
          rw [List.getElem?_cons_succ]
          cases (plugin.call hook organizationId heap current).result with
          | error e => rfl
          | ok result =>
              cases plugins with
              | nil => rfl
              | cons next plugins => rfl
      | succ i =>
          rw [List.getElem?_cons_succ] at hcall
          unfold seenAfter
          rw [List.getElem?_cons_succ]
          cases hresult : (plugin.call hook organizationId heap current).result with
          | error e =>
              rw [hresult] at hcall
              cases hcall
          | ok result =>
              rw [hresult] at hcall
              have ih := seenAfter_eq_passedOn hcall
              unfold seenAfter at ih
              dsimp only
              rw [endView_run plugins _ _ _ []]
              exact ih

/-! ## The plugins of a registry -/

/-- The plugin with its handler of a hook. -/
def RegisteredPlugin.onHeap (plugin : RegisteredPlugin (HeapHandler κ A)) (hook : HookName) :
    Option (HeapPlugin κ A) :=
  (plugin.handlers hook).map fun handler => ⟨plugin.name, handler, plugin.granted⟩

namespace PluginRegistry

variable (registry : PluginRegistry (HeapHandler κ A)) (hook : HookName)
  (organizationId : Option String) (heap : Heap κ A) (caller : Ref)

/-- `for_hook` -/
def heapPlugins : List (HeapPlugin κ A) := (registry.forHook hook).filterMap (·.onHeap hook)

/-- The calls of a dispatch of the payload at a place of the heap. -/
def heapCalls : List (Call κ A) :=
  match heap[caller]? with
  | some (.dict payload) => callsFrom hook organizationId (registry.heapPlugins hook) heap payload
  | _ => []

/-- What a dispatch returns, as it reads at its end, or what escapes from it. -/
def heapReturned : Except Escaped (View κ A) :=
  endView (heapDispatch (registry.heapPlugins hook) hook organizationId heap caller)

/-- After each turn of the plugin of that name, the payload that the next plugin is given, or that
the dispatch returns, reads as the one that the plugin was given. -/
def PassesOn (name : String) : Prop :=
  ∀ (i : Nat) (call : Call κ A),
    (registry.heapCalls hook organizationId heap caller)[i]? = some call → call.plugin = name →
      seenAfter (registry.heapCalls hook organizationId heap caller)
        (registry.heapReturned hook organizationId heap caller) i = .ok call.given

/-- The other plugins are given what they would be given without the plugin of that name, and
the dispatch returns what it would return without it, as it reads at every depth. -/
def HasNoEffect (name : String) : Prop :=
  ((registry.heapCalls hook organizationId heap caller).filter (·.plugin ≠ name)).map Call.seen =
      ((registry.unregister name).heapCalls hook organizationId heap caller).map Call.seen ∧
    registry.heapReturned hook organizationId heap caller =
      (registry.unregister name).heapReturned hook organizationId heap caller

/-- The handlers of the others respond to what they read, whether or not the plugin of that name
is registered. -/
def RespondWithout (name : String) : Prop :=
  RespondAlike
    ((registry.heapCalls hook organizationId heap caller).filter (·.plugin ≠ name))
    ((registry.unregister name).heapCalls hook organizationId heap caller)

omit [DecidableEq κ] in
theorem heapPlugins_unregister (name : String) :
    (registry.unregister name).heapPlugins hook =
      (registry.heapPlugins hook).filter (·.name ≠ name) := by
  unfold heapPlugins
  rw [forHook_unregister, List.filterMap_filter, List.filter_filterMap]
  refine List.filterMap_congr fun plugin _ => ?_
  unfold RegisteredPlugin.onHeap
  cases plugin.handlers hook with
  | none => by_cases hname : plugin.name = name <;> simp [hname]
  | some handler =>
      by_cases hname : plugin.name = name <;> simp [hname, Option.filter_some]

omit [DecidableEq κ] in
theorem nodup_heapPlugins : ((registry.heapPlugins hook).map HeapPlugin.name).Nodup := by
  have hnames : (registry.heapPlugins hook).map HeapPlugin.name =
      (registry.forHook hook).filterMap fun p => (p.onHeap hook).map HeapPlugin.name := by
    unfold heapPlugins
    rw [List.map_filterMap]
  have hsub : ((registry.forHook hook).filterMap fun p => (p.onHeap hook).map
      HeapPlugin.name).Sublist ((registry.forHook hook).map RegisteredPlugin.name) := by
    induction registry.forHook hook with
    | nil => exact List.Sublist.refl _
    | cons plugin plugins ih =>
        rw [List.filterMap_cons, List.map_cons]
        unfold RegisteredPlugin.onHeap at ih ⊢
        cases plugin.handlers hook with
        | none => exact ih.cons _
        | some handler => exact ih.cons_cons _
  rw [hnames]
  exact hsub.nodup (registry.nodup_names_forHook hook)

variable {registry hook organizationId heap caller}

theorem passesOn_iff {payload : OrderedMap κ (Val A)}
    (hcaller : heap[caller]? = some (.dict payload)) (name : String) :
    registry.PassesOn hook organizationId heap caller name ↔
      ∀ call ∈ registry.heapCalls hook organizationId heap caller,
        call.plugin = name → call.KeepsPayload := by
  unfold PassesOn heapReturned heapDispatch heapCalls
  rw [hcaller]
  dsimp only
  constructor
  · intro h call hmem hname
    obtain ⟨i, hi⟩ := List.mem_iff_getElem?.mp hmem
    rw [Call.keepsPayload_iff, ← seenAfter_eq_passedOn hi]
    exact h i call hi hname
  · intro h i call hi hname
    rw [seenAfter_eq_passedOn hi]
    exact Call.keepsPayload_iff.mp (h call (List.mem_of_getElem? hi) hname)

theorem hasNoEffect_iff {payload : OrderedMap κ (Val A)}
    (hcaller : heap[caller]? = some (.dict payload)) {name : String}
    (halike : registry.RespondWithout hook organizationId heap caller name) :
    registry.HasNoEffect hook organizationId heap caller name ↔
      ∀ call ∈ registry.heapCalls hook organizationId heap caller,
        call.plugin = name → call.KeepsPayload := by
  unfold RespondWithout heapCalls at halike
  unfold HasNoEffect heapReturned heapDispatch heapCalls
  rw [hcaller] at halike ⊢
  rw [heapPlugins_unregister] at halike ⊢
  exact unaffected_iff (registry.nodup_heapPlugins hook) halike

/-- The plugins that are not granted `WRITE_CONTEXT` pass on the payload they are given exactly
when their calls keep it, for what a plugin was granted keeps no patch from being applied, and
the copy it is given shares its lists and dictionaries with the working copy.  Where the other
handlers respond to what they read, this is when the dispatch goes as if they were not
registered. -/
theorem no_effect_iff (setting : String)
    (registrations : List (PluginManifest × Handlers (HeapHandler κ A)))
    {registry : PluginRegistry (HeapHandler κ A)}
    (hregister : registerAll setting registrations empty = .ok registry)
    (hook : HookName) (organizationId : Option String) {heap : Heap κ A} {caller : Ref}
    {payload : OrderedMap κ (Val A)} (hcaller : heap[caller]? = some (.dict payload)) :
    ((∀ plugin ∈ registry.plugins, .writeContext ∉ plugin.granted →
        registry.PassesOn hook organizationId heap caller plugin.name) ↔
      ∀ r ∈ registrations, .writeContext ∉ r.1.capabilities →
        ∀ call ∈ registry.heapCalls hook organizationId heap caller,
          call.plugin = r.1.name → call.KeepsPayload) ∧
    ((∀ plugin ∈ registry.plugins, .writeContext ∉ plugin.granted →
        registry.RespondWithout hook organizationId heap caller plugin.name) →
      ((∀ plugin ∈ registry.plugins, .writeContext ∉ plugin.granted →
          registry.HasNoEffect hook organizationId heap caller plugin.name) ↔
        ∀ r ∈ registrations, .writeContext ∉ r.1.capabilities →
          ∀ call ∈ registry.heapCalls hook organizationId heap caller,
            call.plugin = r.1.name → call.KeepsPayload)) := by
  obtain ⟨-, -, hplugins⟩ := registerAll_ok_iff.mp hregister
  have hempty : (empty : PluginRegistry (HeapHandler κ A)).plugins = [] := rfl
  rw [hempty, List.nil_append] at hplugins
  have hgranted : ∀ r : PluginManifest × Handlers (HeapHandler κ A),
      .writeContext ∈ (pluginOf setting r).granted ↔ .writeContext ∈ r.1.capabilities :=
    fun r => writeContext_granted_iff setting r.1
  rw [hplugins]
  simp only [List.forall_mem_map, hgranted]
  refine ⟨forall₂_congr fun r hr => imp_congr_right fun _ => passesOn_iff hcaller r.1.name,
    fun halike => forall₂_congr fun r hr => imp_congr_right fun hwrite => ?_⟩
  exact hasNoEffect_iff hcaller (halike r hr hwrite)

end PluginRegistry

end

namespace PluginRegistry

/-! ## Readers of the tags -/

def tagPlugins : List (PluginManifest × Handlers (HeapHandler String String)) :=
  [beforePublishPlugin "keywords" (by decide) .writeContext defaultPriority addsTag,
    beforePublishPlugin "notes" (by decide) .readContext earlyPriority marksCopy]

def tagRegistry : PluginRegistry (HeapHandler String String) :=
  ⟨tagPlugins.map (pluginOf ""), by decide⟩

theorem tags_registered : registerAll "" tagPlugins empty = .ok tagRegistry := by
  refine registerAll_ok_iff.mpr ⟨tagRegistry.names_nodup, ?_, rfl⟩
  rw [tagPlugins, List.forall_mem_cons, List.forall_mem_singleton]
  exact ⟨matches_beforePublishPlugin .., matches_beforePublishPlugin ..⟩

/-- `notes` runs before `keywords`, changes a list of its own, and is not noticed. -/
theorem notes_have_no_effect :
    registerAll "" tagPlugins empty = .ok tagRegistry ∧
      (tagRegistry.heapReturned .beforePublish none taggedHeap 0).map (fun view => (view 2).entries) =
        .ok [("tags", .list [.atom "str" "lean", .atom "str" "ad"])] ∧
      ∀ plugin ∈ tagRegistry.plugins, .writeContext ∉ plugin.granted →
        tagRegistry.PassesOn .beforePublish none taggedHeap 0 plugin.name ∧
          tagRegistry.HasNoEffect .beforePublish none taggedHeap 0 plugin.name := by
  refine ⟨tags_registered, rfl, ?_⟩
  obtain ⟨hpasses, heffect⟩ := no_effect_iff "" tagPlugins tags_registered .beforePublish none
    (show taggedHeap[0]? = some (.dict taggedPayload) from rfl)
  have hkeeps : ∀ r ∈ tagPlugins, .writeContext ∉ r.1.capabilities →
      ∀ call ∈ tagRegistry.heapCalls .beforePublish none taggedHeap 0,
        call.plugin = r.1.name → call.KeepsPayload := by
    intro r hr hread call hcall hname
    rcases List.mem_pair.mp hr with rfl | rfl
    · exact absurd (List.mem_singleton.mpr rfl) hread
    rcases List.mem_pair.mp (show call ∈ [_, _] from hcall) with rfl | rfl
    · refine ⟨⟨_, rfl⟩, fun result hresult e he _ n => ?_, fun result patch hresult hpatch => ?_⟩
      · rw [List.mem_singleton.mp he]
        exact Heap.read_eq_of_untouched n _ fun r hr =>
          List.getElem?_append_left (Heap.lt_of_reaches rfl hr rfl)
      · cases hresult
        cases hpatch
    · exact absurd hname (by decide)
  have halike : ∀ plugin ∈ tagRegistry.plugins, .writeContext ∉ plugin.granted →
      tagRegistry.RespondWithout .beforePublish none taggedHeap 0 plugin.name := by
    intro plugin hplugin hread
    rcases List.mem_pair.mp hplugin with rfl | rfl
    · exact absurd ((writeContext_granted_iff "" _).mpr (List.mem_singleton.mpr rfl)) hread
    intro i call call' hcall hcall' _
    cases i with
    | succ i => cases hcall
    | zero =>
        cases hcall
        cases hcall'
        refine congrArg Except.ok (funext fun n => ?_)
        match n with
        | 0 => rfl
        | 1 => rfl
        | n + 2 => rfl
  exact fun plugin hplugin hgranted =>
    ⟨hpasses.mpr hkeeps plugin hplugin hgranted, (heffect halike).mpr hkeeps plugin hplugin hgranted⟩

/-- A plugin that may only read. -/
def reader (handler : HeapHandler String String) :
    PluginManifest × Handlers (HeapHandler String String) :=
  beforePublishPlugin "reader" (by decide) .readContext defaultPriority handler

def readerRegistry (handler : HeapHandler String String) :
    PluginRegistry (HeapHandler String String) :=
  ⟨[pluginOf "" (reader handler)], List.nodup_singleton _⟩

/-- By a patch, or in place without one, it changes the tags of a publication. -/
theorem reader_changes_tags :
    (∀ handler, registerAll "" [reader handler] empty = .ok (readerRegistry handler)) ∧
      (∀ handler, ∀ plugin ∈ (readerRegistry handler).plugins, .writeContext ∉ plugin.granted) ∧
      (∀ handler ∈ [addsTag, appendsTag.handler],
        ((readerRegistry handler).heapReturned .beforePublish none taggedHeap 0).map
            (fun view => (view 2).entries) =
          .ok [("tags", .list [.atom "str" "lean", .atom "str" "ad"])]) ∧
      ∀ handler,
        (((readerRegistry handler).unregister "reader").heapReturned .beforePublish none
            taggedHeap 0).map (fun view => (view 2).entries) =
          .ok [("tags", .list [.atom "str" "lean"])] := by
  refine ⟨fun handler => ?_, fun handler plugin hplugin => ?_, fun handler hhandler => ?_,
    fun handler => rfl⟩
  · refine registerAll_ok_iff.mpr ⟨List.nodup_singleton _, ?_, rfl⟩
    rw [List.forall_mem_singleton]
    exact matches_beforePublishPlugin ..
  · rw [List.mem_singleton.mp hplugin]
    have hgranted := writeContext_granted_iff "" (reader handler).1
    have heq : (pluginOf "" (reader handler)).granted = grant "" (reader handler).1 := rfl
    have hname : (reader handler).1.capabilities = [.readContext] := rfl
    rw [heq, hgranted, hname]
    decide
  · rcases List.mem_pair.mp hhandler with rfl | rfl
    · rfl
    · rfl

end PluginRegistry

end YoutubeFactory.Plugins
