import YoutubeFactory.Plugins.Dispatch

/-!
# Dispatch over shared objects

`PluginRegistry.dispatch` copies the payload for each plugin, but only its outermost
dictionary.  The lists and dictionaries inside it are objects of a heap that the
caller, the working copy and all plugins refer to, and a handler may change them in
place.  Readings follow references to any depth.

The copy that a handler is given belongs to it alone, and so does the working copy to
the dispatch.  They are dictionaries of references here, which the handler may put on
the heap.

A handler acts through its patch alone exactly when what it does to the heap can be
seen neither in the caller's payload, nor in a field that it does not replace, nor in
a patch that an earlier plugin returned (`acts_through_patches_iff`).
-/

namespace YoutubeFactory.Plugins

/-! ## The heap -/

/-- The place of an object. -/
abbrev Ref := Nat

inductive Val (A : Type) where
  | none
  /-- A value that cannot be changed in place, with the name of its type. -/
  | atom (typeName : String) (a : A)
  | ref (r : Ref)
deriving DecidableEq

inductive Object (κ A : Type) where
  | list (items : List (Val A))
  | dict (entries : OrderedMap κ (Val A))

abbrev Heap (κ A : Type) := List (Object κ A)

/-- A value with all that it refers to, down to some depth. -/
inductive Tree (κ A : Type) where
  | none
  | atom (typeName : String) (a : A)
  | list (items : List (Tree κ A))
  | dict (entries : List (κ × Tree κ A))
  /-- What lies deeper. -/
  | cut

section

variable {κ A : Type}

namespace Heap

def read (heap : Heap κ A) : Nat → Val A → Tree κ A
  | _, .none => .none
  | _, .atom typeName a => .atom typeName a
  | 0, .ref _ => .cut
  | n + 1, .ref r =>
      match heap[r]? with
      | some (.list items) => .list (items.map (read heap n))
      | some (.dict m) => .dict (m.entries.map fun e => (e.1, read heap n e.2))
      | none => .cut

/-- Reads each field of a dictionary. -/
def readAll (heap : Heap κ A) (n : Nat) (m : OrderedMap κ (Val A)) : OrderedMap κ (Tree κ A) :=
  m.map (heap.read n)

/-- `v` leads to the object. -/
inductive Reaches (heap : Heap κ A) : Val A → Ref → Prop where
  | here (r : Ref) : Reaches heap (.ref r) r
  | item {r s : Ref} {items : List (Val A)} {v : Val A} (hobject : heap[r]? = some (.list items))
      (hmem : v ∈ items) (hreaches : Reaches heap v s) : Reaches heap (.ref r) s
  | field {r s : Ref} {m : OrderedMap κ (Val A)} {e : κ × Val A}
      (hobject : heap[r]? = some (.dict m)) (hmem : e ∈ m.entries)
      (hreaches : Reaches heap e.2 s) : Reaches heap (.ref r) s

/-- A value reads as before where each object it leads to is as before. -/
theorem read_eq_of_untouched {heap heap' : Heap κ A} :
    ∀ (n : Nat) (v : Val A), (∀ r, heap.Reaches v r → heap'[r]? = heap[r]?) →
      heap'.read n v = heap.read n v
  | 0, .none, _ => rfl
  | 0, .atom _ _, _ => rfl
  | 0, .ref _, _ => rfl
  | n + 1, .none, _ => rfl
  | n + 1, .atom _ _, _ => rfl
  | n + 1, .ref r, h => by
      rw [read, read, h r (.here r)]
      cases hobject : heap[r]? with
      | none => rfl
      | some object =>
          cases object with
          | list items =>
              refine congrArg Tree.list (List.map_congr_left fun v hv => ?_)
              exact read_eq_of_untouched n v fun s hs => h s (.item hobject hv hs)
          | dict m =>
              refine congrArg Tree.dict (List.map_congr_left fun e he => ?_)
              rw [read_eq_of_untouched n e.2 fun s hs => h s (.field hobject he hs)]

end Heap

/-! ## The dispatch -/

/-- How a handler ends, with what it returns as a value. -/
inductive Ending (A : Type) where
  | returns (value : Val A)
  | raises (exc : Thrown)
  | timesOut

/-- A handler gives the heap as it leaves it, and how it ends. -/
abbrev HeapHandler (κ A : Type) := Heap κ A → HookContext κ (Val A) → Heap κ A × Ending A

/-- A plugin, with its handler of the hook. -/
structure HeapPlugin (κ A : Type) where
  name : String
  handler : HeapHandler κ A
  granted : List Capability

/-- What the dispatch sees of the ending: of a dictionary, its fields. -/
def Heap.behaviour (heap : Heap κ A) : Ending A → Behaviour κ (Val A)
  | .raises exc => .raises exc
  | .timesOut => .timesOut
  | .returns .none => .returns .none
  | .returns (.atom typeName _) => .returns (.other typeName)
  | .returns (.ref r) =>
      match heap[r]? with
      | some (.dict m) => .returns (.dict m)
      | some (.list _) => .returns (.other "list")
      | none => .returns (.other "object")

/-- One call of a handler. -/
structure Call (κ A : Type) where
  plugin : String
  before : Heap κ A
  current : OrderedMap κ (Val A)
  after : Heap κ A
  ending : Ending A

/-- The call of the plugin's handler with a copy of the working copy. -/
def HeapPlugin.call (plugin : HeapPlugin κ A) (hook : HookName) (organizationId : Option String)
    (heap : Heap κ A) (current : OrderedMap κ (Val A)) : Call κ A :=
  let (after, ending) := plugin.handler heap ⟨hook, current, organizationId, plugin.granted⟩
  ⟨plugin.name, heap, current, after, ending⟩

namespace Call

/-- `_invoke` -/
def result (call : Call κ A) : Except Escaped (HookResult κ (Val A)) :=
  HookResult.of call.plugin (call.after.behaviour call.ending)

/-- The dictionary that the result refers to. -/
def patch (call : Call κ A) : Option (Val A) :=
  match call.ending with
  | .returns (.ref r) =>
      match call.after[r]? with
      | some (.dict _) => some (.ref r)
      | _ => none
  | _ => none

end Call

variable [DecidableEq κ]

/-- The loop of `dispatch`, from a working copy. -/
def runHeapPlugins (hook : HookName) (organizationId : Option String) :
    List (HeapPlugin κ A) → Heap κ A → OrderedMap κ (Val A) → List (HookResult κ (Val A)) →
      Heap κ A × Except Escaped (OrderedMap κ (Val A) × List (HookResult κ (Val A)))
  | [], heap, current, results => (heap, .ok (current, results))
  | plugin :: plugins, heap, current, results =>
      let call := plugin.call hook organizationId heap current
      match call.result with
      | .error e => (call.after, .error e)
      | .ok result =>
          runHeapPlugins hook organizationId plugins call.after (result.applyTo current)
            (results ++ [result])

/-- `dispatch` of the payload at a place of the heap. -/
def heapDispatch (plugins : List (HeapPlugin κ A)) (hook : HookName)
    (organizationId : Option String) (heap : Heap κ A) (caller : Ref) :
    Heap κ A × Except Escaped (OrderedMap κ (Val A) × List (HookResult κ (Val A))) :=
  match heap[caller]? with
  | some (.dict payload) => runHeapPlugins hook organizationId plugins heap payload []
  | _ => (heap, .error "TypeError")

/-- The calls of the loop. -/
def callsFrom (hook : HookName) (organizationId : Option String) :
    List (HeapPlugin κ A) → Heap κ A → OrderedMap κ (Val A) → List (Call κ A)
  | [], _, _ => []
  | plugin :: plugins, heap, current =>
      let call := plugin.call hook organizationId heap current
      call :: match call.result with
        | .error _ => []
        | .ok result =>
            callsFrom hook organizationId plugins call.after (result.applyTo current)

/-! ## Acting through patches -/

/-- The result with its patch read in another way. -/
def HookResult.map {V W : Type} (f : V → W) (result : HookResult κ V) : HookResult κ W :=
  ⟨result.plugin, result.ok, result.patch.map (OrderedMap.map f), result.error, result.timedOut⟩

theorem HookResult.applyTo_map {V W : Type} (f : V → W) (result : HookResult κ V)
    (m : OrderedMap κ V) : (result.map f).applyTo (m.map f) = (result.applyTo m).map f := by
  unfold HookResult.applyTo HookResult.map
  cases result.patch with
  | none => rfl
  | some patch => exact (OrderedMap.map_update f m patch).symm

namespace Call

/-- What the call came to, with the patch as it was returned. -/
def outcome (n : Nat) (call : Call κ A) : Option (HookResult κ (Tree κ A)) :=
  match call.result with
  | .ok result => some (result.map (call.after.read n))
  | .error _ => none

/-- What the call does to the heap is seen neither in the caller's payload, nor in a field
of the working copy that its patch does not replace, nor in an earlier patch. -/
structure LeavesAlone (caller : Ref) (earlier : List (Call κ A)) (call : Call κ A) : Prop where
  caller : ∀ n, call.after.read n (.ref caller) = call.before.read n (.ref caller)
  fields : ∀ result, call.result = .ok result → ∀ e ∈ call.current.entries,
    (∀ patch, result.patch = some patch → e.1 ∉ patch.keys) →
      ∀ n, call.after.read n e.2 = call.before.read n e.2
  patches : ∀ d ∈ earlier, ∀ v, d.patch = some v → ∀ n, call.after.read n v = call.before.read n v

omit [DecidableEq κ] in
/-- A call that changes no object these lead to. -/
theorem leavesAlone_of_untouched {caller : Ref} {earlier : List (Call κ A)} {call : Call κ A}
    (h : ∀ r, (call.before.Reaches (.ref caller) r ∨
        (∃ e ∈ call.current.entries, call.before.Reaches e.2 r) ∨
        ∃ d ∈ earlier, ∃ v, d.patch = some v ∧ call.before.Reaches v r) →
      call.after[r]? = call.before[r]?) : call.LeavesAlone caller earlier where
  caller n := Heap.read_eq_of_untouched n _ fun r hr => h r (.inl hr)
  fields _ _ e he _ n := Heap.read_eq_of_untouched n _ fun r hr => h r (.inr (.inl ⟨e, he, hr⟩))
  patches d hd v hv n :=
    Heap.read_eq_of_untouched n _ fun r hr => h r (.inr (.inr ⟨d, hd, v, hv, hr⟩))

end Call

/-- The payload with the patches of some calls, as they were returned. -/
def told (payload : OrderedMap κ (Tree κ A)) (n : Nat) (calls : List (Call κ A)) :
    OrderedMap κ (Tree κ A) :=
  patched payload (calls.filterMap (Call.outcome n))

/-- At every depth and at every call, what the plugins are given, what is returned and
reported, and what the caller holds are as the patches alone have it. -/
structure ActThroughPatches (plugins : List (HeapPlugin κ A)) (hook : HookName)
    (organizationId : Option String) (heap : Heap κ A) (caller : Ref)
    (payload : OrderedMap κ (Val A)) : Prop where
  received : ∀ (i : Nat) (call : Call κ A),
    (callsFrom hook organizationId plugins heap payload)[i]? = some call →
      ∀ n, call.before.readAll n call.current = told (heap.readAll n payload) n
      ((callsFrom hook organizationId plugins heap payload).take i)
  returned : ∀ heap' current results,
    heapDispatch plugins hook organizationId heap caller = (heap', .ok (current, results)) →
      ∀ n, heap'.readAll n current = told (heap.readAll n payload) n
        (callsFrom hook organizationId plugins heap payload)
  reported : ∀ (i : Nat) (call : Call κ A),
    (callsFrom hook organizationId plugins heap payload)[i]? = some call →
      ∀ d ∈ (callsFrom hook organizationId plugins heap payload).take i, ∀ v, d.patch = some v →
      ∀ n, call.after.read n v = d.after.read n v
  held : ∀ (i : Nat) (call : Call κ A),
    (callsFrom hook organizationId plugins heap payload)[i]? = some call →
      ∀ n, call.after.read n (.ref caller) = heap.read n (.ref caller)

/-! ## One call after the other -/

/-- A property of each call of a list with the calls before it. -/
theorem forall_prefix_cons {α : Type} {P : List α → α → Prop} {a : α} {l : List α} :
    (∀ i b, (a :: l)[i]? = some b → P ((a :: l).take i) b) ↔
      P [] a ∧ ∀ i b, l[i]? = some b → P (a :: l.take i) b := by
  constructor
  · exact fun h => ⟨h 0 a rfl, fun i b hb => h (i + 1) b hb⟩
  · rintro ⟨hhead, htail⟩ i b hb
    cases i with
    | zero =>
        cases hb
        exact hhead
    | succ i => exact htail i b hb

variable {heap₀ : Heap κ A} {caller : Ref} {payload : OrderedMap κ (Val A)}

/-- The heap and the working copy after some calls that acted through their patches. -/
structure Undisturbed (heap₀ : Heap κ A) (caller : Ref) (payload : OrderedMap κ (Val A))
    (earlier : List (Call κ A)) (heap : Heap κ A) (current : OrderedMap κ (Val A)) : Prop where
  current : ∀ n, heap.readAll n current = told (heap₀.readAll n payload) n earlier
  patches : ∀ d ∈ earlier, ∀ v, d.patch = some v → ∀ n, heap.read n v = d.after.read n v
  caller : ∀ n, heap.read n (.ref caller) = heap₀.read n (.ref caller)

/-- What is required of a call after some others. -/
structure Undisturbing (heap₀ : Heap κ A) (caller : Ref) (payload : OrderedMap κ (Val A))
    (earlier : List (Call κ A)) (call : Call κ A) : Prop where
  received : ∀ n, call.before.readAll n call.current = told (heap₀.readAll n payload) n earlier
  reported : ∀ d ∈ earlier, ∀ v, d.patch = some v → ∀ n, call.after.read n v = d.after.read n v
  held : ∀ n, call.after.read n (.ref caller) = heap₀.read n (.ref caller)

theorem told_append (payload : OrderedMap κ (Tree κ A)) (n : Nat) (earlier : List (Call κ A))
    {call : Call κ A} {result : HookResult κ (Val A)} (hresult : call.result = .ok result) :
    told payload n (earlier ++ [call]) =
      (result.map (call.after.read n)).applyTo (told payload n earlier) := by
  have houtcome : call.outcome n = some (result.map (call.after.read n)) := by
    unfold Call.outcome
    rw [hresult]
  unfold told
  rw [List.filterMap_append, List.filterMap_cons, houtcome]
  unfold patched
  rw [List.filterMap_append, List.foldl_append]
  unfold HookResult.applyTo
  rw [List.filterMap_cons]
  cases (result.map (call.after.read n)).patch with
  | none => rfl
  | some patch => rfl

/-- The fields of a working copy after a call are as the patch has it exactly when the call
leaves alone those that it does not replace. -/
theorem applied_iff {call : Call κ A} {result : HookResult κ (Val A)} {n : Nat} :
    call.after.readAll n (result.applyTo call.current) =
        (result.map (call.after.read n)).applyTo (call.before.readAll n call.current) ↔
      ∀ e ∈ call.current.entries, (∀ patch, result.patch = some patch → e.1 ∉ patch.keys) →
        call.after.read n e.2 = call.before.read n e.2 := by
  unfold Heap.readAll
  rw [← HookResult.applyTo_map]
  unfold HookResult.applyTo HookResult.map
  cases result.patch with
  | none =>
      refine OrderedMap.map_eq_map_iff.trans (forall₂_congr fun e _ => ?_)
      exact ⟨fun h _ => h, fun h => h nofun⟩
  | some patch =>
      refine OrderedMap.update_map_eq_iff.trans (forall₂_congr fun e _ => ?_)
      rw [OrderedMap.keys_map]
      constructor
      · exact fun h hkeys => h (hkeys patch rfl)
      · rintro h hkey
        refine h fun patch' hpatch => ?_
        cases hpatch
        exact hkey

/-- After an undisturbed past, a call that leaves alone what it should is undisturbing. -/
theorem undisturbing_of_leavesAlone {earlier : List (Call κ A)} {call : Call κ A}
    (h : Undisturbed heap₀ caller payload earlier call.before call.current)
    (hcall : call.LeavesAlone caller earlier) : Undisturbing heap₀ caller payload earlier call where
  received := h.current
  reported d hd v hv n := (hcall.patches d hd v hv n).trans (h.patches d hd v hv n)
  held n := (hcall.caller n).trans (h.caller n)

theorem leavesAlone_of_undisturbing {earlier : List (Call κ A)} {call : Call κ A}
    (h : Undisturbed heap₀ caller payload earlier call.before call.current)
    (hcall : Undisturbing heap₀ caller payload earlier call)
    (hfields : ∀ result, call.result = .ok result → ∀ n,
      call.after.readAll n (result.applyTo call.current) =
        (result.map (call.after.read n)).applyTo (call.before.readAll n call.current)) :
    call.LeavesAlone caller earlier where
  caller n := (hcall.held n).trans (h.caller n).symm
  fields result hresult e he hkeys n := applied_iff.mp (hfields result hresult n) e he hkeys
  patches d hd v hv n := (hcall.reported d hd v hv n).trans (h.patches d hd v hv n).symm

/-- The state after a call, where its patch has all there is to see in the working copy. -/
theorem undisturbed_after {earlier : List (Call κ A)} {call : Call κ A}
    (h : Undisturbed heap₀ caller payload earlier call.before call.current)
    (hcall : Undisturbing heap₀ caller payload earlier call) {result : HookResult κ (Val A)}
    (hresult : call.result = .ok result)
    (hfields : ∀ n, call.after.readAll n (result.applyTo call.current) =
      (result.map (call.after.read n)).applyTo (call.before.readAll n call.current)) :
    Undisturbed heap₀ caller payload (earlier ++ [call]) call.after
      (result.applyTo call.current) where
  current n := by rw [hfields n, told_append _ n earlier hresult, h.current n]
  patches d hd v hv n := by
    rcases List.mem_append.mp hd with hd | hd
    · exact hcall.reported d hd v hv n
    · rw [List.mem_singleton.mp hd]
  caller := hcall.held

/-- Where all that follows is as the patches have it, so is the working copy now. -/
theorem current_of_run (hook : HookName) (organizationId : Option String)
    (plugins : List (HeapPlugin κ A)) (before : List (HookResult κ (Val A)))
    {earlier : List (Call κ A)} {heap : Heap κ A} {current : OrderedMap κ (Val A)}
    (hcalls : ∀ i call, (callsFrom hook organizationId plugins heap current)[i]? = some call →
      Undisturbing heap₀ caller payload
        (earlier ++ (callsFrom hook organizationId plugins heap current).take i) call)
    (hreturned : ∀ heap' current' results,
      runHeapPlugins hook organizationId plugins heap current before =
          (heap', .ok (current', results)) →
        ∀ n, heap'.readAll n current' = told (heap₀.readAll n payload) n
          (earlier ++ callsFrom hook organizationId plugins heap current)) (n : Nat) :
    heap.readAll n current = told (heap₀.readAll n payload) n earlier := by
  cases plugins with
  | nil =>
      have h := hreturned heap current before rfl n
      rwa [callsFrom, List.append_nil] at h
  | cons plugin plugins =>
      have h := (hcalls 0 _ rfl).received n
      rwa [List.take_zero, List.append_nil] at h

variable {hook : HookName} {organizationId : Option String}

/-- The rest of a dispatch, after an undisturbed part. -/
theorem run_iff : ∀ {plugins : List (HeapPlugin κ A)} {earlier : List (Call κ A)} {heap : Heap κ A}
    {current : OrderedMap κ (Val A)} {before : List (HookResult κ (Val A))},
    Undisturbed heap₀ caller payload earlier heap current →
    (((∀ i call, (callsFrom hook organizationId plugins heap current)[i]? = some call →
        Undisturbing heap₀ caller payload
          (earlier ++ (callsFrom hook organizationId plugins heap current).take i) call) ∧
      ∀ heap' current' results, runHeapPlugins hook organizationId plugins heap current before =
          (heap', .ok (current', results)) →
        ∀ n, heap'.readAll n current' = told (heap₀.readAll n payload) n
          (earlier ++ callsFrom hook organizationId plugins heap current)) ↔
    ∀ (i : Nat) (call : Call κ A),
      (callsFrom hook organizationId plugins heap current)[i]? = some call →
        call.LeavesAlone caller
          (earlier ++ (callsFrom hook organizationId plugins heap current).take i))
  | [], earlier, heap, current, before, h => by
      rw [callsFrom, List.append_nil]
      constructor
      · intro _ i call hcall
        cases hcall
      · refine fun _ => ⟨fun i call hcall => ?_, fun heap' current' results hrun n => ?_⟩
        · cases hcall
        · cases hrun
          exact h.current n
  | plugin :: plugins, earlier, heap, current, before, h => by
      rw [callsFrom, runHeapPlugins]
      have hbefore : (plugin.call hook organizationId heap current).before = heap := rfl
      have hcurrent : (plugin.call hook organizationId heap current).current = current := rfl
      revert hbefore hcurrent
      generalize plugin.call hook organizationId heap current = call
      intro hbefore hcurrent
      subst hbefore
      subst hcurrent
      rw [forall_prefix_cons
          (P := fun pre b => Undisturbing heap₀ caller payload (earlier ++ pre) b),
        forall_prefix_cons (P := fun pre (b : Call κ A) => b.LeavesAlone caller (earlier ++ pre)),
        List.append_nil]
      cases hresult : call.result with
      | error e =>
          dsimp only
          constructor
          · rintro ⟨⟨hcall, -⟩, -⟩
            refine ⟨leavesAlone_of_undisturbing h hcall fun result hok => ?_, fun i b hb => ?_⟩
            · rw [hresult] at hok
              cases hok
            · cases hb
          · rintro ⟨hcall, -⟩
            refine ⟨⟨undisturbing_of_leavesAlone h hcall, fun i b hb => ?_⟩,
              fun heap' current' results hrun => ?_⟩
            · cases hb
            · cases hrun
      | ok result =>
          dsimp only
          constructor
          · rintro ⟨⟨hcall, hrest⟩, hreturned⟩
            have hfields : ∀ n, call.after.readAll n (result.applyTo call.current) =
                (result.map (call.after.read n)).applyTo (call.before.readAll n call.current) := by
              intro n
              rw [h.current n, ← told_append _ n earlier hresult]
              refine @current_of_run κ A _ heap₀ caller payload hook organizationId plugins
                (before ++ [result]) _ _ _ ?_ ?_ n
              · simpa only [List.append_assoc, List.singleton_append] using hrest
              · simpa only [List.append_assoc, List.singleton_append] using hreturned
            have ih := @run_iff plugins _ _ _ (before ++ [result])
              (undisturbed_after h hcall hresult hfields)
            simp only [List.append_assoc, List.singleton_append] at ih
            refine ⟨leavesAlone_of_undisturbing h hcall fun result' hok => ?_,
              ih.mp ⟨hrest, hreturned⟩⟩
            rw [hresult] at hok
            cases hok
            exact hfields
          · rintro ⟨hcall, hrest⟩
            have hdone := undisturbing_of_leavesAlone h hcall
            have ih := @run_iff plugins _ _ _ (before ++ [result])
              (undisturbed_after h hdone hresult fun n =>
                applied_iff.mpr fun e he hkeys => hcall.fields result hresult e he hkeys n)
            simp only [List.append_assoc, List.singleton_append] at ih
            obtain ⟨hrest', hreturned⟩ := ih.mpr hrest
            exact ⟨⟨hdone, hrest'⟩, hreturned⟩

/-- The plugins of a hook act through their patches alone exactly when what each handler does
to the heap, in whichever way it ends, can be seen neither in the payload of the caller, nor
in a field that its patch does not replace, nor in the patch of an earlier plugin. -/
theorem acts_through_patches_iff (plugins : List (HeapPlugin κ A)) (hook : HookName)
    (organizationId : Option String) {heap : Heap κ A} {caller : Ref}
    {payload : OrderedMap κ (Val A)} (hcaller : heap[caller]? = some (.dict payload)) :
    ActThroughPatches plugins hook organizationId heap caller payload ↔
      ∀ (i : Nat) (call : Call κ A),
        (callsFrom hook organizationId plugins heap payload)[i]? = some call →
          call.LeavesAlone caller
            ((callsFrom hook organizationId plugins heap payload).take i) := by
  have hstart : Undisturbed heap caller payload [] heap payload :=
    ⟨fun _ => rfl, nofun, fun _ => rfl⟩
  have hdispatch : heapDispatch plugins hook organizationId heap caller =
      runHeapPlugins hook organizationId plugins heap payload [] := by
    unfold heapDispatch
    rw [hcaller]
  have hrun :=
    @run_iff κ A _ heap caller payload hook organizationId plugins [] heap payload [] hstart
  simp only [List.nil_append] at hrun
  rw [← hrun]
  constructor
  · rintro ⟨hreceived, hreturned, hreported, hheld⟩
    rw [hdispatch] at hreturned
    exact ⟨fun i call hcall => ⟨hreceived i call hcall, hreported i call hcall, hheld i call hcall⟩,
      hreturned⟩
  · rintro ⟨hcalls, hreturned⟩
    rw [← hdispatch] at hreturned
    exact ⟨fun i call hcall => (hcalls i call hcall).received, hreturned,
      fun i call hcall => (hcalls i call hcall).reported,
      fun i call hcall => (hcalls i call hcall).held⟩

end

/-! ## Heaps without dangling references -/

section

variable {κ A : Type}

/-- Any reference is to one of the first objects. -/
def Val.inside (size : Nat) : Val A → Bool
  | .ref r => r < size
  | _ => true

def Object.values : Object κ A → List (Val A)
  | .list items => items
  | .dict m => m.entries.map Prod.snd

def Heap.closed (heap : Heap κ A) : Bool :=
  heap.all fun object => object.values.all (·.inside heap.length)

/-- What a value of a closed heap leads to is there. -/
theorem Heap.lt_of_reaches {heap : Heap κ A} (hclosed : heap.closed = true) {v : Val A} {r : Ref}
    (h : heap.Reaches v r) : v.inside heap.length = true → r < heap.length := by
  have hinside : ∀ {s : Ref} {object : Object κ A} {w : Val A}, heap[s]? = some object →
      w ∈ object.values → w.inside heap.length = true := by
    intro s object w hobject hw
    have hall := List.all_eq_true.mp hclosed object (List.mem_of_getElem? hobject)
    exact List.all_eq_true.mp hall w hw
  induction h with
  | here r => exact of_decide_eq_true
  | item hobject hmem _ ih => exact fun _ => ih (hinside hobject hmem)
  | field hobject hmem _ ih => exact fun _ => ih (hinside hobject (List.mem_map_of_mem hmem))

/-- A handler that only puts objects of its own after the others leaves alone what it should. -/
theorem Call.leavesAlone_of_append [DecidableEq κ] {caller : Ref} {earlier : List (Call κ A)}
    {call : Call κ A} {objects : List (Object κ A)} (hafter : call.after = call.before ++ objects)
    (hclosed : call.before.closed = true) (hcaller : caller < call.before.length)
    (hcurrent : ∀ e ∈ call.current.entries, e.2.inside call.before.length = true)
    (hearlier : ∀ d ∈ earlier, ∀ v, d.patch = some v → v.inside call.before.length = true) :
    call.LeavesAlone caller earlier := by
  refine leavesAlone_of_untouched fun r hr => ?_
  have hlt : r < call.before.length := by
    rcases hr with hr | ⟨e, he, hr⟩ | ⟨d, hd, v, hv, hr⟩
    · exact Heap.lt_of_reaches hclosed hr (decide_eq_true hcaller)
    · exact Heap.lt_of_reaches hclosed hr (hcurrent e he)
    · exact Heap.lt_of_reaches hclosed hr (hearlier d hd v hv)
  rw [hafter]
  exact List.getElem?_append_left hlt

end

/-! ## Plugins that edit the tags -/

/-- A payload whose tags are a list of their own. -/
def taggedPayload : OrderedMap String (Val String) := ⟨[("tags", .ref 1)], List.nodup_singleton _⟩

def taggedHeap : Heap String String := [.dict taggedPayload, .list [.atom "str" "lean"]]

/-- `context.payload["tags"].append("ad")`, without a patch. -/
def appendsTag : HeapPlugin String String where
  name := "tagger"
  handler heap _ := (heap.set 1 (.list [.atom "str" "lean", .atom "str" "ad"]), .returns .none)
  granted := []

/-- The caller's payload has the tag, and so has what is returned. -/
theorem append_is_seen :
    taggedHeap[0]? = some (.dict taggedPayload) ∧
      (∀ call ∈ callsFrom .beforePublish none [appendsTag] taggedHeap taggedPayload,
        call.patch = none) ∧
      (heapDispatch [appendsTag] .beforePublish none taggedHeap 0).2.map Prod.fst =
        .ok taggedPayload ∧
      (heapDispatch [appendsTag] .beforePublish none taggedHeap 0).1.read 2 (.ref 0) =
        .dict [("tags", .list [.atom "str" "lean", .atom "str" "ad"])] ∧
      taggedHeap.read 2 (.ref 0) = .dict [("tags", .list [.atom "str" "lean"])] ∧
      ¬ ActThroughPatches [appendsTag] .beforePublish none taggedHeap 0 taggedPayload := by
  refine ⟨rfl, fun call hcall => ?_, rfl, rfl, rfl, fun h => ?_⟩
  · rw [List.mem_singleton.mp hcall]
    rfl
  · have hheld := h.held 0 _ rfl 2
    injection hheld with hentries
    injection hentries with hentry
    injection hentry with _ hlist
    injection hlist with hitems
    injection hitems with _ hrest
    cases hrest

/-- A handler that looks at the tags, and puts new objects after the others. -/
def withTags (respond : Nat → List (Val String) → List (Object String String) × Ending String) :
    HeapHandler String String := fun heap context =>
  match context.payload.get? "tags" with
  | some (.ref r) =>
      match heap[r]? with
      | some (.list items) =>
          let (objects, ending) := respond heap.length items
          (heap ++ objects, ending)
      | _ => (heap, .returns .none)
  | _ => (heap, .returns .none)

/-- Appends to a list of its own, a copy of the tags. -/
def marksCopy : HeapHandler String String := withTags fun _ items =>
  ([.list (items ++ [.atom "str" "seen"])], .returns .none)

/-- Sets the tags to a longer list. -/
def addsTag : HeapHandler String String := withTags fun size items =>
  ([.list (items ++ [.atom "str" "ad"]), .dict ⟨[("tags", .ref size)], List.nodup_singleton _⟩],
    .returns (.ref (size + 1)))

/-- Sets the tags of its own copy of the payload to such a list. -/
def editsCopy : HeapHandler String String := fun heap context =>
  (heap ++ [.list [.atom "str" "seen"], .dict (context.payload.set "tags" (.ref heap.length))],
    .returns .none)

/-- A plugin adds a tag, one edits its own copy, and one adds a tag to the tags that it is
given. -/
def threeEditors : List (HeapPlugin String String) :=
  [⟨"tagger", addsTag, []⟩, ⟨"copier", editsCopy, []⟩, ⟨"again", addsTag, []⟩]

theorem editors_act_through_patches :
    ActThroughPatches threeEditors .beforePublish none taggedHeap 0 taggedPayload ∧
      ((callsFrom .beforePublish none threeEditors taggedHeap taggedPayload).map fun call =>
        (call.plugin, call.before.read 2 ((call.current.get? "tags").getD .none))) =
          [("tagger", .list [.atom "str" "lean"]),
            ("copier", .list [.atom "str" "lean", .atom "str" "ad"]),
            ("again", .list [.atom "str" "lean", .atom "str" "ad"])] := by
  refine ⟨(acts_through_patches_iff threeEditors .beforePublish none rfl).mpr
    fun i call hcall => ?_, rfl⟩
  match i with
  | 0 =>
      cases hcall
      exact Call.leavesAlone_of_append rfl rfl (by decide) (by decide) nofun
  | 1 =>
      cases hcall
      refine Call.leavesAlone_of_append rfl rfl (by decide) (by decide) fun d hd v hv => ?_
      rw [List.mem_singleton.mp hd] at hv
      cases hv
      rfl
  | 2 =>
      cases hcall
      refine Call.leavesAlone_of_append rfl rfl (by decide) (by decide) fun d hd v hv => ?_
      rcases List.mem_pair.mp hd with rfl | rfl
      · cases hv
        rfl
      · cases hv
  | i + 3 => cases hcall

end YoutubeFactory.Plugins
