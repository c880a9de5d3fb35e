import YoutubeFactory.Lib.Except
import YoutubeFactory.Lib.OrderedMap
import YoutubeFactory.Python.Object
import Mathlib.Data.List.Sort

/-!
# Plugins and their dispatch

The manifests of `app/core/plugins/manifest.py` and `PluginRegistry` of
`app/core/plugins/registry.py`.

A handler is a function of its context: what it returns or raises, or that it is
still running when its time is up.  An exception that is not an `Exception`, such as
`CancelledError` or `SystemExit`, passes the `except` clauses of a dispatch, and so
does what `str(exc)` raises while an exception is recorded.
-/

namespace YoutubeFactory.Plugins

open Python

/-! ## Manifests -/

inductive Capability where
  | readContext | writeContext | storage | llm | network
deriving DecidableEq, Repr

/-- Capabilities that reach outside the process. -/
def PRIVILEGED_CAPABILITIES : List Capability := [.network, .llm]

inductive HookName where
  | videoCreated | scriptGenerated | beforeRender | afterRender | beforePublish | afterPublish
  | analyticsCollected
deriving DecidableEq, Repr

def HookName.value : HookName → String
  | videoCreated => "video.created"
  | scriptGenerated => "script.generated"
  | beforeRender => "render.before"
  | afterRender => "render.after"
  | beforePublish => "publish.before"
  | afterPublish => "publish.after"
  | analyticsCollected => "analytics.collected"

def HookName.all : List HookName :=
  [videoCreated, scriptGenerated, beforeRender, afterRender, beforePublish, afterPublish,
    analyticsCollected]

def isLower (c : Char) : Bool := 'a' ≤ c && c ≤ 'z'

/-- `_NAME_RE`.  Its `$` also matches in front of a final newline. -/
def nameMatches (name : String) : Bool :=
  let chars := name.toList
  match if chars.getLast? = some '\n' then chars.dropLast else chars with
  | [] => false
  | first :: rest =>
      isLower first && 1 ≤ rest.length && rest.length ≤ 63 &&
        rest.all fun c => isLower c || c.isDigit || c == '_' || c == '-'

/-- A manifest, as its validators let it through. -/
structure PluginManifest where
  name : String
  hooks : List HookName
  capabilities : List Capability
  priority : Nat
  name_matches : nameMatches name = true
  hooks_ne_nil : hooks ≠ []
  hooks_nodup : hooks.Nodup
  capabilities_nodup : capabilities.Nodup
  priority_le : priority ≤ 1000

/-! ## Handlers -/

/-- What a handler is given. -/
structure HookContext (κ V : Type) where
  hook : HookName
  payload : OrderedMap κ V
  organizationId : Option String
  granted : List Capability

/-- An exception of a handler. -/
structure Thrown where
  typeName : String
  /-- `isinstance(exc, Exception)` -/
  isException : Bool
  /-- `isinstance(exc, TimeoutError)` -/
  isTimeout : Bool
  /-- `str(exc)`, or the type of what that raises. -/
  text : Except String String

/-- What a handler returns. -/
inductive Returned (κ V : Type) where
  | dict (patch : OrderedMap κ V)
  | none
  | other (typeName : String)

inductive Behaviour (κ V : Type) where
  | returns (value : Returned κ V)
  | raises (exc : Thrown)
  | timesOut

abbrev HookHandler (κ V : Type) := HookContext κ V → Behaviour κ V

/-- A dictionary of handlers, whatever a handler is. -/
abbrev Handlers (H : Type) := HookName → Option H

structure RegisteredPlugin (H : Type) where
  manifest : PluginManifest
  handlers : Handlers H
  granted : List Capability

/-- What one plugin did with one hook. -/
structure HookResult (κ V : Type) where
  plugin : String
  ok : Bool
  patch : Option (OrderedMap κ V)
  error : Option String
  timedOut : Bool

section

variable {H κ V : Type}

def RegisteredPlugin.name (plugin : RegisteredPlugin H) : String := plugin.manifest.name

/-- `_plugins`, in the order of registration. -/
structure PluginRegistry (H : Type) where
  plugins : List (RegisteredPlugin H)
  names_nodup : (plugins.map RegisteredPlugin.name).Nodup

namespace PluginRegistry

def empty : PluginRegistry H := ⟨[], List.nodup_nil⟩

/-! ## Registration -/

/-- A message, and the name in its details. -/
structure ValidationError where
  message : String
  name : Option String

/-- The names in `PLUGIN_PRIVILEGED_ALLOWLIST`. -/
def allowlisted (setting : String) : List String :=
  ((setting.splitOn ",").map strip).filter (· ≠ "")

/-- `_grant` -/
def grant (setting : String) (manifest : PluginManifest) : List Capability :=
  let granted := manifest.capabilities.filter (· ∉ PRIVILEGED_CAPABILITIES)
  if manifest.name ∈ allowlisted setting then
    granted ++ manifest.capabilities.filter (· ∈ PRIVILEGED_CAPABILITIES)
  else granted

def sortedValues (hooks : List HookName) : List String :=
  (hooks.map HookName.value).insertionSort fun s t => strLe s t

/-- `register`, under a setting of the allow-list. -/
def register (registry : PluginRegistry H) (setting : String) (manifest : PluginManifest)
    (handlers : Handlers H) : Except ValidationError (PluginRegistry H) :=
  if htaken : manifest.name ∈ registry.plugins.map RegisteredPlugin.name then
    let name := manifest.name
    .error ⟨s!"A plugin named '{name}' is already registered.", some name⟩
  else
    let name := manifest.name
    match sortedValues (manifest.hooks.filter fun h => (handlers h).isNone) with
    | hook :: hooks =>
        let missing := ", ".intercalate (hook :: hooks)
        .error ⟨s!"Plugin '{name}' declares hooks with no handler: {missing}", none⟩
    | [] =>
        match sortedValues (HookName.all.filter fun h =>
            (handlers h).isSome && h ∉ manifest.hooks) with
        | hook :: hooks =>
            let undeclared := ", ".intercalate (hook :: hooks)
            .error
              ⟨s!"Plugin '{name}' supplies handlers for undeclared hooks: {undeclared}", none⟩
        | [] =>
            .ok {
              plugins := registry.plugins ++ [⟨manifest, handlers, grant setting manifest⟩]
              names_nodup := by
                rw [List.map_append]
                refine List.nodup_append.mpr ⟨registry.names_nodup, List.nodup_singleton _, ?_⟩
                rintro n hn _ hm rfl
                have hname : n = manifest.name := List.mem_singleton.mp hm
                exact htaken (hname ▸ hn) }

/-- `unregister` -/
def unregister (registry : PluginRegistry H) (name : String) : PluginRegistry H where
  plugins := registry.plugins.filter fun p => p.name ≠ name
  names_nodup := (List.filter_sublist.map _).nodup registry.names_nodup

/-! ## Dispatch -/

/-- `(p.manifest.priority, p.manifest.name)` does not come after that of the other. -/
def RunsBefore (p q : RegisteredPlugin H) : Prop :=
  p.manifest.priority < q.manifest.priority ∨
    (p.manifest.priority = q.manifest.priority ∧ strLe p.name q.name = true)

instance : DecidableRel (@RunsBefore H) := fun _ _ =>
  inferInstanceAs (Decidable (_ ∨ _ ∧ _))

/-- `all` -/
def all (registry : PluginRegistry H) : List (RegisteredPlugin H) :=
  registry.plugins.insertionSort RunsBefore

/-- `for_hook` -/
def forHook (registry : PluginRegistry H) (hook : HookName) : List (RegisteredPlugin H) :=
  registry.all.filter fun p => (p.handlers hook).isSome

end PluginRegistry

/-- The type of an exception that leaves a dispatch. -/
abbrev Escaped := String

/-- What `_invoke` makes of a handler. -/
def HookResult.of (plugin : String) : Behaviour κ V → Except Escaped (HookResult κ V)
  | .timesOut => .ok ⟨plugin, false, none, some "timed out", true⟩
  | .raises exc =>
      if exc.isTimeout then .ok ⟨plugin, false, none, some "timed out", true⟩
      else if exc.isException then
        match exc.text with
        | .error typeName => .error typeName
        | .ok text =>
            let typeName := exc.typeName
            .ok ⟨plugin, false, none, some s!"{typeName}: {text}", false⟩
      else .error exc.typeName
  | .returns (.dict patch) => .ok ⟨plugin, true, some patch, none, false⟩
  | .returns .none => .ok ⟨plugin, true, none, none, false⟩
  | .returns (.other typeName) =>
      .ok ⟨plugin, false, none, some s!"handler returned {typeName}, expected dict or None", false⟩

/-- `_invoke` -/
def RegisteredPlugin.invoke (plugin : RegisteredPlugin (HookHandler κ V)) (hook : HookName)
    (payload : OrderedMap κ V) (organizationId : Option String) :
    Except Escaped (HookResult κ V) :=
  match plugin.handlers hook with
  | none => .error "KeyError"
  | some handler =>
      HookResult.of plugin.name (handler ⟨hook, payload, organizationId, plugin.granted⟩)

variable [DecidableEq κ]

/-- `if result.patch: current.update(result.patch)`.  An empty patch changes nothing. -/
def HookResult.applyTo (result : HookResult κ V) (current : OrderedMap κ V) : OrderedMap κ V :=
  match result.patch with
  | none => current
  | some patch => current.update patch

namespace PluginRegistry

/-- The loop of `dispatch`. -/
def runPlugins (hook : HookName) (organizationId : Option String) :
    List (RegisteredPlugin (HookHandler κ V)) → OrderedMap κ V → List (HookResult κ V) →
      Except Escaped (OrderedMap κ V × List (HookResult κ V))
  | [], current, results => .ok (current, results)
  | plugin :: plugins, current, results => do
      let result ← plugin.invoke hook current organizationId
      runPlugins hook organizationId plugins (result.applyTo current) (results ++ [result])

/-- `dispatch` -/
def dispatch (registry : PluginRegistry (HookHandler κ V)) (hook : HookName) (payload : OrderedMap κ V)
    (organizationId : Option String) :
    Except Escaped (OrderedMap κ V × List (HookResult κ V)) :=
  match registry.forHook hook with
  | [] => .ok (payload, [])
  | plugins => runPlugins hook organizationId plugins payload []

end PluginRegistry

end

end YoutubeFactory.Plugins
