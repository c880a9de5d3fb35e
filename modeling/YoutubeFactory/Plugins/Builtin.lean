import YoutubeFactory.Lib.Shortening
import YoutubeFactory.LlmCore.Structured
import YoutubeFactory.Plugins.Dispatch
import Mathlib.Data.List.DropRight

/-!
# The description guard

`DESCRIPTION_GUARD` of `app/core/plugins/builtin.py` and its handler.

The handler cuts a description to the limit and adds an ellipsis.  Where no blank is near the
cut, the ellipsis is one character over the limit (`description_guard_iff`).
-/

namespace YoutubeFactory.Plugins

open Python LlmCore

/-! ## The code -/

/-- A value of a payload: a string, or something else. -/
inductive PayloadValue (V : Type) where
  | str (s : String)
  | other (value : V)

theorem beforePublish_ne_nil : [HookName.beforePublish] ≠ [] := List.cons_ne_nil _ _

def DESCRIPTION_GUARD : PluginManifest where
  name := "description-guard"
  hooks := [.beforePublish]
  capabilities := [.readContext, .writeContext]
  priority := 30
  name_matches := by decide
  hooks_ne_nil := beforePublish_ne_nil
  hooks_nodup := List.nodup_singleton _
  capabilities_nodup := by decide
  priority_le := by decide

/-- `_MAX_DESCRIPTION` -/
def MAX_DESCRIPTION : Nat := 5000

/-- `text.rstrip()` -/
def rstrip (text : List Char) : List Char := text.rdropWhile isSpace

/-- The cut at a word boundary near its end, if there is one. -/
def backUp (cut : List Char) : List Char :=
  let boundary := rfind cut ' '
  if boundary > (MAX_DESCRIPTION : Int) - 200 then cut.take boundary.toNat else cut

section

variable {V : Type}

/-- `{"description": description}` -/
def describing (description : String) : OrderedMap String (PayloadValue V) :=
  ⟨[("description", .str description)], List.nodup_singleton _⟩

/-- `_guard_description` -/
def guardDescription : HookHandler String (PayloadValue V) := fun context =>
  match context.payload.get? "description" with
  | some (.str description) =>
      if description.length ≤ MAX_DESCRIPTION then .returns .none
      else
        let cut := backUp (description.toList.take MAX_DESCRIPTION)
        .returns (.dict (describing (String.ofList (rstrip cut ++ ['…']))))
  | _ => .returns .none

/-- What `register_builtin_plugins` registers for the guard. -/
def descriptionGuard : PluginManifest × Handlers (HookHandler String (PayloadValue V)) where
  fst := DESCRIPTION_GUARD
  snd
    | .beforePublish => some guardDescription
    | _ => none

/-- The registry with the guard. -/
def guardRegistry : PluginRegistry (HookHandler String (PayloadValue V)) :=
  ⟨[PluginRegistry.pluginOf "" descriptionGuard], List.nodup_singleton _⟩

theorem guard_registered :
    PluginRegistry.registerAll "" [descriptionGuard (V := V)] .empty = .ok guardRegistry := by
  refine PluginRegistry.registerAll_ok_iff.mpr ⟨List.nodup_singleton _, ?_, rfl⟩
  intro r hr
  rw [List.mem_singleton] at hr
  subst hr
  exact ⟨rfl, rfl⟩

/-- The payload after the hook before a publication. -/
def published (organizationId : Option String) (payload : OrderedMap String (PayloadValue V)) :
    Except Escaped (OrderedMap String (PayloadValue V)) :=
  (guardRegistry.dispatch .beforePublish payload organizationId).map Prod.fst

end

/-! ## The cut -/

/-- A character stands behind a position if and only if its last place does. -/
theorem lt_rfind_iff {text : List Char} {c : Char} {k : Nat} :
    (k : Int) < rfind text c ↔ ∃ i, k < i ∧ text[i]? = some c := by
  by_cases hmem : c ∈ text
  · obtain ⟨b, a, hsplit, hlast⟩ := List.eq_append_cons_of_mem (List.mem_reverse.mpr hmem)
    have htext : text = a.reverse ++ c :: b.reverse := by
      rw [← List.reverse_reverse text, hsplit, List.reverse_append, List.reverse_cons,
        List.append_assoc, List.singleton_append]
    have hnot : c ∉ b.reverse := fun h => hlast (List.mem_reverse.mp h)
    rw [htext, rfind_append hnot, Int.ofNat_lt]
    constructor
    · intro h
      refine ⟨a.reverse.length, h, ?_⟩
      rw [List.getElem?_append_right le_rfl, Nat.sub_self, List.getElem?_cons_zero]
    · rintro ⟨i, hi, hc⟩
      by_contra h
      rw [List.getElem?_append_right (by omega), List.getElem?_cons, if_neg (by omega)] at hc
      exact hnot (List.mem_of_getElem? hc)
  · rw [rfind, if_neg hmem]
    refine iff_of_false (by omega) ?_
    rintro ⟨i, -, hc⟩
    exact hmem (List.mem_of_getElem? hc)

theorem backUp_isPrefix (cut : List Char) : backUp cut <+: cut := by
  unfold backUp
  dsimp only
  split
  · exact List.take_prefix _ _
  · exact List.prefix_refl _

/-- Back to a word boundary, and then without the blanks before it. -/
def wordCut : Cut Char where
  cut text := rstrip (backUp text)
  isPrefix text := (List.rdropWhile_prefix isSpace _).trans (backUp_isPrefix text)

theorem backUp_of_lt {text : List Char} (h : (4800 : Int) < rfind text ' ') :
    backUp text = text.take (rfind text ' ').toNat :=
  if_pos h

theorem backUp_of_le {text : List Char} (h : rfind text ' ' ≤ (4800 : Int)) : backUp text = text :=
  if_neg (Int.not_lt.mpr h)

theorem rfind_lt_length (text : List Char) (c : Char) : rfind text c < text.length := by
  have hlt := rfind_lt (a := text) (List.not_mem_nil (a := c))
  rw [List.append_nil] at hlt
  exact hlt

theorem rstrip_ne_iff {text : List Char} :
    rstrip text ≠ text ↔ ∃ c, text.getLast? = some c ∧ isSpace c = true := by
  rw [rstrip, ne_eq, List.rdropWhile_eq_self_iff]
  constructor
  · intro h
    obtain ⟨hne, hblank⟩ := not_forall.mp h
    exact ⟨_, List.getLast?_eq_some_getLast hne, not_not.mp hblank⟩
  · rintro ⟨c, hlast, hblank⟩ h
    obtain ⟨start, rfl⟩ := List.getLast?_eq_some_iff.mp hlast
    have hnot := h (List.append_ne_nil_of_right_ne_nil _ (List.cons_ne_nil _ _))
    rw [List.getLast_append_singleton] at hnot
    exact hnot hblank

/-- A text is cut at a word boundary near its end, or loses the blanks there. -/
theorem wordCut_ne_iff {text : List Char} :
    wordCut.cut text ≠ text ↔
      (∃ i, 4800 < i ∧ text[i]? = some ' ') ∨ ∃ c, text.getLast? = some c ∧ isSpace c = true := by
  rw [← lt_rfind_iff, Nat.cast_ofNat]
  by_cases hnear : (4800 : Int) < rfind text ' '
  · refine iff_of_true (fun h => ?_) (.inl hnear)
    have hstripped := (List.rdropWhile_prefix isSpace (backUp text)).length_le
    have hkept : (backUp text).rdropWhile isSpace = text := h
    have hlast := rfind_lt_length text ' '
    rw [hkept, backUp_of_lt hnear, List.length_take] at hstripped
    omega
  · rw [or_iff_right hnear, ← rstrip_ne_iff]
    unfold wordCut
    dsimp only
    rw [backUp_of_le (Int.not_lt.mp hnear)]

/-- There is a blank where a description is cut, or a space shortly before. -/
def BlankNearCut (text : List Char) : Prop :=
  (∃ i, MAX_DESCRIPTION - 200 < i ∧ i < MAX_DESCRIPTION ∧ text[i]? = some ' ') ∨
    ∃ c, text[MAX_DESCRIPTION - 1]? = some c ∧ isSpace c = true

theorem wordCut_take_ne_iff {text : List Char} (h : MAX_DESCRIPTION < text.length) :
    wordCut.cut (text.take MAX_DESCRIPTION) ≠ text.take MAX_DESCRIPTION ↔ BlankNearCut text := by
  rw [wordCut_ne_iff, List.getLast?_eq_getElem?, List.length_take_of_le h.le]
  refine or_congr (exists_congr fun i => and_congr_right fun _ => ?_) ?_
  · rw [List.getElem?_take, Option.ite_none_right_eq_some]
  · rw [List.getElem?_take_of_lt (by decide)]

/-! ## Guarded descriptions -/

/-- A description after the guard. -/
def guarded (description : String) : String :=
  String.ofList (wordCut.shorten MAX_DESCRIPTION '…' description.toList)

theorem guarded_of_le {description : String} (h : description.length ≤ MAX_DESCRIPTION) :
    guarded description = description := by
  rw [guarded, wordCut.shorten_of_le '…' h, String.ofList_toList]

section

variable {V : Type} (organizationId : Option String)
  (payload : OrderedMap String (PayloadValue V))

theorem guardDescription_of_le {context : HookContext String (PayloadValue V)} {text : String}
    (hget : context.payload.get? "description" = some (.str text))
    (h : text.length ≤ MAX_DESCRIPTION) : guardDescription context = .returns .none := by
  rw [guardDescription, hget]
  exact if_pos h

theorem guardDescription_of_lt {context : HookContext String (PayloadValue V)} {text : String}
    (hget : context.payload.get? "description" = some (.str text))
    (h : MAX_DESCRIPTION < text.length) :
    guardDescription context = .returns (.dict (describing (guarded text))) := by
  rw [guardDescription, hget, guarded, wordCut.shorten_of_lt '…' h]
  exact if_neg (Nat.not_le.mpr h)

theorem runPlugins_singleton (plugin : RegisteredPlugin (HookHandler String (PayloadValue V))) (hook : HookName) :
    (PluginRegistry.runPlugins hook organizationId [plugin] payload []).map Prod.fst =
      (plugin.invoke hook payload organizationId).map (·.applyTo payload) := by
  rw [PluginRegistry.runPlugins]
  cases plugin.invoke hook payload organizationId with
  | error e => rfl
  | ok result => rfl

/-- The payload with the patch of the guard. -/
theorem published_eq : published organizationId payload =
    (HookResult.of DESCRIPTION_GUARD.name (guardDescription
      ⟨.beforePublish, payload, organizationId, PluginRegistry.grant "" DESCRIPTION_GUARD⟩)).map
        (·.applyTo payload) := by
  unfold published
  rw [PluginRegistry.dispatch_eq]
  exact runPlugins_singleton organizationId payload (PluginRegistry.pluginOf "" descriptionGuard) _

/-- The guard patches the description, and nothing else. -/
theorem published_description (text : String) :
    published organizationId (payload.set "description" (.str text)) =
      .ok (payload.set "description" (.str (guarded text))) := by
  have hget : (payload.set "description" (.str text)).get? "description" = some (.str text) := by
    rw [OrderedMap.get?_set, if_pos rfl]
  rw [published_eq]
  by_cases hfits : text.length ≤ MAX_DESCRIPTION
  · rw [guardDescription_of_le hget hfits, guarded_of_le hfits]
    rfl
  · rw [guardDescription_of_lt hget (Nat.not_le.mp hfits)]
    exact congrArg Except.ok (payload.set_set "description" _ _)

theorem guarded_eq_iff {text out : String} :
    (published organizationId (payload.set "description" (.str text)) =
      .ok (payload.set "description" (.str out))) ↔ guarded text = out := by
  rw [published_description, Except.ok.injEq]
  constructor
  · intro h
    have hget := congrArg (OrderedMap.get? · "description") h
    rw [OrderedMap.get?_set, OrderedMap.get?_set, if_pos rfl, if_pos rfl] at hget
    cases hget
    rfl
  · rintro rfl
    rfl

/-- A description within the limit stays, and the guard settles at once. -/
structure Guards (text out : String) : Prop where
  publishes : published organizationId (payload.set "description" (.str text)) =
    .ok (payload.set "description" (.str out))
  within : out.length ≤ MAX_DESCRIPTION
  unchanged : text.length ≤ MAX_DESCRIPTION → out = text
  settled : published organizationId (payload.set "description" (.str out)) =
    .ok (payload.set "description" (.str out))

theorem guarded_guarded (text : String) : guarded (guarded text) = guarded text := by
  unfold guarded
  rw [String.toList_ofList, wordCut.shorten_shorten]

theorem length_guarded_le_iff (text : String) :
    (guarded text).length ≤ MAX_DESCRIPTION ↔
      text.length ≤ MAX_DESCRIPTION ∨ BlankNearCut text.toList := by
  rw [guarded, String.length_ofList, wordCut.length_shorten_le_iff, String.length_toList]
  refine or_congr_right' fun hlong => wordCut_take_ne_iff ?_
  rw [String.length_toList]
  exact Nat.not_le.mp hlong

/-- The guard keeps to the limit if and only if the description does, or has a blank near the
cut. -/
theorem description_guard_iff (text : String) :
    (∃ out, Guards organizationId payload text out) ↔
      text.length ≤ MAX_DESCRIPTION ∨ BlankNearCut text.toList := by
  rw [← length_guarded_le_iff]
  constructor
  · rintro ⟨out, hguards⟩
    rw [(guarded_eq_iff organizationId payload).mp hguards.publishes]
    exact hguards.within
  · intro hwithin
    exact ⟨guarded text, {
      publishes := published_description organizationId payload text
      within := hwithin
      unchanged := guarded_of_le
      settled := (guarded_eq_iff organizationId payload).mpr (guarded_guarded text) }⟩

end

/-- A description of one word. -/
def oneWord (n : Nat) : String := String.ofList (List.replicate n 'a')

/-- A word that is too long has no blank to be cut at. -/
theorem oneWord_over {n : Nat} (h : MAX_DESCRIPTION < n) :
    MAX_DESCRIPTION < (guarded (oneWord n)).length := by
  refine Nat.not_le.mp (mt (length_guarded_le_iff (oneWord n)).mp (not_or.mpr ⟨?_, ?_⟩))
  · rw [oneWord, String.length_ofList, List.length_replicate]
    exact Nat.not_le.mpr h
  · rw [oneWord, String.toList_ofList]
    rintro (⟨i, -, -, hblank⟩ | ⟨c, hc, hblank⟩)
    · cases List.eq_of_mem_replicate (List.mem_of_getElem? hblank)
    · cases List.eq_of_mem_replicate (List.mem_of_getElem? hc)
      cases hblank

theorem one_word_over_limit :
    MAX_DESCRIPTION < (guarded (oneWord 5001)).length ∧
      ¬ ∃ out, Guards (V := Unit) none .empty (oneWord 5001) out := by
  have hlong := oneWord_over (Nat.lt_succ_self MAX_DESCRIPTION)
  refine ⟨hlong, ?_⟩
  rintro ⟨out, hguards⟩
  have hwithin := hguards.within
  rw [← (guarded_eq_iff none .empty).mp hguards.publishes] at hwithin
  exact Nat.not_le.mpr hlong hwithin

end YoutubeFactory.Plugins
