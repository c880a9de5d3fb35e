import YoutubeFactory.Lib.Backtracking
import YoutubeFactory.LlmCore.Messages
import YoutubeFactory.Python.Loads
import Mathlib.Data.List.Induction
import Mathlib.Data.List.TakeWhile

/-!
# Structured output

`extract_json` and `parse_structured` of `app/core/llm/schemas.py`.  A text is the list of
its characters.  `_FENCE_RE` is built of matchers that backtrack, in the order of its
pattern.  The schema of the caller is a parameter: `validate` is `model_validate` of its
class, and it raises with the errors of the `ValidationError`.

The search for fences comes first and sees the characters alone.  So a fence inside a
string of the object is taken for one around it.
-/

namespace YoutubeFactory.LlmCore

open Python Backtracking

/-! ## The code -/

def fence : List Char := ['\x60', '\x60', '\x60']

def jsonTag : List Char := ['j', 's', 'o', 'n']

/-- The end of `_FENCE_RE`: whitespace and the closing fence. -/
def closeFence (group : List Char) : List Char → Option (List Char) :=
  greedy isSpace (literal fence fun _ => some group)

/-- `_FENCE_RE` after its opening fence, with its group. -/
def fenceBody : List Char → Option (List Char) :=
  optional jsonTag (greedy isSpace (lazily closeFence []))

/-- `_FENCE_RE.search(text)`, with the group of the match. -/
def fenceSearch (text : List Char) : Option (List Char) :=
  search (literal fence fenceBody) text

/-- `text.strip()` -/
def stripped (text : List Char) : List Char :=
  ((text.dropWhile isSpace).reverse.dropWhile isSpace).reverse

/-- `text.find(c)` -/
def find (text : List Char) (c : Char) : Int := if c ∈ text then text.idxOf c else -1

/-- `text.rfind(c)` -/
def rfind (text : List Char) (c : Char) : Int :=
  if c ∈ text then text.length - 1 - text.reverse.idxOf c else -1

/-- `extract_json` -/
def extractJson (text : List Char) : List Char :=
  match fenceSearch text with
  | some group => stripped group
  | none =>
      let start := match [find text '{', find text '['].filter (· ≠ -1) with
        | [] => -1
        | i :: rest => rest.foldl min i
      let stop := max (rfind text '}') (rfind text ']')
      if start ≠ -1 ∧ stop ≠ -1 ∧ stop > start then
        stripped ((text.take (stop + 1).toNat).drop start.toNat)
      else stripped text

/-- The errors of `parse_structured`. -/
def invalidJson (candidate : List Char) (fault : DecodeFault) : Exc :=
  .llm .structuredOutput "Model output was not valid JSON."
    [("error", .str (decodeErrorText candidate fault)),
      ("preview", .str (String.ofList (candidate.take 200)))]

def schemaMismatch (errors : Json) : Exc :=
  .llm .structuredOutput "Model output did not match the schema." [("errors", errors)]

/-- `model.model_validate(data)`, with its error turned into that of the framework. -/
def validated {F M : Type} (validate : Loaded F → Except Json M) (data : Loaded F) :
    Except Exc M :=
  match validate data with
  | .error errors => .error (schemaMismatch errors)
  | .ok value => .ok value

/-- `parse_structured` -/
def parseStructured {F M : Type} (parseFloat : List Char → F)
    (validate : Loaded F → Except Json M) (text : List Char) : Except Exc M :=
  let candidate := extractJson text
  match loads parseFloat candidate with
  | .error fault => .error (invalidJson candidate fault)
  | .ok data => validated validate data

/-! ## Stripped texts -/

/-- There is no whitespace around the text. -/
structure Trimmed (text : List Char) : Prop where
  head : ∀ c ∈ text.head?, isSpace c = false
  last : ∀ c ∈ text.getLast?, isSpace c = false

theorem dropWhile_of_head {text : List Char} (h : ∀ c ∈ text.head?, isSpace c = false) :
    text.dropWhile isSpace = text := by
  cases text with
  | nil => rfl
  | cons c text => rw [List.dropWhile_cons_of_neg (by rw [h c rfl]; exact Bool.false_ne_true)]

theorem Trimmed.stripped_eq {text : List Char} (h : Trimmed text) : stripped text = text := by
  have hreverse : ∀ c ∈ text.reverse.head?, isSpace c = false := by
    rw [List.head?_reverse]
    exact h.last
  rw [stripped, dropWhile_of_head h.head, dropWhile_of_head hreverse, List.reverse_reverse]

/-- Nothing is added, and nothing at the front is lost but whitespace. -/
theorem stripped_isPrefix {text : List Char} (h : ∀ c ∈ text.head?, isSpace c = false) :
    stripped text <+: text := by
  rw [stripped, dropWhile_of_head h, ← List.reverse_suffix, List.reverse_reverse]
  exact List.dropWhile_suffix _

theorem stripped_isInfix (text : List Char) : stripped text <:+: text := by
  have hrest : stripped text <+: text.dropWhile isSpace := by
    rw [stripped, ← List.reverse_suffix, List.reverse_reverse]
    exact List.dropWhile_suffix _
  exact hrest.isInfix.trans (List.dropWhile_suffix _).isInfix

/-! ## Fences -/

theorem closeFence_append {blank : List Char} (hblank : ∀ c ∈ blank, isSpace c = true)
    (group after : List Char) : closeFence group (blank ++ (fence ++ after)) = some group := by
  refine greedy_append hblank ?_ (literal_append fence _ after)
  intro c hc
  cases hc
  rfl

theorem closeFence_eq_some {group s x : List Char} (h : closeFence group s = some x) :
    x = group ∧ ∃ blank after, s = blank ++ (fence ++ after) ∧ ∀ c ∈ blank, isSpace c = true := by
  obtain ⟨blank, rest, rfl, hblank, hrest⟩ := greedy_eq_some h
  obtain ⟨after, rfl, hgroup⟩ := literal_eq_some hrest
  exact ⟨(Option.some.inj hgroup).symm, blank, after, rfl, hblank⟩

/-- A match: what is skipped, the group, and what closes it.  The group has no fence, or it would
have ended there. -/
theorem fenceBody_eq_some {s group : List Char} (h : fenceBody s = some group) :
    ∃ tag blank after, s = tag ++ (blank ++ (group ++ after)) ∧ (tag = jsonTag ∨ tag = []) ∧
      (∀ c ∈ blank, isSpace c = true) ∧ closeFence group after = some group ∧
      ¬ fence <:+: group := by
  obtain ⟨tag, s, rfl, htag, h⟩ := optional_eq_some h
  obtain ⟨blank, s, rfl, hblank, h⟩ := greedy_eq_some h
  obtain ⟨front, after, rfl, hclose, hearlier⟩ := lazily_eq_some h
  rw [List.nil_append] at hclose
  obtain ⟨rfl, -⟩ := closeFence_eq_some hclose
  refine ⟨tag, blank, after, rfl, htag, hblank, hclose, ?_⟩
  rintro ⟨a, b, rfl⟩
  have hnone := hearlier a (fence ++ (b ++ after)) (by simp [List.append_assoc])
    (by simp [fence])
  have hsome := @closeFence_append [] nofun a (b ++ after)
  rw [List.nil_append] at hnone hsome
  rw [hsome] at hnone
  cases hnone

theorem fenceBody_ne_none (a after : List Char) : fenceBody (a ++ (fence ++ after)) ≠ none := by
  intro h
  have hlazy := greedy_eq_none ((Option.orElse_eq_none _ _).mp h).2
  have hclose := lazily_eq_none hlazy a _ rfl
  rw [List.nil_append] at hclose
  exact absurd ((@closeFence_append [] nofun a after).symm.trans hclose) (by simp)

/-- Two fences, one after the other. -/
def TwoFences (text : List Char) : Prop :=
  ∃ a b c, text = a ++ (fence ++ (b ++ (fence ++ c)))

theorem fenceSearch_eq_none_iff {text : List Char} :
    fenceSearch text = none ↔ ¬ TwoFences text := by
  constructor
  · rintro h ⟨a, b, c, rfl⟩
    have hhere := search_eq_none h a _ rfl
    rw [literal_append] at hhere
    exact fenceBody_ne_none b c hhere
  · intro h
    by_contra hnone
    obtain ⟨group, hsome⟩ := Option.ne_none_iff_exists'.mp hnone
    obtain ⟨front, rest, rfl, hhere⟩ := search_eq_some hsome
    obtain ⟨s, rfl, hbody⟩ := literal_eq_some hhere
    obtain ⟨tag, blank, after, rfl, -, -, hclose, -⟩ := fenceBody_eq_some hbody
    obtain ⟨-, blank', after', rfl, -⟩ := closeFence_eq_some hclose
    exact h ⟨front, tag ++ (blank ++ (group ++ blank')), after', by simp [List.append_assoc]⟩

/-- The group of a match has no fence. -/
theorem not_fence_of_search {text group : List Char} (h : fenceSearch text = some group) :
    ¬ fence <:+: stripped group := by
  obtain ⟨front, rest, rfl, hhere⟩ := search_eq_some h
  obtain ⟨s, rfl, hbody⟩ := literal_eq_some hhere
  obtain ⟨-, -, -, -, -, -, -, hgroup⟩ := fenceBody_eq_some hbody
  exact fun hfence => hgroup (hfence.trans (stripped_isInfix group))

/-- What is taken out of a text with two fences has none. -/
theorem not_fence_extractJson {text : List Char} (h : TwoFences text) :
    ¬ fence <:+: extractJson text := by
  cases hsearch : fenceSearch text with
  | none => exact absurd h (fenceSearch_eq_none_iff.mp hsearch)
  | some group =>
      rw [extractJson, hsearch]
      exact not_fence_of_search hsearch

/-! ## Objects -/

section

variable {F : Type} {parseFloat : List Char → F} {obj : List Char} {value : Loaded F}

/-- The text of a JSON object, with no whitespace around it: what `json.loads` reads as a
`dict`. -/
structure IsObject (parseFloat : List Char → F) (obj : List Char) (value : Loaded F) :
    Prop where
  loads : loads parseFloat obj = .ok value
  dict : value.isDict = true
  trimmed : Trimmed obj

theorem isSpace_of_jsonSpace {c : Char} (h : jsonSpace c = true) : isSpace c = true := by
  simp only [jsonSpace, List.contains_eq_mem, List.mem_cons, List.not_mem_nil, or_false,
    decide_eq_true_eq] at h
  rcases h with rfl | rfl | rfl | rfl
  all_goals decide

/-- An object stands between its braces. -/
theorem IsObject.braces (h : IsObject parseFloat obj value) :
    ∃ inner, obj = '{' :: (inner ++ ['}']) := by
  obtain ⟨inner, after, hobj, hafter⟩ := loads_dict h.loads h.dict
  have hspace : ∀ c, isSpace c = false → jsonSpace c = false := fun c hc =>
    Bool.eq_false_iff.mpr fun hjson =>
      absurd (isSpace_of_jsonSpace hjson) (by rw [hc]; exact Bool.false_ne_true)
  have hfront : skipSpace obj = obj := by
    cases obj with
    | nil => rfl
    | cons c rest =>
        exact List.dropWhile_cons_of_neg
          (by rw [hspace c (h.trimmed.head c rfl)]; exact Bool.false_ne_true)
  rw [hfront] at hobj
  cases after using List.reverseRecOn with
  | nil => exact ⟨inner, hobj⟩
  | append_singleton after c =>
      have hlast : isSpace c = false := h.trimmed.last c (by
        rw [hobj, ← List.cons_append, ← List.cons_append, ← List.append_assoc,
          List.getLast?_concat]
        rfl)
      have hall := List.dropWhile_eq_nil_iff.mp hafter c (by simp)
      rw [hspace c hlast] at hall
      cases hall

/-- The text is parsed as the object: `extract_json` returns its text, and `parse_structured`
validates its value. -/
structure Recovers (parseFloat : List Char → F) (text obj : List Char) (value : Loaded F) :
    Prop where
  extracted : extractJson text = obj
  parsed : ∀ {M : Type} (validate : Loaded F → Except Json M),
    parseStructured parseFloat validate text = validated validate value

/-- The text that is extracted decides what is parsed. -/
theorem recovers_iff (h : IsObject parseFloat obj value) (text : List Char) :
    Recovers parseFloat text obj value ↔ extractJson text = obj := by
  refine ⟨Recovers.extracted, fun hextract => ⟨hextract, fun validate => ?_⟩⟩
  simp only [parseStructured]
  rw [hextract, h.loads]

end

/-! ## Positions -/

section

variable {c : Char} {a b text : List Char}

theorem find_append (h : c ∉ a) : find (a ++ c :: b) c = a.length := by
  rw [find, if_pos (by simp), List.idxOf_append_of_notMem h, List.idxOf_cons_self]
  simp

/-- A character is found where the part that does not have it ends, or later. -/
theorem le_find (h : c ∉ a) (hfound : find (a ++ b) c ≠ -1) : a.length ≤ find (a ++ b) c := by
  unfold find at hfound ⊢
  split
  · rw [List.idxOf_append_of_notMem h]
    omega
  · next hnone => exact absurd (if_neg hnone) hfound

theorem rfind_append (h : c ∉ b) : rfind (a ++ c :: b) c = a.length := by
  have hreverse : c ∉ b.reverse := fun hmem => h (List.mem_reverse.mp hmem)
  rw [rfind, if_pos (by simp), List.reverse_append, List.reverse_cons, List.append_assoc,
    List.singleton_append, List.idxOf_append_of_notMem hreverse, List.idxOf_cons_self]
  simp
  omega

/-- A character is found last before the part that does not have it. -/
theorem rfind_lt (h : c ∉ b) : rfind (a ++ b) c < a.length := by
  have hreverse : c ∉ b.reverse := fun hmem => h (List.mem_reverse.mp hmem)
  unfold rfind
  split
  · next hmem =>
      rw [List.reverse_append, List.idxOf_append_of_notMem hreverse, List.length_append,
        List.length_reverse]
      push_cast
      omega
  · omega

end

/-! ## Objects on their own -/

section

variable {lead trail inner : List Char}

theorem not_mem_of_blank {blank : List Char} {c : Char} (h : ∀ c ∈ blank, isSpace c = true)
    (hc : isSpace c = false) : c ∉ blank := fun hmem =>
  absurd (h c hmem) (by rw [hc]; exact Bool.false_ne_true)

/-- Without a fence, the span between the outermost braces is taken. -/
theorem extractJson_span (hlead : ∀ c ∈ lead, isSpace c = true)
    (htrail : ∀ c ∈ trail, isSpace c = true)
    (hnone : fenceSearch (lead ++ ('{' :: (inner ++ ['}']) ++ trail)) = none) :
    extractJson (lead ++ ('{' :: (inner ++ ['}']) ++ trail)) = '{' :: (inner ++ ['}']) := by
  have hopen : find (lead ++ ('{' :: (inner ++ ['}']) ++ trail)) '{' = lead.length :=
    find_append (not_mem_of_blank hlead (by decide))
  have hbracket := @le_find '[' lead ('{' :: (inner ++ ['}']) ++ trail)
    (not_mem_of_blank hlead (by decide))
  have htext : lead ++ ('{' :: (inner ++ ['}']) ++ trail) =
      (lead ++ '{' :: inner) ++ '}' :: trail := by simp
  have hclose : rfind (lead ++ ('{' :: (inner ++ ['}']) ++ trail)) '}' =
      (lead ++ '{' :: inner).length := by
    rw [htext]
    exact rfind_append (not_mem_of_blank htrail (by decide))
  have hlast : rfind (lead ++ ('{' :: (inner ++ ['}']) ++ trail)) ']' <
      (lead ++ '{' :: inner).length := by
    rw [htext]
    refine rfind_lt ?_
    rw [List.mem_cons, not_or]
    exact ⟨by decide, not_mem_of_blank htrail (by decide)⟩
  have hstart : (match [find (lead ++ ('{' :: (inner ++ ['}']) ++ trail)) '{',
        find (lead ++ ('{' :: (inner ++ ['}']) ++ trail)) '['].filter (· ≠ -1) with
      | [] => -1
      | i :: rest => rest.foldl min i) = (lead.length : Int) := by
    rw [hopen, List.filter_cons_of_pos (by simp)]
    by_cases hfound : find (lead ++ ('{' :: (inner ++ ['}']) ++ trail)) '[' = -1
    · rw [hfound]
      rfl
    · rw [List.filter_cons_of_pos (by simpa using hfound)]
      exact min_eq_left (hbracket hfound)
  have htrimmed : Trimmed ('{' :: (inner ++ ['}'])) := by
    refine ⟨fun c hc => ?_, fun c hc => ?_⟩
    · cases hc
      rfl
    · rw [← List.cons_append, List.getLast?_concat] at hc
      cases hc
      rfl
  have hlength : (lead ++ '{' :: inner).length = lead.length + (inner.length + 1) := by
    rw [List.length_append, List.length_cons]
  rw [extractJson, hnone]
  simp only
  rw [hstart, hclose, max_eq_left hlast.le, hlength, if_pos (by omega)]
  have htake : (lead ++ ('{' :: (inner ++ ['}']) ++ trail)).take
      (((lead.length + (inner.length + 1) : Nat) : Int) + 1).toNat =
      lead ++ '{' :: (inner ++ ['}']) := by
    rw [← List.append_assoc]
    exact List.take_left' (by simp; omega)
  rw [htake, Int.toNat_natCast, List.drop_left, htrimmed.stripped_eq]

/-- Text without a backtick before a text adds no fences. -/
theorem fence_of_append {lead s a t : List Char} (hlead : '\x60' ∉ lead)
    (h : lead ++ s = a ++ (fence ++ t)) : ∃ b, s = b ++ (fence ++ t) := by
  rcases List.append_eq_append_iff.mp h with ⟨b, -, hs⟩ | ⟨b, rfl, hs⟩
  · exact ⟨b, hs⟩
  · cases b with
    | nil => exact ⟨[], hs.symm⟩
    | cons c b =>
        obtain ⟨rfl, -⟩ := List.cons_eq_cons.mp (hs.trans List.cons_append)
        exact absurd (List.mem_append_right a List.mem_cons_self) hlead

theorem TwoFences.reverse {text : List Char} (h : TwoFences text) : TwoFences text.reverse := by
  obtain ⟨a, b, c, rfl⟩ := h
  exact ⟨c.reverse, b.reverse, a.reverse, by simp [fence]⟩

theorem TwoFences.of_lead {lead s : List Char} (hlead : ∀ c ∈ lead, isSpace c = true)
    (h : TwoFences (lead ++ s)) : TwoFences s := by
  obtain ⟨a, b, c, htext⟩ := h
  obtain ⟨a', rfl⟩ := fence_of_append (not_mem_of_blank hlead (by decide)) htext
  exact ⟨a', b, c, rfl⟩

/-- The fences of a text are those of its object. -/
theorem twoFences_blank_iff {obj : List Char} (hlead : ∀ c ∈ lead, isSpace c = true)
    (htrail : ∀ c ∈ trail, isSpace c = true) :
    TwoFences (lead ++ (obj ++ trail)) ↔ TwoFences obj := by
  constructor
  · intro h
    have hreverse := (h.of_lead hlead).reverse
    rw [List.reverse_append] at hreverse
    have htrail' : ∀ c ∈ trail.reverse, isSpace c = true :=
      fun c hc => htrail c (List.mem_reverse.mp hc)
    have hobj := (hreverse.of_lead htrail').reverse
    rwa [List.reverse_reverse] at hobj
  · rintro ⟨a, b, c, rfl⟩
    exact ⟨lead ++ a, b, c ++ trail, by simp⟩

/-- An object with whitespace around it is extracted unless it has two fences. -/
theorem extractJson_blank_iff {F : Type} {parseFloat : List Char → F} {obj : List Char}
    {value : Loaded F} (h : IsObject parseFloat obj value)
    (hlead : ∀ c ∈ lead, isSpace c = true) (htrail : ∀ c ∈ trail, isSpace c = true) :
    extractJson (lead ++ (obj ++ trail)) = obj ↔ ¬ TwoFences obj := by
  constructor
  · intro hextract htwo
    have hno := not_fence_extractJson ((twoFences_blank_iff hlead htrail).mpr htwo)
    rw [hextract] at hno
    obtain ⟨a, b, c, rfl⟩ := htwo
    exact hno ⟨a, b ++ (fence ++ c), by simp⟩
  · intro hno
    have hnone : fenceSearch (lead ++ (obj ++ trail)) = none :=
      fenceSearch_eq_none_iff.mpr fun htwo => hno ((twoFences_blank_iff hlead htrail).mp htwo)
    obtain ⟨inner, rfl⟩ := h.braces
    exact extractJson_span hlead htrail hnone

end

/-! ## Objects in a block -/

/-- What stands around the object of a fenced block: the prose before it, which has no fence, what
stands after the opening fence (the language and the end of the line), the whitespace before the
closing fence, and the prose after it. -/
structure FencedBlock where
  before : List Char
  opening : List Char
  blank : List Char
  after : List Char
  before_no_fence : ¬ fence <:+: before
  opening_no_tick : '\x60' ∉ opening
  blank_space : ∀ c ∈ blank, isSpace c = true

def FencedBlock.text (block : FencedBlock) (obj : List Char) : List Char :=
  block.before ++ (fence ++ (block.opening ++ (obj ++ (block.blank ++ (fence ++ block.after)))))

/-- What is left of the opening line without the language. -/
def untagged (opening : List Char) : List Char :=
  if jsonTag.isPrefixOf opening then opening.drop jsonTag.length else opening

/-- What is left of the opening line in front of the object. -/
def foreign (opening : List Char) : List Char := (untagged opening).dropWhile isSpace

section

variable {obj opening blank after rest : List Char}

theorem foreign_eq_nil_iff : foreign opening = [] ↔ ∀ c ∈ untagged opening, isSpace c = true :=
  List.dropWhile_eq_nil_iff

theorem untagged_append (tagged : List Char) : untagged (jsonTag ++ tagged) = tagged := by
  rw [untagged, if_pos (List.isPrefixOf_iff_prefix.mpr (List.prefix_append _ _)), List.drop_left]

theorem untagged_of_not_start (h : ¬ jsonTag <+: opening) : untagged opening = opening :=
  if_neg fun hstart => h (List.isPrefixOf_iff_prefix.mp hstart)

theorem untagged_suffix : untagged opening <:+ opening := by
  unfold untagged
  split
  · exact List.drop_suffix _ _
  · exact List.suffix_rfl

/-- What stands in front of the object does not start with whitespace, and neither does it. -/
theorem head_foreign {s : List Char} :
    ∀ c ∈ (foreign opening ++ ('{' :: s)).head?, isSpace c = false := by
  intro c hc
  have hdrop := List.head?_dropWhile_not isSpace (untagged opening)
  cases hforeign : foreign opening with
  | nil =>
      rw [hforeign] at hc
      cases hc
      rfl
  | cons d rest =>
      rw [foreign] at hforeign
      rw [hforeign] at hdrop
      rw [foreign, hforeign] at hc
      cases hc
      simpa using hdrop

/-- The group ends where the object does. -/
theorem lazily_closeFence {group : List Char} {c : Char} (hc : isSpace c = false)
    (htick : c ≠ '\x60') (hno : ¬ fence <:+: group ++ [c])
    (hblank : ∀ c ∈ blank, isSpace c = true) :
    lazily closeFence [] (group ++ [c] ++ (blank ++ (fence ++ after))) = some (group ++ [c]) := by
  refine lazily_append (closeFence_append hblank (group ++ [c]) after) ?_
  intro earlier more hmore hsplit
  by_contra hne
  obtain ⟨x, hx⟩ := Option.ne_none_iff_exists'.mp hne
  obtain ⟨-, space, tail, htext, hspace⟩ := closeFence_eq_some hx
  have hlast : more.getLast? = some c := by
    rw [← List.getLast?_append_of_ne_nil earlier hmore, ← hsplit, List.getLast?_concat]
  -- the whitespace ends before the last character of the group, and so does the fence
  rcases List.append_eq_append_iff.mp htext with ⟨b, rfl, -⟩ | ⟨b, rfl, hrest⟩
  · have hmem : c ∈ more := List.mem_of_getLast? hlast
    rw [hspace c (List.mem_append_left b hmem)] at hc
    cases hc
  · have hmem : c ∈ b := by
      cases b using List.reverseRecOn with
      | nil =>
          rw [List.append_nil] at hlast
          rw [hspace c (List.mem_of_getLast? hlast)] at hc
          cases hc
      | append_singleton b d =>
          rw [← List.append_assoc, List.getLast?_concat] at hlast
          exact List.mem_append_right b (by rw [Option.some.inj hlast]; exact List.mem_cons_self)
    rcases List.append_eq_append_iff.mp hrest with ⟨d, rfl, -⟩ | ⟨d, hfence, -⟩
    · refine hno ⟨earlier ++ space, d, ?_⟩
      rw [hsplit]
      simp
    · have hin : c ∈ fence := hfence ▸ List.mem_append_left d hmem
      simp [fence, htick] at hin

/-- A text that starts with an opening line and an object: the group is the object, behind what
the opening line has in front of it. -/
theorem fenceBody_opening {inner : List Char} (htick : '\x60' ∉ opening)
    (hno : ¬ fence <:+: '{' :: (inner ++ ['}'])) (hblank : ∀ c ∈ blank, isSpace c = true) :
    fenceBody (opening ++ ('{' :: (inner ++ ['}']) ++ (blank ++ (fence ++ after)))) =
      some (foreign opening ++ '{' :: (inner ++ ['}'])) := by
  have hforeign : '\x60' ∉ foreign opening := fun hmem =>
    htick (untagged_suffix.subset ((List.dropWhile_suffix _).subset hmem))
  have hgroup : ¬ fence <:+: foreign opening ++ '{' :: inner ++ ['}'] := by
    rintro ⟨a, t, htext⟩
    rw [List.append_assoc, List.append_assoc, List.cons_append] at htext
    obtain ⟨b, hobj⟩ := fence_of_append hforeign htext.symm
    exact hno ⟨b, t, by rw [hobj, List.append_assoc]⟩
  have hbody : greedy isSpace (lazily closeFence [])
      (untagged opening ++ ('{' :: (inner ++ ['}']) ++ (blank ++ (fence ++ after)))) =
      some (foreign opening ++ '{' :: (inner ++ ['}'])) := by
    have hsplit : (untagged opening).takeWhile isSpace ++ foreign opening = untagged opening :=
      List.takeWhile_append_dropWhile
    have hlazy := @lazily_closeFence blank after (foreign opening ++ '{' :: inner) '}'
      (by decide) (by decide) hgroup hblank
    rw [← hsplit, List.append_assoc]
    refine greedy_append (fun c => List.mem_takeWhile_imp) ?_ ?_
    · exact head_foreign
    · simpa using hlazy
  by_cases hjson : jsonTag <+: opening
  · obtain ⟨tagged, rfl⟩ := hjson
    rw [untagged_append] at hbody
    refine (Option.orElse_eq_some _ _ _).mpr (.inl ?_)
    rw [List.append_assoc, literal_append]
    exact hbody
  · rw [untagged_of_not_start hjson] at hbody
    rw [fenceBody, optional_of_not_start, hbody]
    rintro ⟨t, htext⟩
    rcases List.append_eq_append_iff.mp htext with ⟨b, hopening, -⟩ | ⟨b, htag, hrest⟩
    · exact hjson ⟨b, hopening.symm⟩
    · cases b with
      | nil => exact hjson ⟨[], by rw [htag, List.append_nil, List.append_nil]⟩
      | cons c b =>
          obtain ⟨rfl, -⟩ := List.cons_eq_cons.mp (hrest.trans List.cons_append)
          have hin : '{' ∈ jsonTag := htag ▸ List.mem_append_right opening List.mem_cons_self
          exact absurd hin (by decide)

/-- The first fence is the one after text that has no fence and does not end with a backtick. -/
theorem fenceSearch_before {before group : List Char} (hno : ¬ fence <:+: before)
    (hlast : before.getLast? ≠ some '\x60') (h : fenceBody rest = some group) :
    fenceSearch (before ++ (fence ++ rest)) = some group := by
  refine search_append ((literal_append fence fenceBody rest).trans h) ?_
  intro earlier more hmore hsplit
  refine literal_of_not_start ?_
  rintro ⟨t, htext⟩
  rcases List.append_eq_append_iff.mp htext with ⟨b, rfl, -⟩ | ⟨b, hfence, -⟩
  · exact hno ⟨earlier, b, by rw [hsplit, List.append_assoc]⟩
  · obtain ⟨c, hc⟩ := Option.ne_none_iff_exists'.mp (mt List.getLast?_eq_none_iff.mp hmore)
    have hin : c ∈ fence := hfence ▸ List.mem_append_left b (List.mem_of_getLast? hc)
    have htick : c = '\x60' := by simpa [fence] using hin
    rw [hsplit, List.getLast?_append_of_ne_nil earlier hmore, hc, htick] at hlast
    exact hlast rfl

/-- Text that starts with a backtick, but not with a fence, gives a group that does. -/
theorem fenceBody_tick {s group : List Char} (hno : ¬ fence <+: '\x60' :: s)
    (h : fenceBody ('\x60' :: s) = some group) : ∃ more, group = '\x60' :: more := by
  obtain ⟨tag, blank, after, htext, htag, hblank, hclose, -⟩ := fenceBody_eq_some h
  rcases htag with rfl | rfl
  · cases htext
  · rw [List.nil_append] at htext
    cases blank with
    | cons c blank =>
        obtain ⟨rfl, -⟩ := List.cons_eq_cons.mp htext
        exact absurd (hblank '\x60' List.mem_cons_self) (by decide)
    | nil =>
        rw [List.nil_append] at htext
        cases group with
        | cons c more =>
            obtain ⟨rfl, -⟩ := List.cons_eq_cons.mp htext
            exact ⟨more, rfl⟩
        | nil =>
            obtain ⟨-, space, tail, rfl, hspace⟩ := closeFence_eq_some hclose
            cases space with
            | nil => exact absurd ⟨tail, htext.symm⟩ hno
            | cons c space =>
                obtain ⟨rfl, -⟩ := List.cons_eq_cons.mp htext
                exact absurd (hspace '\x60' List.mem_cons_self) (by decide)

theorem fenceBody_ticks {ticks s group : List Char}
    (hticks : ticks = ['\x60'] ∨ ticks = ['\x60', '\x60'])
    (hnext : ∀ c ∈ s.head?, c ≠ '\x60') (h : fenceBody (ticks ++ s) = some group) :
    ∃ more, group = '\x60' :: more := by
  have hno : ¬ fence <+: ticks ++ s := by
    rintro ⟨t, hs⟩
    rcases hticks with rfl | rfl
    · obtain rfl : s = '\x60' :: '\x60' :: t := (List.cons_eq_cons.mp hs.symm).2
      exact hnext '\x60' rfl rfl
    · obtain rfl : s = '\x60' :: t := (List.cons_eq_cons.mp (List.cons_eq_cons.mp hs.symm).2).2
      exact hnext '\x60' rfl rfl
  rcases hticks with rfl | rfl
  · exact fenceBody_tick hno h
  · exact fenceBody_tick hno h

/-- Text that ends with backticks but has no fence ends with one or two of them. -/
theorem ticks_of_getLast {before : List Char} (hno : ¬ fence <:+: before)
    (hlast : before.getLast? = some '\x60') :
    ∃ front ticks, before = front ++ ticks ∧ front.getLast? ≠ some '\x60' ∧
      (ticks = ['\x60'] ∨ ticks = ['\x60', '\x60']) := by
  obtain ⟨front, rfl⟩ : ∃ front, before = front ++ ['\x60'] :=
    ⟨before.dropLast, (List.dropLast_append_getLast? '\x60' hlast).symm⟩
  by_cases hone : front.getLast? = some '\x60'
  · obtain ⟨front, rfl⟩ : ∃ init, front = init ++ ['\x60'] :=
      ⟨front.dropLast, (List.dropLast_append_getLast? '\x60' hone).symm⟩
    refine ⟨front, ['\x60', '\x60'], by simp, fun htwo => hno ?_, .inr rfl⟩
    obtain ⟨init, rfl⟩ : ∃ init, front = init ++ ['\x60'] :=
      ⟨front.dropLast, (List.dropLast_append_getLast? '\x60' htwo).symm⟩
    exact ⟨init, [], by simp [fence]⟩
  · exact ⟨front, ['\x60'], rfl, hone, .inl rfl⟩

end

section

variable {F : Type} {parseFloat : List Char → F} {obj : List Char} {value : Loaded F}

/-- Prose that ends with a backtick makes the fence start early. -/
theorem extractJson_ne_of_tick (h : IsObject parseFloat obj value) (block : FencedBlock)
    (hlast : block.before.getLast? = some '\x60') : extractJson (block.text obj) ≠ obj := by
  obtain ⟨inner, rfl⟩ := h.braces
  obtain ⟨front, ticks, hbefore, hfront, hticks⟩ := ticks_of_getLast block.before_no_fence hlast
  have hno : ¬ fence <:+: front := fun hin =>
    block.before_no_fence (hin.trans (hbefore ▸ (List.prefix_append front ticks).isInfix))
  obtain ⟨s, hs⟩ : ∃ s, s = block.opening ++ ('{' :: (inner ++ ['}']) ++
    (block.blank ++ (fence ++ block.after))) := ⟨_, rfl⟩
  have htext : block.text ('{' :: (inner ++ ['}'])) = front ++ (fence ++ (ticks ++ s)) := by
    rcases hticks with rfl | rfl
    all_goals simp [FencedBlock.text, hbefore, fence, hs]
  have hnext : ∀ c ∈ s.head?, c ≠ '\x60' := by
    intro c hc
    cases hopening : block.opening with
    | nil =>
        rw [hs, hopening] at hc
        cases hc
        decide
    | cons d rest =>
        rw [hs, hopening] at hc
        cases hc
        exact fun heq => block.opening_no_tick (hopening ▸ heq ▸ List.mem_cons_self)
  obtain ⟨group, hgroup⟩ : ∃ group, fenceBody (ticks ++ s) = some group := by
    refine Option.ne_none_iff_exists'.mp ?_
    have hsome := fenceBody_ne_none
      (ticks ++ (block.opening ++ ('{' :: (inner ++ ['}']) ++ block.blank))) block.after
    rw [hs]
    simpa only [List.append_assoc] using hsome
  obtain ⟨more, rfl⟩ := fenceBody_ticks hticks hnext hgroup
  have hsearch := fenceSearch_before hno hfront hgroup
  have hhead : stripped ('\x60' :: more) <+: '\x60' :: more :=
    stripped_isPrefix fun c hc => by cases hc; rfl
  intro hextract
  rw [htext, extractJson, hsearch] at hextract
  have hobj : stripped ('\x60' :: more) = '{' :: (inner ++ ['}']) := hextract
  rw [hobj, List.cons_prefix_cons] at hhead
  exact absurd hhead.1 (by decide)

/-- An object in a block is extracted if the prose before it does not end with a backtick, the
opening line has nothing but the language, and the object has no fence. -/
theorem extractJson_block_iff (h : IsObject parseFloat obj value) (block : FencedBlock) :
    extractJson (block.text obj) = obj ↔
      block.before.getLast? ≠ some '\x60' ∧ (∀ c ∈ untagged block.opening, isSpace c = true) ∧
        ¬ fence <:+: obj := by
  have htwo : TwoFences (block.text obj) :=
    ⟨block.before, block.opening ++ (obj ++ block.blank), block.after, by
      simp [FencedBlock.text]⟩
  have hfound : ∀ (group : List Char), fenceSearch (block.text obj) = some group →
      extractJson (block.text obj) = stripped group := fun group hgroup => by
    rw [extractJson, hgroup]
  obtain ⟨inner, hbraces⟩ := h.braces
  have hplain : block.before.getLast? ≠ some '\x60' → ¬ fence <:+: obj →
      extractJson (block.text obj) = foreign block.opening ++ obj := by
    intro hlast hno
    have hbody := @fenceBody_opening block.opening block.blank block.after inner
      block.opening_no_tick (hbraces ▸ hno) block.blank_space
    rw [← hbraces] at hbody
    rw [hfound _ (fenceSearch_before block.before_no_fence hlast hbody)]
    refine Trimmed.stripped_eq ⟨?_, ?_⟩
    · rw [hbraces]
      exact head_foreign
    · intro c hc
      refine h.trimmed.last c ?_
      rwa [List.getLast?_append_of_ne_nil _ (by rw [hbraces]; exact List.cons_ne_nil _ _)] at hc
  constructor
  · intro hextract
    have hno : ¬ fence <:+: obj := by
      have hnone := not_fence_extractJson htwo
      rwa [hextract] at hnone
    have hlast : block.before.getLast? ≠ some '\x60' := fun hlast =>
      extractJson_ne_of_tick h block hlast hextract
    refine ⟨hlast, foreign_eq_nil_iff.mp ?_, hno⟩
    have hsame := (hplain hlast hno).symm.trans hextract
    exact List.append_left_eq_self.mp hsame
  · rintro ⟨hlast, hblank, hno⟩
    rw [hplain hlast hno, foreign_eq_nil_iff.mpr hblank, List.nil_append]

/-- Structured output is parsed as the object if and only if no fences of its own get in the way:
two of them where the object stands alone, and one where it stands in a block. -/
theorem structured_output_recovers (h : IsObject parseFloat obj value) :
    (∀ lead trail : List Char, (∀ c ∈ lead, isSpace c = true) → (∀ c ∈ trail, isSpace c = true) →
      (Recovers parseFloat (lead ++ (obj ++ trail)) obj value ↔ ¬ TwoFences obj)) ∧
    ∀ block : FencedBlock, Recovers parseFloat (block.text obj) obj value ↔
      block.before.getLast? ≠ some '\x60' ∧ (∀ c ∈ untagged block.opening, isSpace c = true) ∧
        ¬ fence <:+: obj :=
  ⟨fun _ _ hlead htrail => (recovers_iff h _).trans (extractJson_blank_iff h hlead htrail),
    fun block => (recovers_iff h _).trans (extractJson_block_iff h block)⟩

end

/-- A block with text around it. -/
def jsonBlock : FencedBlock where
  before := "Here it is:\n".toList
  opening := "json\n".toList
  blank := ['\n']
  after := "\nDone.".toList
  before_no_fence := by decide
  opening_no_tick := by decide
  blank_space := List.forall_mem_singleton.mpr rfl

/-- `{"a": 1}`, on its own and in a block, is parsed as itself. -/
theorem structured_output_recovers_entry :
    ∃ value, Recovers id " \x7b\"a\": 1\x7d\n".toList "\x7b\"a\": 1\x7d".toList value ∧
      Recovers id "Here it is:\n```json\n\x7b\"a\": 1\x7d\n```\nDone.".toList
        "\x7b\"a\": 1\x7d".toList value := by
  have h : IsObject id "\x7b\"a\": 1\x7d".toList (.dict [([0x61], .int 1)]) :=
    ⟨by rfl, rfl, fun c hc => by cases hc; rfl, fun c hc => by cases hc; rfl⟩
  have hblank : ∀ {c : Char}, isSpace c = true → ∀ d ∈ [c], isSpace d = true :=
    fun hc => List.forall_mem_singleton.mpr hc
  refine ⟨_, ((structured_output_recovers h).1 [' '] ['\n'] (hblank rfl) (hblank rfl)).mpr ?_,
    ((structured_output_recovers h).2 jsonBlock).mpr ⟨by decide, ?_, by decide⟩⟩
  · exact fenceSearch_eq_none_iff.mp (by decide)
  · exact List.all_eq_true.mp (by decide)

/-- An object with a fenced block in a string: what is extracted is the inside of the block. -/
theorem not_recovers_fenced_string :
    ∃ value, IsObject id "\x7b\"a\": \"```json\x7b\x7d```\"\x7d".toList value ∧
      ¬ Recovers id "\x7b\"a\": \"```json\x7b\x7d```\"\x7d".toList
        "\x7b\"a\": \"```json\x7b\x7d```\"\x7d".toList value := by
  refine ⟨.dict [([0x61], .str ("```json\x7b\x7d```".toList.map Char.toNat))],
    ⟨by rfl, rfl, fun c hc => by cases hc; rfl, fun c hc => by cases hc; rfl⟩, fun h => ?_⟩
  have hextracted := h.extracted
  revert hextracted
  decide

end YoutubeFactory.LlmCore
