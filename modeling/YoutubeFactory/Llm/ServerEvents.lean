import YoutubeFactory.Lib.Frames
import YoutubeFactory.Llm.Accounting
import YoutubeFactory.Python.Dumps

/-!
# Server-sent events

The route `stream` of `app/api/v1/routes/llm.py`, and what reads it: `llmApi.stream` of
`apps/frontend/lib/llm-api.ts` and `send` of the playground.  The streams of the providers are
those of `app/core/llm/providers`.

The response is of printable ASCII, so one byte of it is one character.  A string in the browser
is a list of UTF-16 units.

The bytes arrive in chunks that have nothing to do with the events.  At each moment, the client
has the events that arrived as a whole, in their order and with their texts
(`stream_delivered`), and the playground shows the text of these.  It takes the answer back when
an event reports an error, or when a read is rejected, and says what was thrown.  The message of
an error is sent under `error` and looked for under `text`.
-/

namespace YoutubeFactory.Llm

open Python

variable {F : Type}

/-! ## The response -/

mutual

/-- A value as `json.dumps` takes it. -/
def dumpOf (format : FloatFormat F) : Json → Dumpable F
  | .null => .none
  | .bool b => .bool b
  | .int i => .int i
  | .float repr => .float (format.parse repr.toList)
  | .str s => textDump s
  | .list items => .list (dumpsOf format items)
  | .dict entries => .dict (dumpEntriesOf format entries)

def dumpsOf (format : FloatFormat F) : List Json → List (Dumpable F)
  | [] => []
  | item :: items => dumpOf format item :: dumpsOf format items

def dumpEntriesOf (format : FloatFormat F) :
    List (String × Json) → List (DumpKey F × Dumpable F)
  | [] => []
  | (key, v) :: entries => (.str (codesOf key), dumpOf format v) :: dumpEntriesOf format entries

end

/-- What `event_source` yields for a payload, without the empty line after it. -/
def line (format : FloatFormat F) (payload : Json) : List Char :=
  "data: ".toList ++ dumps format .spaced (dumpOf format payload)

/-- The body of the response. -/
def body (format : FloatFormat F) (payloads : List Json) : List Char :=
  Frames.send '\n' (payloads.map (line format))

/-! ## The providers -/

/-- `MockProvider.stream`, of the response that `_build_response` makes. -/
def mockStream (response : ChatResponse) : List StreamEvent :=
  ⟨"start", "", none, none⟩ ::
    ((response.content.toList.splitOn ' ').map fun token =>
      ⟨"delta", String.ofList (token ++ [' ']), none, none⟩) ++
    [⟨"done", "", some response, none⟩]

/-- `AnthropicProvider.stream`: the texts of the SDK, and what it raises or returns after them.
`opened` is false if it raises before the first one. -/
def anthropicStream (opened : Bool) (texts : List String) (final : Except String ChatResponse) :
    List StreamEvent :=
  (if opened then
    ⟨"start", "", none, none⟩ :: texts.map fun text => ⟨"delta", text, none, none⟩
  else []) ++
    [match final with
      | .ok response => ⟨"done", "", some response, none⟩
      | .error message => ⟨"error", "", none, some message⟩]

/-! ## The client -/

/-- The whitespace of `trim`. -/
def trimmed (c : Char) : Bool :=
  [0x9, 0xa, 0xb, 0xc, 0xd, 0x20, 0xa0, 0x1680, 0x2000, 0x2001, 0x2002, 0x2003, 0x2004, 0x2005,
    0x2006, 0x2007, 0x2008, 0x2009, 0x200a, 0x2028, 0x2029, 0x202f, 0x205f, 0x3000,
    0xfeff].contains c.toNat

/-- `text.trim()` -/
def trim (s : List Char) : List Char :=
  ((s.dropWhile trimmed).reverse.dropWhile trimmed).reverse

mutual

/-- A JSON text without its strings. -/
def outsideStrings : List Char → List Char
  | [] => []
  | c :: s => if c = '"' then insideString s else c :: outsideStrings s

/-- The same from inside of a string. -/
def insideString : List Char → List Char
  | [] => []
  | '\\' :: _ :: s => insideString s
  | c :: s => if c = '"' then outsideStrings s else insideString s

end

mutual

/-- A value with its strings in UTF-16. -/
def units : Loaded F → Loaded F
  | .str codes => .str (codes.flatMap utf16Units)
  | .list items => .list (unitsItems items)
  | .dict entries => .dict (unitsEntries entries)
  | v => v

def unitsItems : List (Loaded F) → List (Loaded F)
  | [] => []
  | item :: items => units item :: unitsItems items

def unitsEntries : List (List Nat × Loaded F) → List (List Nat × Loaded F)
  | [] => []
  | (key, v) :: entries => (key.flatMap utf16Units, units v) :: unitsEntries entries

end

/-- `JSON.parse(text)`, or that it throws.  It has the grammar of `json.loads` without the names
`NaN` and `Infinity`. -/
def jsonParse (format : FloatFormat F) (s : List Char) : Option (Loaded F) :=
  if (outsideStrings s).any fun c => c = 'N' || c = 'I' then none
  else
    match loads format.parse s with
    | .ok v => some (units v)
    | .error _ => none

/-- What `stream` yields for a frame. -/
def readFrame (format : FloatFormat F) (frame : List Char) : Option (Loaded F) :=
  let line := trim frame
  if "data:".toList.isPrefixOf line then
    let payload := trim (line.drop 5)
    if payload = [] then none else jsonParse format payload
  else none

/-- What `stream` has yielded when these chunks have arrived. -/
def received (format : FloatFormat F) (chunks : List (List Char)) : List (Loaded F) :=
  (Frames.receive '\n' chunks).1.filterMap (readFrame format)

/-! ## The playground -/

/-- The UTF-16 units of a text. -/
def unitsOf (s : String) : List Nat := utf16 (codesOf s)

/-- `ev[name]`, if it is a string. -/
def field (name : String) (ev : Loaded F) : Option (List Nat) :=
  match ev.get? name with
  | some (.str units) => some units
  | _ => none

/-- The answer so far, or the message of the error that was thrown. -/
inductive Shown where
  | answer (units : List Nat)
  | failed (message : List Nat)
deriving DecidableEq

/-- One turn of the loop in `send`. -/
def Shown.next (shown : Shown) (ev : Loaded F) : Shown :=
  match shown with
  | .failed message => .failed message
  | .answer acc =>
      let units := (field "text" ev).getD []
      if field "type" ev = some (unitsOf "delta") ∧ units ≠ [] then .answer (acc ++ units)
      else if field "type" ev = some (unitsOf "error") then
        .failed (if units = [] then unitsOf "Stream error" else units)
      else .answer acc

/-- How the reading of the body stands: it goes on, it came to its end, or `read` was rejected, with
the message of what it threw if that is an `Error`. -/
inductive Reading where
  | going
  | ended
  | rejected (message : Option (List Nat))

/-- The loop ends with the body.  Nothing is read after it has thrown. -/
def Shown.read (shown : Shown) (reading : Reading) : Shown :=
  match shown, reading with
  | .answer _, .rejected message => .failed (message.getD (unitsOf "Request failed"))
  | shown, _ => shown

/-- `Turn` of the page. -/
structure PageTurn where
  role : String
  content : List Nat
deriving DecidableEq

/-- The turns of the page, and what the toast says, if there is one. -/
structure PlaygroundPage where
  turns : List PageTurn
  toast : Option (List Nat)
deriving DecidableEq

/-- What `send` leaves on the page: the turns with the answer, or what its `catch` does. -/
def Shown.page (base : List PageTurn) : Shown → PlaygroundPage
  | .answer acc => ⟨base ++ [⟨"assistant", acc⟩], none⟩
  | .failed message => ⟨base, some message⟩

/-- `send` on an open stream, after these events.  `base` are the turns with the user's. -/
def playground (base : List PageTurn) (evs : List (Loaded F)) (reading : Reading) :
    PlaygroundPage :=
  ((evs.foldl Shown.next (.answer [])).read reading).page base

/-! ## What the client is given -/

/-- The texts of the payload of an event. -/
def StreamEvent.texts (event : StreamEvent) : List (String × String) :=
  ("type", event.kind) :: ("text", event.text) :: match event.error with
    | none => []
    | some error => if error = "" then [] else [("error", error)]

/-- The object that the client is given for an event. -/
def StreamEvent.seen (event : StreamEvent) : Loaded F :=
  .dict (event.texts.map fun entry => (unitsOf entry.1, .str (unitsOf entry.2)))

/-- What some events say: the texts of the deltas, or what the first error says. -/
def shownOf (events : List StreamEvent) : Shown :=
  match events.find? fun event => event.kind = "error" with
  | none =>
      .answer ((events.filter fun event => event.kind = "delta").flatMap fun event =>
        unitsOf event.text)
  | some event => .failed (unitsOf (if event.text = "" then "Stream error" else event.text))

/-- The page for some events: without the answer when one of them is an error or a read was
rejected, and else with the texts of the deltas. -/
def pageShown (base : List PageTurn) (events : List StreamEvent) (reading : Reading) :
    PlaygroundPage :=
  match events.find? fun event => event.kind = "error" with
  | some event => ⟨base, some (unitsOf (if event.text = "" then "Stream error" else event.text))⟩
  | none =>
      match reading with
      | .rejected message => ⟨base, some (message.getD (unitsOf "Request failed"))⟩
      | _ =>
          ⟨base ++ [⟨"assistant", (events.filter fun event => event.kind = "delta").flatMap
            fun event => unitsOf event.text⟩], none⟩

theorem flatMap_readText (s : String) : (readText s).flatMap utf16Units = unitsOf s := by
  simp [readText, unitsOf, utf16, codesOf, List.flatMap_map, Code.ofChar]

theorem unitsOf_injective : Function.Injective unitsOf := by
  intro s t h
  refine readText_injective ?_
  rw [← rejoin_codesOf, ← rejoin_codesOf, rejoin, rejoin]
  exact congrArg joinUnits h

theorem unitsOf_eq_nil_iff {s : String} : unitsOf s = [] ↔ s = "" :=
  ⟨fun h => unitsOf_injective (h.trans rfl), fun h => h ▸ rfl⟩

/-! ## Text -/

theorem trim_eq {s : List Char} (hhead : ∀ c ∈ s.head?, trimmed c = false)
    (hlast : ∀ c ∈ s.getLast?, trimmed c = false) : trim s = s := by
  have hfront : s.dropWhile trimmed = s := by
    cases s with
    | nil => rfl
    | cons c s => rw [List.dropWhile_cons, hhead c rfl]; rfl
  have hback : s.reverse.dropWhile trimmed = s.reverse := by
    cases hs : s.reverse with
    | nil => rfl
    | cons c more =>
        have hc : c ∈ s.getLast? := by
          rw [← List.head?_reverse, hs]
          rfl
        rw [List.dropWhile_cons, hlast c hc]
        rfl
  rw [trim, hfront, hback, List.reverse_reverse]

theorem insideString_cons {c : Char} (hquote : c ≠ '"') (hbackslash : c ≠ '\\') (s : List Char) :
    insideString (c :: s) = insideString s := by
  rw [insideString.eq_3 _ _ (fun _ _ h => absurd h hbackslash), if_neg hquote]

theorem insideString_escapeUnit {unit : Nat} (h : unit < 0x10000) (s : List Char) :
    insideString (escapeUnit unit ++ s) = insideString s := by
  have hdigit : ∀ d < 0x10, d.digitChar ≠ '"' ∧ d.digitChar ≠ '\\' := by decide
  obtain hescape | ⟨c, hescape, -⟩ | ⟨c, hescape, -, hquote, hbackslash, -⟩ :=
    escapeUnit_cases unit
  · have hskip : ∀ d < 0x10, ∀ s, insideString (d.digitChar :: s) = insideString s :=
      fun d hd s => insideString_cons (hdigit d hd).1 (hdigit d hd).2 s
    rw [hescape]
    simp only [unicodeEscape, List.cons_append, List.nil_append]
    rw [insideString, hskip _ (by omega), hskip _ (by omega), hskip _ (by omega),
      hskip _ (by omega)]
  · rw [hescape]
    rfl
  · rw [hescape]
    exact insideString_cons hquote hbackslash s

/-- Nothing of a string is outside of it. -/
theorem outsideStrings_dumpStr (codes : List Code) (s : List Char) :
    outsideStrings (dumpStr codes ++ s) = outsideStrings s := by
  have hinside : ∀ units : List Nat, (∀ unit ∈ units, unit < 0x10000) →
      insideString (escapeUnits units ++ '"' :: s) = outsideStrings s := by
    intro units hunits
    induction units with
    | nil => rfl
    | cons unit units ih =>
        obtain ⟨hunit, hrest⟩ := List.forall_mem_cons.mp hunits
        rw [escapeUnits_cons, List.append_assoc, insideString_escapeUnit hunit, ih hrest]
  rw [dumpStr_append, outsideStrings, if_pos rfl]
  exact hinside _ fun _ => utf16_lt

section

variable {format : FloatFormat F}

theorem outsideStrings_cons {c : Char} (h : c ≠ '"') (s : List Char) :
    outsideStrings (c :: s) = c :: outsideStrings s := by
  rw [outsideStrings, if_neg h]

/-- The entries of an object of texts. -/
def textEntries (entries : List (String × String)) : List (DumpKey F × Dumpable F) :=
  entries.map fun entry => (.str (codesOf entry.1), textDump entry.2)

theorem outsideStrings_entry (key : String) (v : String) (s : List Char) :
    outsideStrings (dumpStr (codesOf key) ++ ':' :: (Separators.spaced.pad ++
      (dumps format .spaced (textDump v) ++ s))) = ':' :: ' ' :: outsideStrings s := by
  rw [outsideStrings_dumpStr, outsideStrings_cons (by decide)]
  show ':' :: outsideStrings (' ' :: (dumpStr (codesOf v) ++ s)) = _
  rw [outsideStrings_cons (by decide), outsideStrings_dumpStr]

theorem outsideStrings_entries (entries : List (String × String)) :
    outsideStrings (dumpEntries format .spaced (textEntries entries)) =
      (entries.flatMap fun _ => [',', ' ', ':', ' ']) ++ ['}'] := by
  induction entries with
  | nil => rfl
  | cons entry entries ih =>
      have htext : dumpEntries format .spaced (textEntries (entry :: entries)) =
          ',' :: ' ' :: (dumpStr (codesOf entry.1) ++ ':' :: (Separators.spaced.pad ++
            (dumps format .spaced (textDump entry.2) ++
              dumpEntries format .spaced (textEntries entries)))) := by
        simp [textEntries, dumpEntries, DumpKey.codes, Separators.pad]
      rw [htext, outsideStrings_cons (by decide), outsideStrings_cons (by decide),
        outsideStrings_entry, ih]
      rfl

/-- The text of an object of texts, between its braces. -/
theorem dumps_texts (entry : String × String) (entries : List (String × String)) :
    dumps format .spaced (.dict (textEntries (entry :: entries))) =
      '{' :: (dumpStr (codesOf entry.1) ++ ':' :: (Separators.spaced.pad ++
        (dumps format .spaced (textDump entry.2) ++
          dumpEntries format .spaced (textEntries entries)))) := by
  simp [textEntries, dumps, DumpKey.codes]

/-- An object of texts has no name of a constant. -/
theorem outsideStrings_texts (entry : String × String) (entries : List (String × String)) :
    (outsideStrings (dumps format .spaced (.dict (textEntries (entry :: entries))))).any
      (fun c => c = 'N' || c = 'I') = false := by
  rw [dumps_texts, outsideStrings_cons (by decide), outsideStrings_entry, outsideStrings_entries]
  simp

theorem getLast?_dumpEntries (entries : List (String × String)) (s : List Char) :
    (s ++ dumpEntries format .spaced (textEntries entries)).getLast? = some '}' := by
  induction entries generalizing s with
  | nil => simp [textEntries, dumpEntries]
  | cons entry entries ih =>
      have htext : s ++ dumpEntries format .spaced (textEntries (entry :: entries)) =
          (s ++ ',' :: (Separators.spaced.pad ++ dumpStr (codesOf entry.1) ++
            ':' :: (Separators.spaced.pad ++ dumps format .spaced (textDump entry.2)))) ++
              dumpEntries format .spaced (textEntries entries) := by
        simp [textEntries, dumpEntries, DumpKey.codes]
      rw [htext, ih]

/-- What the client makes of a frame that holds an object of texts. -/
theorem readFrame_texts (entry : String × String) (entries : List (String × String)) :
    readFrame format ("data: ".toList ++
        dumps format .spaced (.dict (textEntries (entry :: entries)))) =
      some (units ((Dumpable.dict (textEntries (entry :: entries))).loaded format)) := by
  have hlast : ∀ s : List Char,
      (s ++ dumps format .spaced (.dict (textEntries (entry :: entries)))).getLast? = some '}' := by
    intro s
    rw [dumps_texts]
    have htext : ∀ t : List Char, s ++ '{' :: (dumpStr (codesOf entry.1) ++
        ':' :: (Separators.spaced.pad ++ (dumps format .spaced (textDump entry.2) ++ t))) =
          (s ++ '{' :: (dumpStr (codesOf entry.1) ++
            ':' :: (Separators.spaced.pad ++ dumps format .spaced (textDump entry.2)))) ++ t := by
      simp
    rw [htext, getLast?_dumpEntries]
  have hparse : jsonParse format (dumps format .spaced (.dict (textEntries (entry :: entries)))) =
      some (units ((Dumpable.dict (textEntries (entry :: entries))).loaded format)) := by
    rw [jsonParse, outsideStrings_texts, loads_dumps]
    rfl
  have hbrace : ∃ more, dumps format .spaced (.dict (textEntries (entry :: entries))) =
      '{' :: more := ⟨_, dumps_texts entry entries⟩
  obtain ⟨more, hmore⟩ := hbrace
  rw [hmore] at hlast hparse ⊢
  have hline : trim ("data: ".toList ++ '{' :: more) = "data: ".toList ++ '{' :: more := by
    refine trim_eq ?_ ?_
    · rintro c ⟨⟩
      decide
    · rw [hlast]
      rintro c ⟨⟩
      decide
  have hpayload : trim (' ' :: '{' :: more) = '{' :: more := by
    refine Eq.trans ?_ (trim_eq (s := '{' :: more) ?_ ?_)
    · rw [trim, List.dropWhile_cons_of_pos (by decide)]
      rfl
    · rintro c ⟨⟩
      decide
    · have hlast := hlast []
      rw [List.nil_append] at hlast
      rw [hlast]
      rintro c ⟨⟩
      decide
  have hstarts : "data:".toList.isPrefixOf ("data: ".toList ++ '{' :: more) = true := by simp
  have hdrop : ("data: ".toList ++ '{' :: more).drop 5 = ' ' :: '{' :: more := by simp
  rw [readFrame, hline, if_pos hstarts, hdrop, hpayload, if_neg (List.cons_ne_nil _ _), hparse]

end

/-! ## Events -/

section

variable {format : FloatFormat F} {account : ChatResponse → LlmM Unit}

theorem dumpOf_toSse (event : StreamEvent) :
    dumpOf format event.toSse = .dict (textEntries event.texts) := by
  obtain ⟨kind, text, response, error⟩ := event
  rw [StreamEvent.toSse, StreamEvent.texts]
  cases error with
  | none => rfl
  | some error =>
      dsimp only
      split <;> rfl

theorem textEntries_eq (entries : List (String × String)) :
    (.dict (textEntries entries) : Dumpable F) =
      strDict (entries.map fun entry => (entry.1, textDump entry.2)) := by
  simp [textEntries, strDict]

theorem unitsEntries_eq_map (entries : List (List Nat × Loaded F)) :
    unitsEntries entries =
      entries.map fun entry => (entry.1.flatMap utf16Units, units entry.2) := by
  induction entries with
  | nil => rfl
  | cons entry entries ih => rw [unitsEntries, ih, List.map_cons]

/-- The client is given the object of each event. -/
theorem readFrame_line (event : StreamEvent) :
    readFrame format (line format event.toSse) = some event.seen := by
  have hdistinct : (event.texts.map Prod.fst).Nodup := by
    rw [StreamEvent.texts]
    split
    · simp
    · split <;> simp
  have hread := @readFrame_texts F format ("type", event.kind) event.texts.tail
  have hcons : ("type", event.kind) :: event.texts.tail = event.texts := rfl
  rw [hcons] at hread
  show readFrame format ("data: ".toList ++ dumps format .spaced (dumpOf format event.toSse)) = _
  rw [dumpOf_toSse, hread, textEntries_eq,
    loaded_strDict (by rw [List.map_map]; exact hdistinct), units, unitsEntries_eq_map,
    StreamEvent.seen]
  simp [loaded_textDump, units, flatMap_readText]

/-- What is received of the body are events, in their order. -/
theorem received_of_prefix {events : List StreamEvent} {chunks : List (List Char)}
    (h : chunks.flatten <+: body format (events.map StreamEvent.toSse)) :
    ∃ k ≤ events.length, received format chunks = (events.take k).map StreamEvent.seen ∧
      body format ((events.take k).map StreamEvent.toSse) <+: chunks.flatten ∧
      (k < events.length → chunks.flatten.length <
        (body format ((events.take (k + 1)).map StreamEvent.toSse)).length) := by
  have hframes : ∀ frame ∈ (events.map StreamEvent.toSse).map (line format), '\n' ∉ frame := by
    intro frame hframe hnewline
    obtain ⟨payload, -, rfl⟩ := List.mem_map.mp hframe
    have hprintable : Printable (line format payload) :=
      .append (by decide) (printable_dumps (dumpOf format payload))
    exact absurd (hprintable _ hnewline).1 (by decide)
  obtain ⟨k, hk, hcut, hsent, hlength⟩ := Frames.cut_of_prefix hframes h
  rw [List.length_map, List.length_map] at hk hlength
  rw [← List.map_take, ← List.map_take] at hcut hsent
  rw [← List.map_take, ← List.map_take] at hlength
  refine ⟨k, hk, ?_, hsent, hlength⟩
  rw [received, Frames.receive_eq, hcut]
  have hread : ∀ events : List StreamEvent, ((events.map StreamEvent.toSse).map
      (line format)).filterMap (readFrame format) = events.map StreamEvent.seen := by
    intro events
    induction events with
    | nil => rfl
    | cons event events ih =>
        rw [List.map_cons, List.map_cons, List.filterMap_cons, readFrame_line, ih]
        rfl
  exact hread _

/-! ## What is shown -/

theorem field_type (event : StreamEvent) :
    field "type" (event.seen : Loaded F) = some (unitsOf event.kind) := by
  have htype : unitsOf "type" = readText "type" := by decide
  simp [field, Loaded.get?, StreamEvent.seen, StreamEvent.texts, htype]

theorem field_text (event : StreamEvent) :
    field "text" (event.seen : Loaded F) = some (unitsOf event.text) := by
  have htype : unitsOf "type" ≠ readText "text" := by decide
  have htext : unitsOf "text" = readText "text" := by decide
  simp [field, Loaded.get?, StreamEvent.seen, StreamEvent.texts, htype, htext]

/-- One turn of the loop, for an event that was sent. -/
theorem next_seen (acc : List Nat) (event : StreamEvent) :
    Shown.next (.answer acc) (event.seen : Loaded F) =
      if event.kind = "delta" then .answer (acc ++ unitsOf event.text)
      else if event.kind = "error" then
        .failed (unitsOf (if event.text = "" then "Stream error" else event.text))
      else .answer acc := by
  rw [Shown.next, field_type, field_text]
  simp only [Option.getD_some, Option.some.injEq, unitsOf_injective.eq_iff, ne_eq,
    unitsOf_eq_nil_iff]
  by_cases hdelta : event.kind = "delta"
  · by_cases htext : event.text = ""
    · simp [hdelta, htext, unitsOf_eq_nil_iff.mpr]
    · simp [hdelta, htext]
  · simp only [hdelta, false_and, if_false]
    split
    · split <;> rfl
    · rfl

theorem foldl_failed (message : List Nat) (evs : List (Loaded F)) :
    evs.foldl Shown.next (.failed message) = .failed message := by
  induction evs with
  | nil => rfl
  | cons ev evs ih => exact ih

/-- What is shown after an answer so far. -/
def Shown.after (acc : List Nat) : Shown → Shown
  | .answer units => .answer (acc ++ units)
  | .failed message => .failed message

theorem Shown.after_nil (shown : Shown) : shown.after [] = shown := by cases shown <;> rfl

theorem Shown.after_after (acc units : List Nat) (shown : Shown) :
    (shown.after units).after acc = shown.after (acc ++ units) := by
  cases shown <;> simp [Shown.after]

theorem shownOf_cons (event : StreamEvent) (events : List StreamEvent) :
    shownOf (event :: events) =
      if event.kind = "delta" then (shownOf events).after (unitsOf event.text)
      else if event.kind = "error" then
        .failed (unitsOf (if event.text = "" then "Stream error" else event.text))
      else shownOf events := by
  unfold shownOf
  by_cases herror : event.kind = "error"
  · simp [herror]
  · rw [List.find?_cons_of_neg (by simpa using herror), if_neg herror]
    by_cases hdelta : event.kind = "delta"
    · rw [if_pos hdelta]
      cases events.find? fun event => event.kind = "error" with
      | none => simp [hdelta, Shown.after]
      | some event => rfl
    · simp [hdelta]

/-- The loop, from an answer on. -/
theorem foldl_seen (events : List StreamEvent) (acc : List Nat) :
    (events.map (StreamEvent.seen : StreamEvent → Loaded F)).foldl Shown.next (.answer acc) =
      (shownOf events).after acc := by
  induction events generalizing acc with
  | nil => simp [shownOf, Shown.after]
  | cons event events ih =>
      rw [List.map_cons, List.foldl_cons, next_seen, shownOf_cons]
      split
      · rw [ih, Shown.after_after]
      · split
        · exact foldl_failed _ _
        · exact ih acc

theorem page_read_shownOf (base : List PageTurn) (events : List StreamEvent) (reading : Reading) :
    ((shownOf events).read reading).page base = pageShown base events reading := by
  unfold shownOf pageShown
  cases events.find? fun event => event.kind = "error" with
  | some event => rfl
  | none => cases reading <;> rfl

theorem playground_seen (base : List PageTurn) (events : List StreamEvent) (reading : Reading) :
    playground base (events.map (StreamEvent.seen : StreamEvent → Loaded F)) reading =
      pageShown base events reading := by
  rw [playground, foldl_seen, Shown.after_nil, page_read_shownOf]

/-! ## The providers -/

theorem unitsOf_append (s t : String) : unitsOf (s ++ t) = unitsOf s ++ unitsOf t := by
  simp [unitsOf, codesOf, utf16]

theorem shownOf_deltas (texts : List String) (events : List StreamEvent) :
    shownOf ((texts.map fun text => ⟨"delta", text, none, none⟩) ++ events) =
      (shownOf events).after (unitsOf (String.join texts)) := by
  induction texts with
  | nil => exact (Shown.after_nil _).symm
  | cons text texts ih =>
      rw [List.map_cons, List.cons_append, shownOf_cons, if_pos rfl, ih, Shown.after_after,
        String.join_cons, unitsOf_append]

/-- The pieces of a text, each with the separator after it. -/
theorem flatMap_of_ne_nil {x : Char} {tokens : List (List Char)} (h : tokens ≠ []) :
    tokens.flatMap (fun token => token ++ [x]) = [x].intercalate tokens ++ [x] := by
  induction tokens with
  | nil => exact absurd rfl h
  | cons token tokens ih =>
      cases tokens with
      | nil => simp
      | cons next tokens =>
          rw [List.flatMap_cons, ih (List.cons_ne_nil _ _),
            List.intercalate_cons_of_ne_nil (List.cons_ne_nil _ _)]
          simp

/-- The mock provider streams its answer, and a space after it. -/
theorem shownOf_mockStream (response : ChatResponse) :
    shownOf (mockStream response) = .answer (unitsOf (response.content ++ " ")) := by
  have hdeltas : ((response.content.toList.splitOn ' ').map fun token =>
      (⟨"delta", String.ofList (token ++ [' ']), none, none⟩ : StreamEvent)) =
        ((response.content.toList.splitOn ' ').map fun token =>
          String.ofList (token ++ [' '])).map fun text => ⟨"delta", text, none, none⟩ := by
    rw [List.map_map]
    rfl
  have hjoin : String.join ((response.content.toList.splitOn ' ').map fun token =>
      String.ofList (token ++ [' '])) = response.content ++ " " := by
    have hlists : ∀ tokens : List (List Char), (String.join (tokens.map fun token =>
        String.ofList (token ++ [' ']))).toList = tokens.flatMap fun token => token ++ [' '] := by
      intro tokens
      induction tokens with
      | nil => rfl
      | cons token tokens ih =>
          rw [List.map_cons, String.join_cons, String.toList_append, ih, String.toList_ofList,
            List.flatMap_cons]
    rw [← String.toList_inj, hlists, flatMap_of_ne_nil (List.splitOn_ne_nil _ _),
      List.intercalate_splitOn]
    simp
  rw [mockStream, List.cons_append, shownOf_cons, if_neg (by decide), if_neg (by decide), hdeltas,
    shownOf_deltas, hjoin]
  simp [shownOf, Shown.after]

/-- The texts of the SDK are shown, or that there was an error. -/
theorem shownOf_anthropicStream (opened : Bool) (texts : List String) (response : ChatResponse) :
    shownOf (anthropicStream opened texts (.ok response)) =
      .answer (if opened then unitsOf (String.join texts) else []) := by
  unfold anthropicStream
  cases opened with
  | false => rfl
  | true =>
      rw [if_pos rfl, List.cons_append, shownOf_cons, if_neg (by decide), if_neg (by decide),
        shownOf_deltas]
      rw [if_pos rfl]
      simp [shownOf, Shown.after]

theorem shownOf_anthropicStream_error (opened : Bool) (texts : List String) (message : String) :
    shownOf (anthropicStream opened texts (.error message)) =
      .failed (unitsOf "Stream error") := by
  unfold anthropicStream
  cases opened with
  | false => rfl
  | true =>
      rw [if_pos rfl, List.cons_append, shownOf_cons, if_neg (by decide), if_neg (by decide),
        shownOf_deltas]
      rfl

/-! ## The stream -/

/-- The service passes the events on, unless one of them cannot be accounted for. -/
theorem streamEvents_eq (account : ChatResponse → LlmM Unit) (events : List StreamEvent)
    (db : LlmDb) :
    ∃ n ≤ events.length,
      (streamEvents account events db).1 = (events.take n).map StreamEvent.toSse ∧
        ∀ db', (streamEvents account events db).2 = .ok db' → n = events.length := by
  induction events generalizing db with
  | nil => exact ⟨0, Nat.le_refl _, rfl, fun _ _ => rfl⟩
  | cons event events ih =>
      have hpassed : ∀ db₁, ∃ n ≤ (event :: events).length,
          event.toSse :: (streamEvents account events db₁).1 =
              ((event :: events).take n).map StreamEvent.toSse ∧
            ∀ db', (streamEvents account events db₁).2 = .ok db' →
              n = (event :: events).length := by
        intro db₁
        obtain ⟨n, hn, hevents, hall⟩ := ih db₁
        refine ⟨n + 1, Nat.succ_le_succ hn, ?_, fun db' h => congrArg (· + 1) (hall db' h)⟩
        rw [hevents, List.take_succ_cons, List.map_cons]
      unfold streamEvents
      split
      · exact hpassed db
      · split
        · exact ⟨0, Nat.zero_le _, rfl, by simp⟩
        · exact hpassed _

/-- The client has the events that arrived as a whole, and the playground shows their text, until
one of them is an error or a read is rejected. -/
theorem stream_delivered (format : FloatFormat F) (account : ChatResponse → LlmM Unit)
    (events : List StreamEvent) (db : LlmDb) {chunks : List (List Char)}
    (harrived : chunks.flatten <+: body format (streamEvents account events db).1) :
    ∃ k ≤ (streamEvents account events db).1.length,
      received format chunks = (events.take k).map StreamEvent.seen ∧
      (∀ base reading, playground base (received format chunks) reading =
        pageShown base (events.take k) reading) ∧
      body format ((events.take k).map StreamEvent.toSse) <+: chunks.flatten ∧
      (k < (streamEvents account events db).1.length → chunks.flatten.length <
        (body format ((events.take (k + 1)).map StreamEvent.toSse)).length) ∧
      (chunks.flatten = body format (streamEvents account events db).1 → ∀ db',
        (streamEvents account events db).2 = .ok db' → k = events.length) := by
  obtain ⟨n, hn, hpassed, hall⟩ := streamEvents_eq account events db
  rw [hpassed] at harrived ⊢
  obtain ⟨k, hk, hreceived, hsent, hlength⟩ := received_of_prefix harrived
  rw [List.length_take, Nat.min_eq_left hn] at hk hlength
  rw [List.take_take, Nat.min_eq_left hk] at hreceived hsent
  rw [List.length_map, List.length_take, Nat.min_eq_left hn]
  refine ⟨k, hk, hreceived, ?_, hsent, fun hlt => ?_, fun hwhole db' hdb => ?_⟩
  · intro base reading
    rw [hreceived, playground_seen]
  · have hlength := hlength hlt
    rwa [List.take_take, Nat.min_eq_left hlt] at hlength
  · obtain rfl | hlt := Nat.eq_or_lt_of_le hk
    · exact hall db' hdb
    · have hpart : body format ((events.take (k + 1)).map StreamEvent.toSse) <+:
          body format ((events.take n).map StreamEvent.toSse) := by
        have hpart := Frames.send_take_prefix '\n'
          (((events.take n).map StreamEvent.toSse).map (line format)) (k + 1)
        rwa [← List.map_take, ← List.map_take, List.take_take, Nat.min_eq_left hlt] at hpart
      have hlength := hlength hlt
      rw [List.take_take, Nat.min_eq_left hlt, hwhole] at hlength
      exact absurd hpart.length_le (Nat.not_le.mpr hlength)

end

/-! ## Half of an answer -/

def answered : ChatResponse := ⟨"Hi there", "claude-opus-4-8", "end_turn", ⟨1, 2, 0, 0⟩⟩

def answeredBody : List Char :=
  body zeroFormat (streamEvents (fun r => recordStream plainEnv r none none 0 ⟨60, 0, none⟩)
    (mockStream answered) freshState.db).1

def greeted : List PageTurn := [⟨"user", unitsOf "Hello"⟩]

/-- Of a body that breaks off in its third event, the first word is shown, and is taken back when
the read after it is rejected. -/
theorem stream_delivered_broken :
    playground greeted
        (received zeroFormat [answeredBody.take 50, (answeredBody.drop 50).take 40]) .going =
      ⟨greeted ++ [⟨"assistant", unitsOf "Hi "⟩], none⟩ ∧
    playground greeted
        (received zeroFormat [answeredBody.take 50, (answeredBody.drop 50).take 40])
        (.rejected (some (unitsOf "network error"))) =
      ⟨greeted, some (unitsOf "network error")⟩ := by
  have harrived : [answeredBody.take 50, (answeredBody.drop 50).take 40].flatten =
      answeredBody.take 90 := by
    simp [← List.take_add]
  obtain ⟨k, hk, -, hshown, hsent, hmore, -⟩ :=
    stream_delivered zeroFormat (fun r => recordStream plainEnv r none none 0 ⟨60, 0, none⟩)
      (mockStream answered) freshState.db (harrived ▸ List.take_prefix 90 answeredBody)
  have hsize : answeredBody.length = 156 ∧ ∀ k, k < 5 →
      (body zeroFormat (((mockStream answered).take k).map StreamEvent.toSse)).length =
        [0, 37, 77, 120, 156].getD k 0 := by
    decide +kernel
  have hlength : (answeredBody.take 90).length = 90 := by
    rw [List.length_take, hsize.1]
    rfl
  have hk : k ≤ 4 := hk
  rw [harrived] at hsent hmore
  have hleast := hsent.length_le
  rw [hsize.2 k (by omega), hlength] at hleast
  obtain rfl | rfl | rfl | rfl | rfl : k = 0 ∨ k = 1 ∨ k = 2 ∨ k = 3 ∨ k = 4 := by omega
  · have hmore := hmore (by decide)
    rw [hsize.2 1 (by decide), hlength] at hmore
    exact absurd hmore (by decide)
  · have hmore := hmore (by decide)
    rw [hsize.2 2 (by decide), hlength] at hmore
    exact absurd hmore (by decide)
  · rw [hshown, hshown]
    exact ⟨rfl, rfl⟩
  · exact absurd hleast (by decide)
  · exact absurd hleast (by decide)

end YoutubeFactory.Llm
