import Mathlib.Data.List.Basic
import Mathlib.Data.String.Basic

/-!
# Labels in the Prometheus text format

A label block is read character by character.  A name is a token, and blanks may stand around the
tokens.  A value stands between quotes, with `\\`, `\"` and `\n` for a backslash, a quote and a line
feed, and no line feed of its own.  A comma may end the labels.  A sample without labels has no
block.

What is written between the quotes by `escape` is read as it was (`read_escape`), so a block of
labels is read as these labels (`read_labels`).
-/

namespace Exposition

/-- `[a-zA-Z_]` -/
def isNameStart (c : Char) : Bool := c.isAlpha || c = '_'

/-- `[a-zA-Z0-9_]` -/
def isNameChar (c : Char) : Bool := isNameStart c || c.isDigit

/-- A label name. -/
def IsName (name : List Char) : Prop :=
  ∃ c cs, name = c :: cs ∧ isNameStart c = true ∧ ∀ d ∈ cs, isNameChar d = true

def isBlank (c : Char) : Bool := c = ' ' || c = '\t'

/-! ## Reading -/

/-- The labels that are read, and where in the next one the reader is. -/
inductive Reader where
  | start
  | beforeName (labels : List (String × String))
  | inName (labels : List (String × String)) (name : List Char)
  | afterName (labels : List (String × String)) (name : List Char)
  | beforeValue (labels : List (String × String)) (name : List Char)
  | inValue (labels : List (String × String)) (name value : List Char)
  | escaped (labels : List (String × String)) (name value : List Char)
  | afterValue (labels : List (String × String))
  | done (labels : List (String × String))
deriving DecidableEq

/-- One character. -/
def step : Reader → Char → Option Reader
  | .start, c => if c = '\x7b' then some (.beforeName []) else none
  | .beforeName labels, c =>
      if c = '\x7d' then some (.done labels)
      else if isBlank c then some (.beforeName labels)
      else if isNameStart c then some (.inName labels [c])
      else none
  | .inName labels name, c =>
      if isNameChar c then some (.inName labels (name ++ [c]))
      else if c = '=' then some (.beforeValue labels name)
      else if isBlank c then some (.afterName labels name)
      else none
  | .afterName labels name, c =>
      if c = '=' then some (.beforeValue labels name)
      else if isBlank c then some (.afterName labels name)
      else none
  | .beforeValue labels name, c =>
      if c = '"' then some (.inValue labels name [])
      else if isBlank c then some (.beforeValue labels name)
      else none
  | .inValue labels name value, c =>
      if c = '"' then some (.afterValue (labels ++ [(String.ofList name, String.ofList value)]))
      else if c = '\\' then some (.escaped labels name value)
      else if c = '\n' then none
      else some (.inValue labels name (value ++ [c]))
  | .escaped labels name value, c =>
      if c = '"' ∨ c = '\\' then some (.inValue labels name (value ++ [c]))
      else if c = 'n' then some (.inValue labels name (value ++ ['\n']))
      else none
  | .afterValue labels, c =>
      if c = ',' then some (.beforeName labels)
      else if c = '\x7d' then some (.done labels)
      else if isBlank c then some (.afterValue labels)
      else none
  | .done _, _ => none

/-- The characters of a text, one after the other. -/
def read (reader : Reader) (text : List Char) : Option Reader := text.foldlM step reader

/-- The labels, when the text is over. -/
def Reader.labels : Reader → Option (List (String × String))
  | .start => some []
  | .done labels => some labels
  | _ => none

/-- The labels of a block. -/
def decode (text : String) : Option (List (String × String)) :=
  (read .start text.toList).bind Reader.labels

/-! ## Values -/

/-- A character between quotes. -/
def escapeChar (c : Char) : List Char :=
  if c = '\\' then ['\\', '\\'] else if c = '"' then ['\\', '"']
  else if c = '\n' then ['\\', 'n'] else [c]

def escape (value : List Char) : List Char := value.flatMap escapeChar

@[simp] theorem read_nil (reader : Reader) : read reader [] = some reader := rfl

theorem read_cons (reader : Reader) (c : Char) (text : List Char) :
    read reader (c :: text) = (step reader c).bind fun next => read next text := rfl

theorem read_append (reader : Reader) (text more : List Char) :
    read reader (text ++ more) = (read reader text).bind fun next => read next more :=
  List.foldlM_append

/-- A character is read as it was, however it is written. -/
theorem read_escapeChar (labels : List (String × String)) (name value : List Char) (c : Char) :
    read (.inValue labels name value) (escapeChar c) =
      some (.inValue labels name (value ++ [c])) := by
  unfold escapeChar
  by_cases hbackslash : c = '\\'
  · subst hbackslash
    rfl
  · rw [if_neg hbackslash]
    by_cases hquote : c = '"'
    · subst hquote
      rfl
    · rw [if_neg hquote]
      by_cases hline : c = '\n'
      · subst hline
        rfl
      · rw [if_neg hline, read_cons, step, if_neg hquote, if_neg hbackslash, if_neg hline]
        rfl

theorem read_escape (labels : List (String × String)) (name start value : List Char) :
    read (.inValue labels name start) (escape value) =
      some (.inValue labels name (start ++ value)) := by
  induction value generalizing start with
  | nil =>
      rw [List.append_nil]
      rfl
  | cons c value ih =>
      have hfirst : escape (c :: value) = escapeChar c ++ escape value := List.flatMap_cons
      rw [hfirst, read_append, read_escapeChar, Option.bind_some, ih, List.append_assoc,
        List.singleton_append]

/-! ## Names -/

theorem not_blank_of_isNameStart {c : Char} (h : isNameStart c = true) :
    c ≠ '\x7d' ∧ isBlank c = false := by
  constructor
  · rintro rfl
    cases h
  · by_contra hblank
    rw [Bool.not_eq_false, isBlank, Bool.or_eq_true, decide_eq_true_eq, decide_eq_true_eq] at hblank
    rcases hblank with rfl | rfl <;> cases h

theorem read_nameChars (labels : List (String × String)) (start name : List Char)
    (h : ∀ c ∈ name, isNameChar c = true) :
    read (.inName labels start) name = some (.inName labels (start ++ name)) := by
  induction name generalizing start with
  | nil => rw [List.append_nil, read_nil]
  | cons c name ih =>
      obtain ⟨hc, hname⟩ := List.forall_mem_cons.mp h
      rw [read_cons, step, if_pos hc, Option.bind_some, ih _ hname, List.append_assoc,
        List.singleton_append]

theorem read_name (labels : List (String × String)) {name : List Char} (h : IsName name) :
    read (.beforeName labels) name = some (.inName labels name) := by
  obtain ⟨c, cs, rfl, hc, hcs⟩ := h
  obtain ⟨hbrace, hblank⟩ := not_blank_of_isNameStart hc
  rw [read_cons, step, if_neg hbrace, if_neg (Bool.eq_false_iff.mp hblank), if_pos hc,
    Option.bind_some, read_nameChars labels [c] cs hcs, List.singleton_append]

/-- A name that a line feed ends cannot be read. -/
theorem read_name_line (labels : List (String × String)) {name : List Char} (h : IsName name)
    (rest : List Char) : read (.beforeName labels) (name ++ '\n' :: rest) = none := by
  rw [read_append, read_name labels h, Option.bind_some, read_cons]
  rfl

/-! ## Labels -/

/-- A label, with the quotes around its value. -/
def label (name value : List Char) : List Char := name ++ '=' :: '"' :: escape value ++ ['"']

theorem read_label (labels : List (String × String)) {name : List Char} (h : IsName name)
    (value : List Char) : read (.beforeName labels) (label name value) =
      some (.afterValue (labels ++ [(String.ofList name, String.ofList value)])) := by
  have hequals : isNameChar '=' = false := by decide
  rw [label, List.append_assoc, read_append, read_name labels h, Option.bind_some, List.cons_append,
    List.cons_append, read_cons, step, if_neg (Bool.eq_false_iff.mp hequals), if_pos rfl,
    Option.bind_some, read_cons, step, if_pos rfl, Option.bind_some, read_append, read_escape]
  rfl

/-- Labels, each after a comma. -/
def following (labels : List (List Char × List Char)) : List Char :=
  labels.flatMap fun l => ',' :: label l.1 l.2

/-- The labels as texts. -/
def texts (labels : List (List Char × List Char)) : List (String × String) :=
  labels.map fun l => (String.ofList l.1, String.ofList l.2)

theorem following_cons (l : List Char × List Char) (labels : List (List Char × List Char)) :
    following (l :: labels) = ',' :: (label l.1 l.2 ++ following labels) := List.flatMap_cons

theorem read_following (start : List (String × String)) {labels : List (List Char × List Char)}
    (h : ∀ l ∈ labels, IsName l.1) : read (.afterValue start) (following labels) =
      some (.afterValue (start ++ texts labels)) := by
  induction labels generalizing start with
  | nil =>
      rw [texts, List.map_nil, List.append_nil]
      rfl
  | cons l labels ih =>
      obtain ⟨hl, hlabels⟩ := List.forall_mem_cons.mp h
      rw [following_cons, read_cons, step, if_pos rfl, Option.bind_some, read_append,
        read_label start hl, Option.bind_some, ih _ hlabels, List.append_assoc]
      rfl

/-- One of the names ends with a line feed. -/
theorem read_following_line (start : List (String × String))
    {labels : List (List Char × List Char)}
    (h : ∀ l ∈ labels, IsName l.1 ∨ ∃ name, IsName name ∧ l.1 = name ++ ['\n'])
    (hline : ∃ l ∈ labels, ¬ IsName l.1) (rest : List Char) :
    read (.afterValue start) (following labels ++ rest) = none := by
  induction labels generalizing start with
  | nil =>
      obtain ⟨l, hl, -⟩ := hline
      cases hl
  | cons l labels ih =>
      obtain ⟨hl, hlabels⟩ := List.forall_mem_cons.mp h
      rw [following_cons, List.cons_append, read_cons, step, if_pos rfl, Option.bind_some,
        List.append_assoc, read_append]
      rcases hl with hname | ⟨name, hname, hl⟩
      · obtain ⟨bad, hbad, hnot⟩ := hline
        have hrest : bad ∈ labels := by
          rcases List.mem_cons.mp hbad with rfl | hbad
          · exact absurd hname hnot
          · exact hbad
        rw [read_label start hname, Option.bind_some]
        exact ih _ hlabels ⟨bad, hrest, hnot⟩
      · rw [label, hl, List.append_assoc, List.append_assoc, List.singleton_append,
          read_name_line start hname]
        rfl

/-! ## Blocks -/

/-- What stands in the braces. -/
def block (parts : List (List Char)) : List Char :=
  if parts = [] then [] else '\x7b' :: ([','].intercalate parts ++ ['\x7d'])

theorem cons_intercalate {parts : List (List Char)} (h : parts ≠ []) :
    ',' :: [','].intercalate parts = parts.flatMap (',' :: ·) := by
  induction parts with
  | nil => exact absurd rfl h
  | cons part parts ih =>
      cases parts with
      | nil => rw [List.intercalate_singleton, List.flatMap_singleton]
      | cons next parts =>
          rw [List.intercalate_cons_cons, List.flatMap_cons, List.append_assoc,
            List.singleton_append, ih (List.cons_ne_nil _ _), List.cons_append]

/-- The first label stands where another would, after a comma. -/
theorem read_block {parts : List (List Char)} (h : parts ≠ []) :
    read .start (block parts) =
      read (.afterValue []) (parts.flatMap (',' :: ·) ++ ['\x7d']) := by
  rw [block, if_neg h, ← cons_intercalate h, List.cons_append, read_cons, read_cons]
  rfl

/-- The labels of a block. -/
def parts (labels : List (List Char × List Char)) : List (List Char) :=
  labels.map fun l => label l.1 l.2

theorem flatMap_parts (labels : List (List Char × List Char)) :
    (parts labels).flatMap (',' :: ·) = following labels := by
  rw [parts, List.flatMap_map, following]

/-- A block is read as its labels. -/
theorem decode_block {labels : List (List Char × List Char)} (h : ∀ l ∈ labels, IsName l.1) :
    decode (String.ofList (block (parts labels))) = some (texts labels) := by
  cases labels with
  | nil => rfl
  | cons l labels =>
      have hne : parts (l :: labels) ≠ [] := List.cons_ne_nil _ _
      rw [decode, String.toList_ofList, read_block hne, flatMap_parts, read_append,
        read_following [] h]
      rfl

theorem decode_block_line {labels : List (List Char × List Char)}
    (h : ∀ l ∈ labels, IsName l.1 ∨ ∃ name, IsName name ∧ l.1 = name ++ ['\n'])
    (hline : ∃ l ∈ labels, ¬ IsName l.1) :
    decode (String.ofList (block (parts labels))) = none := by
  have hne : parts labels ≠ [] := by
    rintro hnil
    obtain ⟨l, hl, -⟩ := hline
    rw [List.map_eq_nil_iff.mp hnil] at hl
    cases hl
  rw [decode, String.toList_ofList, read_block hne, flatMap_parts,
    read_following_line [] h hline]
  rfl

/-! ## Different values -/

/-- What a character after a backslash stands for. -/
def unescaped (e : Char) : Char := if e = 'n' then '\n' else e

theorem escapeChar_cases (c : Char) : (∃ e, escapeChar c = ['\\', e] ∧ c = unescaped e) ∨
    (escapeChar c = [c] ∧ c ≠ '\\' ∧ c ≠ '"') := by
  unfold escapeChar
  by_cases hbackslash : c = '\\'
  · exact .inl ⟨'\\', if_pos hbackslash, hbackslash⟩
  · rw [if_neg hbackslash]
    by_cases hquote : c = '"'
    · exact .inl ⟨'"', if_pos hquote, hquote⟩
    · rw [if_neg hquote]
      by_cases hline : c = '\n'
      · exact .inl ⟨'n', if_pos hline, hline⟩
      · exact .inr ⟨if_neg hline, hbackslash, hquote⟩

theorem escapeChar_inj {c d : Char} {cs ds : List Char}
    (h : escapeChar c ++ cs = escapeChar d ++ ds) : c = d ∧ cs = ds := by
  rcases escapeChar_cases c with ⟨e, hc, hce⟩ | ⟨hc, hcb, -⟩ <;>
    rcases escapeChar_cases d with ⟨f, hd, hdf⟩ | ⟨hd, hdb, -⟩ <;>
    rw [hc, hd] at h
  · obtain ⟨hef, hrest⟩ := List.cons.inj (List.cons.inj h).2
    exact ⟨by rw [hce, hdf, hef], hrest⟩
  · exact absurd (List.cons.inj h).1.symm hdb
  · exact absurd (List.cons.inj h).1 hcb
  · exact List.cons.inj h

/-- No value goes on with a quote. -/
theorem escapeChar_ne_quote {c : Char} {cs ds : List Char} : escapeChar c ++ cs ≠ '"' :: ds := by
  intro h
  rcases escapeChar_cases c with ⟨e, hc, -⟩ | ⟨hc, -, hquote⟩
  · rw [hc] at h
    exact absurd (List.cons.inj h).1 (by decide)
  · rw [hc] at h
    exact hquote (List.cons.inj h).1

/-- A value ends at the first quote. -/
theorem escape_inj {value value' rest rest' : List Char}
    (h : escape value ++ '"' :: rest = escape value' ++ '"' :: rest') :
    value = value' ∧ rest = rest' := by
  induction value generalizing value' with
  | nil =>
      cases value' with
      | nil => exact ⟨rfl, (List.cons.inj h).2⟩
      | cons c value' =>
          rw [escape, escape, List.flatMap_cons, List.append_assoc] at h
          exact absurd h.symm escapeChar_ne_quote
  | cons c value ih =>
      cases value' with
      | nil =>
          rw [escape, escape, List.flatMap_cons, List.append_assoc] at h
          exact absurd h escapeChar_ne_quote
      | cons d value' =>
          rw [escape, escape, List.flatMap_cons, List.flatMap_cons, List.append_assoc,
            List.append_assoc] at h
          obtain ⟨rfl, hmore⟩ := escapeChar_inj h
          obtain ⟨rfl, hrest⟩ := ih hmore
          exact ⟨rfl, hrest⟩

/-- Labels of the same names, whatever the names are and whatever follows. -/
theorem following_inj {names values values' : List (List Char)} {rest rest' : List Char}
    (hlength : values.length = names.length) (hlength' : values'.length = names.length)
    (h : following (names.zip values) ++ rest = following (names.zip values') ++ rest') :
    values = values' := by
  induction names generalizing values values' with
  | nil =>
      rw [List.length_nil, List.length_eq_zero_iff] at hlength hlength'
      rw [hlength, hlength']
  | cons name names ih =>
      cases values with
      | nil => cases hlength
      | cons value values =>
          cases values' with
          | nil => cases hlength'
          | cons value' values' =>
              rw [List.zip_cons_cons, List.zip_cons_cons, following_cons, following_cons] at h
              simp only [label, List.append_assoc, List.cons_append, List.nil_append,
                List.cons.injEq, List.append_cancel_left_eq, true_and] at h
              obtain ⟨rfl, hrest⟩ := escape_inj h
              rw [ih (Nat.succ.inj hlength) (Nat.succ.inj hlength') hrest]

/-- Two blocks of the same names, with other parts behind them. -/
theorem block_inj {names values values' : List (List Char)} {more more' : List (List Char)}
    (hlength : values.length = names.length) (hlength' : values'.length = names.length)
    (h : block (parts (names.zip values) ++ more) = block (parts (names.zip values') ++ more')) :
    values = values' := by
  cases names with
  | nil =>
      rw [List.length_nil, List.length_eq_zero_iff] at hlength hlength'
      rw [hlength, hlength']
  | cons name names =>
      have hne : ∀ {values : List (List Char)} {more : List (List Char)},
          values.length = (name :: names).length →
          parts ((name :: names).zip values) ++ more ≠ [] := by
        intro values more hlength hnil
        cases values with
        | nil => cases hlength
        | cons value values => cases hnil
      rw [block, block, if_neg (hne hlength), if_neg (hne hlength'), List.cons.injEq] at h
      have hparts := congrArg (',' :: ·) h.2
      rw [← List.cons_append, ← List.cons_append, cons_intercalate (hne hlength),
        cons_intercalate (hne hlength'), List.flatMap_append, List.flatMap_append, flatMap_parts,
        flatMap_parts, List.append_assoc, List.append_assoc] at hparts
      exact following_inj hlength hlength' hparts

end Exposition
