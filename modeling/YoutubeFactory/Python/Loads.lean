import YoutubeFactory.Lib.Except
import YoutubeFactory.Python.Object

/-!
# Reading JSON

`json.loads` of the standard library for a `str`, as its scanner in C computes it: the
rest of the text is passed on where the scanner passes on an index.  A failed read has
the message of the `JSONDecodeError` and the rest of the text at which it points.

`parseFloat` is `float` on the literals of the language.  It is a parameter, since nothing
here computes with floats.  The interpreter's limits on nesting and on the digits of an
integer are left out.
-/

namespace YoutubeFactory.Python

/-- What `json.loads` returns.  A string is the list of its code points, since an escape may
write a surrogate on its own, and that is no `Char`. -/
inductive Loaded (F : Type) where
  | null
  | bool (b : Bool)
  | int (i : Int)
  | float (f : F)
  | str (codes : List Nat)
  | list (items : List (Loaded F))
  | dict (entries : List (List Nat × Loaded F))

structure DecodeFault where
  message : String
  rest : List Char
deriving DecidableEq

/-- A scanned value with the rest of the text. -/
abbrev Scanned (α : Type) := α × List Char

/-! ## Strings -/

/-- The whitespace of JSON. -/
def jsonSpace (c : Char) : Bool := [' ', '\t', '\n', '\r'].contains c

def skipSpace (s : List Char) : List Char := s.dropWhile jsonSpace

def hexDigit (c : Char) : Option Nat :=
  if '0' ≤ c ∧ c ≤ '9' then some (c.toNat - '0'.toNat)
  else if 'a' ≤ c ∧ c ≤ 'f' then some (c.toNat - 'a'.toNat + 10)
  else if 'A' ≤ c ∧ c ≤ 'F' then some (c.toNat - 'A'.toNat + 10)
  else none

/-- The four digits of a `\u` escape. -/
def hexCode (a b c d : Char) : Option Nat := do
  let a ← hexDigit a
  let b ← hexDigit b
  let c ← hexDigit c
  let d ← hexDigit d
  pure (((a * 16 + b) * 16 + c) * 16 + d)

def isHighSurrogate (code : Nat) : Bool := 0xd800 ≤ code && code ≤ 0xdbff

def isLowSurrogate (code : Nat) : Bool := 0xdc00 ≤ code && code ≤ 0xdfff

def joinSurrogates (high low : Nat) : Nat := 0x10000 + (high - 0xd800) * 0x400 + (low - 0xdc00)

/-- The escapes of one character. -/
def plainEscape (c : Char) : Option Nat :=
  match c with
  | '"' => some 0x22
  | '\\' => some 0x5c
  | '/' => some 0x2f
  | 'b' => some 0x08
  | 'f' => some 0x0c
  | 'n' => some 0x0a
  | 'r' => some 0x0d
  | 't' => some 0x09
  | _ => none

/-- The code that an escape stands for, with the low surrogate after a high one if there is one
and the text goes on after it. -/
def pairSurrogates (code : Nat) (after : List Char) : Except DecodeFault (Scanned Nat) :=
  if isHighSurrogate code then
    match after with
    | '\\' :: 'u' :: a :: b :: c :: d :: next :: beyond =>
        match hexCode a b c d with
        | none => .error ⟨"Invalid \\uXXXX escape", after.tail⟩
        | some low =>
            if isLowSurrogate low then .ok (joinSurrogates code low, next :: beyond)
            else .ok (code, after)
    | _ => .ok (code, after)
  else .ok (code, after)

/-- An escape, after its backslash.  The four digits must not be the end of the text. -/
def scanEscape (start : List Char) : List Char → Except DecodeFault (Scanned Nat)
  | [] => .error ⟨"Unterminated string starting at", start⟩
  | 'u' :: rest =>
      match rest with
      | a :: b :: c :: d :: next :: beyond =>
          match hexCode a b c d with
          | none => .error ⟨"Invalid \\uXXXX escape", 'u' :: rest⟩
          | some code => pairSurrogates code (next :: beyond)
      | _ => .error ⟨"Invalid \\uXXXX escape", 'u' :: rest⟩
  | c :: rest =>
      match plainEscape c with
      | none => .error ⟨"Invalid \\escape", '\\' :: c :: rest⟩
      | some code => .ok (code, rest)

/-- `scanstring`, strict: `start` is the text from the opening quote on, and `codes` are those
read so far, the last one first.  The fuel is more than the characters that are left. -/
def scanString (start : List Char) :
    Nat → List Nat → List Char → Except DecodeFault (Scanned (List Nat))
  | 0, _, _ | _, _, [] => .error ⟨"Unterminated string starting at", start⟩
  | fuel + 1, codes, c :: rest =>
      if c = '"' then .ok (codes.reverse, rest)
      else if c = '\\' then do
        let (code, rest) ← scanEscape start rest
        scanString start fuel (code :: codes) rest
      else if c.toNat ≤ 0x1f then .error ⟨"Invalid control character at", c :: rest⟩
      else scanString start fuel (c.toNat :: codes) rest

/-! ## Numbers -/

def isDigit (c : Char) : Bool := '0' ≤ c && c ≤ '9'

/-- The digits before the point: a zero on its own, or a number that does not start with one. -/
def scanInteger : List Char → Option (List Char × List Char)
  | '0' :: rest => some (['0'], rest)
  | c :: rest =>
      if isDigit c then some (c :: rest.takeWhile isDigit, rest.dropWhile isDigit) else none
  | [] => none

/-- The point and the digits after it, if there are any. -/
def scanFraction : List Char → List Char × List Char
  | '.' :: rest =>
      if rest.takeWhile isDigit = [] then ([], '.' :: rest)
      else ('.' :: rest.takeWhile isDigit, rest.dropWhile isDigit)
  | s => ([], s)

/-- The sign of an exponent. -/
def scanSign : List Char → List Char × List Char
  | '+' :: rest => (['+'], rest)
  | '-' :: rest => (['-'], rest)
  | s => ([], s)

/-- The exponent, if it has digits. -/
def scanExponent : List Char → List Char × List Char
  | [] => ([], [])
  | c :: rest =>
      if c = 'e' ∨ c = 'E' then
        let (sign, digits) := scanSign rest
        if digits.takeWhile isDigit = [] then ([], c :: rest)
        else (c :: sign ++ digits.takeWhile isDigit, digits.dropWhile isDigit)
      else ([], c :: rest)

def natOfDigits (digits : List Char) : Nat :=
  digits.foldl (fun n c => n * 10 + (c.toNat - '0'.toNat)) 0

/-- The sign of a number. -/
def scanMinus : List Char → List Char × List Char
  | '-' :: rest => (['-'], rest)
  | s => ([], s)

/-- `_match_number` -/
def scanNumber (parseFloat : List Char → F) (s : List Char) :
    Except DecodeFault (Scanned (Loaded F)) :=
  let minus := scanMinus s
  match scanInteger minus.2 with
  | none => .error ⟨"Expecting value", s⟩
  | some (digits, rest) =>
      let fraction := scanFraction rest
      let exponent := scanExponent fraction.2
      if fraction.1 = [] ∧ exponent.1 = [] then
        let n : Int := natOfDigits digits
        .ok (.int (if minus.1 = [] then n else -n), exponent.2)
      else .ok (.float (parseFloat (minus.1 ++ digits ++ fraction.1 ++ exponent.1)), exponent.2)

/-! ## Objects and arrays -/

/-- `entries[key] = value` -/
def setEntry (entries : List (List Nat × Loaded F)) (key : List Nat) (value : Loaded F) :
    List (List Nat × Loaded F) :=
  match entries with
  | [] => [(key, value)]
  | entry :: rest =>
      if entry.1 = key then (key, value) :: rest else entry :: setEntry rest key value

/-- The entries of an object from a key on.  `value` scans one value. -/
def scanEntries (value : List Char → Except DecodeFault (Scanned (Loaded F))) :
    Nat → List (List Nat × Loaded F) → List Char → Except DecodeFault (Scanned (Loaded F))
  | 0, _, s => .error ⟨"Expecting property name enclosed in double quotes", s⟩
  | fuel + 1, entries, s =>
      match s with
      | '"' :: unquoted => do
          let (key, s) ← scanString s (unquoted.length + 1) [] unquoted
          match skipSpace s with
          | ':' :: s =>
              let (item, s) ← value (skipSpace s)
              match skipSpace s with
              | '}' :: s => .ok (.dict (setEntry entries key item), s)
              | ',' :: s =>
                  match skipSpace s with
                  | '}' :: _ => .error ⟨"Illegal trailing comma before end of object", ',' :: s⟩
                  | s => scanEntries value fuel (setEntry entries key item) s
              | s => .error ⟨"Expecting ',' delimiter", s⟩
          | s => .error ⟨"Expecting ':' delimiter", s⟩
      | _ => .error ⟨"Expecting property name enclosed in double quotes", s⟩

/-- `JSONObject`, after the opening brace -/
def scanObject (value : List Char → Except DecodeFault (Scanned (Loaded F))) (fuel : Nat)
    (s : List Char) : Except DecodeFault (Scanned (Loaded F)) :=
  match skipSpace s with
  | '}' :: s => .ok (.dict [], s)
  | s => scanEntries value fuel [] s

/-- The items of an array from one item on. -/
def scanItems (value : List Char → Except DecodeFault (Scanned (Loaded F))) :
    Nat → List (Loaded F) → List Char → Except DecodeFault (Scanned (Loaded F))
  | 0, _, s => .error ⟨"Expecting value", s⟩
  | fuel + 1, items, s => do
      let (item, s) ← value s
      match skipSpace s with
      | ']' :: s => .ok (.list (items ++ [item]), s)
      | ',' :: s =>
          match skipSpace s with
          | ']' :: _ => .error ⟨"Illegal trailing comma before end of array", ',' :: s⟩
          | s => scanItems value fuel (items ++ [item]) s
      | s => .error ⟨"Expecting ',' delimiter", s⟩

/-- `JSONArray`, after the opening bracket -/
def scanArray (value : List Char → Except DecodeFault (Scanned (Loaded F))) (fuel : Nat)
    (s : List Char) : Except DecodeFault (Scanned (Loaded F)) :=
  match skipSpace s with
  | ']' :: s => .ok (.list [], s)
  | s => scanItems value fuel [] s

/-- The names of constants, with what they stand for. -/
def constants (parseFloat : List Char → F) : List (String × Loaded F) :=
  [("null", .null), ("true", .bool true), ("false", .bool false),
    ("NaN", .float (parseFloat "NaN".toList)),
    ("Infinity", .float (parseFloat "Infinity".toList)),
    ("-Infinity", .float (parseFloat "-Infinity".toList))]

/-- `scan_once` -/
def scanOnce (parseFloat : List Char → F) :
    Nat → List Char → Except DecodeFault (Scanned (Loaded F))
  | 0, s => .error ⟨"Expecting value", s⟩
  | _, [] => .error ⟨"Expecting value", []⟩
  | fuel + 1, c :: rest =>
      if c = '"' then do
        let (codes, rest) ← scanString (c :: rest) (rest.length + 1) [] rest
        pure (.str codes, rest)
      else if c = '{' then scanObject (scanOnce parseFloat fuel) fuel rest
      else if c = '[' then scanArray (scanOnce parseFloat fuel) fuel rest
      else
        match (constants parseFloat).find? fun named => named.1.toList.isPrefixOf (c :: rest) with
        | some (name, value) => .ok (value, (c :: rest).drop name.length)
        | none => scanNumber parseFloat (c :: rest)

/-- The number of line and column at which a `JSONDecodeError` points, and its `str`. -/
def decodeErrorText (text : List Char) (fault : DecodeFault) : String :=
  let before := text.take (text.length - fault.rest.length)
  let line := before.count '\n' + 1
  let column := (before.reverse.takeWhile (· ≠ '\n')).length + 1
  s!"{fault.message}: line {line} column {column} (char {before.length})"

/-- `json.loads(text)` -/
def loads (parseFloat : List Char → F) (text : List Char) : Except DecodeFault (Loaded F) :=
  if text.head? = some '\ufeff' then
    .error ⟨"Unexpected UTF-8 BOM (decode using utf-8-sig)", text⟩
  else do
    let (value, rest) ← scanOnce parseFloat (text.length + 1) (skipSpace text)
    if skipSpace rest = [] then pure value else .error ⟨"Extra data", skipSpace rest⟩

/-! ## What is left of the text -/

theorem skipSpace_suffix (s : List Char) : skipSpace s <:+ s := List.dropWhile_suffix _

/-- What is left after a token, of the text before it. -/
theorem suffix_of_skipSpace {c : Char} {s rest : List Char} (h : skipSpace s = c :: rest) :
    rest <:+ s := by
  have hall : c :: rest <:+ s := h ▸ skipSpace_suffix s
  exact (List.suffix_cons c rest).trans hall

section

variable {start s rest : List Char} {code code' : Nat}

theorem pairSurrogates_suffix {after : List Char}
    (h : pairSurrogates code after = .ok (code', rest)) : rest <:+ after := by
  unfold pairSurrogates at h
  split at h
  · split at h
    · next a b c d next beyond =>
        split at h
        · cases h
        · split at h
          · rw [Except.ok.injEq, Prod.mk.injEq] at h
            obtain ⟨-, rfl⟩ := h
            exact List.suffix_append ['\\', 'u', a, b, c, d] (next :: beyond)
          · cases h
            exact List.suffix_rfl
    · cases h
      exact List.suffix_rfl
  · cases h
    exact List.suffix_rfl

theorem scanEscape_suffix (h : scanEscape start s = .ok (code, rest)) : rest <:+ s := by
  unfold scanEscape at h
  split at h
  · cases h
  · split at h
    · next a b c d next beyond =>
        split at h
        · cases h
        · exact (pairSurrogates_suffix h).trans
            (List.suffix_append ['u', a, b, c, d] (next :: beyond))
    · cases h
  · split at h
    · cases h
    · cases h
      exact List.suffix_cons _ _

theorem scanString_suffix {fuel : Nat} {codes read : List Nat}
    (h : scanString start fuel codes s = .ok (read, rest)) : rest <:+ s := by
  induction fuel generalizing codes s with
  | zero => cases h
  | succ fuel ih =>
      cases s with
      | nil => cases h
      | cons c s =>
          rw [scanString] at h
          refine List.IsSuffix.trans ?_ (List.suffix_cons c s)
          split at h
          · cases h
            exact List.suffix_rfl
          · split at h
            · obtain ⟨⟨code, after⟩, hescape, h⟩ := Except.bind_eq_ok.mp h
              exact (ih h).trans (scanEscape_suffix hescape)
            · split at h
              · cases h
              · exact ih h

/-- What the fuel is makes no difference, as long as it is more than the characters. -/
theorem scanString_fuel {n m : Nat} {codes : List Nat} (hn : s.length < n) (hm : s.length < m) :
    scanString start n codes s = scanString start m codes s := by
  induction n generalizing m codes s with
  | zero => exact absurd hn (Nat.not_lt_zero _)
  | succ n ih =>
      cases m with
      | zero => exact absurd hm (Nat.not_lt_zero _)
      | succ m =>
          cases s with
          | nil => rfl
          | cons c s =>
              rw [List.length_cons] at hn hm
              rw [scanString, scanString, @ih s m (c.toNat :: codes) (by omega) (by omega)]
              cases hescape : scanEscape start s with
              | error fault => rfl
              | ok scanned =>
                  have hle := (scanEscape_suffix hescape).length_le
                  have hrest := @ih scanned.2 m (scanned.1 :: codes) (by omega) (by omega)
                  simp only [Except.ok_bind, hrest]

theorem scanInteger_suffix {digits : List Char} (h : scanInteger s = some (digits, rest)) :
    rest <:+ s.tail := by
  unfold scanInteger at h
  split at h
  · cases h
    exact List.suffix_rfl
  · split at h
    · cases h
      exact List.dropWhile_suffix _
    · cases h
  · cases h

theorem scanMinus_suffix (s : List Char) : (scanMinus s).2.tail <:+ s.tail := by
  unfold scanMinus
  split
  · exact List.tail_suffix _
  · exact List.suffix_rfl

theorem scanFraction_suffix (s : List Char) : (scanFraction s).2 <:+ s := by
  unfold scanFraction
  split
  · split
    · exact List.suffix_rfl
    · exact (List.dropWhile_suffix _).trans (List.suffix_cons _ _)
  · exact List.suffix_rfl

theorem scanSign_suffix (s : List Char) : (scanSign s).2 <:+ s := by
  unfold scanSign
  split
  · exact List.suffix_cons _ _
  · exact List.suffix_cons _ _
  · exact List.suffix_rfl

theorem scanExponent_suffix (s : List Char) : (scanExponent s).2 <:+ s := by
  unfold scanExponent
  split
  · exact List.suffix_rfl
  · next c s =>
      split
      · dsimp only
        split
        · exact List.suffix_rfl
        · exact ((List.dropWhile_suffix _).trans (scanSign_suffix s)).trans (List.suffix_cons c s)
      · exact List.suffix_rfl

end

/-- `isinstance(value, dict)` -/
def Loaded.isDict : Loaded F → Bool
  | .dict _ => true
  | _ => false

section

variable {parseFloat : List Char → F} {s rest : List Char} {v : Loaded F}

theorem scanNumber_suffix (h : scanNumber parseFloat s = .ok (v, rest)) :
    rest <:+ s.tail ∧ v.isDict = false := by
  unfold scanNumber at h
  dsimp only at h
  split at h
  · cases h
  · next digits after hinteger =>
      have hafter : (scanExponent (scanFraction after).2).2 <:+ after :=
        (scanExponent_suffix _).trans (scanFraction_suffix after)
      have hrest := (hafter.trans (scanInteger_suffix hinteger)).trans (scanMinus_suffix s)
      split at h
      · cases h
        exact ⟨hrest, rfl⟩
      · cases h
        exact ⟨hrest, rfl⟩

theorem constants_not_dict {name : String} (h : (name, v) ∈ constants parseFloat) :
    v.isDict = false ∧ name ≠ "" := by
  simp only [constants, List.mem_cons, Prod.mk.injEq, List.not_mem_nil, or_false] at h
  rcases h with ⟨rfl, rfl⟩ | ⟨rfl, rfl⟩ | ⟨rfl, rfl⟩ | ⟨rfl, rfl⟩ | ⟨rfl, rfl⟩ | ⟨rfl, rfl⟩
  all_goals exact ⟨rfl, by decide⟩

/-! ## Where an object ends -/

variable {value : List Char → Except DecodeFault (Scanned (Loaded F))}

/-- An object ends with its closing brace. -/
theorem scanEntries_suffix (hvalue : ∀ s v rest, value s = .ok (v, rest) → rest <:+ s)
    {fuel : Nat} {entries : List (List Nat × Loaded F)}
    (h : scanEntries value fuel entries s = .ok (v, rest)) : '}' :: rest <:+ s := by
  induction fuel generalizing entries s with
  | zero => cases h
  | succ fuel ih =>
      unfold scanEntries at h
      split at h
      · next unquoted =>
        obtain ⟨⟨key, s₁⟩, hkey, h⟩ := Except.bind_eq_ok.mp h
        dsimp only at h
        split at h
        · next s₂ hcolon =>
          obtain ⟨⟨item, s₃⟩, hitem, h⟩ := Except.bind_eq_ok.mp h
          have h₃ : s₃ <:+ '"' :: unquoted :=
            ((hvalue _ _ _ hitem).trans (skipSpace_suffix s₂)).trans
              ((suffix_of_skipSpace hcolon).trans
                ((scanString_suffix hkey).trans (List.suffix_cons _ _)))
          dsimp only at h
          split at h
          · next hclose =>
            cases h
            exact (hclose ▸ skipSpace_suffix s₃ : '}' :: rest <:+ s₃).trans h₃
          · next s₄ hcomma =>
            split at h
            · cases h
            · exact (ih h).trans ((skipSpace_suffix s₄).trans
                ((suffix_of_skipSpace hcomma).trans h₃))
          · cases h
        · cases h
      · cases h

theorem scanObject_suffix (hvalue : ∀ s v rest, value s = .ok (v, rest) → rest <:+ s)
    {fuel : Nat} (h : scanObject value fuel s = .ok (v, rest)) : '}' :: rest <:+ s := by
  unfold scanObject at h
  split at h
  · next hclose =>
      cases h
      exact hclose ▸ skipSpace_suffix s
  · exact (scanEntries_suffix hvalue h).trans (skipSpace_suffix s)

theorem scanItems_suffix (hvalue : ∀ s v rest, value s = .ok (v, rest) → rest <:+ s)
    {fuel : Nat} {items : List (Loaded F)}
    (h : scanItems value fuel items s = .ok (v, rest)) : rest <:+ s ∧ v.isDict = false := by
  induction fuel generalizing items s with
  | zero => cases h
  | succ fuel ih =>
      rw [scanItems] at h
      obtain ⟨⟨item, s₁⟩, hitem, h⟩ := Except.bind_eq_ok.mp h
      have h₁ : s₁ <:+ s := hvalue _ _ _ hitem
      dsimp only at h
      split at h
      · next hclose =>
          cases h
          exact ⟨(suffix_of_skipSpace hclose).trans h₁, rfl⟩
      · next s₂ hcomma =>
          split at h
          · cases h
          · obtain ⟨hrest, hdict⟩ := ih h
            exact ⟨hrest.trans ((skipSpace_suffix s₂).trans
              ((suffix_of_skipSpace hcomma).trans h₁)), hdict⟩
      · cases h

theorem scanArray_suffix (hvalue : ∀ s v rest, value s = .ok (v, rest) → rest <:+ s)
    {fuel : Nat} (h : scanArray value fuel s = .ok (v, rest)) :
    rest <:+ s ∧ v.isDict = false := by
  unfold scanArray at h
  split at h
  · next hclose =>
      cases h
      exact ⟨suffix_of_skipSpace hclose, rfl⟩
  · obtain ⟨hrest, hdict⟩ := scanItems_suffix hvalue h
    exact ⟨hrest.trans (skipSpace_suffix s), hdict⟩

/-- A value takes a character at least, and one that is a `dict` stands between braces. -/
theorem scanOnce_suffix {fuel : Nat} (h : scanOnce parseFloat fuel s = .ok (v, rest)) :
    ∃ c more, s = c :: more ∧ rest <:+ more ∧
      (v.isDict = true → c = '{' ∧ '}' :: rest <:+ more) := by
  induction fuel generalizing s v rest with
  | zero => cases h
  | succ fuel ih =>
      have hvalue : ∀ s v rest, scanOnce parseFloat fuel s = .ok (v, rest) → rest <:+ s := by
        intro s v rest h
        obtain ⟨c, more, rfl, hrest, -⟩ := ih h
        exact hrest.trans (List.suffix_cons c more)
      cases s with
      | nil => cases h
      | cons c more =>
          refine ⟨c, more, rfl, ?_⟩
          have hother : rest <:+ more ∧ v.isDict = false →
              rest <:+ more ∧ (v.isDict = true → c = '{' ∧ '}' :: rest <:+ more) :=
            fun h => ⟨h.1, fun hdict => absurd (h.2.symm.trans hdict) Bool.false_ne_true⟩
          rw [scanOnce] at h
          split at h
          · obtain ⟨⟨codes, after⟩, hstring, h⟩ := Except.bind_eq_ok.mp h
            cases h
            exact hother ⟨scanString_suffix hstring, rfl⟩
          · split at h
            · next hbrace =>
                have hclose := scanObject_suffix hvalue h
                exact ⟨(List.suffix_cons _ _).trans hclose, fun _ => ⟨hbrace, hclose⟩⟩
            · split at h
              · exact hother (scanArray_suffix hvalue h)
              · split at h
                · next name value hfound =>
                    obtain ⟨hdict, hname⟩ := constants_not_dict (List.mem_of_find?_eq_some hfound)
                    cases h
                    refine hother ⟨?_, hdict⟩
                    obtain ⟨n, hn⟩ : ∃ n, name.length = n + 1 :=
                      Nat.exists_eq_succ_of_ne_zero fun hzero =>
                        hname (String.length_eq_zero_iff.mp hzero)
                    rw [hn, List.drop_succ_cons]
                    exact List.drop_suffix n more
                · exact hother (scanNumber_suffix h)

theorem scanOnce_rest {fuel : Nat} : ∀ (s : List Char) (v : Loaded F) (rest : List Char),
    scanOnce parseFloat fuel s = .ok (v, rest) → rest <:+ s := by
  intro s v rest h
  obtain ⟨c, more, rfl, hrest, -⟩ := scanOnce_suffix h
  exact hrest.trans (List.suffix_cons c more)

/-! ## What the fuel is for -/

/-- The fuel makes no difference to an object, as long as it is more than the characters. -/
theorem scanEntries_fuel {value' : List Char → Except DecodeFault (Scanned (Loaded F))}
    (hvalue : ∀ s v rest, value s = .ok (v, rest) → rest <:+ s) {bound n m : Nat}
    (hsame : ∀ t : List Char, t.length < bound → value t = value' t)
    {entries : List (List Nat × Loaded F)} (hbound : s.length ≤ bound) (hn : s.length < n)
    (hm : s.length < m) :
    scanEntries value n entries s = scanEntries value' m entries s := by
  induction n generalizing m entries s with
  | zero => exact absurd hn (Nat.not_lt_zero _)
  | succ n ih =>
      cases m with
      | zero => exact absurd hm (Nat.not_lt_zero _)
      | succ m =>
          unfold scanEntries
          split
          · next unquoted =>
            cases hkey : scanString ('"' :: unquoted) (unquoted.length + 1) [] unquoted with
            | error fault => rfl
            | ok scanned =>
              have h₁ := (scanString_suffix hkey).length_le
              simp only [Except.ok_bind]
              split
              · next s₂ hcolon =>
                have h₂ := (suffix_of_skipSpace hcolon).length_le
                have hskip := (skipSpace_suffix s₂).length_le
                rw [List.length_cons] at hbound hn hm
                rw [← hsame (skipSpace s₂) (by omega)]
                cases hitem : value (skipSpace s₂) with
                | error fault => rfl
                | ok scannedItem =>
                  have h₃ := (hvalue _ _ _ hitem).length_le
                  simp only [Except.ok_bind]
                  split
                  · rfl
                  · next s₄ hcomma =>
                    have h₄ := (suffix_of_skipSpace hcomma).length_le
                    have hlast := (skipSpace_suffix s₄).length_le
                    split
                    · rfl
                    · exact ih (by omega) (by omega) (by omega)
                  · rfl
              · rfl
          · rfl

theorem scanItems_fuel {value' : List Char → Except DecodeFault (Scanned (Loaded F))}
    (hvalue : ∀ s v rest, value s = .ok (v, rest) → rest <:+ s) {bound n m : Nat}
    (hsame : ∀ t : List Char, t.length < bound → value t = value' t)
    {items : List (Loaded F)} (hbound : s.length < bound) (hn : s.length < n)
    (hm : s.length < m) : scanItems value n items s = scanItems value' m items s := by
  induction n generalizing m items s with
  | zero => exact absurd hn (Nat.not_lt_zero _)
  | succ n ih =>
      cases m with
      | zero => exact absurd hm (Nat.not_lt_zero _)
      | succ m =>
          rw [scanItems, scanItems, ← hsame s hbound]
          cases hitem : value s with
          | error fault => rfl
          | ok scanned =>
            have h₁ := (hvalue _ _ _ hitem).length_le
            simp only [Except.ok_bind]
            split
            · rfl
            · next s₂ hcomma =>
              have h₂ : (',' :: s₂).length ≤ scanned.2.length :=
                (hcomma ▸ skipSpace_suffix scanned.2 : ',' :: s₂ <:+ scanned.2).length_le
              have hskip := (skipSpace_suffix s₂).length_le
              rw [List.length_cons] at h₂
              split
              · rfl
              · exact ih (by omega) (by omega) (by omega)
            · rfl

/-- The fuel makes no difference to a value. -/
theorem scanOnce_fuel {n m : Nat} (hn : s.length < n) (hm : s.length < m) :
    scanOnce parseFloat n s = scanOnce parseFloat m s := by
  induction n generalizing m s with
  | zero => exact absurd hn (Nat.not_lt_zero _)
  | succ n ih =>
      cases m with
      | zero => exact absurd hm (Nat.not_lt_zero _)
      | succ m =>
          cases s with
          | nil => rfl
          | cons c more =>
              rw [List.length_cons] at hn hm
              have hsame : ∀ t : List Char, t.length < min n m →
                  scanOnce parseFloat n t = scanOnce parseFloat m t :=
                fun t ht => ih (by omega) (by omega)
              have hskip := (skipSpace_suffix more).length_le
              have hobject : scanObject (scanOnce parseFloat n) n more =
                  scanObject (scanOnce parseFloat m) m more := by
                unfold scanObject
                split
                · rfl
                · exact scanEntries_fuel scanOnce_rest hsame (by omega) (by omega) (by omega)
              have harray : scanArray (scanOnce parseFloat n) n more =
                  scanArray (scanOnce parseFloat m) m more := by
                unfold scanArray
                split
                · rfl
                · exact scanItems_fuel scanOnce_rest hsame (by omega) (by omega) (by omega)
              rw [scanOnce, scanOnce, hobject, harray]

/-- The text of an object, between whitespace. -/
theorem loads_dict {text : List Char} (h : loads parseFloat text = .ok v)
    (hdict : v.isDict = true) :
    ∃ inner after, skipSpace text = '{' :: (inner ++ '}' :: after) ∧ skipSpace after = [] := by
  unfold loads at h
  split at h
  · cases h
  · obtain ⟨⟨value, after⟩, hscan, h⟩ := Except.bind_eq_ok.mp h
    dsimp only at h
    split at h
    · next hend =>
        cases h
        obtain ⟨c, more, htext, -, hbraces⟩ := scanOnce_suffix hscan
        obtain ⟨rfl, inner, rfl⟩ := hbraces hdict
        exact ⟨inner, after, htext, hend⟩
    · cases h

end

end YoutubeFactory.Python
