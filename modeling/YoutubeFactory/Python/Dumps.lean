import YoutubeFactory.Python.Loads
import Mathlib.Data.List.Sort

/-!
# Writing JSON

`json.dumps` of the standard library, with the defaults `ensure_ascii` and `allow_nan`, and with
`default=str` for the values that it does not know.  The keys that it refuses, which are those of
other types than JSON has, are left out.

A text that was written is read (`loads_dumps`).  What is read is the value, up to what JSON has no
words for: a key is read as a string, the last value of a key counts, and two surrogates side by
side are read as the character that they stand for.
-/

namespace YoutubeFactory.Python

variable {F : Type}

/-! ## Values -/

/-- A code point.  A `str` may hold a surrogate, that is no `Char`. -/
abbrev Code := Fin 0x110000

theorem toNat_valid (c : Char) : c.toNat < 0xd800 ∨ 0xdfff < c.toNat ∧ c.toNat < 0x110000 := c.valid

def Code.ofChar (c : Char) : Code :=
  ⟨c.toNat, (toNat_valid c).elim (fun h => h.trans (by decide)) fun h => h.2⟩

def codesOf (text : String) : List Code := text.toList.map Code.ofChar

/-- The code points of a text as they are read. -/
def readText (text : String) : List Nat := text.toList.map Char.toNat

/-- A key of a `dict` that JSON can write. -/
inductive DumpKey (F : Type) where
  | str (codes : List Code)
  | float (f : F)
  | bool (b : Bool)
  | none
  | int (i : Int)

/-- A value as `json.dumps` tells them apart.  `other` is what only `default` can write, with its
`str`. -/
inductive Dumpable (F : Type) where
  | none
  | bool (b : Bool)
  | int (i : Int)
  | float (f : F)
  | str (codes : List Code)
  | list (items : List (Dumpable F))
  | dict (entries : List (DumpKey F × Dumpable F))
  | other (text : List Code)

/-- `separators` -/
inductive Separators where
  | spaced
  | compact

/-- What follows a comma or a colon. -/
def Separators.pad : Separators → List Char
  | .spaced => [' ']
  | .compact => []

/-! ## Strings -/

/-- The UTF-16 units of a code point. -/
def utf16Units (code : Nat) : List Nat :=
  if code < 0x10000 then [code]
  else [0xd800 + (code - 0x10000) / 0x400, 0xdc00 + (code - 0x10000) % 0x400]

def utf16 (codes : List Code) : List Nat := codes.flatMap fun code => utf16Units code.val

/-- `"\\u{0:04x}".format(unit)` -/
def unicodeEscape (unit : Nat) : List Char :=
  ['\\', 'u', (unit / 0x1000).digitChar, (unit / 0x100 % 0x10).digitChar,
    (unit / 0x10 % 0x10).digitChar, (unit % 0x10).digitChar]

/-- `ESCAPE_DCT`, and the characters that `ESCAPE_ASCII` leaves as they are. -/
def escapeUnit (unit : Nat) : List Char :=
  if unit = 0x5c then ['\\', '\\']
  else if unit = 0x22 then ['\\', '"']
  else if unit = 0x08 then ['\\', 'b']
  else if unit = 0x0c then ['\\', 'f']
  else if unit = 0x0a then ['\\', 'n']
  else if unit = 0x0d then ['\\', 'r']
  else if unit = 0x09 then ['\\', 't']
  else if 0x20 ≤ unit ∧ unit ≤ 0x7e then [Char.ofNat unit]
  else unicodeEscape unit

def escapeUnits (units : List Nat) : List Char := units.flatMap escapeUnit

/-- `py_encode_basestring_ascii` -/
def dumpStr (codes : List Code) : List Char := '"' :: (escapeUnits (utf16 codes) ++ ['"'])

/-- The surrogates of UTF-16 units that stand side by side, joined. -/
def joinUnits : List Nat → List Nat
  | high :: low :: rest =>
      if isHighSurrogate high && isLowSurrogate low then joinSurrogates high low :: joinUnits rest
      else high :: joinUnits (low :: rest)
  | units => units

/-- What is read of a string that was written. -/
def rejoin (codes : List Code) : List Nat := joinUnits (utf16 codes)

/-- A code point that is no surrogate. -/
def Scalar (code : Code) : Prop := ¬ (0xd800 ≤ code.val ∧ code.val ≤ 0xdfff)

theorem utf16_cons (code : Code) (codes : List Code) :
    utf16 (code :: codes) = utf16Units code.val ++ utf16 codes := List.flatMap_cons

theorem escapeUnits_cons (unit : Nat) (units : List Nat) :
    escapeUnits (unit :: units) = escapeUnit unit ++ escapeUnits units := List.flatMap_cons

theorem utf16Units_lt {code unit : Nat} (hcode : code < 0x110000) (h : unit ∈ utf16Units code) :
    unit < 0x10000 := by
  unfold utf16Units at h
  split at h
  · simp only [List.mem_singleton] at h
    omega
  · simp only [List.mem_cons, List.not_mem_nil, or_false] at h
    omega

theorem utf16_lt {codes : List Code} {unit : Nat} (h : unit ∈ utf16 codes) : unit < 0x10000 := by
  obtain ⟨code, -, hunit⟩ := List.mem_flatMap.mp h
  exact utf16Units_lt code.isLt hunit

/-- A unit that is no low surrogate ends what comes before it. -/
theorem joinUnits_cons {unit : Nat} (hunit : isHighSurrogate unit = false) (units : List Nat) :
    joinUnits (unit :: units) = unit :: joinUnits units := by
  cases units with
  | nil => rfl
  | cons next units => simp [joinUnits, hunit]

theorem joinUnits_pair {high low : Nat} (hhigh : isHighSurrogate high = true)
    (hlow : isLowSurrogate low = true) (units : List Nat) :
    joinUnits (high :: low :: units) = joinSurrogates high low :: joinUnits units := by
  simp [joinUnits, hhigh, hlow]

/-- A code point above the basic plane is read from its two units. -/
theorem joinUnits_utf16Units {code : Nat} (hcode : code < 0x110000)
    (hscalar : ¬ (0xd800 ≤ code ∧ code ≤ 0xdfff)) (units : List Nat) :
    joinUnits (utf16Units code ++ units) = code :: joinUnits units := by
  unfold utf16Units
  split
  · refine joinUnits_cons ?_ units
    simp only [isHighSurrogate, Bool.and_eq_false_iff, decide_eq_false_iff_not]
    omega
  · refine (joinUnits_pair ?_ ?_ units).trans ?_
    · simp only [isHighSurrogate, Bool.and_eq_true, decide_eq_true_eq]
      omega
    · simp only [isLowSurrogate, Bool.and_eq_true, decide_eq_true_eq]
      omega
    · have hcode : joinSurrogates (0xd800 + (code - 0x10000) / 0x400)
          (0xdc00 + (code - 0x10000) % 0x400) = code := by
        unfold joinSurrogates
        omega
      rw [hcode]

/-- A string without surrogates is read as it was. -/
theorem rejoin_of_scalar {codes : List Code} (h : ∀ code ∈ codes, Scalar code) :
    rejoin codes = codes.map Fin.val := by
  unfold rejoin
  induction codes with
  | nil => rfl
  | cons code codes ih =>
      obtain ⟨hcode, hcodes⟩ := List.forall_mem_cons.mp h
      rw [utf16_cons, joinUnits_utf16Units code.isLt hcode, ih hcodes, List.map_cons]

theorem Scalar.ofChar (c : Char) : Scalar (Code.ofChar c) := by
  have hvalid := toNat_valid c
  show ¬ (0xd800 ≤ c.toNat ∧ c.toNat ≤ 0xdfff)
  omega

theorem rejoin_codesOf (text : String) : rejoin (codesOf text) = readText text := by
  rw [rejoin_of_scalar, codesOf, List.map_map]
  · rfl
  · intro code hcode
    obtain ⟨c, -, rfl⟩ := List.mem_map.mp hcode
    exact Scalar.ofChar c

/-! ## Strings that are read -/

theorem hexDigit_digitChar {d : Nat} (h : d < 0x10) : hexDigit d.digitChar = some d := by
  have hall : ∀ d : Fin 0x10, hexDigit d.val.digitChar = some d.val := by decide
  exact hall ⟨d, h⟩

theorem hexCode_unicodeEscape {unit : Nat} (h : unit < 0x10000) :
    hexCode (unit / 0x1000).digitChar (unit / 0x100 % 0x10).digitChar
      (unit / 0x10 % 0x10).digitChar (unit % 0x10).digitChar = some unit := by
  have hfirst : unit / 0x1000 < 0x10 := by omega
  simp only [hexCode, hexDigit_digitChar hfirst, hexDigit_digitChar (Nat.mod_lt _ (by omega)),
    Option.bind_eq_bind, Option.bind_some, Option.pure_def, Option.some.injEq]
  omega

/-- What comes after a string that is written: it does not end with the string. -/
theorem escapeUnits_quote (units : List Nat) (rest : List Char) :
    ∃ c more, escapeUnits units ++ '"' :: rest = c :: more := by
  cases h : escapeUnits units with
  | nil => exact ⟨'"', rest, rfl⟩
  | cons c more => exact ⟨c, more ++ '"' :: rest, rfl⟩

/-- The three ways to write a unit. -/
theorem escapeUnit_cases (unit : Nat) :
    escapeUnit unit = unicodeEscape unit ∨
      (∃ c, escapeUnit unit = ['\\', c] ∧ plainEscape c = some unit) ∨
        ∃ c, escapeUnit unit = [c] ∧ c.toNat = unit ∧ c ≠ '"' ∧ c ≠ '\\' ∧
          0x20 ≤ c.toNat ∧ c.toNat < 0x7f := by
  unfold escapeUnit
  repeat' split
  case isTrue hbackslash => exact .inr (.inl ⟨'\\', rfl, hbackslash ▸ rfl⟩)
  case isTrue hquote => exact .inr (.inl ⟨'"', rfl, hquote ▸ rfl⟩)
  case isTrue hback => exact .inr (.inl ⟨'b', rfl, hback ▸ rfl⟩)
  case isTrue hfeed => exact .inr (.inl ⟨'f', rfl, hfeed ▸ rfl⟩)
  case isTrue hline => exact .inr (.inl ⟨'n', rfl, hline ▸ rfl⟩)
  case isTrue hreturn => exact .inr (.inl ⟨'r', rfl, hreturn ▸ rfl⟩)
  case isTrue htab => exact .inr (.inl ⟨'t', rfl, htab ▸ rfl⟩)
  case isTrue hbackslash hquote _ _ _ _ _ hprintable =>
      have hall : ∀ u : Fin 0x7f, (Char.ofNat u).toNat = u := by decide
      have hcode : (Char.ofNat unit).toNat = unit := hall ⟨unit, by omega⟩
      refine .inr (.inr ⟨_, rfl, hcode, ?_, ?_, by omega, by omega⟩)
      · intro h
        exact hquote (hcode.symm.trans (congrArg Char.toNat h))
      · intro h
        exact hbackslash (hcode.symm.trans (congrArg Char.toNat h))
  case isFalse => exact .inl rfl

section

variable {start rest : List Char} {units : List Nat} {codes : List Nat} {fuel : Nat}

/-- What follows a high surrogate that is written is not taken for a part of it, unless it is a
low one. -/
theorem pairSurrogates_escapeUnits (hlt : ∀ unit ∈ units, unit < 0x10000)
    (hnext : ∀ next ∈ units.head?, isLowSurrogate next = false) (code : Nat) :
    pairSurrogates code (escapeUnits units ++ '"' :: rest) =
      .ok (code, escapeUnits units ++ '"' :: rest) := by
  unfold pairSurrogates
  split
  · split
    · next a b c d next beyond h =>
        cases units with
        | nil => exact absurd (List.cons.inj h).1 (by decide)
        | cons unit units =>
            rw [escapeUnits_cons] at h
            obtain hescape | ⟨e, hescape, hplain⟩ | ⟨e, hescape, -, -, hne, -⟩ :=
              escapeUnit_cases unit
            · rw [hescape, unicodeEscape] at h
              simp only [List.cons_append, List.cons.injEq, true_and] at h
              obtain ⟨rfl, rfl, rfl, rfl, -⟩ := h
              simp only [hexCode_unicodeEscape (hlt unit (List.mem_cons_self ..)),
                hnext unit rfl, Bool.false_eq_true, if_false]
            · rw [hescape] at h
              simp only [List.cons_append, List.cons.injEq, true_and] at h
              rw [h.1] at hplain
              cases hplain
            · rw [hescape] at h
              exact absurd (List.cons.inj h).1 hne
    · rfl
  · rfl

/-- One unit is read. -/
theorem scanString_escapeUnit {unit : Nat} (hlt : ∀ u ∈ unit :: units, u < 0x10000)
    (hpair : ∀ next ∈ units.head?, (isHighSurrogate unit && isLowSurrogate next) = false) :
    scanString start (fuel + 1) codes (escapeUnits (unit :: units) ++ '"' :: rest) =
      scanString start fuel (unit :: codes) (escapeUnits units ++ '"' :: rest) := by
  obtain ⟨hunit, hunits⟩ := List.forall_mem_cons.mp hlt
  obtain ⟨next, beyond, hafter⟩ := escapeUnits_quote units rest
  rw [escapeUnits_cons, List.append_assoc]
  obtain hescape | ⟨c, hescape, hplain⟩ | ⟨c, hescape, hcode, hquote, hbackslash, hcontrol, -⟩ :=
    escapeUnit_cases unit
  · have hpaired : pairSurrogates unit (escapeUnits units ++ '"' :: rest) =
        .ok (unit, escapeUnits units ++ '"' :: rest) := by
      by_cases hhigh : isHighSurrogate unit = true
      · refine pairSurrogates_escapeUnits hunits (fun next hnext => ?_) unit
        simpa [hhigh] using hpair next hnext
      · simp [pairSurrogates, hhigh]
    have hscan : scanEscape start
        ((unicodeEscape unit).tail ++ (escapeUnits units ++ '"' :: rest)) =
          .ok (unit, escapeUnits units ++ '"' :: rest) := by
      rw [hafter] at hpaired ⊢
      simp only [unicodeEscape, List.tail_cons, List.cons_append, List.nil_append, scanEscape,
        hexCode_unicodeEscape hunit, hpaired]
    rw [hescape]
    show scanString start (fuel + 1) codes ('\\' :: _) = _
    rw [scanString, if_neg (by decide), if_pos rfl]
    exact congrArg (· >>= _) hscan
  · have hscan : scanEscape start (c :: (escapeUnits units ++ '"' :: rest)) =
        .ok (unit, escapeUnits units ++ '"' :: rest) := by
      unfold scanEscape
      split
      · next h => cases h
      · next h =>
          rw [(List.cons.inj h).1] at hplain
          cases hplain
      · next h =>
          obtain ⟨rfl, rfl⟩ := List.cons.inj h
          simp only [hplain]
    rw [hescape]
    show scanString start (fuel + 1) codes ('\\' :: _) = _
    rw [scanString, if_neg (by decide), if_pos rfl]
    exact congrArg (· >>= _) hscan
  · rw [hescape, List.singleton_append, scanString, if_neg hquote, if_neg hbackslash,
      if_neg (by omega), hcode]

/-- A high and a low surrogate are read as one character. -/
theorem scanString_pair {high low : Nat} (hhigh : isHighSurrogate high = true)
    (hlow : isLowSurrogate low = true) :
    scanString start (fuel + 1) codes (escapeUnits (high :: low :: units) ++ '"' :: rest) =
      scanString start fuel (joinSurrogates high low :: codes)
        (escapeUnits units ++ '"' :: rest) := by
  obtain ⟨next, beyond, hafter⟩ := escapeUnits_quote units rest
  have hwritten : ∀ unit, 0x7e < unit → escapeUnit unit = unicodeEscape unit := by
    intro unit h
    unfold escapeUnit
    iterate 8 rw [if_neg (by omega)]
  have hhigh' := hhigh
  have hlow' := hlow
  simp only [isHighSurrogate, isLowSurrogate, Bool.and_eq_true, decide_eq_true_eq] at hhigh' hlow'
  rw [escapeUnits_cons, escapeUnits_cons, hwritten high (by omega), hwritten low (by omega),
    List.append_assoc, List.append_assoc, hafter]
  have hscan : scanEscape start
      ((unicodeEscape high).tail ++ (unicodeEscape low ++ next :: beyond)) =
        .ok (joinSurrogates high low, next :: beyond) := by
    simp only [unicodeEscape, List.tail_cons, List.cons_append, List.nil_append, scanEscape,
      pairSurrogates, hexCode_unicodeEscape (show high < 0x10000 by omega),
      hexCode_unicodeEscape (show low < 0x10000 by omega), hhigh, hlow, if_true]
  show scanString start (fuel + 1) codes ('\\' :: _) = _
  rw [scanString, if_neg (by decide), if_pos rfl]
  exact congrArg (· >>= _) hscan

/-- A string that is written is read, its surrogates joined. -/
theorem scanString_escapeUnits (hlt : ∀ unit ∈ units, unit < 0x10000)
    (hfuel : units.length < fuel) :
    scanString start fuel codes (escapeUnits units ++ '"' :: rest) =
      .ok (codes.reverse ++ joinUnits units, rest) := by
  induction units using joinUnits.induct generalizing codes fuel with
  | case1 high low units hpair ih =>
      obtain ⟨hhigh, hlow⟩ := Bool.and_eq_true_iff.mp hpair
      obtain _ | fuel := fuel
      · cases hfuel
      rw [List.length_cons, List.length_cons] at hfuel
      rw [scanString_pair hhigh hlow, joinUnits_pair hhigh hlow, ih]
      · simp
      · exact fun unit h => hlt unit (.tail _ (.tail _ h))
      · omega
  | case2 high low units hpair ih =>
      obtain _ | fuel := fuel
      · cases hfuel
      have hpair := Bool.eq_false_of_not_eq_true hpair
      rw [scanString_escapeUnit hlt, ih, joinUnits, hpair]
      · simp
      · exact fun unit h => hlt unit (.tail _ h)
      · exact Nat.lt_of_succ_lt_succ hfuel
      · intro next hnext
        cases hnext
        exact hpair
  | case3 units hshort =>
      cases units with
      | nil =>
          obtain _ | fuel := fuel
          · cases hfuel
          simp [escapeUnits, scanString, joinUnits]
      | cons unit units =>
          cases units with
          | nil =>
              obtain _ | _ | fuel := fuel
              · cases hfuel
              · exact absurd (Nat.lt_of_succ_lt_succ hfuel) (Nat.not_lt_zero _)
              rw [scanString_escapeUnit hlt (by simp)]
              simp [escapeUnits, scanString, joinUnits]
          | cons low units => exact absurd rfl (hshort unit low units)

/-- What `dumpStr` writes, after the quote. -/
theorem scanString_dumpStr (codes : List Code) (hfuel : (utf16 codes).length < fuel) :
    scanString start fuel [] (escapeUnits (utf16 codes) ++ '"' :: rest) =
      .ok (rejoin codes, rest) :=
  scanString_escapeUnits (fun _ => utf16_lt) hfuel

end

/-! ## Numbers -/

/-- `int.__repr__` -/
def intText (i : Int) : List Char :=
  if i < 0 then '-' :: Nat.toDigits 10 i.natAbs else Nat.toDigits 10 i.natAbs

/-- A text that JSON reads as a float: one with a fraction or an exponent. -/
structure FloatLiteral (text : List Char) : Prop where
  parts : ∃ sign n fraction exponent,
    text = sign ++ Nat.toDigits 10 n ++ fraction ++ exponent ∧
    (sign = [] ∨ sign = ['-']) ∧
    (fraction = [] ∨ ∃ digits, fraction = '.' :: digits ∧ digits ≠ [] ∧
      ∀ c ∈ digits, isDigit c = true) ∧
    (exponent = [] ∨ ∃ sign digits, exponent = 'e' :: sign ++ digits ∧
      (sign = [] ∨ sign = ['+'] ∨ sign = ['-']) ∧ digits ≠ [] ∧ ∀ c ∈ digits, isDigit c = true) ∧
    ¬ (fraction = [] ∧ exponent = [])

/-- `float.__repr__` with JSON's names of what is not finite, and `float`. -/
structure FloatFormat (F : Type) where
  text : F → List Char
  parse : List Char → F
  parse_text : ∀ f, parse (text f) = f
  literal : ∀ f, FloatLiteral (text f) ∨
    text f = "NaN".toList ∨ text f = "Infinity".toList ∨ text f = "-Infinity".toList

/-- The format of a float that is zero. -/
def zeroFormat : FloatFormat Unit where
  text _ := ['0', '.', '0']
  parse _ := ()
  parse_text _ := rfl
  literal _ := .inl ⟨[], 0, ['.', '0'], [], rfl, .inl rfl,
    .inr ⟨['0'], rfl, by decide, List.forall_mem_singleton.mpr rfl⟩, .inl rfl, by decide⟩

/-- What may follow a number. -/
def Stops (rest : List Char) : Prop :=
  ∀ c ∈ rest.head?, isDigit c = false ∧ c ≠ '.' ∧ c ≠ 'e' ∧ c ≠ 'E'

theorem isDigit_iff (c : Char) : isDigit c = true ↔ c.isDigit = true := by
  simp [isDigit, Char.isDigit, Char.le_def]

theorem isDigit_of_mem {n : Nat} {c : Char} (h : c ∈ Nat.toDigits 10 n) : isDigit c = true :=
  (isDigit_iff c).mpr (Nat.isDigit_of_mem_toDigits (by decide) (by decide) h)

theorem toDigits_cons (n : Nat) :
    ∃ c digits, Nat.toDigits 10 n = c :: digits ∧ isDigit c = true := by
  obtain ⟨c, digits, hdigits⟩ := List.exists_cons_of_ne_nil (@Nat.toDigits_ne_nil n 10)
  exact ⟨c, digits, hdigits, isDigit_of_mem (hdigits ▸ List.mem_cons_self)⟩

theorem natOfDigits_toDigits (n : Nat) : natOfDigits (Nat.toDigits 10 n) = n := by
  have h : Nat.ofDigitChars 10 (Nat.toDigits 10 n) 0 = n := Nat.ofDigitChars_ten_toDigits
  rw [Nat.ofDigitChars_eq_foldl] at h
  refine Eq.trans ?_ h
  unfold natOfDigits
  congr 1
  funext n c
  rw [Nat.mul_comm]

/-- The first digit of a number that is not zero. -/
theorem head_toDigits {n : Nat} (hn : 0 < n) :
    ∃ c digits, Nat.toDigits 10 n = c :: digits ∧ c ≠ '0' := by
  induction n using Nat.strongRecOn with
  | ind n ih =>
      rw [Nat.toDigits_eq_if (by decide)]
      split
      · next hlt =>
          refine ⟨n.digitChar, [], rfl, ?_⟩
          have hall : ∀ d : Fin 10, 0 < d.val → d.val.digitChar ≠ '0' := by decide
          exact hall ⟨n, hlt⟩ hn
      · obtain ⟨c, digits, hdigits, hc⟩ := ih (n / 10) (by omega) (by omega)
        exact ⟨c, digits ++ [(n % 10).digitChar], by rw [hdigits, List.cons_append], hc⟩

section

variable {rest : List Char} {parseFloat : List Char → F}

theorem takeWhile_digits {digits : List Char} (hdigits : ∀ c ∈ digits, isDigit c = true)
    (hrest : ∀ c ∈ rest.head?, isDigit c = false) :
    (digits ++ rest).takeWhile isDigit = digits ∧ (digits ++ rest).dropWhile isDigit = rest := by
  rw [List.takeWhile_append_of_pos hdigits, List.dropWhile_append_of_pos hdigits]
  cases rest with
  | nil => simp
  | cons c rest => simp [hrest c rfl]

/-- A number that is written is read. -/
theorem scanInteger_toDigits (n : Nat) (hrest : ∀ c ∈ rest.head?, isDigit c = false) :
    scanInteger (Nat.toDigits 10 n ++ rest) = some (Nat.toDigits 10 n, rest) := by
  obtain rfl | hn := Nat.eq_zero_or_pos n
  · rfl
  · obtain ⟨c, digits, hdigits, hc⟩ := head_toDigits hn
    have hall : ∀ d ∈ c :: digits, isDigit d = true := fun d hd =>
      isDigit_of_mem (hdigits ▸ hd : d ∈ Nat.toDigits 10 n)
    obtain ⟨htake, hdrop⟩ := takeWhile_digits (List.forall_mem_cons.mp hall).2 hrest
    rw [hdigits, List.cons_append, scanInteger.eq_2 c _ (fun h => hc h)]
    rw [if_pos (hall c (.head _)), htake, hdrop]

theorem scanExponent_of_stops (hrest : Stops rest) : scanExponent rest = ([], rest) := by
  cases rest with
  | nil => rfl
  | cons c rest =>
      obtain ⟨-, -, he, hE⟩ := hrest c rfl
      simp [scanExponent, he, hE]

theorem scanFraction_of_ne (hrest : ∀ c ∈ rest.head?, c ≠ '.') :
    scanFraction rest = ([], rest) := by
  unfold scanFraction
  split
  · exact absurd rfl (hrest '.' rfl)
  · rfl

theorem scanFraction_append {digits : List Char} (hne : digits ≠ [])
    (hdigits : ∀ c ∈ digits, isDigit c = true) (hrest : ∀ c ∈ rest.head?, isDigit c = false) :
    scanFraction ('.' :: digits ++ rest) = ('.' :: digits, rest) := by
  obtain ⟨htake, hdrop⟩ := takeWhile_digits hdigits hrest
  simp [scanFraction, htake, hdrop, hne]

theorem scanSign_append {sign digits : List Char} (hsign : sign = [] ∨ sign = ['+'] ∨ sign = ['-'])
    (hne : digits ≠ []) (hdigits : ∀ c ∈ digits, isDigit c = true) :
    scanSign (sign ++ (digits ++ rest)) = (sign, digits ++ rest) := by
  obtain rfl | rfl | rfl := hsign
  · obtain _ | ⟨c, digits⟩ := digits
    · exact absurd rfl hne
    · have hc := hdigits c (.head _)
      unfold scanSign
      split
      · next h =>
          rw [(List.cons.inj h).1] at hc
          exact absurd hc (by decide)
      · next h =>
          rw [(List.cons.inj h).1] at hc
          exact absurd hc (by decide)
      · rfl
  · rfl
  · rfl

theorem scanExponent_append {sign digits : List Char}
    (hsign : sign = [] ∨ sign = ['+'] ∨ sign = ['-']) (hne : digits ≠ [])
    (hdigits : ∀ c ∈ digits, isDigit c = true) (hrest : ∀ c ∈ rest.head?, isDigit c = false) :
    scanExponent ('e' :: sign ++ digits ++ rest) = ('e' :: sign ++ digits, rest) := by
  obtain ⟨htake, hdrop⟩ := takeWhile_digits hdigits hrest
  simp [scanExponent, scanSign_append hsign hne hdigits, htake, hdrop, hne]

theorem scanMinus_append {sign : List Char} (hsign : sign = [] ∨ sign = ['-']) (n : Nat) :
    scanMinus (sign ++ (Nat.toDigits 10 n ++ rest)) = (sign, Nat.toDigits 10 n ++ rest) := by
  obtain rfl | rfl := hsign
  · unfold scanMinus
    split
    · next h =>
        obtain ⟨c, digits, hdigits, hc⟩ := toDigits_cons n
        rw [hdigits] at h
        rw [(List.cons.inj h).1] at hc
        exact absurd hc (by decide)
    · rfl
  · rfl

theorem scanNumber_intText (i : Int) (hrest : Stops rest) :
    scanNumber parseFloat (intText i ++ rest) = .ok (.int i, rest) := by
  have hsigned : ∀ sign : List Char, sign = [] ∨ sign = ['-'] →
      scanNumber parseFloat (sign ++ (Nat.toDigits 10 i.natAbs ++ rest)) =
        .ok (.int (if sign = [] then i.natAbs else -i.natAbs), rest) := by
    intro sign hsign
    unfold scanNumber
    simp only [scanMinus_append hsign, scanInteger_toDigits _ fun c hc => (hrest c hc).1,
      scanFraction_of_ne fun c hc => (hrest c hc).2.1, scanExponent_of_stops hrest, true_and,
      if_true, natOfDigits_toDigits]
  unfold intText
  split
  · next hneg =>
      refine (hsigned ['-'] (.inr rfl)).trans ?_
      rw [if_neg (List.cons_ne_nil _ _), show -(i.natAbs : Int) = i by omega]
  · next hpos =>
      refine (hsigned [] (.inl rfl)).trans ?_
      rw [if_pos rfl, show (i.natAbs : Int) = i by omega]

theorem scanNumber_literal {text : List Char} (h : FloatLiteral text) (hrest : Stops rest) :
    scanNumber parseFloat (text ++ rest) = .ok (.float (parseFloat text), rest) := by
  obtain ⟨sign, n, fraction, exponent, rfl, hsign, hfraction, hexponent, hne⟩ := h.parts
  have hstop : ∀ c ∈ (exponent ++ rest).head?, isDigit c = false ∧ c ≠ '.' := by
    obtain rfl | ⟨esign, digits, rfl, -⟩ := hexponent
    · exact fun c hc => ⟨(hrest c hc).1, (hrest c hc).2.1⟩
    · intro c hc
      cases hc
      exact ⟨by decide, by decide⟩
  have hexp : scanExponent (exponent ++ rest) = (exponent, rest) := by
    obtain rfl | ⟨esign, digits, rfl, hesign, hdigits, hall⟩ := hexponent
    · exact scanExponent_of_stops hrest
    · exact scanExponent_append hesign hdigits hall fun c hc => (hrest c hc).1
  have hfrac : scanFraction (fraction ++ (exponent ++ rest)) = (fraction, exponent ++ rest) := by
    obtain rfl | ⟨digits, rfl, hdigits, hall⟩ := hfraction
    · exact scanFraction_of_ne fun c hc => (hstop c hc).2
    · exact scanFraction_append hdigits hall fun c hc => (hstop c hc).1
  have hint : scanInteger (Nat.toDigits 10 n ++ (fraction ++ (exponent ++ rest))) =
      some (Nat.toDigits 10 n, fraction ++ (exponent ++ rest)) := by
    refine scanInteger_toDigits n ?_
    obtain rfl | ⟨digits, rfl, -⟩ := hfraction
    · exact fun c hc => (hstop c hc).1
    · intro c hc
      cases hc
      decide
  unfold scanNumber
  simp only [List.append_assoc, scanMinus_append hsign, hint, hfrac, hexp, if_neg hne]

/-! ## Values -/

/-- The first character of a number. -/
theorem number_head {sign : List Char} (hsign : sign = [] ∨ sign = ['-']) (n : Nat)
    (rest : List Char) : ∃ c more, sign ++ Nat.toDigits 10 n ++ rest = c :: more ∧
      (isDigit c = true ∨ c = '-' ∧ ∃ d more', more = d :: more' ∧ isDigit d = true) := by
  obtain ⟨d, digits, hdigits, hd⟩ := toDigits_cons n
  obtain rfl | rfl := hsign
  · exact ⟨d, digits ++ rest, by rw [hdigits]; rfl, .inl hd⟩
  · exact ⟨'-', d :: digits ++ rest, by rw [hdigits]; rfl, .inr ⟨rfl, d, _, rfl, hd⟩⟩

/-- No name of a constant starts as a number does. -/
theorem find?_constants {c : Char} {more : List Char}
    (h : isDigit c = true ∨ c = '-' ∧ ∃ d more', more = d :: more' ∧ isDigit d = true) :
    (constants parseFloat).find? (fun named => named.1.toList.isPrefixOf (c :: more)) = none := by
  rw [List.find?_eq_none]
  intro named hnamed hname
  have hpre : named.1.toList <+: c :: more := List.isPrefixOf_iff_prefix.mp hname
  simp only [constants, List.mem_cons, List.not_mem_nil, or_false] at hnamed
  obtain hdigit | ⟨rfl, d, more', rfl, hdigit⟩ := h
  · rcases hnamed with rfl | rfl | rfl | rfl | rfl | rfl
    all_goals
      simp only [String.reduceToList, List.cons_prefix_cons] at hpre
      rw [← hpre.1] at hdigit
      exact absurd hdigit (by decide)
  · rcases hnamed with rfl | rfl | rfl | rfl | rfl | rfl
    case inr.inr.inr.inr.inr =>
      simp only [String.reduceToList, List.cons_prefix_cons] at hpre
      rw [← hpre.2.1] at hdigit
      exact absurd hdigit (by decide)
    all_goals simp at hpre

end

/-! ## Values -/

variable (format : FloatFormat F) (separators : Separators)

/-- The string that a key is written as. -/
def DumpKey.codes : DumpKey F → List Code
  | .str codes => codes
  | .float f => (format.text f).map Code.ofChar
  | .bool b => codesOf (if b then "true" else "false")
  | .none => codesOf "null"
  | .int i => (intText i).map Code.ofChar

mutual

/-- `json.dumps(value, separators=separators, default=str)` -/
def dumps : Dumpable F → List Char
  | .none => "null".toList
  | .bool b => (if b then "true" else "false").toList
  | .int i => intText i
  | .float f => format.text f
  | .str codes | .other codes => dumpStr codes
  | .list [] => ['[', ']']
  | .list (item :: items) => '[' :: (dumps item ++ dumpItems items)
  | .dict [] => ['{', '}']
  | .dict ((key, value) :: entries) =>
      '{' :: (dumpStr (key.codes format) ++ ':' :: (separators.pad ++ dumps value) ++
        dumpEntries entries)

/-- The items after the first one, with the bracket that closes the list. -/
def dumpItems : List (Dumpable F) → List Char
  | [] => [']']
  | item :: items => ',' :: (separators.pad ++ dumps item ++ dumpItems items)

/-- The entries after the first one, with the brace that closes the object. -/
def dumpEntries : List (DumpKey F × Dumpable F) → List Char
  | [] => ['}']
  | (key, value) :: entries =>
      ',' :: (separators.pad ++ dumpStr (key.codes format) ++
        ':' :: (separators.pad ++ dumps value) ++ dumpEntries entries)

end

mutual

/-- What `json.loads` makes of what `json.dumps` wrote. -/
def Dumpable.loaded : Dumpable F → Loaded F
  | .none => .null
  | .bool b => .bool b
  | .int i => .int i
  | .float f => .float f
  | .str codes | .other codes => .str (rejoin codes)
  | .list items => .list (loadedItems items)
  | .dict entries => .dict (loadedEntries [] entries)

def loadedItems : List (Dumpable F) → List (Loaded F)
  | [] => []
  | item :: items => item.loaded :: loadedItems items

def loadedEntries (read : List (List Nat × Loaded F)) :
    List (DumpKey F × Dumpable F) → List (List Nat × Loaded F)
  | [] => read
  | (key, value) :: entries =>
      loadedEntries (setEntry read (rejoin (key.codes format)) value.loaded) entries

end

section

variable {format : FloatFormat F} {separators : Separators} {rest : List Char}

theorem skipSpace_cons {c : Char} (h : jsonSpace c = false) :
    skipSpace (c :: rest) = c :: rest := by
  simp [skipSpace, h]

theorem skipSpace_pad (rest : List Char) :
    skipSpace (separators.pad ++ rest) = skipSpace rest := by
  cases separators <;> rfl

theorem stops_cons {c : Char} (h : isDigit c = false ∧ c ≠ '.' ∧ c ≠ 'e' ∧ c ≠ 'E') :
    Stops (c :: rest) := by
  intro d hd
  cases hd
  exact h

variable (format separators rest) in
theorem stops_items (items : List (Dumpable F)) :
    Stops (dumpItems format separators items ++ rest) := by
  cases items <;> exact stops_cons (by decide)

variable (format separators rest) in
theorem stops_entries (entries : List (DumpKey F × Dumpable F)) :
    Stops (dumpEntries format separators entries ++ rest) := by
  cases entries <;> exact stops_cons (by decide)

/-- The text of a value starts with none of the characters that the scanner passes over or that
close a list or an object. -/
theorem dumps_head (v : Dumpable F) : ∃ c more, dumps format separators v = c :: more ∧
    jsonSpace c = false ∧ c ≠ ']' ∧ c ≠ '}' ∧ c ≠ '\ufeff' := by
  have hnumber : ∀ {c : Char} {more : List Char},
      (isDigit c = true ∨ c = '-' ∧ ∃ d more', more = d :: more' ∧ isDigit d = true) →
        jsonSpace c = false ∧ c ≠ ']' ∧ c ≠ '}' ∧ c ≠ '\ufeff' := by
    rintro c more (hdigit | ⟨rfl, -⟩)
    · refine ⟨Bool.eq_false_of_not_eq_true fun hspace => ?_, ?_, ?_, ?_⟩
      · simp only [jsonSpace, List.contains_iff_mem, List.mem_cons, List.not_mem_nil,
          or_false] at hspace
        rcases hspace with rfl | rfl | rfl | rfl <;> exact absurd hdigit (by decide)
      all_goals
        rintro rfl
        exact absurd hdigit (by decide)
    · decide
  cases v with
  | none => exact ⟨'n', _, rfl, by decide⟩
  | bool b => cases b <;> exact ⟨_, _, rfl, by decide⟩
  | int i =>
      unfold dumps intText
      split
      · obtain ⟨c, more, h, hc⟩ := number_head (.inr rfl) i.natAbs []
        rw [List.append_nil] at h
        exact ⟨c, more, h, hnumber hc⟩
      · obtain ⟨c, more, h, hc⟩ := number_head (.inl rfl) i.natAbs []
        rw [List.append_nil] at h
        exact ⟨c, more, h, hnumber hc⟩
  | float f =>
      unfold dumps
      obtain h | h | h | h := format.literal f
      · obtain ⟨sign, n, fraction, exponent, htext, hsign, -⟩ := h.parts
        obtain ⟨c, more, h, hc⟩ := number_head hsign n (fraction ++ exponent)
        rw [← List.append_assoc] at h
        exact ⟨c, more, htext.trans h, hnumber hc⟩
      · exact ⟨'N', _, h, by decide⟩
      · exact ⟨'I', _, h, by decide⟩
      · exact ⟨'-', _, h, by decide⟩
  | str codes => exact ⟨'"', _, rfl, by decide⟩
  | other codes => exact ⟨'"', _, rfl, by decide⟩
  | list items => cases items <;> exact ⟨'[', _, rfl, by decide⟩
  | dict entries => cases entries <;> exact ⟨'{', _, rfl, by decide⟩

theorem skipSpace_dumps (v : Dumpable F) (rest : List Char) :
    skipSpace (separators.pad ++ (dumps format separators v ++ rest)) =
      dumps format separators v ++ rest := by
  obtain ⟨c, more, h, hspace, -⟩ := @dumps_head F format separators v
  rw [skipSpace_pad, h, List.cons_append, skipSpace_cons hspace]

/-! ## Values that are read -/

variable (format separators) in
/-- The text of a value is read, whatever stands after it. -/
def Reads (v : Dumpable F) : Prop :=
  ∀ fuel rest, Stops rest → (dumps format separators v).length < fuel →
    scanOnce format.parse fuel (dumps format separators v ++ rest) = .ok (v.loaded format, rest)

theorem scanOnce_number {parseFloat : List Char → F} {c : Char} {more : List Char} (fuel : Nat)
    (h : isDigit c = true ∨ c = '-' ∧ ∃ d more', more = d :: more' ∧ isDigit d = true) :
    scanOnce parseFloat (fuel + 1) (c :: more) = scanNumber parseFloat (c :: more) := by
  have hne : ∀ d : Char, isDigit d = false → d ≠ '-' → c ≠ d := by
    rintro d hd hminus rfl
    obtain h | ⟨h, -⟩ := h
    · exact absurd (hd.symm.trans h) (by decide)
    · exact hminus h
  rw [scanOnce, if_neg (hne _ (by decide) (by decide)), if_neg (hne _ (by decide) (by decide)),
    if_neg (hne _ (by decide) (by decide)), find?_constants h]

theorem length_le_escapeUnits (units : List Nat) : units.length ≤ (escapeUnits units).length := by
  induction units with
  | nil => exact Nat.le_refl _
  | cons unit units ih =>
      have hpos : 0 < (escapeUnit unit).length := by
        obtain h | ⟨c, h, -⟩ | ⟨c, h, -⟩ := escapeUnit_cases unit <;> rw [h]
        · exact Nat.succ_pos _
        · exact Nat.succ_pos _
        · exact Nat.succ_pos _
      rw [escapeUnits_cons, List.length_append, List.length_cons]
      omega

/-- A string is read from its quote on, as an item or as a key. -/
theorem scanString_quoted (start : List Char) (codes : List Code) (rest : List Char) :
    scanString start ((escapeUnits (utf16 codes) ++ '"' :: rest).length + 1) []
      (escapeUnits (utf16 codes) ++ '"' :: rest) = .ok (rejoin codes, rest) := by
  refine scanString_dumpStr codes ?_
  have hle := length_le_escapeUnits (utf16 codes)
  rw [List.length_append]
  omega

theorem dumpStr_append (codes : List Code) (rest : List Char) :
    dumpStr codes ++ rest = '"' :: (escapeUnits (utf16 codes) ++ '"' :: rest) := by
  simp [dumpStr]

theorem dumpItems_cons (item : Dumpable F) (items : List (Dumpable F)) :
    dumpItems format separators (item :: items) ++ rest =
      ',' :: (separators.pad ++ (dumps format separators item ++
        (dumpItems format separators items ++ rest))) := by
  simp [dumpItems]

theorem dumpEntries_cons (key : DumpKey F) (v : Dumpable F)
    (entries : List (DumpKey F × Dumpable F)) :
    dumpEntries format separators ((key, v) :: entries) ++ rest =
      ',' :: (separators.pad ++ (dumpStr (key.codes format) ++ ':' :: (separators.pad ++
        (dumps format separators v ++ (dumpEntries format separators entries ++ rest))))) := by
  simp [dumpEntries]

variable {value : List Char → Except DecodeFault (Scanned (Loaded F))} {v : Loaded F}
  {s more : List Char} {n : Nat}

theorem scanItems_close {read : List (Loaded F)} (hvalue : value s = .ok (v, ']' :: rest)) :
    scanItems value (n + 1) read s = .ok (.list (read ++ [v]), rest) := by
  rw [scanItems, hvalue]
  rfl

theorem scanItems_comma {read : List (Loaded F)} (hvalue : value s = .ok (v, ',' :: more))
    (hnext : ∀ c ∈ (skipSpace more).head?, c ≠ ']') :
    scanItems value (n + 1) read s = scanItems value n (read ++ [v]) (skipSpace more) := by
  rw [scanItems, hvalue, Except.ok_bind]
  dsimp only
  rw [skipSpace_cons (by decide)]
  split
  · next h => exact absurd (List.cons.inj h).1 (by decide)
  · next h =>
      obtain rfl := (List.cons.inj h).2
      split
      · next h => exact absurd rfl (hnext ']' (by rw [h]; rfl))
      · rfl
  · next h => exact absurd rfl (h more)

theorem scanEntries_close {read : List (List Nat × Loaded F)} {codes : List Code}
    (hvalue : value (skipSpace s) = .ok (v, '}' :: rest)) :
    scanEntries value (n + 1) read (dumpStr codes ++ ':' :: s) =
      .ok (.dict (setEntry read (rejoin codes) v), rest) := by
  rw [dumpStr_append, scanEntries, scanString_quoted, Except.ok_bind]
  dsimp only
  rw [skipSpace_cons (by decide)]
  split
  · next h =>
      obtain rfl := (List.cons.inj h).2
      rw [hvalue]
      rfl
  · next h => exact absurd rfl (h s)

theorem scanEntries_comma {read : List (List Nat × Loaded F)} {codes : List Code}
    (hvalue : value (skipSpace s) = .ok (v, ',' :: more))
    (hnext : ∀ c ∈ (skipSpace more).head?, c ≠ '}') :
    scanEntries value (n + 1) read (dumpStr codes ++ ':' :: s) =
      scanEntries value n (setEntry read (rejoin codes) v) (skipSpace more) := by
  rw [dumpStr_append, scanEntries, scanString_quoted, Except.ok_bind]
  dsimp only
  rw [skipSpace_cons (by decide)]
  split
  · next h =>
      obtain rfl := (List.cons.inj h).2
      rw [hvalue, Except.ok_bind]
      dsimp only
      rw [skipSpace_cons (by decide)]
      split
      · next h => exact absurd (List.cons.inj h).1 (by decide)
      · next h =>
          obtain rfl := (List.cons.inj h).2
          split
          · next h => exact absurd rfl (hnext '}' (by rw [h]; rfl))
          · rfl
      · next h => exact absurd rfl (h more)
  · next h => exact absurd rfl (h s)

/-- The items of a list are read. -/
theorem scanItems_dumps {item : Dumpable F} {items : List (Dumpable F)}
    (hreads : ∀ v ∈ item :: items, Reads format separators v) {read : List (Loaded F)}
    {n fuel : Nat} (hn : (dumps format separators item).length +
      (dumpItems format separators items).length ≤ n) (hfuel : n ≤ fuel) :
    scanItems (scanOnce format.parse fuel) n read (dumps format separators item ++
      (dumpItems format separators items ++ rest)) =
        .ok (.list (read ++ loadedItems format (item :: items)), rest) := by
  induction items generalizing item read n with
  | nil =>
      rw [dumpItems, List.length_singleton] at hn
      obtain _ | n := n
      · omega
      have hitem := hreads item (.head _)
      exact scanItems_close (hitem fuel _ (stops_items format separators rest []) (by omega))
  | cons next items ih =>
      obtain ⟨hitem, hnext⟩ := List.forall_mem_cons.mp hreads
      obtain ⟨c, more, hhead, -, hbracket, -⟩ := @dumps_head F format separators next
      simp only [dumpItems, List.length_cons, List.length_append] at hn
      obtain _ | n := n
      · omega
      have hread := hitem fuel _ (stops_items format separators rest (next :: items)) (by omega)
      rw [dumpItems_cons] at hread ⊢
      rw [scanItems_comma hread, skipSpace_dumps, ih hnext (by omega) (by omega)]
      · simp [loadedItems]
      · rw [skipSpace_dumps, hhead]
        rintro _ ⟨⟩
        exact hbracket

/-- The entries of an object are read. -/
theorem scanEntries_dumps {key : DumpKey F} {v : Dumpable F}
    {entries : List (DumpKey F × Dumpable F)}
    (hreads : ∀ entry ∈ (key, v) :: entries, Reads format separators entry.2)
    {read : List (List Nat × Loaded F)} {n fuel : Nat}
    (hn : (dumps format separators v).length + (dumpEntries format separators entries).length ≤ n)
    (hfuel : n ≤ fuel) :
    scanEntries (scanOnce format.parse fuel) n read (dumpStr (key.codes format) ++
      ':' :: (separators.pad ++ (dumps format separators v ++
        (dumpEntries format separators entries ++ rest)))) =
      .ok (.dict (loadedEntries format read ((key, v) :: entries)), rest) := by
  induction entries generalizing key v read n with
  | nil =>
      rw [dumpEntries, List.length_singleton] at hn
      obtain _ | n := n
      · omega
      have hvalue : Reads format separators v := hreads (key, v) (.head _)
      refine scanEntries_close ?_
      rw [skipSpace_dumps]
      exact hvalue fuel _ (stops_entries format separators rest []) (by omega)
  | cons next entries ih =>
      obtain ⟨nextKey, nextValue⟩ := next
      obtain ⟨hvalue, hnext⟩ := List.forall_mem_cons.mp hreads
      have hvalue : Reads format separators v := hvalue
      simp only [dumpEntries, List.length_cons, List.length_append] at hn
      obtain _ | n := n
      · omega
      have hread := hvalue fuel _
        (stops_entries format separators rest ((nextKey, nextValue) :: entries))
        (by omega)
      have hquote : ∀ more, skipSpace (separators.pad ++ (dumpStr (nextKey.codes format) ++ more)) =
          dumpStr (nextKey.codes format) ++ more := by
        intro more
        rw [skipSpace_pad, dumpStr_append, skipSpace_cons (by decide)]
      rw [dumpEntries_cons] at hread ⊢
      rw [scanEntries_comma (by rw [skipSpace_dumps]; exact hread), hquote,
        ih hnext (by omega) (by omega)]
      · rfl
      · rw [hquote, dumpStr_append]
        rintro _ ⟨⟩
        decide

theorem reads_list {items : List (Dumpable F)}
    (hreads : ∀ v ∈ items, Reads format separators v) : Reads format separators (.list items) := by
  intro fuel rest hrest hfuel
  obtain _ | fuel := fuel
  · cases hfuel
  cases items with
  | nil => rfl
  | cons item items =>
      obtain ⟨c, more, hhead, hspace, hbracket, -⟩ := @dumps_head F format separators item
      simp only [dumps, List.length_cons, List.length_append] at hfuel
      have hitems := @scanItems_dumps F format separators rest item items hreads [] fuel fuel
        (by omega) (Nat.le_refl _)
      show scanArray _ fuel (dumps format separators item ++ dumpItems format separators items ++
        rest) = _
      rw [List.append_assoc, scanArray]
      rw [hhead, List.cons_append] at hitems ⊢
      rw [skipSpace_cons hspace]
      split
      · next h => exact absurd (List.cons.inj h).1 hbracket
      · exact hitems

theorem reads_dict {entries : List (DumpKey F × Dumpable F)}
    (hreads : ∀ entry ∈ entries, Reads format separators entry.2) :
    Reads format separators (.dict entries) := by
  intro fuel rest hrest hfuel
  obtain _ | fuel := fuel
  · cases hfuel
  cases entries with
  | nil => rfl
  | cons entry entries =>
      obtain ⟨key, v⟩ := entry
      simp only [dumps, List.length_cons, List.length_append] at hfuel
      have hentries := @scanEntries_dumps F format separators rest key v entries hreads [] fuel fuel
        (by omega) (Nat.le_refl _)
      show scanObject _ fuel (dumpStr (key.codes format) ++ ':' :: (separators.pad ++
        dumps format separators v) ++ dumpEntries format separators entries ++ rest) = _
      have htext : dumpStr (key.codes format) ++ ':' :: (separators.pad ++
          dumps format separators v) ++ dumpEntries format separators entries ++ rest =
            dumpStr (key.codes format) ++ ':' :: (separators.pad ++ (dumps format separators v ++
              (dumpEntries format separators entries ++ rest))) := by simp
      rw [htext]
      rw [dumpStr_append] at hentries ⊢
      rw [scanObject, skipSpace_cons (by decide)]
      exact hentries

theorem scanOnce_quote {parseFloat : List Char → F} (codes : List Code) (fuel : Nat) :
    scanOnce parseFloat (fuel + 1) (dumpStr codes ++ rest) = .ok (.str (rejoin codes), rest) := by
  rw [dumpStr_append, scanOnce, if_pos rfl, scanString_quoted]
  rfl

/-- The name of a constant is read. -/
theorem scanOnce_name {parseFloat : List Char → F} {name : String} {v : Loaded F}
    (h : (name, v) ∈ constants parseFloat) (fuel : Nat) :
    scanOnce parseFloat (fuel + 1) (name.toList ++ rest) = .ok (v, rest) := by
  simp only [constants, List.mem_cons, Prod.mk.injEq, List.not_mem_nil, or_false] at h
  rcases h with ⟨rfl, rfl⟩ | ⟨rfl, rfl⟩ | ⟨rfl, rfl⟩ | ⟨rfl, rfl⟩ | ⟨rfl, rfl⟩ | ⟨rfl, rfl⟩
  all_goals
    simp [scanOnce, constants]
    rfl

theorem reads_name {v : Dumpable F} {name : String}
    (htext : dumps format separators v = name.toList)
    (hname : (name, v.loaded format) ∈ constants format.parse) : Reads format separators v := by
  intro fuel rest hrest hfuel
  obtain _ | fuel := fuel
  · cases hfuel
  rw [htext]
  exact scanOnce_name hname fuel

theorem reads_int (i : Int) : Reads format separators (.int i) := by
  intro fuel rest hrest hfuel
  obtain _ | fuel := fuel
  · cases hfuel
  have hsign : ∃ sign : List Char, (sign = [] ∨ sign = ['-']) ∧
      intText i = sign ++ Nat.toDigits 10 i.natAbs := by
    unfold intText
    split
    · exact ⟨['-'], .inr rfl, rfl⟩
    · exact ⟨[], .inl rfl, rfl⟩
  obtain ⟨sign, hsign, htext⟩ := hsign
  obtain ⟨c, more, hhead, hc⟩ := number_head hsign i.natAbs rest
  rw [← htext] at hhead
  show scanOnce _ _ (intText i ++ rest) = _
  rw [hhead, scanOnce_number fuel hc, ← hhead, scanNumber_intText i hrest]
  rfl

theorem reads_float (f : F) : Reads format separators (.float f) := by
  have hparse := format.parse_text f
  have hname : ∀ name : String, format.text f = name.toList →
      (name, .float (format.parse name.toList)) ∈ constants format.parse →
        Reads format separators (.float f) := by
    intro name htext hname
    rw [← htext, hparse] at hname
    exact reads_name htext hname
  obtain hliteral | htext | htext | htext := format.literal f
  · intro fuel rest hrest hfuel
    obtain _ | fuel := fuel
    · cases hfuel
    obtain ⟨sign, n, fraction, exponent, htext, hsign, -⟩ := hliteral.parts
    obtain ⟨c, more, hhead, hc⟩ := number_head hsign n (fraction ++ (exponent ++ rest))
    have hall : format.text f ++ rest = c :: more := by
      rw [htext, ← hhead]
      simp
    show scanOnce _ _ (format.text f ++ rest) = .ok (.float f, rest)
    rw [hall, scanOnce_number fuel hc, ← hall, scanNumber_literal hliteral hrest, hparse]
  · exact hname _ htext (by simp [constants])
  · exact hname _ htext (by simp [constants])
  · exact hname _ htext (by simp [constants])

theorem reads_str (codes : List Code) : Reads format separators (.str codes) := by
  intro fuel rest hrest hfuel
  obtain _ | fuel := fuel
  · cases hfuel
  exact scanOnce_quote codes fuel

mutual

/-- What was written is read. -/
theorem reads : ∀ v : Dumpable F, Reads format separators v
  | .none => reads_name rfl (by simp [constants, Dumpable.loaded])
  | .bool true => reads_name rfl (by simp [constants, Dumpable.loaded])
  | .bool false => reads_name rfl (by simp [constants, Dumpable.loaded])
  | .int i => reads_int i
  | .float f => reads_float f
  | .str codes | .other codes => @reads_str F format separators codes
  | .list items => reads_list (reads_items items)
  | .dict entries => reads_dict (reads_entries entries)

theorem reads_items : ∀ items : List (Dumpable F), ∀ v ∈ items, Reads format separators v
  | [] => fun _ h => absurd h List.not_mem_nil
  | item :: items => List.forall_mem_cons.mpr ⟨reads item, reads_items items⟩

theorem reads_entries : ∀ entries : List (DumpKey F × Dumpable F),
    ∀ entry ∈ entries, Reads format separators entry.2
  | [] => fun _ h => absurd h List.not_mem_nil
  | (_, v) :: entries => List.forall_mem_cons.mpr ⟨reads v, reads_entries entries⟩

end

/-- Reading is the inverse of writing. -/
theorem loads_dumps (v : Dumpable F) :
    loads format.parse (dumps format separators v) = .ok (v.loaded format) := by
  obtain ⟨c, more, hhead, hspace, -, -, hmark⟩ := @dumps_head F format separators v
  have hscan := reads v ((dumps format separators v).length + 1) [] (by simp [Stops])
    (Nat.lt_succ_self _)
  have hbom : (dumps format separators v).head? ≠ some '\ufeff' := by
    rw [hhead]
    exact fun h => hmark (Option.some.inj h)
  rw [List.append_nil] at hscan
  rw [loads, if_neg hbom]
  rw [hhead] at hscan ⊢
  rw [skipSpace_cons hspace, hscan]
  rfl

end

/-! ## The characters of a text -/

/-- A text that is written is of printable ASCII. -/
def Printable (text : List Char) : Prop := ∀ c ∈ text, 0x20 ≤ c.toNat ∧ c.toNat < 0x7f

namespace Printable

variable {s t : List Char}

instance (text : List Char) : Decidable (Printable text) :=
  List.decidableBAll _ text

theorem append (hs : Printable s) (ht : Printable t) : Printable (s ++ t) :=
  fun c hc => (List.mem_append.mp hc).elim (hs c) (ht c)

theorem cons {c : Char} (hc : 0x20 ≤ c.toNat ∧ c.toNat < 0x7f) (ht : Printable t) :
    Printable (c :: t) := List.forall_mem_cons.mpr ⟨hc, ht⟩

theorem nil : Printable [] := fun _ h => absurd h List.not_mem_nil

end Printable

section

variable {format : FloatFormat F} {separators : Separators} {s t : List Char}

theorem printable_digitChar {d : Nat} (h : d < 0x10) :
    0x20 ≤ d.digitChar.toNat ∧ d.digitChar.toNat < 0x7f := by
  have hall : ∀ d : Fin 0x10, 0x20 ≤ d.val.digitChar.toNat ∧ d.val.digitChar.toNat < 0x7f := by
    decide
  exact hall ⟨d, h⟩

theorem printable_escapeUnit {unit : Nat} (h : unit < 0x10000) : Printable (escapeUnit unit) := by
  obtain hescape | ⟨c, hescape, hplain⟩ | ⟨c, hescape, -, -, -, hc⟩ := escapeUnit_cases unit
  · rw [hescape]
    exact .cons (by decide) (.cons (by decide) (.cons (printable_digitChar (by omega))
      (.cons (printable_digitChar (by omega)) (.cons (printable_digitChar (by omega))
        (.cons (printable_digitChar (by omega)) .nil)))))
  · rw [hescape]
    refine .cons (by decide) (.cons ?_ .nil)
    unfold plainEscape at hplain
    split at hplain
    all_goals first | decide | cases hplain
  · rw [hescape]
    exact .cons hc .nil

theorem printable_dumpStr (codes : List Code) : Printable (dumpStr codes) := by
  refine .cons (by decide) (.append (fun c hc => ?_) (by decide))
  obtain ⟨unit, hunit, hc⟩ := List.mem_flatMap.mp hc
  exact printable_escapeUnit (utf16_lt hunit) c hc

theorem printable_digits (h : ∀ c ∈ s, isDigit c = true) : Printable s := by
  intro c hc
  have hdigit := h c hc
  simp only [isDigit, Bool.and_eq_true, decide_eq_true_eq, Char.le_def, UInt32.le_iff_toNat_le]
    at hdigit
  show 0x20 ≤ c.val.toNat ∧ c.val.toNat < 0x7f
  exact ⟨Nat.le_trans (by decide) hdigit.1, Nat.lt_of_le_of_lt hdigit.2 (by decide)⟩

theorem printable_toDigits (n : Nat) : Printable (Nat.toDigits 10 n) :=
  printable_digits fun _ => isDigit_of_mem

theorem printable_intText (i : Int) : Printable (intText i) := by
  unfold intText
  split
  · exact .cons (by decide) (printable_toDigits _)
  · exact printable_toDigits _

theorem printable_literal (h : FloatLiteral s) : Printable s := by
  obtain ⟨sign, n, fraction, exponent, rfl, hsign, hfraction, hexponent, -⟩ := h.parts
  refine ((Printable.append ?_ (printable_toDigits n)).append ?_).append ?_
  · obtain rfl | rfl := hsign <;> decide
  · obtain rfl | ⟨digits, rfl, -, hdigits⟩ := hfraction
    · exact .nil
    · exact .cons (by decide) (printable_digits hdigits)
  · obtain rfl | ⟨sign, digits, rfl, hsign, -, hdigits⟩ := hexponent
    · exact .nil
    · refine .append (.cons (by decide) ?_) (printable_digits hdigits)
      obtain rfl | rfl | rfl := hsign <;> decide

theorem printable_pad : Printable separators.pad := by cases separators <;> decide

mutual

theorem printable_dumps : ∀ v : Dumpable F, Printable (dumps format separators v)
  | .none => by
      unfold dumps
      decide
  | .bool b => by
      unfold dumps
      cases b <;> decide
  | .int i => printable_intText i
  | .float f => by
      show Printable (format.text f)
      obtain h | h | h | h := format.literal f
      · exact printable_literal h
      all_goals
        rw [h]
        decide
  | .str codes | .other codes => printable_dumpStr codes
  | .list [] => by
      unfold dumps
      decide
  | .list (item :: items) =>
      .cons (by decide) ((printable_dumps item).append (printable_dumpItems items))
  | .dict [] => by
      unfold dumps
      decide
  | .dict ((key, v) :: entries) =>
      .cons (by decide) (((printable_dumpStr _).append (.cons (by decide)
        (printable_pad.append (printable_dumps v)))).append (printable_dumpEntries entries))

theorem printable_dumpItems :
    ∀ items : List (Dumpable F), Printable (dumpItems format separators items)
  | [] => by
      unfold dumpItems
      decide
  | item :: items =>
      .cons (by decide) ((printable_pad.append (printable_dumps item)).append
        (printable_dumpItems items))

theorem printable_dumpEntries : ∀ entries : List (DumpKey F × Dumpable F),
    Printable (dumpEntries format separators entries)
  | [] => by
      unfold dumpEntries
      decide
  | (key, v) :: entries =>
      .cons (by decide) (((printable_pad.append (printable_dumpStr _)).append (.cons (by decide)
        (printable_pad.append (printable_dumps v)))).append (printable_dumpEntries entries))

end

end

/-! ## Dictionaries of names -/

def textDump (text : String) : Dumpable F := .str (codesOf text)

/-- A `dict` whose keys are texts. -/
def strDict (entries : List (String × Dumpable F)) : Dumpable F :=
  .dict (entries.map fun entry => (.str (codesOf entry.1), entry.2))

/-- `value[name]` of an object that was read -/
def Loaded.get? (name : String) : Loaded F → Option (Loaded F)
  | .dict entries => (entries.find? fun entry => entry.1 = readText name).map Prod.snd
  | _ => none

def charOf? (code : Nat) : Option Char :=
  if code.isValidChar then some (Char.ofNat code) else none

/-- The text of a string without surrogates. -/
def Loaded.text? : Loaded F → Option String
  | .str codes => (codes.mapM charOf?).map String.ofList
  | _ => none

theorem readText_injective : Function.Injective readText := by
  intro text text' h
  refine String.toList_inj.mp (List.map_injective_iff.mpr (fun c c' hc => ?_) h)
  rw [← Char.ofNat_toNat c, hc, Char.ofNat_toNat]

theorem text?_readText (text : String) :
    (Loaded.str (readText text) : Loaded F).text? = some text := by
  have hcodes : ∀ cs : List Char, (cs.map Char.toNat).mapM charOf? = some cs := by
    intro cs
    induction cs with
    | nil => rfl
    | cons c cs ih =>
        have hvalid : c.toNat.isValidChar := c.valid
        rw [List.map_cons, List.mapM_cons, ih, charOf?, if_pos hvalid, Char.ofNat_toNat]
        rfl
  rw [Loaded.text?, readText, hcodes]
  simp

section

variable {format : FloatFormat F}

theorem loadedItems_eq_map (items : List (Dumpable F)) :
    loadedItems format items = items.map (Dumpable.loaded format) := by
  induction items with
  | nil => rfl
  | cons item items ih => rw [loadedItems, ih, List.map_cons]

theorem loaded_textDump (text : String) :
    (textDump text).loaded format = .str (readText text) := by
  rw [textDump, Dumpable.loaded, rejoin_codesOf]

theorem setEntry_of_notMem {read : List (List Nat × Loaded F)} {key : List Nat} {v : Loaded F}
    (h : key ∉ read.map Prod.fst) : setEntry read key v = read ++ [(key, v)] := by
  induction read with
  | nil => rfl
  | cons entry read ih =>
      rw [List.map_cons, List.mem_cons, not_or] at h
      rw [setEntry, if_neg (Ne.symm h.1), ih h.2]
      rfl

/-- A `dict` with distinct names is read entry by entry. -/
theorem loaded_strDict {entries : List (String × Dumpable F)}
    (hdistinct : (entries.map Prod.fst).Nodup) :
    (strDict entries).loaded format =
      .dict (entries.map fun entry => (readText entry.1, entry.2.loaded format)) := by
  have hread : ∀ (read : List (List Nat × Loaded F)),
      (∀ entry ∈ entries, readText entry.1 ∉ read.map Prod.fst) →
        loadedEntries format read (entries.map fun entry => (.str (codesOf entry.1), entry.2)) =
          read ++ entries.map fun entry => (readText entry.1, entry.2.loaded format) := by
    induction entries with
    | nil => exact fun read _ => (List.append_nil read).symm
    | cons entry entries ih =>
        intro read hnew
        obtain ⟨hentry, hentries⟩ := List.forall_mem_cons.mp hnew
        obtain ⟨hnot, hrest⟩ := List.nodup_cons.mp hdistinct
        rw [List.map_cons, loadedEntries, DumpKey.codes, rejoin_codesOf]
        rw [setEntry_of_notMem hentry, ih hrest]
        · simp
        · intro other hother hmem
          rw [List.map_append, List.mem_append] at hmem
          obtain hmem | hmem := hmem
          · exact hentries other hother hmem
          · refine hnot ?_
            rw [← readText_injective (List.mem_singleton.mp hmem)]
            exact List.mem_map_of_mem hother
  rw [strDict, Dumpable.loaded, hread [] fun _ _ => List.not_mem_nil, List.nil_append]

/-- What is written of distinct names is found by them. -/
theorem get?_strDict {entries : List (String × Dumpable F)} {name : String} {v : Dumpable F}
    (hdistinct : (entries.map Prod.fst).Nodup) (hmem : (name, v) ∈ entries) :
    ((strDict entries).loaded format).get? name = some (v.loaded format) := by
  rw [loaded_strDict hdistinct, Loaded.get?]
  induction entries with
  | nil => cases hmem
  | cons entry entries ih =>
      obtain ⟨hnot, hrest⟩ := List.nodup_cons.mp hdistinct
      rw [List.map_cons]
      obtain rfl | hmem := List.mem_cons.mp hmem
      · rw [List.find?_cons_of_pos (by simp)]
        rfl
      · rw [List.find?_cons_of_neg, ih hrest hmem]
        intro heq
        have hname := readText_injective (of_decide_eq_true heq)
        exact hnot (hname ▸ List.mem_map_of_mem hmem)

end

end YoutubeFactory.Python
