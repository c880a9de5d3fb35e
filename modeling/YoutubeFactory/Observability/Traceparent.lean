import YoutubeFactory.Content.Tables
import Mathlib.Data.List.TakeWhile

/-!
# The traceparent header

`SpanContext` of `app/observability/tracing.py`, which writes the header and parses it.

The regular expression has fields of fixed lengths, so a text is matched in one way only
(`matchTraceparent_eq_some`).  What is parsed is stripped and in lower case, and what is written is
so already (`parse_toTraceparent`).
-/

namespace YoutubeFactory.Observability

open Python

/-! ## Hexadecimal digits -/

/-- `[0-9a-f]` -/
def isHexDigit (c : Char) : Bool := ('0' ≤ c && c ≤ '9') || ('a' ≤ c && c ≤ 'f')

def hexValue (c : Char) : Nat :=
  if c ≤ '9' then c.toNat - '0'.toNat else c.toNat - 'a'.toNat + 10

/-- `int(text, 16)` -/
def intOfHex (text : List Char) : Nat := text.foldl (fun n c => 16 * n + hexValue c) 0

/-- `f"{n:02x}"`, without the braces. -/
def twoHexDigits (n : Nat) : String :=
  let digits := Nat.toDigits 16 n
  String.ofList (List.replicate (2 - digits.length) '0' ++ digits)

/-- `[0-9a-f]` so many times, and the text after it. -/
def hexDigits (n : Nat) (text : List Char) : Option (List Char × List Char) :=
  if (text.take n).length = n ∧ (text.take n).all isHexDigit then
    some (text.take n, text.drop n)
  else none

/-- A dash, and the text after it. -/
def dash : List Char → Option (List Char)
  | '-' :: rest => some rest
  | _ => none

/-! ## The header -/

/-- The groups of `_TRACEPARENT_RE`. -/
structure TraceparentMatch where
  version : List Char
  traceId : List Char
  spanId : List Char
  flags : List Char

/-- `_TRACEPARENT_RE.match`.  Its `$` also stands before a line feed that ends the text. -/
def matchTraceparent (text : List Char) : Option TraceparentMatch := do
  let (version, rest) ← hexDigits 2 text
  let rest ← dash rest
  let (traceId, rest) ← hexDigits 32 rest
  let rest ← dash rest
  let (spanId, rest) ← hexDigits 16 rest
  let rest ← dash rest
  let (flags, rest) ← hexDigits 2 rest
  if rest = [] ∨ rest = ['\n'] then some { version, traceId, spanId, flags } else none

/-- `_INVALID_TRACE_ID` -/
def INVALID_TRACE_ID : List Char := List.replicate 32 '0'

/-- `_INVALID_SPAN_ID` -/
def INVALID_SPAN_ID : List Char := List.replicate 16 '0'

/-- `FLAG_SAMPLED` -/
def FLAG_SAMPLED : Nat := 0x01

/-- `str.lower` as far as it gives ASCII characters. -/
def lower (text : String) : String := String.ofList (text.toList.flatMap Content.lowerAscii)

structure SpanContext where
  traceId : String
  spanId : String
  sampled : Bool := true
deriving DecidableEq

namespace SpanContext

/-- `to_traceparent` -/
def toTraceparent (context : SpanContext) : String :=
  let flags := if context.sampled then FLAG_SAMPLED else 0
  "00-" ++ context.traceId ++ "-" ++ context.spanId ++ "-" ++ twoHexDigits flags

/-- `parse` -/
def parse (traceparent : String) : Option SpanContext := do
  let found ← matchTraceparent (lower (strip traceparent)).toList
  if found.version = ['f', 'f'] then none
  else if found.traceId = INVALID_TRACE_ID ∨ found.spanId = INVALID_SPAN_ID then none
  else
    some { traceId := String.ofList found.traceId
           spanId := String.ofList found.spanId
           sampled := intOfHex found.flags &&& FLAG_SAMPLED ≠ 0 }

end SpanContext

/-! ## What is matched -/

/-- So many hexadecimal digits. -/
structure HexField (n : Nat) (text : List Char) : Prop where
  length : text.length = n
  digits : ∀ c ∈ text, isHexDigit c = true

theorem hexDigits_eq_some {n : Nat} {text field rest : List Char} :
    hexDigits n text = some (field, rest) ↔ text = field ++ rest ∧ HexField n field := by
  unfold hexDigits
  constructor
  · intro h
    split at h
    · next hfield =>
        cases h
        exact ⟨(List.take_append_drop n text).symm, hfield.1, List.all_eq_true.mp hfield.2⟩
    · cases h
  · rintro ⟨rfl, hlength, hdigits⟩
    have htake : (field ++ rest).take n = field := List.take_left' hlength
    rw [htake, List.drop_left' hlength, if_pos ⟨hlength, List.all_eq_true.mpr hdigits⟩]

theorem dash_eq_some {text rest : List Char} : dash text = some rest ↔ text = '-' :: rest := by
  unfold dash
  split
  · simp
  · next hnot => exact ⟨nofun, fun h => absurd h (hnot rest)⟩

namespace TraceparentMatch

variable (m : TraceparentMatch)

/-- The text of the groups. -/
def text : List Char :=
  m.version ++ '-' :: (m.traceId ++ '-' :: (m.spanId ++ '-' :: m.flags))

/-- The groups are as long as they must be. -/
structure Fits : Prop where
  version : HexField 2 m.version
  traceId : HexField 32 m.traceId
  spanId : HexField 16 m.spanId
  flags : HexField 2 m.flags

end TraceparentMatch

theorem matchTraceparent_eq_some {text : List Char} {m : TraceparentMatch} :
    matchTraceparent text = some m ↔
      m.Fits ∧ ∃ rest, (rest = [] ∨ rest = ['\n']) ∧ text = m.text ++ rest := by
  unfold matchTraceparent
  simp only [Option.bind_eq_bind, Option.bind_eq_some_iff, Prod.exists, hexDigits_eq_some,
    dash_eq_some]
  constructor
  · rintro ⟨version, rest, ⟨rfl, hversion⟩, rest, rfl, traceId, rest, ⟨rfl, htrace⟩, rest, rfl,
      spanId, rest, ⟨rfl, hspan⟩, rest, rfl, flags, rest, ⟨rfl, hflags⟩, h⟩
    split at h
    · next hend =>
        cases h
        exact ⟨⟨hversion, htrace, hspan, hflags⟩, rest, hend, by simp [TraceparentMatch.text]⟩
    · cases h
  · rintro ⟨hfits, rest, hend, rfl⟩
    refine ⟨m.version, _, ⟨?_, hfits.version⟩, _, rfl, m.traceId, _, ⟨rfl, hfits.traceId⟩, _, rfl,
      m.spanId, _, ⟨rfl, hfits.spanId⟩, _, rfl, m.flags, rest, ⟨rfl, hfits.flags⟩, if_pos hend⟩
    simp [TraceparentMatch.text]

/-! ## Stripping and lower case -/

theorem eq_line_of_toLower {c : Char} (h : c.toLower = '\n') : c = '\n' := by
  unfold Char.toLower at h
  split at h
  · next hupper =>
      have hval : (c.val + 32).toNat = 10 := congrArg (fun c => c.val.toNat) h
      have hlow : 65 ≤ c.val.toNat := UInt32.le_iff_toNat_le.mp hupper.1
      have hhigh : c.val.toNat ≤ 90 := UInt32.le_iff_toNat_le.mp hupper.2
      have hstep : (32 : UInt32).toNat = 32 := rfl
      rw [UInt32.toNat_add] at hval
      omega
  · exact h

theorem getLast_lowerAscii {c : Char} (hc : isSpace c = false) :
    ∃ d, (Content.lowerAscii c).getLast? = some d ∧ d ≠ '\n' := by
  unfold Content.lowerAscii
  split
  · exact ⟨'k', rfl, by decide⟩
  · split
    · exact ⟨'\u0307', rfl, by decide⟩
    · refine ⟨c.toLower, rfl, fun hline => ?_⟩
      rw [eq_line_of_toLower hline] at hc
      cases hc

/-- No line feed ends a stripped text in lower case. -/
theorem not_line_of_lower (text : String) :
    (lower (strip text)).toList.getLast? ≠ some '\n' := by
  rw [lower, strip, String.toList_ofList, String.toList_ofList]
  have hspace := List.head?_dropWhile_not isSpace (text.toList.dropWhile isSpace).reverse
  cases hkept : (text.toList.dropWhile isSpace).reverse.dropWhile isSpace with
  | nil => nofun
  | cons c kept =>
      rw [hkept] at hspace
      obtain ⟨d, hd, hline⟩ := getLast_lowerAscii hspace
      rw [List.reverse_cons, List.flatMap_append, List.flatMap_singleton, List.getLast?_append, hd]
      exact fun h => hline (Option.some.inj h)

/-- The characters of a header. -/
def isPlain (c : Char) : Bool := isHexDigit c || c = '-'

theorem toNat_of_isPlain {c : Char} (h : isPlain c = true) :
    45 ≤ c.toNat ∧ c.toNat ≤ 102 ∧ (c.toNat ≤ 57 ∨ 97 ≤ c.toNat) := by
  have hzero : '0'.val.toNat = 48 := rfl
  have hnine : '9'.val.toNat = 57 := rfl
  have ha : 'a'.val.toNat = 97 := rfl
  have hf : 'f'.val.toNat = 102 := rfl
  have hdash : '-'.val.toNat = 45 := rfl
  unfold isPlain isHexDigit at h
  simp only [Bool.and_eq_true, Bool.or_eq_true, decide_eq_true_eq, Char.le_def,
    UInt32.le_iff_toNat_le] at h
  unfold Char.toNat
  rcases h with (h | h) | rfl
  · omega
  · omega
  · omega

theorem isSpace_of_isPlain {c : Char} (h : isPlain c = true) : isSpace c = false := by
  have hcode := toNat_of_isPlain h
  unfold isSpace
  simp only [Bool.or_eq_false_iff, Bool.and_eq_false_iff, decide_eq_false_iff_not,
    beq_eq_false_iff_ne]
  omega

theorem lowerAscii_of_isPlain {c : Char} (h : isPlain c = true) : Content.lowerAscii c = [c] := by
  have hcode := toNat_of_isPlain h
  have hlower : c.toLower = c := by
    refine dif_neg fun hupper => ?_
    have hA : 65 ≤ c.val.toNat := UInt32.le_iff_toNat_le.mp hupper.1
    have hZ : c.val.toNat ≤ 90 := UInt32.le_iff_toNat_le.mp hupper.2
    unfold Char.toNat at hcode
    omega
  have hkelvin : c ≠ '\u212a' := by
    rintro rfl
    exact absurd hcode.2.1 (by decide)
  have hdotted : c ≠ '\u0130' := by
    rintro rfl
    exact absurd hcode.2.1 (by decide)
  rw [Content.lowerAscii, if_neg hkelvin, if_neg hdotted, hlower]

/-- What is plain is in lower case, and nothing of it is stripped. -/
theorem lower_strip_of_plain {text : String} (h : ∀ c ∈ text.toList, isPlain c = true) :
    lower (strip text) = text := by
  have hdrop : ∀ letters : List Char, (∀ c ∈ letters, isPlain c = true) →
      letters.dropWhile isSpace = letters := by
    intro letters hletters
    rw [List.dropWhile_eq_self_iff]
    intro hpos
    rw [isSpace_of_isPlain (hletters _ (List.getElem_mem hpos))]
    exact Bool.false_ne_true
  have hstrip : strip text = text := by
    rw [strip, hdrop _ h, hdrop _ fun c hc => h c (List.mem_reverse.mp hc), List.reverse_reverse,
      String.ofList_toList]
  have hlower : text.toList.flatMap Content.lowerAscii = text.toList := by
    rw [List.flatMap_congr fun c hc => lowerAscii_of_isPlain (h c hc), List.flatMap_singleton']
  rw [hstrip, lower, hlower, String.ofList_toList]

/-! ## The codec -/

/-- A header that can be used. -/
structure TraceparentMatch.Usable (m : TraceparentMatch) : Prop where
  fits : m.Fits
  version : m.version ≠ ['f', 'f']
  traceId : m.traceId ≠ INVALID_TRACE_ID
  spanId : m.spanId ≠ INVALID_SPAN_ID

/-- A version, two ids and flags, with dashes between them, as they must be. -/
def IsTraceparent (text : String) : Prop :=
  ∃ m : TraceparentMatch, m.Usable ∧ text.toList = m.text

/-- The context of a header. -/
def TraceparentMatch.context (m : TraceparentMatch) : SpanContext where
  traceId := String.ofList m.traceId
  spanId := String.ofList m.spanId
  sampled := intOfHex m.flags &&& FLAG_SAMPLED ≠ 0

namespace SpanContext

/-- The ids are hexadecimal, in lower case, and not zero. -/
structure Valid (context : SpanContext) : Prop where
  traceId : HexField 32 context.traceId.toList
  spanId : HexField 16 context.spanId.toList
  traceId_ne : context.traceId.toList ≠ INVALID_TRACE_ID
  spanId_ne : context.spanId.toList ≠ INVALID_SPAN_ID

variable {context : SpanContext} {text : String}

theorem parse_eq_some : parse text = some context ↔
    ∃ m : TraceparentMatch, m.Usable ∧ (lower (strip text)).toList = m.text ∧
      context = m.context := by
  unfold parse
  rw [Option.bind_eq_bind, Option.bind_eq_some_iff]
  constructor
  · rintro ⟨m, hmatch, hcontext⟩
    obtain ⟨hfits, rest, hend, htext⟩ := matchTraceparent_eq_some.mp hmatch
    have hrest : rest = [] := by
      rcases hend with hend | rfl
      · exact hend
      · refine absurd ?_ (not_line_of_lower text)
        rw [htext, List.getLast?_concat]
    split at hcontext
    · cases hcontext
    · next hversion =>
        split at hcontext
        · cases hcontext
        · next hids =>
            cases hcontext
            rw [hrest, List.append_nil] at htext
            exact ⟨m, ⟨hfits, hversion, fun h => hids (.inl h), fun h => hids (.inr h)⟩, htext, rfl⟩
  · rintro ⟨m, husable, htext, rfl⟩
    have hmatch : matchTraceparent (lower (strip text)).toList = some m :=
      matchTraceparent_eq_some.mpr
        ⟨husable.fits, [], .inl rfl, htext.trans (List.append_nil _).symm⟩
    refine ⟨m, hmatch, ?_⟩
    rw [if_neg husable.version, if_neg (not_or.mpr ⟨husable.traceId, husable.spanId⟩)]
    rfl

/-- What is parsed has valid ids. -/
theorem valid_of_parse (h : parse text = some context) : context.Valid := by
  obtain ⟨m, husable, -, rfl⟩ := parse_eq_some.mp h
  have htrace : m.context.traceId.toList = m.traceId := String.toList_ofList
  have hspan : m.context.spanId.toList = m.spanId := String.toList_ofList
  refine ⟨?_, ?_, ?_, ?_⟩
  · rw [htrace]
    exact husable.fits.traceId
  · rw [hspan]
    exact husable.fits.spanId
  · rw [htrace]
    exact husable.traceId
  · rw [hspan]
    exact husable.spanId

/-- The flags of a header that is written. -/
def flagDigits (sampled : Bool) : List Char := ['0', if sampled then '1' else '0']

theorem twoHexDigits_flags (sampled : Bool) :
    (twoHexDigits (if sampled then FLAG_SAMPLED else 0)).toList = flagDigits sampled := by
  cases sampled <;> decide

theorem sampled_flagDigits (sampled : Bool) :
    decide (intOfHex (flagDigits sampled) &&& FLAG_SAMPLED ≠ 0) = sampled := by
  cases sampled <;> decide

theorem hexField_flagDigits (sampled : Bool) : HexField 2 (flagDigits sampled) := by
  refine ⟨rfl, List.all_eq_true.mp ?_⟩
  cases sampled <;> rfl

/-- The groups of the header that a context is written as. -/
def groups (context : SpanContext) : TraceparentMatch where
  version := ['0', '0']
  traceId := context.traceId.toList
  spanId := context.spanId.toList
  flags := flagDigits context.sampled

theorem toTraceparent_toList (context : SpanContext) :
    context.toTraceparent.toList = context.groups.text := by
  unfold toTraceparent TraceparentMatch.text groups
  simp [twoHexDigits_flags]

theorem context_groups (context : SpanContext) : context.groups.context = context := by
  unfold groups TraceparentMatch.context
  rw [String.ofList_toList, String.ofList_toList, sampled_flagDigits]

theorem Valid.usable (h : context.Valid) : context.groups.Usable where
  fits := ⟨⟨rfl, List.all_eq_true.mp rfl⟩, h.traceId, h.spanId, hexField_flagDigits _⟩
  version := by
    intro hff
    cases hff
  traceId := h.traceId_ne
  spanId := h.spanId_ne

/-- What is written is parsed as what it was. -/
theorem parse_toTraceparent (h : context.Valid) : parse context.toTraceparent = some context := by
  have husable := h.usable
  refine parse_eq_some.mpr ⟨context.groups, husable, ?_, context.context_groups.symm⟩
  rw [lower_strip_of_plain, toTraceparent_toList]
  rw [toTraceparent_toList]
  have hhex : ∀ {n : Nat} {field : List Char}, HexField n field →
      ∀ c ∈ field, isPlain c = true := by
    intro n field hfield c hc
    rw [isPlain, hfield.digits c hc, Bool.true_or]
  intro c hc
  simp only [TraceparentMatch.text, List.mem_append, List.mem_cons] at hc
  rcases hc with hc | rfl | hc | rfl | hc | rfl | hc
  · exact hhex husable.fits.version c hc
  · rfl
  · exact hhex husable.fits.traceId c hc
  · rfl
  · exact hhex husable.fits.spanId c hc
  · rfl
  · exact hhex husable.fits.flags c hc

end SpanContext

/-- What is written is parsed as what it was, a header is parsed exactly if it is one, stripped and
in lower case, and what is parsed stays the same when it is written and parsed again. -/
theorem traceparent_codec :
    (∀ context : SpanContext, context.Valid →
      SpanContext.parse context.toTraceparent = some context) ∧
    (∀ text, (SpanContext.parse text).isSome ↔ IsTraceparent (lower (strip text))) ∧
    ∀ text context, SpanContext.parse text = some context →
      SpanContext.parse context.toTraceparent = some context := by
  refine ⟨fun context => SpanContext.parse_toTraceparent, fun text => ?_, fun text context h =>
    SpanContext.parse_toTraceparent (SpanContext.valid_of_parse h)⟩
  rw [Option.isSome_iff_exists]
  constructor
  · rintro ⟨context, h⟩
    obtain ⟨m, husable, htext, -⟩ := SpanContext.parse_eq_some.mp h
    exact ⟨m, husable, htext⟩
  · rintro ⟨m, husable, htext⟩
    exact ⟨m.context, SpanContext.parse_eq_some.mpr ⟨m, husable, htext, rfl⟩⟩

/-- A header in upper case, with blanks around it, a version to come and other flags. -/
theorem traceparent_codec_upper :
    let text := " CC-0AF7651916CD43DD8448EB211C80319C-B7AD6B7169203331-03\n"
    let context : SpanContext := ⟨"0af7651916cd43dd8448eb211c80319c", "b7ad6b7169203331", true⟩
    SpanContext.parse text = some context ∧
      SpanContext.parse context.toTraceparent = some context := by
  intro text context
  have hparse : SpanContext.parse text = some context := by decide +kernel
  exact ⟨hparse, traceparent_codec.2.2 text context hparse⟩

end YoutubeFactory.Observability
