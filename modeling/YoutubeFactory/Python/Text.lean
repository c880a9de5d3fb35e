import YoutubeFactory.Python.Object
import Mathlib.Data.List.TakeWhile

/-!
# Text

The string methods of Python that the request parsers use, with what is needed of them.
-/

namespace YoutubeFactory.Python

/-- `text.startswith(start)` -/
def startsWith (text start : String) : Bool := start.toList.isPrefixOf text.toList

/-- The text before the first separator, and the text after it if there is one. -/
def cut (sep : Char) (text : String) : String × Option String :=
  match text.toList.dropWhile (· ≠ sep) with
  | [] => (text, none)
  | _ :: rest => (String.ofList (text.toList.takeWhile (· ≠ sep)), some (String.ofList rest))

/-- `text.strip(chars)` -/
def stripChars (chars : String) (text : String) : String :=
  let drop := List.dropWhile fun c => chars.toList.contains c
  String.ofList (drop (drop text.toList).reverse).reverse

/-- `text.rstrip(chars)` -/
def rstripChars (chars : String) (text : String) : String :=
  String.ofList (text.toList.reverse.dropWhile fun c => chars.toList.contains c).reverse

/-- The characters at which `str.splitlines` ends a line. -/
def endsLine (c : Char) : Bool :=
  [0x0a, 0x0b, 0x0c, 0x0d, 0x1c, 0x1d, 0x1e, 0x85, 0x2028, 0x2029].contains c.toNat

/-- The lines of a text of which a line has been read, up to here and backwards. -/
def linesFrom (line : List Char) : List Char → List String
  | [] => if line = [] then [] else [String.ofList line.reverse]
  | '\r' :: '\n' :: rest => String.ofList line.reverse :: linesFrom [] rest
  | c :: rest =>
      if endsLine c = true then String.ofList line.reverse :: linesFrom [] rest
      else linesFrom (c :: line) rest

/-- `text.splitlines()` -/
def splitLines (text : String) : List String := linesFrom [] text.toList

theorem strip_eq_empty_iff {text : String} :
    strip text = "" ↔ ∀ c ∈ text.toList, isSpace c = true := by
  have hempty : strip text = "" ↔ (strip text).toList = [] := by
    rw [← String.toList_inj, String.toList_empty]
  rw [hempty, strip, String.toList_ofList, List.reverse_eq_nil_iff, List.dropWhile_eq_nil_iff]
  constructor
  · intro h c hc
    by_cases hmem : c ∈ text.toList.dropWhile isSpace
    · exact h c (List.mem_reverse.mpr hmem)
    · have hsplit : c ∈ text.toList.takeWhile isSpace ++ text.toList.dropWhile isSpace := by
        rw [List.takeWhile_append_dropWhile]
        exact hc
      exact List.mem_takeWhile_imp ((List.mem_append.mp hsplit).resolve_right hmem)
  · intro h c hc
    exact h c (List.dropWhile_subset _ (List.mem_reverse.mp hc))

/-- A text that starts with a character that is not blank is not stripped to nothing. -/
theorem strip_ne_empty {text start : String} {c : Char} (h : startsWith text start = true)
    (hc : c ∈ start.toList) (hblank : isSpace c = false) : strip text ≠ "" := by
  intro hempty
  have hmem : c ∈ text.toList := (List.isPrefixOf_iff_prefix.mp h).subset hc
  rw [strip_eq_empty_iff.mp hempty c hmem] at hblank
  cases hblank

end YoutubeFactory.Python
