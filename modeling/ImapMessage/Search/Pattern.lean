/-
# Search patterns

A pattern is searched in a text without regard to letter case.  White space in the pattern
stands for any run of spaces, tabs and line ends in the text; at the ends of the pattern it
means nothing.  A pattern that is too large occurs nowhere.  How large a pattern may be depends on
what it is compiled to, which is taken from elsewhere.

Key constructions:
* `PatternLimit`: which patterns are small enough.
* `Pattern`, `Pattern.ofString?`: a pattern, ready for searching.
* `Pattern.occursIn`: whether a pattern occurs in a text.
* `Pattern.found`: the same for the written form of a pattern.
-/
import ImapMessage.Text.Blank
import ImapMessage.Text.CaseFold

namespace ImapMessage

/-- Which patterns are small enough to be compiled. -/
class PatternLimit where
  /-- Whether the pattern of a written form is small enough. -/
  admits : String → Bool
  /-- The patterns of at most 5000 characters are small enough. -/
  admits_of_length_le : ∀ {written : String}, written.length ≤ 5000 → admits written = true

namespace PatternLimit

/-- Characters that take more than others when a pattern is compiled: those beyond ASCII, and the
letters with a form beyond ASCII. -/
def isWide (c : Char) : Bool :=
  0x80 ≤ c.toNat || ['K', 'S', 'k', 's'].contains c

/-- About how many bytes the pattern of some characters takes when it is compiled. -/
def compiledSize (cs : List Char) : Nat :=
  80 * cs.length + 88 * cs.countP isWide

/-- The patterns that take about ten mebibytes at most.  This is an estimate for searches on fixed
inputs; the laws of searching hold with every limit. -/
instance (priority := low) tenMebibytes : PatternLimit where
  admits written := compiledSize written.toList ≤ 10 * 1024 * 1024
  admits_of_length_le := by
    intro written h
    have hwide : written.toList.countP isWide ≤ written.toList.length := List.countP_le_length
    have hsize : compiledSize written.toList ≤ 10 * 1024 * 1024 := by
      rw [String.length_toList] at hwide
      rw [compiledSize, String.length_toList]
      omega
    exact decide_eq_true hsize

end PatternLimit

/-- A pattern, ready for searching. -/
structure Pattern where
  /-- The runs of the pattern without white space, in folded form. -/
  chunks : List (List Char)
  deriving DecidableEq, Repr

namespace Pattern

variable [PatternLimit]

/-- The pattern of a written form, unless it is too large. -/
def ofString? (s : String) : Option Pattern :=
  if PatternLimit.admits s then
    some ⟨(Blank.words s.toList).map fun w => w.map CaseFold.fold⟩
  else none

/-- The characters of a text that white space in a pattern stands for. -/
def isGap (c : Char) : Bool :=
  c == ' ' || c == '\r' || c == '\n' || c == '\t'

/-- Whether a folded text begins with some chunks, with gaps between them. -/
def beginsWith : List (List Char) → List Char → Bool
  | [], _ => true
  | chunk :: chunks, text =>
    match chunk.isPrefixOf? text with
    | none => false
    | some rest =>
      match chunks with
      | [] => true
      | _ :: _ =>
        match rest with
        | [] => false
        | c :: rest' => isGap c && beginsWith chunks (rest'.dropWhile isGap)

/-- Whether some chunks occur anywhere in a folded text. -/
def occursFrom (chunks : List (List Char)) : List Char → Bool
  | [] => beginsWith chunks []
  | c :: text => beginsWith chunks (c :: text) || occursFrom chunks text

/-- Whether a pattern occurs in a text. -/
def occursIn (p : Pattern) (text : String) : Bool :=
  occursFrom p.chunks (text.toList.map CaseFold.fold)

/-- Whether the pattern of a written form occurs in a text. -/
def found (written text : String) : Bool :=
  match ofString? written with
  | some p => p.occursIn text
  | none => false

/-- Whether a pattern is found in a text that may be unknown. -/
def foundIn (written : String) (text : Option String) : Option Bool :=
  text.map (found written)

end Pattern

end ImapMessage
