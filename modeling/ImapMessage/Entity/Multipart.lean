/-
# Dividing a body into parts

The parts of a body lie between delimiter lines: two hyphens and the boundary, two more
hyphens if it is the last one, and then only white space.  The line break before a delimiter
line belongs to it.  What stands before the first and after the closing delimiter line is no
part; without a closing one, the last part goes to the end.

Key constructions:
* `Multipart.delimiter?`: the delimiter that a line is.
* `Multipart.parts`: the parts of a body.
-/
import ImapMessage.Entity.Line

namespace ImapMessage

namespace Multipart

/-- What a delimiter line does. -/
inductive Delimiter where
  /-- A part begins after it. -/
  | next
  /-- No part comes after it. -/
  | close
  deriving DecidableEq, Repr

/-- The hyphens at the start of delimiter lines and at the end of the closing one. -/
def hyphens : Bytes := ['-'.toUInt8, '-'.toUInt8]

/-- What a line without two hyphens and the boundary at its start says. -/
def delimiterOfRest (rest : Bytes) : Option Delimiter :=
  match hyphens.isPrefixOf? rest with
  | some rest' => if rest'.all Ascii.isFold then some .close else none
  | none => if rest.all Ascii.isFold then some .next else none

/-- The delimiter that a line is, if it is one. -/
def delimiter? (boundary line : Bytes) : Option Delimiter :=
  ((hyphens ++ boundary).isPrefixOf? line).bind delimiterOfRest

/-- Whether a line is no delimiter line. -/
def isInner (boundary line : Bytes) : Bool :=
  (delimiter? boundary line).isNone

/-- The parts in the lines after a delimiter line that begins one. -/
def partsAfter (boundary : Bytes) (lines : List Bytes) : List Bytes :=
  let inner := (lines.takeWhile (isInner boundary)).flatten
  match _h : lines.dropWhile (isInner boundary) with
  | [] => [inner]
  | line :: rest =>
    Line.withoutBreak inner ::
      (if delimiter? boundary line = some .close then [] else partsAfter boundary rest)
termination_by lines.length
decreasing_by
  have := (List.dropWhile_suffix (isInner boundary) (l := lines)).length_le
  rw [_h] at this
  simp only [List.length_cons] at this
  omega

/-- The parts of a body. -/
def parts (boundary body : Bytes) : List Bytes :=
  match (Line.lines body).dropWhile (isInner boundary) with
  | [] => []
  | line :: rest => if delimiter? boundary line = some .close then [] else partsAfter boundary rest

end Multipart

end ImapMessage
