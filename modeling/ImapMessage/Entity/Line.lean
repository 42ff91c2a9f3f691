/-
# Lines

A line ends with a line feed, which belongs to it; the last line may lack it.

Key constructions:
* `Line.lines`: the lines of some bytes.
* `Line.text`: a line without its ending.
* `Line.withoutBreak`: bytes without the line break at their end.
-/
import ImapMessage.Text.Bytes

namespace ImapMessage

namespace Line

/-- The lines of some bytes, with their endings. -/
def lines (s : Bytes) : List Bytes :=
  s.splitBy fun a _ => a != Ascii.lf

/-- Bytes without one given byte at their end. -/
def without (b : UInt8) (s : Bytes) : Bytes :=
  if s.getLast? = some b then s.dropLast else s

/-- A line without its ending.  A carriage return at the end goes too, even where no line feed
follows it. -/
def text (line : Bytes) : Bytes :=
  without Ascii.cr (without Ascii.lf line)

/-- Bytes without the line break at their end: a line feed, and a carriage return before it. -/
def withoutBreak (s : Bytes) : Bytes :=
  if s.getLast? = some Ascii.lf then without Ascii.cr s.dropLast else s

end Line

end ImapMessage
