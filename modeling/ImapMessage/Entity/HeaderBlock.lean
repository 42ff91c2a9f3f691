/-
# The header block of a message

A message begins with header lines, up to the first empty line; the rest is the body.  A line
that begins with a space or a tab continues the field before it.  Lines that are no fields,
and continuations of nothing, are skipped.

Key constructions:
* `HeaderBlock.rawFields`: header lines gathered into fields.
* `HeaderBlock.read`: header, body, and the number of skipped lines.
-/
import ImapMessage.Entity.Line
import ImapMessage.Header

namespace ImapMessage

/-- A message divided into header and body. -/
structure HeaderBlock where
  /-- The header. -/
  header : Header
  /-- Everything after the empty line. -/
  body : Bytes
  /-- How many lines of the header, continuations of fields not counted, are no fields. -/
  skipped : Nat
  deriving DecidableEq, Repr

namespace HeaderBlock

/-- Lines that continue the field before them. -/
def isContinuation (line : Bytes) : Bool :=
  match line with
  | [] => false
  | b :: _ => b == Ascii.sp || b == Ascii.tab

/-- Each line with the continuations after it, without line endings.  Continuations of nothing
are a group of their own. -/
def groups (lines : List Bytes) : List (List Bytes) :=
  lines.splitBy fun _ next => isContinuation next

/-- Continuations of nothing at the start of a header. -/
def orphans (lines : List Bytes) : List Bytes :=
  lines.takeWhile isContinuation

/-- The raw fields of a header: lines with their continuations, and line endings between them. -/
def rawFields (lines : List Bytes) : List Bytes :=
  (groups (lines.dropWhile isContinuation)).map fun group => Ascii.crlf.intercalate group

/-- Divide a message into header and body. -/
def read (message : Bytes) : HeaderBlock :=
  let lines := Line.lines message
  let isText := fun line => !(Line.text line).isEmpty
  let texts := (lines.takeWhile isText).map Line.text
  let raw := rawFields texts
  let fields := raw.filterMap Field.ofRaw?
  { header := ⟨fields⟩
    body := (lines.dropWhile isText).tail.flatten
    skipped := (orphans texts).length + (raw.length - fields.length) }

end HeaderBlock

end ImapMessage
