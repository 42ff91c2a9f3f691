/-
# Sections of a message

What a client can ask for: the header, the text or the whole of a message or of one of its
parts, perhaps only some header fields, and perhaps only a range of bytes.

Key constructions:
* `Section`: what is asked for.
* `Section.fetch`: the bytes of a section of a message.
* `Section.name`: the name under which a section is reported.
* `Section.order`: the order of sections.
-/
import ImapMessage.Entity
import ImapMessage.Text.Quoted

namespace ImapMessage

/-- Which portion of an entity is asked for. -/
inductive Portion where
  /-- All of a message, and the body of a part. -/
  | entire
  /-- The header, or some of its fields. -/
  | header
  /-- The header of a part. -/
  | mime
  /-- The body. -/
  | text
  deriving DecidableEq, Repr

namespace Portion

/-- Whether the header belongs to the portion; `top` says whether it is asked of the message
itself. -/
def hasHeader (p : Portion) (top : Bool) : Bool :=
  match p with
  | .entire => top
  | .header | .mime => true
  | .text => false

/-- Whether the body belongs to the portion. -/
def hasBody : Portion → Bool
  | .entire | .text => true
  | .header | .mime => false

end Portion

/-- A range of bytes. -/
structure ByteRange where
  /-- How many bytes come before it. -/
  start : Nat
  /-- How many bytes it holds at most; there is no such limit if absent. -/
  length : Option Nat
  deriving DecidableEq, Repr

/-- The bytes of a range, as far as there are any: neither of its ends is beyond that of the data. -/
def ByteRange.slice (r : ByteRange) (s : Bytes) : Bytes :=
  let start := min r.start s.length
  let stop := match r.length with
    | none => s.length
    | some n => min (start + n) s.length
  (s.take stop).drop start

/-- What is asked for. -/
structure Section where
  /-- The path of part numbers to the entity. -/
  path : List Nat := []
  /-- The portion of the entity. -/
  portion : Portion := .entire
  /-- The names of the header fields in question; all fields if empty. -/
  names : List String := []
  /-- Whether the fields in question are left out, and not the others. -/
  omits : Bool := false
  /-- The range of bytes; all if absent. -/
  range : Option ByteRange := none
  deriving DecidableEq, Repr

/-- The answer to a request for a section. -/
structure Fetched where
  /-- The bytes. -/
  data : Bytes
  /-- Whether there is a NUL among them, so that they need a special form on their way. -/
  containsNul : Bool
  deriving DecidableEq, Repr

/-- An answer as it is shown to someone who looks for the exact bytes. -/
def Fetched.describe (f : Fetched) : String :=
  "FetchedBodySection \x7b data: " ++ Quoted.ofString (Utf8.decodeLossy f.data) ++
    ", contains_nul: " ++ (if f.containsNul then "true" else "false") ++ " \x7d"

namespace Section

/-! ## Fetching -/

/-- Whether a header field is asked for. -/
def keeps (s : Section) (f : Field) : Bool :=
  s.names.isEmpty || (s.names.any f.hasName != s.omits)

/-- The header fields that are asked for, and the empty line after them. -/
def headerBytes (s : Section) (h : Header) : Bytes :=
  (h.fields.filter s.keeps).flatMap Field.write ++ Ascii.crlf

/-- Without names, all fields are asked for. -/
theorem headerBytes_of_nil {s : Section} (h : s.names = []) (header : Header) :
    s.headerBytes header = header.write ++ Ascii.crlf := by
  have hkeeps : ∀ f ∈ header.fields, s.keeps f = true := by
    intro f _
    rw [keeps, h]
    rfl
  rw [headerBytes, List.filter_eq_self.mpr hkeeps, Header.write]

/-- All bytes of the portion of an entity. -/
def portionBytes (s : Section) (e : Entity) : Bytes :=
  (if s.portion.hasHeader s.path.isEmpty then s.headerBytes e.header else []) ++
    (if s.portion.hasBody then e.body else [])

/-- The bytes of the section of an entity that has been located. -/
def bytesOf (s : Section) (e : Entity) : Bytes :=
  match s.range with
  | none => s.portionBytes e
  | some r => r.slice (s.portionBytes e)

/-- An answer of some bytes. -/
def answer (data : Bytes) : Fetched :=
  ⟨data, data.contains 0⟩

/-- The section of a message. -/
def fetch (s : Section) (message : Entity) : Except Error Fetched :=
  (message.locate s.path).map fun e => answer (s.bytesOf e)

/-! ## Names -/

/-- The name of the portion. -/
def portionName (s : Section) : String :=
  match s.portion with
  | .entire => ""
  | .header =>
    if s.names.isEmpty then "HEADER" else if s.omits then "HEADER.FIELDS.NOT" else "HEADER.FIELDS"
  | .mime => "MIME"
  | .text => "TEXT"

/-- The path with dots between the numbers. -/
def pathName (s : Section) : String :=
  ".".intercalate (s.path.map toString)

/-- The names of the header fields in question, in upper case. -/
def fieldNames (s : Section) : String :=
  if s.portion = .header ∧ ¬ s.names.isEmpty then
    " (" ++ " ".intercalate (s.names.map Ascii.upperName) ++ ")"
  else ""

/-- The first byte of the range. -/
def originName (s : Section) : String :=
  match s.range with
  | none => ""
  | some r => "<" ++ toString r.start ++ ">"

/-- The name under which the section is reported. -/
def name (s : Section) : String :=
  let dot := if s.path.isEmpty || s.portion == .entire then "" else "."
  "BODY[" ++ s.pathName ++ dot ++ s.portionName ++ s.fieldNames ++ "]" ++ s.originName

/-! ## Order -/

/-- The place of a portion in the order. -/
def portionRank : Portion → Nat
  | .entire => 0
  | .header => 1
  | .mime => 2
  | .text => 3

/-- The order of optional values: absent ones come first. -/
def optionOrder {α : Type} (order : α → α → Ordering) : Option α → Option α → Ordering
  | none, none => .eq
  | none, some _ => .lt
  | some _, none => .gt
  | some a, some b => order a b

/-- The order of ranges: by the start, and then by the length. -/
def rangeOrder (a b : ByteRange) : Ordering :=
  (compare a.start b.start).then (optionOrder compare a.length b.length)

/-- The order of sections: field by field, lists element by element. -/
def order (a b : Section) : Ordering :=
  (compare a.path b.path).then <|
  (compare (portionRank a.portion) (portionRank b.portion)).then <|
  (compare a.names b.names).then <|
  (compare a.omits b.omits).then <|
  optionOrder rangeOrder a.range b.range

/-- Sections in order, equal ones as they stand. -/
def sort {α : Type} (key : α → Section) (xs : List α) : List α :=
  xs.mergeSort fun a b => (order (key a) (key b)).isLE

end Section

end ImapMessage
