/-
# Header fields

The header of a message or of a part: named values in order.  A name may occur more than
once, and names are compared without regard to ASCII case.

Key constructions:
* `Header`, `Field`: a header and its fields.
* `Header.get?`, `Header.getAll`: the first value and all values of a name.
* `Header.write`: the fields as they stand in a message.
* `Field.ofRaw?`: the field of a raw line.
-/
import ImapMessage.Field.ContentType
import ImapMessage.Text.Blank

namespace ImapMessage

/-- A named value. -/
structure Field where
  /-- The name, in the letter case in which it was written. -/
  name : String
  /-- The raw value; a long one contains line endings with white space after them. -/
  value : Bytes
  deriving DecidableEq, Repr

namespace Field

/-- Whether the field has a name, in any letter case. -/
def hasName (f : Field) (name : String) : Bool :=
  Ascii.sameName f.name name

/-- The field as it stands in a message. -/
def write (f : Field) : Bytes :=
  Utf8.encode f.name ++ ':'.toUInt8 :: Ascii.sp :: f.value ++ Ascii.crlf

/-- The name that some bytes before a colon stand for: a trimmed text that is not empty and
contains no ASCII white space. -/
def nameOf? (raw : Bytes) : Option String :=
  match Utf8.decode? raw with
  | none => none
  | some s =>
    let name := Blank.trimChars s.toList
    if name.isEmpty || name.any Ascii.isSpaceChar then none else some (String.ofList name)

/-- The field of a raw line, its continuation lines included and its line ending not. -/
def ofRaw? (raw : Bytes) : Option Field :=
  match raw.dropWhile (· != ':'.toUInt8) with
  | [] => none
  | _ :: value =>
    (nameOf? (raw.takeWhile (· != ':'.toUInt8))).map fun name =>
      ⟨name, value.dropWhile fun b => b == Ascii.sp || b == Ascii.tab⟩

end Field

/-- The header of a message or of a part. -/
structure Header where
  /-- The fields in order. -/
  fields : List Field
  deriving DecidableEq, Repr, Inhabited

namespace Header

/-- A header without fields. -/
def empty : Header := ⟨[]⟩

/-- Add a field at the end. -/
def push (h : Header) (f : Field) : Header :=
  ⟨h.fields ++ [f]⟩

/-- The first value of a name. -/
def get? (h : Header) (name : String) : Option Bytes :=
  (h.fields.find? fun f => f.hasName name).map Field.value

/-- All values of a name, in order. -/
def getAll (h : Header) (name : String) : List Bytes :=
  (h.fields.filter fun f => f.hasName name).map Field.value

/-- Whether a name occurs. -/
def contains (h : Header) (name : String) : Bool :=
  h.fields.any fun f => f.hasName name

/-- The fields as they stand in a message, without the empty line after them. -/
def write (h : Header) : Bytes :=
  h.fields.flatMap Field.write

/-- The content type, if there is one that can be read. -/
def contentType? (h : Header) : Option ContentType :=
  (h.get? "Content-Type").bind ContentType.parse

/-- The disposition, if there is one that can be read. -/
def disposition? (h : Header) : Option Disposition :=
  (h.get? "Content-Disposition").bind Disposition.parse

/-- The first value of a name is the first of all its values. -/
theorem get?_eq_head?_getAll (h : Header) (name : String) :
    h.get? name = (h.getAll name).head? := by
  simp [get?, getAll, List.head?_map, List.head?_filter]

end Header

end ImapMessage
