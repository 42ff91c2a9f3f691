/-
# Content types and dispositions

The values of the headers that describe a content: a type and a subtype, or a disposition,
and then parameters.  Types, dispositions and names of parameters are tokens and are kept in
lower case; the values of parameters are tokens or quoted strings and are kept as they are.

Key constructions:
* `ContentType`, `Disposition`: the two descriptions.
* `ContentType.parse`, `Disposition.parse`: the description at the start of a value.
* `ContentType.plain`, `ContentType.message`: what is assumed where nothing is said.
-/
import ImapMessage.Field.Word
import ImapMessage.Text.Utf8

namespace ImapMessage

/-- A name and a value. -/
structure Parameter where
  /-- The name, in lower case. -/
  name : String
  /-- The value, without quotes. -/
  value : String
  deriving DecidableEq, Repr

namespace Parameter

/-- The bytes of tokens: printable ASCII without space and the marks that structure a value. -/
def isTokenByte (b : UInt8) : Bool :=
  32 < b && b < 127 &&
    !Ascii.oneOf ['(', ')', '<', '>', '@', ',', ';', ':', '\\', '"', '/', '[', ']', '?', '='] b

/-- The bytes of an unquoted value.  More than token bytes are taken, since senders often forget
the quotes. -/
def isBareByte (b : UInt8) : Bool :=
  !(Ascii.isFold b || Ascii.oneOf [';', '"', '(', ')'] b)

/-- A token, with the comments and white space around it. -/
def token : Reader Bytes :=
  Reader.run isTokenByte

/-- A token as a name in lower case. -/
def lowered (w : Bytes) : String :=
  Ascii.lowerName (Utf8.decodeLossy w)

/-- An unquoted value, with the comments and white space after it. -/
def bareValue : Reader Bytes := fun s =>
  match s.span isBareByte with
  | ([], _) => none
  | (w, rest) => some (w, Comment.skip rest)

/-- A semicolon, and then a parameter. -/
def reader : Reader Parameter := fun s => do
  let (_, s) ← Reader.byte ';' s
  let (name, s) ← token (Comment.skip s)
  let (_, s) ← Reader.byte '=' s
  let (value, s) ← Reader.orElse Word.quotedString bareValue s
  return (⟨lowered name, Utf8.decodeLossy value⟩, s)

/-- The value of the first parameter of a name, in any letter case. -/
def lookup (parameters : List Parameter) (name : String) : Option String :=
  (parameters.find? fun p => Ascii.sameName p.name name).map Parameter.value

end Parameter

/-- What a content is. -/
structure ContentType where
  /-- The type, in lower case. -/
  type : String
  /-- The subtype, in lower case. -/
  subtype : String
  /-- The parameters, in order. -/
  parameters : List Parameter
  deriving DecidableEq, Repr

namespace ContentType

/-- The content type of a content that says nothing about it: plain text. -/
def plain : ContentType :=
  ⟨"text", "plain", [⟨"charset", "us-ascii"⟩]⟩

/-- The content type of a part of a digest that says nothing about it: a message. -/
def message : ContentType :=
  ⟨"message", "rfc822", []⟩

/-- Whether the type is the given one, in any letter case. -/
def isType (c : ContentType) (type : String) : Bool :=
  Ascii.sameName c.type type

/-- Whether the subtype is the given one, in any letter case. -/
def isSubtype (c : ContentType) (subtype : String) : Bool :=
  Ascii.sameName c.subtype subtype

/-- The value of the first parameter of a name, in any letter case. -/
def parameter? (c : ContentType) (name : String) : Option String :=
  Parameter.lookup c.parameters name

/-- A content type. -/
def reader : Reader ContentType := fun s => do
  let (type, s) ← Parameter.token s
  let (_, s) ← Reader.byte '/' s
  let (subtype, s) ← Parameter.token s
  let (parameters, s) := Reader.many Parameter.reader s
  return (⟨Parameter.lowered type, Parameter.lowered subtype, parameters⟩, s)

/-- The content type at the start of a value; what follows it is ignored. -/
def parse (value : Bytes) : Option ContentType :=
  (reader value).map Prod.fst

end ContentType

/-- How a content is meant to be shown. -/
structure Disposition where
  /-- The disposition, in lower case. -/
  kind : String
  /-- The parameters, in order. -/
  parameters : List Parameter
  deriving DecidableEq, Repr

namespace Disposition

/-- The value of the first parameter of a name, in any letter case. -/
def parameter? (d : Disposition) (name : String) : Option String :=
  Parameter.lookup d.parameters name

/-- A disposition. -/
def reader : Reader Disposition := fun s => do
  let (kind, s) ← Parameter.token s
  let (parameters, s) := Reader.many Parameter.reader s
  return (⟨Parameter.lowered kind, parameters⟩, s)

/-- The disposition at the start of a value; what follows it is ignored. -/
def parse (value : Bytes) : Option Disposition :=
  (reader value).map Prod.fst

end Disposition

end ImapMessage
