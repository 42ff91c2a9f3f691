/-
# Charsets

How bytes become text.  A charset is named by a label, in any letter case and with white
space around it; several labels mean the same charset, and a plain ASCII text is taken for
windows-1252, of which ASCII is a part.  Every charset reads arbitrary bytes and puts
U+FFFD where there is nothing to read.

The charsets listed here are not all there are.  Those with several bytes to a character, and the
less common ones with a single byte, come from elsewhere: nothing is known of them but that they
have labels of their own, that they read arbitrary bytes, and that they have no byte order mark.

Key constructions:
* `FurtherCharsets`: the charsets that are not listed here.
* `Charset`, `Charset.ofLabel?`: the charsets and their labels.
* `Charset.decode`: the text of some bytes.
* `Charset.decodeUnmarked`: the same without the charset's own byte order mark.
* `Charset.decodeLabelled`: the text of bytes whose charset is given by a label, or by none.
-/
import ImapMessage.Charset.SingleByte
import ImapMessage.Text.Utf16
import ImapMessage.Text.Utf8

namespace ImapMessage

/-- The charsets that are not listed here. -/
class FurtherCharsets where
  /-- The name of the charset of a label, which is in lower case and without white space around it,
  if it is one of these charsets. -/
  name? : String → Option String
  /-- The text of some bytes in the charset of a name. -/
  decode : String → Bytes → String

/-- No further charsets, for fixed inputs that use none. -/
instance (priority := low) noFurtherCharsets : FurtherCharsets where
  name? _ := none
  decode _ _ := ""

/-- A charset. -/
inductive Charset where
  /-- UTF-8. -/
  | utf8
  /-- UTF-16 with the higher byte of each unit first. -/
  | utf16be
  /-- UTF-16 with the lower byte of each unit first. -/
  | utf16le
  /-- ASCII, with private characters for the bytes from 0x80 on. -/
  | userDefined
  /-- A charset in which every byte is one character. -/
  | singleByte (table : SingleByte)
  /-- A charset that is not listed here. -/
  | further (name : String)
  deriving DecidableEq, Repr

namespace Charset

/-- The labels of the charsets listed here, in lower case. -/
def labels : List (Charset × List String) := [
  (.utf8, ["unicode-1-1-utf-8", "unicode11utf8", "unicode20utf8", "utf-8", "utf8",
      "x-unicode20utf8"]),
  (.singleByte .ibm866, ["866", "cp866", "csibm866", "ibm866"]),
  (.singleByte .latin2, ["csisolatin2", "iso-8859-2", "iso-ir-101", "iso8859-2", "iso88592",
      "iso_8859-2", "iso_8859-2:1987", "l2", "latin2"]),
  (.singleByte .cyrillic, ["csisolatincyrillic", "cyrillic", "iso-8859-5", "iso-ir-144",
      "iso8859-5", "iso88595", "iso_8859-5", "iso_8859-5:1988"]),
  (.singleByte .greek, ["csisolatingreek", "ecma-118", "elot_928", "greek", "greek8",
      "iso-8859-7", "iso-ir-126", "iso8859-7", "iso88597", "iso_8859-7", "iso_8859-7:1987",
      "sun_eu_greek"]),
  (.singleByte .latin9, ["csisolatin9", "iso-8859-15", "iso8859-15", "iso885915", "iso_8859-15",
      "l9"]),
  (.singleByte .koi8r, ["cskoi8r", "koi", "koi8", "koi8-r", "koi8_r"]),
  (.singleByte .koi8u, ["koi8-ru", "koi8-u"]),
  (.singleByte .macintosh, ["csmacintosh", "mac", "macintosh", "x-mac-roman"]),
  (.singleByte .windows1250, ["cp1250", "windows-1250", "x-cp1250"]),
  (.singleByte .windows1251, ["cp1251", "windows-1251", "x-cp1251"]),
  (.singleByte .windows1252, ["ansi_x3.4-1968", "ascii", "cp1252", "cp819", "csisolatin1",
      "ibm819", "iso-8859-1", "iso-ir-100", "iso8859-1", "iso88591", "iso_8859-1",
      "iso_8859-1:1987", "l1", "latin1", "us-ascii", "windows-1252", "x-cp1252"]),
  (.singleByte .windows1253, ["cp1253", "windows-1253", "x-cp1253"]),
  (.singleByte .windows1254, ["cp1254", "csisolatin5", "iso-8859-9", "iso-ir-148", "iso8859-9",
      "iso88599", "iso_8859-9", "iso_8859-9:1989", "l5", "latin5", "windows-1254", "x-cp1254"]),
  (.utf16be, ["unicodefffe", "utf-16be"]),
  (.utf16le, ["csunicode", "iso-10646-ucs-2", "ucs-2", "unicode", "unicodefeff", "utf-16",
      "utf-16le"]),
  (.userDefined, ["x-user-defined"])]

/-- A label without the ASCII white space around it. -/
def trimLabel (label : String) : String :=
  let cs := label.toList.dropWhile Ascii.isSpaceChar
  String.ofList (cs.reverse.dropWhile Ascii.isSpaceChar).reverse

/-- The charset listed here of a label in lower case. -/
def ofListed? (name : String) : Option Charset :=
  (labels.find? fun (_, names) => names.contains name).map Prod.fst

variable [FurtherCharsets]

/-- The charset of a label. -/
def ofLabel? (label : String) : Option Charset :=
  let name := Ascii.lowerName (trimLabel label)
  ofListed? name <|> (FurtherCharsets.name? name).map further

/-- The items of UTF-16 text of which a byte may be left over.  Whatever is incomplete at the end,
a lead surrogate, a byte, or both, is one unreadable item. -/
def utf16Items (units : List UInt16) (leftOver : Option UInt8) : List (Option Char) :=
  match leftOver with
  | none => Utf16.scan units
  | some _ =>
    if (units.getLast?.map Utf16.isLead).getD false then Utf16.scan units
    else Utf16.scan units ++ [none]

/-- Items as a text, with U+FFFD for each unreadable one. -/
def textOf (items : List (Option Char)) : String :=
  String.ofList (items.map fun c => c.getD '\uFFFD')

/-- A byte of the charset of private characters. -/
def userDefinedChar (b : UInt8) : Char :=
  if b < 0x80 then Char.ofNat b.toNat else Char.ofNat (0xF700 + b.toNat)

/-- The text of some bytes. -/
def decode (c : Charset) (s : Bytes) : String :=
  match c with
  | .utf8 => Utf8.decodeLossy s
  | .utf16be => let (units, leftOver) := Utf16.ofBigEndian s; textOf (utf16Items units leftOver)
  | .utf16le =>
    let (units, leftOver) := Utf16.ofLittleEndian s
    textOf (utf16Items units leftOver)
  | .userDefined => String.ofList (s.map userDefinedChar)
  | .singleByte t => t.decode s
  | .further name => FurtherCharsets.decode name s

/-- The byte order mark of a charset. -/
def mark : Charset → Bytes
  | .utf8 => [0xEF, 0xBB, 0xBF]
  | .utf16be => [0xFE, 0xFF]
  | .utf16le => [0xFF, 0xFE]
  | _ => []

/-- The text of some bytes without the charset's own byte order mark at the start. -/
def decodeUnmarked (c : Charset) (s : Bytes) : String :=
  c.decode (if c.mark.isPrefixOf s then s.drop c.mark.length else s)

/-- The text of bytes whose charset is given by a label.  No label means plain ASCII, and an
unknown one means UTF-8. -/
def decodeLabelled (label : Option String) (s : Bytes) : String :=
  match ofLabel? (label.getD "us-ascii") with
  | some c => c.decode s
  | none => Utf8.decodeLossy s

end Charset

end ImapMessage
