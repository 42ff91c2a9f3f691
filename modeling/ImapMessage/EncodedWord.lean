/-
# Encoded words

Words of a header text that stand for other characters: `=?charset?encoding?content?=`,
where the encoding is base64 or one in which `_` stands for a space and an equals sign and
two hexadecimal digits for a byte.  The white space between two such words only separates
them and is dropped; all other white space stays.

Key constructions:
* `EncodedWord.parse?`: the three fields of an encoded word.
* `EncodedWord.decode?`: the text that a word stands for, if it is an encoded word.
* `EncodedWord.decodeText`: a text in which encoded words are decoded.
-/
import ImapMessage.Charset
import ImapMessage.Text.Base64

namespace ImapMessage

namespace EncodedWord

/-- The characters of encoded words: printable ASCII without space and question mark. -/
def isFieldChar (c : Char) : Bool :=
  33 ≤ c.toNat && c.toNat ≤ 126 && c != '?'

/-- The fields of an encoded word. -/
structure Fields where
  /-- The label of the charset. -/
  charset : List Char
  /-- The letter of the encoding. -/
  encoding : List Char
  /-- The encoded bytes. -/
  content : List Char
  deriving DecidableEq, Repr

/-- The fields of an encoded word. -/
def parse? (word : List Char) : Option Fields :=
  match word with
  | '=' :: '?' :: rest =>
    match rest.splitOn '?' with
    | [charset, encoding, content, ['=']] =>
      if charset.all isFieldChar && encoding.all isFieldChar && content.all isFieldChar then
        some ⟨charset, encoding, content⟩
      else none
    | _ => none
  | _ => none

/-- A byte that is not part of an escape: an underscore stands for a space. -/
def plainByte (b : UInt8) : UInt8 :=
  if b = '_'.toUInt8 then Ascii.sp else b

/-- The bytes of a content in which an underscore stands for a space and an equals sign and two
hexadecimal digits for a byte.  Any other equals sign is left. -/
def unquote : Bytes → Bytes
  | [] => []
  | [b] => [plainByte b]
  | [b, c] => [plainByte b, plainByte c]
  | b :: c :: d :: rest =>
    if b = '='.toUInt8 then
      match Ascii.hexByte c d with
      | some x => x :: unquote rest
      | none => b :: unquote (c :: d :: rest)
    else plainByte b :: unquote (c :: d :: rest)

/-- The bytes of a content in an encoding. -/
def bytes? (encoding content : List Char) : Option Bytes :=
  let raw := content.map Char.toUInt8
  match encoding with
  | ['q'] | ['Q'] => some (unquote raw)
  | ['b'] | ['B'] => Base64.decode Base64.standard raw
  | _ => none

variable [FurtherCharsets]

/-- The charset of a label, which a language may follow after an asterisk. -/
def charset? (label : List Char) : Option Charset :=
  Charset.ofLabel? (String.ofList (label.takeWhile (· != '*')))

/-- The text that a word stands for, if it is an encoded word. -/
def decode? (word : List Char) : Option String := do
  let fields ← parse? word
  let raw ← bytes? fields.encoding fields.content
  let charset ← charset? fields.charset
  return charset.decodeUnmarked raw

/-- The maximal runs of a text that are all ASCII white space or all not. -/
def runs (cs : List Char) : List (List Char) :=
  cs.splitBy fun a b => Ascii.isSpaceChar a == Ascii.isSpaceChar b

/-- Go on after the white space `space`, which stands behind a decoded word if `decoded`. -/
def joinFrom (decoded : Bool) (space : List Char) : List (List Char) → List Char
  | [] => space
  | run :: rest =>
    if run.all Ascii.isSpaceChar then joinFrom decoded run rest
    else
      match decode? run with
      | some text =>
        (if decoded then [] else space) ++ text.toList ++ joinFrom true [] rest
      | none => space ++ run ++ joinFrom false [] rest

/-- A text in which encoded words are decoded, and the white space between them is dropped. -/
def decodeText (text : String) : String :=
  String.ofList (joinFrom false [] (runs text.toList))

end EncodedWord

end ImapMessage
