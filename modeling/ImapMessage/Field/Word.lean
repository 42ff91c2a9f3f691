/-
# Words and phrases

The tokens of address headers: atoms, quoted strings, and phrases made of them.  Bytes
above 0x7F may stand in all of them.  A quoted string is read without its quotes; a
backslash in it stands for the byte after it, and a run of white space for one space.

Key constructions:
* `Word.atom`, `Word.quotedString`, `Word.word`: one token with the comments around it.
* `Word.phrase`: the tokens of a display name.
-/
import ImapMessage.Field.Reader

namespace ImapMessage

namespace Word

/-- The bytes of atoms: letters, digits, most marks, and everything above ASCII. -/
def isAtomByte (b : UInt8) : Bool :=
  Ascii.isAlnum b ||
  Ascii.oneOf ['!', '#', '$', '%', '&', '\'', '*', '+', '-', '/', '=', '?', '^', '_', '`',
    '{', '|', '}', '~'] b ||
  0x80 ≤ b

/-- An atom, with the comments and white space around it. -/
def atom : Reader Bytes :=
  Reader.run isAtomByte

/-- Text up to a closing byte: a backslash stands for the byte after it, a run of white space
for one space.  A barred byte cannot occur otherwise. -/
def enclosed (close : UInt8) (barred : UInt8 → Bool) : Reader Bytes
  | [] => none
  | b :: rest =>
    if b = close then some ([], rest)
    else if b = Comment.backslash then
      match rest with
      | [] => none
      | c :: rest' => (enclosed close barred rest').map fun (w, r) => (c :: w, r)
    else if Ascii.isFold b then
      match rest with
      | [] => none
      | c :: _ =>
        if Ascii.isFold c then enclosed close barred rest
        else (enclosed close barred rest).map fun (w, r) => (Ascii.sp :: w, r)
    else if barred b then none
    else (enclosed close barred rest).map fun (w, r) => (b :: w, r)

/-- The byte around quoted strings. -/
def quote : UInt8 := '"'.toUInt8

/-- A quoted string, without its quotes, and with the comments and white space around it. -/
def quotedString : Reader Bytes := fun s =>
  match Comment.skip s with
  | [] => none
  | b :: rest =>
    if b = quote then
      (enclosed quote (fun _ => false) rest).map fun (w, r) => (w, Comment.skip r)
    else none

/-- An atom or a quoted string. -/
def word : Reader Bytes :=
  Reader.orElse atom quotedString

/-- A bare dot, as in abbreviated names. -/
def dot : Reader Bytes
  | [] => none
  | b :: rest => if b = '.'.toUInt8 then some ([b], Comment.skip rest) else none

/-- A display name: a word, and then words and bare dots. -/
def phrase : Reader (List Bytes) := fun s =>
  match word s with
  | none => none
  | some (w, rest) =>
    let (ws, rest') := Reader.many (Reader.orElse word dot) rest
    some (w :: ws, rest')

end Word

end ImapMessage
