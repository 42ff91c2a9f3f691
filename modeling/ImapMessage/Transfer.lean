/-
# Transfer encodings

The two encodings that protect a body on its way, and everything else, which is left as it
is.  Undoing one of them never fails: what is not encoded properly stays as it stands, single
escapes of quoted-printable and whole bodies of base64.

Key constructions:
* `TransferEncoding`, `TransferEncoding.ofName`: the encodings and their names.
* `TransferEncoding.decode`: a body without its encoding.
-/
import ImapMessage.Text.Base64
import ImapMessage.Text.Blank
import ImapMessage.Text.Utf8

namespace ImapMessage

/-- How a body is protected on its way. -/
inductive TransferEncoding where
  /-- Not at all. -/
  | identity
  /-- Bytes may be written as an equals sign and two hexadecimal digits. -/
  | quotedPrintable
  /-- Three bytes are written as four digits. -/
  | base64
  deriving DecidableEq, Repr

namespace TransferEncoding

/-- The encoding that the value of the header names, or none of the known ones. -/
def ofName (value : Option Bytes) : TransferEncoding :=
  match value with
  | none => .identity
  | some v =>
    let name := Blank.trim (Utf8.decodeLossy v)
    if Ascii.sameName name "base64" then .base64
    else if Ascii.sameName name "quoted-printable" then .quotedPrintable
    else .identity

/-- The byte that begins an escape. -/
def escapeMark : UInt8 := '='.toUInt8

/-- Undo quoted-printable, after the bytes, latest first, in `done`: an escape that stands before
a line ending vanishes with it, one with two hexadecimal digits is a byte, and any other is
left. -/
def unquoteFrom (done : Bytes) : Bytes → Bytes
  | [] => done.reverse
  | b :: rest =>
    if b = escapeMark then
      match rest with
      | [] => (b :: done).reverse
      | c :: rest' =>
        if c = Ascii.lf then unquoteFrom done rest'
        else
          match rest' with
          | [] => unquoteFrom (b :: done) [c]
          | d :: rest'' =>
            if c = Ascii.cr ∧ d = Ascii.lf then unquoteFrom done rest''
            else
              match Ascii.hexByte c d with
              | some x => unquoteFrom (x :: done) rest''
              | none => unquoteFrom (b :: done) (c :: d :: rest'')
    else unquoteFrom (b :: done) rest
termination_by s => s.length

/-- A text without quoted-printable. -/
def unquote (s : Bytes) : Bytes :=
  unquoteFrom [] s

/-- A body without its encoding. -/
def decode (e : TransferEncoding) (s : Bytes) : Bytes :=
  match e with
  | .identity => s
  | .quotedPrintable => unquote s
  | .base64 => (Base64.decode Base64.standard (s.filter fun b => !Ascii.isSpace b)).getD s

end TransferEncoding

end ImapMessage
