/-
# Header values for display

Texts made of the raw words and values of a header: display names, dotted parts of
addresses, and values without further structure, such as subjects.

Key constructions:
* `Display.phrase`: a display name.
* `Display.dotted`: the part of an address on one side of the at sign.
* `Display.unfold`, `Display.unstructured`: a value on one line, and as a text.
* `Display.trimmed`, `Display.spaced`: plain values.
-/
import ImapMessage.EncodedWord
import ImapMessage.Text.Blank

namespace ImapMessage

namespace Display

variable [FurtherCharsets]

/-- Go on with the words of a display name: `started` says whether there is any text before
them, and `decoded` whether an encoded word stands right before them. -/
def phraseFrom (started decoded : Bool) : List Bytes → List Char
  | [] => []
  | w :: ws =>
    let text := (Utf8.decodeLossy w).toList
    match EncodedWord.decode? text with
    | some d =>
      (if started && !decoded then [' '] else []) ++ d.toList ++
        phraseFrom (started || !d.toList.isEmpty) true ws
    | none =>
      (if started && text != ['.'] then [' '] else []) ++ text ++
        phraseFrom (started || !text.isEmpty) false ws

/-- A display name: its words with spaces between them, except between encoded words and before
a bare dot. -/
def phrase (words : List Bytes) : String :=
  String.ofList (phraseFrom false false words)

/-- Words with dots between them. -/
def dotted (words : List Bytes) : String :=
  Utf8.decodeLossy (['.'.toUInt8].intercalate words)

/-- Go on unfolding after the bytes, latest first, in `done`; `folded` says whether these end
with a fold. -/
def unfoldFrom (done : Bytes) (folded : Bool) : Bytes → Bytes
  | [] => done.reverse
  | b :: rest =>
    if folded && Ascii.isFold b then unfoldFrom done true rest
    else if b = Ascii.cr ∨ b = Ascii.lf then unfoldFrom (Ascii.sp :: done) true rest
    else unfoldFrom (b :: done) false rest

/-- A value on one line: a line break and the white space after it become one space.  A value
without line feeds is on one line. -/
def unfold (value : Bytes) : Bytes :=
  if value.contains Ascii.lf then unfoldFrom [] false value else value

/-- A value without further structure: on one line, trimmed, and with encoded words decoded. -/
def unstructured (value : Bytes) : String :=
  EncodedWord.decodeText (Blank.trim (Utf8.decodeLossy (unfold value)))

/-- A value without white space at its ends. -/
def trimmed (value : Bytes) : String :=
  Blank.trim (Utf8.decodeLossy value)

/-- A value with one space in place of each run of white space. -/
def spaced (value : Bytes) : String :=
  String.ofList ([' '].intercalate (Blank.words (Utf8.decodeLossy value).toList))

end Display

end ImapMessage
