/-
# Mailbox names

The written form of mailbox names.  Printable ASCII is written directly, with `&-` for
an ampersand; every maximal run of other characters becomes one shift sequence: `&`,
the unpadded base64 of the run's UTF-16 units with the higher byte first, and `-`.
Reading refuses everything that writing does not produce, and says where and why.

Key constructions:
* `MailboxName.encode`: the written form of a name.
* `MailboxName.Fault`, `MailboxName.DecodeError`: the ways a written form can be wrong.
* `MailboxName.decode`: the name of a written form, or the first fault in it.
-/
import ImapMessage.Text.Base64
import ImapMessage.Text.Utf16

namespace ImapMessage

namespace MailboxName

/-- Characters that are written directly: printable ASCII. -/
def isDirect (c : Char) : Bool :=
  32 ≤ c.toNat && c.toNat < 127

/-- A direct character as written: an ampersand is followed by a hyphen. -/
def escape (c : Char) : List Char :=
  if c = '&' then ['&', '-'] else [c]

/-- The base64 digits of a run of characters. -/
def shiftDigits (run : List Char) : List Char :=
  (Base64.encode Base64.mailbox (Utf16.bigEndian (Utf16.units run))).map
    fun b => Char.ofNat b.toNat

/-- A shift sequence. -/
def shift (run : List Char) : List Char :=
  '&' :: shiftDigits run ++ ['-']

/-- The maximal runs of characters that are all direct or all not. -/
def runs (cs : List Char) : List (List Char) :=
  cs.splitBy fun a b => isDirect a == isDirect b

/-- The written form of a maximal run. -/
def encodeRun (run : List Char) : List Char :=
  if run.all isDirect then run.flatMap escape else shift run

/-- The written form of a name. -/
def encode (name : String) : String :=
  String.ofList ((runs name.toList).flatMap encodeRun)

/-! ## Reading -/

/-- The ways in which a written form can be wrong. -/
inductive Fault where
  | illegalCharacter
  | invalidShiftCharacter
  | lineBreakInShift
  | padding
  | redundantShift
  | unterminatedShift
  | partialCodeUnit
  | unpairedSurrogate
  | badBase64
  | nullShift
  deriving DecidableEq, Repr

/-- A fault in words. -/
def Fault.text : Fault → String
  | .illegalCharacter => "character outside printable ASCII"
  | .invalidShiftCharacter => "invalid character in shift sequence"
  | .lineBreakInShift => "line break in shift sequence"
  | .padding => "base64 padding in shift sequence"
  | .redundantShift => "shift sequence encodes directly representable text"
  | .unterminatedShift => "unterminated shift sequence"
  | .partialCodeUnit => "truncated UTF-16 code unit"
  | .unpairedSurrogate => "unpaired UTF-16 surrogate"
  | .badBase64 => "malformed base64 in shift sequence"
  | .nullShift => "shift sequence immediately follows another"

/-- The first fault of a written form. -/
structure DecodeError where
  /-- What is wrong. -/
  fault : Fault
  /-- The byte at which it is noticed.  All bytes before it are ASCII, so bytes and characters
  count the same. -/
  offset : Nat
  /-- The text read so far. -/
  decoded : String
  deriving DecidableEq, Repr

/-- The error in one line. -/
def DecodeError.message (e : DecodeError) : String :=
  let text := e.fault.text
  let offset := e.offset
  s!"invalid modified UTF-7 at byte {offset}: {text}"

/-- The base64 digits of mailbox names. -/
def isShiftDigit (c : Char) : Bool :=
  c.isAlphanum || c == '+' || c == ','

/-- What is wrong with the character that ends the digits of a shift sequence, if it is not
the closing hyphen. -/
def faultAfterDigits (c : Char) : Fault :=
  if c = '=' then .padding
  else if c = '\r' || c = '\n' then .lineBreakInShift
  else .invalidShiftCharacter

/-- The characters that the digits of a shift sequence stand for, `none` for each unpaired
surrogate. -/
def readDigits (digits : List Char) : Except Fault (List (Option Char)) :=
  match Base64.decode Base64.mailbox (digits.map Char.toUInt8) with
  | none => .error .badBase64
  | some bytes =>
    match Utf16.ofBigEndian bytes with
    | (_, some _) => .error .partialCodeUnit
    | (units, none) => .ok (Utf16.scan units)

/-- Put shifted characters after the text read so far, latest first, up to the first one that
cannot stand in a shift sequence. -/
def pushShifted (done : List Char) : List (Option Char) → Except (Fault × List Char) (List Char)
  | [] => .ok done
  | none :: _ => .error (.unpairedSurrogate, done)
  | some c :: rest =>
    if isDirect c then .error (.redundantShift, done) else pushShifted (c :: done) rest

/-- An error after the text read so far, latest first. -/
def failure (fault : Fault) (offset : Nat) (done : List Char) : Except DecodeError String :=
  .error ⟨fault, offset, String.ofList done.reverse⟩

/-- Read on at `offset`, after the text `done` (latest first); `afterShift` says whether a
shift sequence ended right here. -/
def decodeFrom (done : List Char) (offset : Nat) (afterShift : Bool) :
    List Char → Except DecodeError String
  | [] => .ok (String.ofList done.reverse)
  | '&' :: '-' :: rest => decodeFrom ('&' :: done) (offset + 2) false rest
  | '&' :: rest =>
    if afterShift then failure .nullShift offset done
    else
      match _h : rest.dropWhile isShiftDigit with
      | [] => failure .unterminatedShift offset done
      | c :: after =>
        let digits := rest.takeWhile isShiftDigit
        if c = '-' then
          match readDigits digits with
          | .error fault => failure fault (offset + 1) done
          | .ok items =>
            match pushShifted done items with
            | .error (fault, done') => failure fault (offset + 1) done'
            | .ok done' => decodeFrom done' (offset + digits.length + 2) true after
        else failure (faultAfterDigits c) (offset + 1 + digits.length) done
  | c :: rest =>
    if isDirect c then decodeFrom (c :: done) (offset + 1) false rest
    else failure .illegalCharacter offset done
termination_by cs => cs.length
decreasing_by
  all_goals simp only [List.length_cons]
  all_goals try omega
  have := (List.dropWhile_suffix isShiftDigit (l := rest)).length_le
  rw [_h] at this
  simp only [List.length_cons] at this
  omega

/-- The name of a written form, or the first fault in it. -/
def decode (written : String) : Except DecodeError String :=
  decodeFrom [] 0 false written.toList

end MailboxName

end ImapMessage
