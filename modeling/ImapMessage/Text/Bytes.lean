/-
# Bytes and ASCII classes

Raw message data is a list of bytes.  Most rules of the message format are stated
on ASCII bytes, whatever the bytes above 0x7F stand for; the classes that several
of those rules share are gathered here, together with the comparison of names that
ignores ASCII case.

Key constructions:
* `Bytes`: raw message data.
* `Ascii.isSpace`, `Ascii.isFold`: the two classes of blank bytes, which differ in
  the form feed.
* `Ascii.hexValue`: the value of a hexadecimal digit of either case.
* `Ascii.sameName`: equality up to ASCII case.
-/

namespace ImapMessage

/-- Raw message data. -/
abbrev Bytes := List UInt8

/-- A code below 256 is that of its byte. -/
theorem toNat_toUInt8 {n : Nat} (h : n < 256) : n.toUInt8.toNat = n :=
  UInt8.toNat_ofNat_of_lt' h

/-- A byte is determined by its code. -/
theorem toUInt8_eq_of_eq {n : Nat} {b : UInt8} (h : n = b.toNat) : n.toUInt8 = b := by
  subst h
  exact UInt8.ofNat_toNat

namespace Ascii

/-- The line feed, which alone ends a line. -/
def lf : UInt8 := 10

/-- The carriage return, which may precede a line feed. -/
def cr : UInt8 := 13

/-- The horizontal tab. -/
def tab : UInt8 := 9

/-- The space. -/
def sp : UInt8 := 32

/-- A carriage return followed by a line feed, the line ending of messages. -/
def crlf : Bytes := [cr, lf]

/-- Whether `b` is the code of one of the listed ASCII characters. -/
def oneOf (cs : List Char) (b : UInt8) : Bool :=
  cs.any fun c => c.toNat == b.toNat

/-- Decimal digits. -/
def isDigit (b : UInt8) : Bool :=
  48 ≤ b && b ≤ 57

/-- ASCII letters of either case. -/
def isLetter (b : UInt8) : Bool :=
  (65 ≤ b && b ≤ 90) || (97 ≤ b && b ≤ 122)

/-- ASCII letters and digits. -/
def isAlnum (b : UInt8) : Bool :=
  isLetter b || isDigit b

/-- ASCII white space: tab, line feed, form feed, carriage return and space. -/
def isSpace (b : UInt8) : Bool :=
  b == 9 || b == 10 || b == 12 || b == 13 || b == 32

/-- White space that may fold a header value: space, tab and both halves of a line ending. -/
def isFold (b : UInt8) : Bool :=
  b == 32 || b == 9 || b == 13 || b == 10

/-- The lower-case form of an ASCII letter; every other byte is unchanged. -/
def lower (b : UInt8) : UInt8 :=
  if 65 ≤ b && b ≤ 90 then b + 32 else b

/-- The value of a hexadecimal digit of either case. -/
def hexValue (b : UInt8) : Option UInt8 :=
  if 48 ≤ b && b ≤ 57 then some (b - 48)
  else if 65 ≤ b && b ≤ 70 then some (b - 55)
  else if 97 ≤ b && b ≤ 102 then some (b - 87)
  else none

/-- The byte written by two hexadecimal digits. -/
def hexByte (high low : UInt8) : Option UInt8 := do
  let h ← hexValue high
  let l ← hexValue low
  return h * 16 + l

/-- The number written by a run of decimal digits. -/
def decimal (digits : Bytes) : Nat :=
  digits.foldl (fun n d => 10 * n + (d.toNat - 48)) 0

/-- ASCII white space among characters. -/
def isSpaceChar (c : Char) : Bool :=
  c == '\t' || c == '\n' || c == '\x0c' || c == '\r' || c == ' '

/-- A name with its ASCII letters in lower case. -/
def lowerName (s : String) : String :=
  String.ofList (s.toList.map Char.toLower)

/-- A name with its ASCII letters in upper case. -/
def upperName (s : String) : String :=
  String.ofList (s.toList.map Char.toUpper)

/-- Equality of names up to ASCII case. -/
def sameName (a b : String) : Bool :=
  lowerName a == lowerName b

theorem sameName_self (s : String) : sameName s s = true := by
  simp [sameName]

theorem sameName_comm (a b : String) : sameName a b = sameName b a := by
  simp [sameName, Bool.beq_comm]

end Ascii

end ImapMessage
