/-
# Date-times

The value of a date header: a day of the week, which is ignored, day, month and year, the
time of day, and a zone, with comments and white space between them.  Years of two and
three digits are read as years near 2000.  A zone by name is one of a few American ones, or
else universal time.

Key constructions:
* `DateTime.reader`: the reader of the tokens.
* `DateTime.parse`: the date-time at the start of a value, if it exists.
-/
import ImapMessage.Calendar
import ImapMessage.Field.Word

namespace ImapMessage

namespace DateTime

/-- The year that two to four digits stand for. -/
def yearOf (digits : Bytes) : Int :=
  let n := Ascii.decimal digits
  if digits.length = 2 then if n < 50 then n + 2000 else n + 1900
  else if digits.length = 3 then n + 1900
  else n

/-- The names of the months. -/
def monthNames : List (List Char) :=
  [['j', 'a', 'n'], ['f', 'e', 'b'], ['m', 'a', 'r'], ['a', 'p', 'r'], ['m', 'a', 'y'],
    ['j', 'u', 'n'], ['j', 'u', 'l'], ['a', 'u', 'g'], ['s', 'e', 'p'], ['o', 'c', 't'],
    ['n', 'o', 'v'], ['d', 'e', 'c']]

/-- The zones with a name, and their offset in hours. -/
def zoneNames : List (List Char × Int) :=
  [(['u', 't'], 0), (['g', 'm', 't'], 0), (['e', 'd', 't'], -4), (['e', 's', 't'], -5),
    (['c', 'd', 't'], -5), (['c', 's', 't'], -6), (['m', 'd', 't'], -6), (['m', 's', 't'], -7),
    (['p', 'd', 't'], -7), (['p', 's', 't'], -8)]

/-- The first entry of a table whose word is next. -/
def named {α : Type} (table : List (List Char × α)) : Reader α := fun s =>
  table.findSome? fun (w, a) => (Reader.anyCase w s).map fun (_, r) => (a, r)

/-- Read a value, and skip the comments and white space after it. -/
def token {α : Type} (p : Reader α) : Reader α := fun s =>
  (p s).map fun (a, r) => (a, Comment.skip r)

/-- A month by name. -/
def month : Reader Nat :=
  named (monthNames.zip (List.range' 1 12))

/-- A number of so many digits. -/
def number (least most : Nat) : Reader Nat := fun s =>
  (Reader.digits least most s).map fun (ds, r) => (Ascii.decimal ds, r)

/-- Day, month and year. -/
def calendarDate : Reader CalendarDate := fun s => do
  let (day, s) ← token (number 1 2) s
  let (month, s) ← token month s
  let (year, s) ← token (Reader.digits 2 4) s
  return (⟨yearOf year, month, day⟩, s)

/-- A colon and two digits. -/
def colonNumber : Reader Nat := fun s => do
  let (_, s) ← token (Reader.byte ':') (Comment.skip s)
  number 2 2 s

/-- Hour, minute and second; the second may be missing. -/
def timeOfDay : Reader (Nat × Nat × Nat) := fun s => do
  let (hour, s) ← number 2 2 s
  let (minute, s) ← colonNumber s
  let (second, s) := Reader.optional colonNumber s
  return ((hour, minute, second.getD 0), Comment.skip s)

/-- The offset that four digits stand for: hours and minutes. -/
def offsetOf (digits : Bytes) : Int :=
  let n := Ascii.decimal digits
  (n / 100 * 3600 + n % 100 * 60 : Nat)

/-- A zone by its offset. -/
def numericZone : Reader Int
  | [] => none
  | b :: rest =>
    if b = '+'.toUInt8 then (Reader.digits 4 4 rest).map fun (ds, r) => (offsetOf ds, r)
    else if b = '-'.toUInt8 then (Reader.digits 4 4 rest).map fun (ds, r) => (-offsetOf ds, r)
    else none

/-- A zone by its name. -/
def namedZone : Reader Int := fun s =>
  (named zoneNames s).map fun (hours, r) => (hours * 3600, r)

/-- A zone of which nothing is known is universal time. -/
def otherZone : Reader Int := fun s =>
  match s.span Word.isAtomByte with
  | ([], _) => none
  | (_, rest) => some (0, rest)

/-- A zone. -/
def zone : Reader Int :=
  Reader.orElse numericZone (Reader.orElse namedZone otherZone)

/-- A day of the week, whose name does not matter. -/
def weekday : Reader Unit := fun s => do
  let (_, s) ← Word.atom s
  token (Reader.byte ',') s

/-- A date-time, which the calendar need not have. -/
def reader : Reader DateTime := fun s => do
  let (_, s) := Reader.optional weekday s
  let (date, s) ← calendarDate (Comment.skip s)
  let ((hour, minute, second), s) ← timeOfDay s
  let (offset, s) ← token zone s
  return (⟨date, hour, minute, second, offset⟩, s)

/-- The date-time at the start of a value, if the calendar has it.  What follows is ignored. -/
def parse (value : Bytes) : Option DateTime := do
  let (t, _) ← reader value
  if t.IsValid then some t else none

end DateTime

end ImapMessage
