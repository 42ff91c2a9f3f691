/-
# Numbers and dates of configuration documents

Whole numbers in four bases, numbers with a fractional part or an exponent, and dates and times
of day.  Underscores may stand between digits.

Key constructions:
* `Toml.digitRun`: the digits at the start of a text.
* `Toml.integer`: whole numbers, which fit in 64 bits.
* `Toml.real`: other numbers, which have to be in the range of double precision.
* `Toml.bareValue`: truth values, numbers and dates.
-/
import ImapMessage.Datum
import ImapMessage.Toml.Scan

namespace ImapMessage

namespace Toml

/-- Whether a character is a digit in a base. -/
def isDigitIn (base : Nat) (c : Char) : Bool :=
  (hexValue c).any fun d => d < base

/-- Go on in a run of digits after those in `done`, latest first: `zero` says whether a zero came
first, and `gap` whether an underscore came last. -/
def digitRunFrom (base : Nat) (zerosFirst zero gap : Bool) (done : List Char) :
    List Char → Option (List Char × List Char)
  | [] => if done.isEmpty || gap then none else some (done.reverse, [])
  | c :: rest =>
    if c = '0' ∧ done.isEmpty then digitRunFrom base zerosFirst true gap [c] rest
    else if isDigitIn base c then
      if zero && !zerosFirst then none else digitRunFrom base zerosFirst zero false (c :: done) rest
    else if c = '_' ∧ !gap then
      if done.isEmpty then none else digitRunFrom base zerosFirst zero true done rest
    else if done.isEmpty || gap then none
    else some (done.reverse, c :: rest)

/-- The digits at the start of a text, without the underscores between them, and what follows
them.  More than one digit may begin with a zero only if `zerosFirst`. -/
def digitRun (base : Nat) (zerosFirst : Bool) (cs : List Char) : Option (List Char × List Char) :=
  digitRunFrom base zerosFirst false false [] cs

/-- The number of some digits. -/
def valueIn (base : Nat) (digits : List Char) : Nat :=
  digits.foldl (fun n c => base * n + (hexValue c).getD 0) 0

/-- A sign, if there is one. -/
def sign : List Char → Bool × List Char
  | '-' :: rest => (true, rest)
  | '+' :: rest => (false, rest)
  | cs => (false, cs)

/-- The first whole number that is too great for 64 bits with a sign. -/
def wholeBound : Nat := 1 <<< 63

/-- A whole number that fits in 64 bits. -/
def wholeNumber (negative : Bool) (n : Nat) : Option Datum :=
  if negative then if n ≤ wholeBound then some (.integer (-n)) else none
  else if n < wholeBound then some (.integer n) else none

/-- A decimal whole number. -/
def decimalInteger (w : List Char) : Option Datum :=
  let (negative, w) := sign w
  match digitRun 10 false w with
  | some (digits, []) => wholeNumber negative (valueIn 10 digits)
  | _ => none

/-- A whole number in another base. -/
def basedInteger (base : Nat) (w : List Char) : Option Datum :=
  match digitRun base true w with
  | some (digits, []) => wholeNumber false (valueIn base digits)
  | _ => none

/-- The first number that is rounded to none in double precision. -/
def realBound : Nat := (1 <<< 1024) - (1 <<< 970)

/-- Whether a number `digits · 10 ^ exponent` is in the range of double precision. -/
def inRange (digits : List Char) (exponent : Int) : Bool :=
  let n := valueIn 10 digits
  let size := ((Nat.toDigits 10 n).length : Int) + exponent
  if n = 0 then true
  else if size ≤ 308 then true
  else if 310 < size then false
  else if 0 ≤ exponent then n * Nat.pow 10 exponent.toNat < realBound
  else n < realBound * Nat.pow 10 (-exponent).toNat

/-- An exponent after its letter: in the same run of characters, or after a plus sign. -/
def exponent (after : List Char) (rest : List Char) : Option (Int × List Char) :=
  match after with
  | [] => do
    let rest := ((mark '+' rest).map Prod.snd).getD rest
    let (w, rest) ← bare rest
    match digitRun 10 true w with
    | some (digits, []) => some (valueIn 10 digits, rest)
    | _ => none
  | _ :: _ =>
    let (negative, w) := sign after
    match digitRun 10 true w with
    | some (digits, []) =>
      some (if negative then -(valueIn 10 digits : Int) else valueIn 10 digits, rest)
    | _ => none

/-- What follows the digits of a number that is not whole: nothing or an exponent. -/
def realTail (digits : List Char) (places : Nat) (tail rest : List Char) :
    Option (Datum × List Char) :=
  match tail with
  | [] => if inRange digits (-places) then some (.real, rest) else none
  | c :: after =>
    if c = 'e' ∨ c = 'E' then do
      let (e, rest) ← exponent after rest
      if inRange digits (e - places) then some (.real, rest) else none
    else none

/-- A number with an exponent and no fractional part. -/
def scientific (w rest : List Char) : Option (Datum × List Char) := do
  let (digits, tail) ← digitRun 10 false (sign w).2
  realTail digits 0 tail rest

/-- A number with a fractional part, after the point. -/
def fractional (w rest : List Char) : Option (Datum × List Char) := do
  let (fraction, rest) ← bare rest
  match ← digitRun 10 false (sign w).2 with
  | (digits, []) =>
    let (places, tail) ← digitRun 10 true fraction
    realTail (digits ++ places) places.length tail rest
  | _ => none

/-- The words for numbers that are no numbers of the usual kind. -/
def specialNumbers : List (List Char) :=
  [['i', 'n', 'f'], ['-', 'i', 'n', 'f'], ['n', 'a', 'n'], ['-', 'n', 'a', 'n']]

/-- The number that begins with a run of characters. -/
def number (w rest : List Char) : Option (Datum × List Char) :=
  match w with
  | '0' :: 'x' :: digits => (basedInteger 16 digits).map fun d => (d, rest)
  | '0' :: 'o' :: digits => (basedInteger 8 digits).map fun d => (d, rest)
  | '0' :: 'b' :: digits => (basedInteger 2 digits).map fun d => (d, rest)
  | _ =>
    if w.contains 'e' || w.contains 'E' then scientific w rest
    else
      match rest with
      | '.' :: rest' => fractional w rest'
      | _ =>
        if specialNumbers.contains w then some (.real, rest)
        else (decimalInteger w).map fun d => (d, rest)

/-! ## Dates and times of day -/

/-- Whether a run of characters begins a date. -/
def beginsDate (w : List Char) : Bool :=
  w.contains 'T' || w.contains 't' ||
    (w.tail.contains '-' && !(w.zip w.tail).any fun (a, b) => (a == 'e' || a == 'E') && b == '-')

/-- A run of characters after a mark, if the mark is there. -/
def markedRun (c : Char) (cs : List Char) : Option (List Char) :=
  match mark c cs with
  | none => some cs
  | some (_, rest) => (bare rest).map Prod.snd

/-- What follows the minutes and seconds of a time of day, and its offset, after the hour and its
colon. -/
def timeTail (cs : List Char) : Option (List Char) := do
  let (_, cs) ← bare cs
  let (_, cs) ← mark ':' cs
  let (_, cs) ← bare cs
  let cs ← markedRun '.' cs
  let cs ← markedRun '+' cs
  markedRun ':' cs

/-- What follows the hour that one space divides from a date. -/
def spacedHour (cs : List Char) : List Char :=
  match cs with
  | ' ' :: rest => ((bare rest).map Prod.snd).getD cs
  | _ => cs

/-- What follows a date, and the time of day after it. -/
def dateTail (cs : List Char) : Option (List Char) :=
  let cs := spacedHour cs
  match mark ':' cs with
  | some (_, rest) => timeTail rest
  | none => some cs

/-- A truth value, a number or a date without sign before it, which begins with a run of
characters. -/
def bareValue (w rest : List Char) : Option (Datum × List Char) :=
  if w = ['t', 'r', 'u', 'e'] then some (.boolean true, rest)
  else if w = ['f', 'a', 'l', 's', 'e'] then some (.boolean false, rest)
  else if w = ['i', 'n', 'f'] ∨ w = ['n', 'a', 'n'] ∨
      w.head?.any fun c => c == '-' || c.isDigit then
    if beginsDate w then (dateTail rest).map fun r => (.instant, r)
    else
      match mark ':' rest with
      | some (_, rest) => (timeTail rest).map fun r => (.instant, r)
      | none => number w rest
  else none

end Toml

end ImapMessage
