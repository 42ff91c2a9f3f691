/-
# Base64

Three bytes as four digits of six bits.  Two alphabets are in use, which differ in the
digit for 63.  Writing uses no padding.  Reading takes padded and unpadded text and is
strict otherwise: the bits that the last digit does not need have to be zero, so that
an unpadded text is read only if it is what writing produces.

Key constructions:
* `Base64.Alphabet`, `Base64.standard`, `Base64.mailbox`: the two sets of digits.
* `Base64.encode`: the unpadded text of some bytes.
* `Base64.decode`: the bytes of a text, or `none`.
-/
import ImapMessage.Text.Bytes

namespace ImapMessage

namespace Base64

/-- A set of digits: letters, decimal digits, `+`, and one more byte for 63. -/
structure Alphabet where
  /-- The digit for 63. -/
  last : UInt8

/-- The digits of message bodies. -/
def standard : Alphabet := ⟨'/'.toUInt8⟩

/-- The digits of mailbox names, where `/` is often the mark between levels. -/
def mailbox : Alphabet := ⟨','.toUInt8⟩

/-- The digit for a value below 64. -/
def Alphabet.digit (a : Alphabet) (n : Nat) : UInt8 :=
  if n < 26 then (65 + n).toUInt8
  else if n < 52 then (71 + n).toUInt8
  else if n < 62 then (n - 4).toUInt8
  else if n = 62 then '+'.toUInt8
  else a.last

/-- The value of a digit. -/
def Alphabet.value? (a : Alphabet) (b : UInt8) : Option Nat :=
  if 65 ≤ b && b ≤ 90 then some (b.toNat - 65)
  else if 97 ≤ b && b ≤ 122 then some (b.toNat - 71)
  else if 48 ≤ b && b ≤ 57 then some (b.toNat + 4)
  else if b = '+'.toUInt8 then some 62
  else if b = a.last then some 63
  else none

/-- The values of the digits that write some bytes, six bits each, the last one filled up
with zero bits. -/
def sextets : Bytes → List Nat
  | [] => []
  | [x] => [x.toNat / 4, x.toNat % 4 * 16]
  | [x, y] => [x.toNat / 4, x.toNat % 4 * 16 + y.toNat / 16, y.toNat % 16 * 4]
  | x :: y :: z :: rest =>
    x.toNat / 4 :: (x.toNat % 4 * 16 + y.toNat / 16) :: (y.toNat % 16 * 4 + z.toNat / 64)
      :: (z.toNat % 64) :: sextets rest

/-- The unpadded text of some bytes. -/
def encode (a : Alphabet) (s : Bytes) : Bytes :=
  (sextets s).map a.digit

/-- The bytes that digits of the given values write, put after those collected, latest first,
in `done`.  A single digit left over and bits that are not needed refuse the whole. -/
def unpackFrom (done : Bytes) : List Nat → Option Bytes
  | [] => some done.reverse
  | [_] => none
  | [p, q] => if q % 16 = 0 then some ((p * 4 + q / 16).toUInt8 :: done).reverse else none
  | [p, q, r] =>
    if r % 4 = 0 then
      some ((q % 16 * 16 + r / 4).toUInt8 :: (p * 4 + q / 16).toUInt8 :: done).reverse
    else none
  | p :: q :: r :: t :: rest =>
    unpackFrom
      ((r % 4 * 64 + t).toUInt8 :: (q % 16 * 16 + r / 4).toUInt8 :: (p * 4 + q / 16).toUInt8
        :: done) rest

/-- The bytes that digits of the given values write. -/
def unpack (ns : List Nat) : Option Bytes :=
  unpackFrom [] ns

/-- The values of some digits, put after those collected, latest first, in `done`. -/
def valuesFrom (a : Alphabet) (done : List Nat) : Bytes → Option (List Nat)
  | [] => some done.reverse
  | b :: rest =>
    match a.value? b with
    | some n => valuesFrom a (n :: done) rest
    | none => none

/-- The byte that pads a text. -/
def pad : UInt8 := '='.toUInt8

/-- How much padding may follow how many digits: up to as much as fills the last group of four,
and none after a full group. -/
def paddingFits (digits padding : Nat) : Bool :=
  match digits % 4 with
  | 0 => padding == 0
  | 1 => false
  | 2 => padding ≤ 2
  | _ => padding ≤ 1

/-- The bytes that a text writes: digits, then as much padding as fits. -/
def decode (a : Alphabet) (s : Bytes) : Option Bytes :=
  let digits := (s.reverse.dropWhile (· == pad)).reverse
  if paddingFits digits.length (s.length - digits.length) then
    (valuesFrom a [] digits).bind unpack
  else none

theorem unpackFrom_eq (done : Bytes) (ns : List Nat) :
    unpackFrom done ns = (unpack ns).map (done.reverse ++ ·) := by
  induction hn : ns.length using Nat.strongRecOn generalizing done ns with
  | ind n ih =>
    match ns with
    | [] => simp [unpack, unpackFrom]
    | [_] => simp [unpack, unpackFrom]
    | [p, q] => simp only [unpack, unpackFrom]; split <;> simp
    | [p, q, r] => simp only [unpack, unpackFrom]; split <;> simp
    | p :: q :: r :: t :: rest =>
      have hr : rest.length < n := by simp at hn; omega
      rw [unpack, unpackFrom, unpackFrom, ih _ hr _ _ rfl, ih _ hr [_, _, _] _ rfl]
      simp [Function.comp_def]

theorem valuesFrom_eq (a : Alphabet) (done : List Nat) (s : Bytes) :
    valuesFrom a done s = (s.mapM a.value?).map (done.reverse ++ ·) := by
  induction s generalizing done with
  | nil => simp [valuesFrom]
  | cons b rest ih =>
    rw [valuesFrom, List.mapM_cons]
    cases h : a.value? b with
    | none => simp
    | some n =>
      cases hr : rest.mapM a.value? <;> simp [ih, hr]

end Base64

end ImapMessage
