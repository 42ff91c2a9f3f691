/-
# UTF-16

Code units of 16 bits and the characters they stand for.  A character beyond U+FFFF is
two units, a lead surrogate and a trail surrogate; a surrogate without its partner is
an unreadable item.

Key constructions:
* `Utf16.units`: the code units of a text.
* `Utf16.scan`: the characters of arbitrary units, `none` for each unpaired surrogate.
* `Utf16.bigEndian`, `Utf16.ofBigEndian`, `Utf16.ofLittleEndian`: units as bytes.
-/
import ImapMessage.Text.Bytes

namespace ImapMessage

namespace Utf16

/-- Units that begin a pair. -/
def isLead (u : UInt16) : Bool :=
  0xD800 ≤ u && u ≤ 0xDBFF

/-- Units that end a pair. -/
def isTrail (u : UInt16) : Bool :=
  0xDC00 ≤ u && u ≤ 0xDFFF

/-- The units of one character. -/
def unitsOfChar (c : Char) : List UInt16 :=
  if c.toNat < 0x10000 then [c.toNat.toUInt16]
  else
    [(0xD800 + (c.toNat - 0x10000) / 0x400).toUInt16,
     (0xDC00 + (c.toNat - 0x10000) % 0x400).toUInt16]

/-- The units of a text. -/
def units (cs : List Char) : List UInt16 :=
  cs.flatMap unitsOfChar

/-- The character of a lead and a trail surrogate. -/
def paired (lead trail : UInt16) : Char :=
  Char.ofNat (0x10000 + (lead.toNat - 0xD800) * 0x400 + (trail.toNat - 0xDC00))

/-- The character of a unit that is not part of a pair. -/
def single (u : UInt16) : Option Char :=
  if isLead u || isTrail u then none else some (Char.ofNat u.toNat)

/-- The items of some units after those collected, latest first, in `done`. -/
def scanFrom (done : List (Option Char)) : List UInt16 → List (Option Char)
  | [] => done.reverse
  | [u] => (single u :: done).reverse
  | u :: v :: rest =>
    if isLead u && isTrail v then scanFrom (some (paired u v) :: done) rest
    else scanFrom (single u :: done) (v :: rest)
termination_by us => us.length

/-- The characters of some units in order, with `none` for each unpaired surrogate. -/
def scan (us : List UInt16) : List (Option Char) :=
  scanFrom [] us

theorem scanFrom_eq (done : List (Option Char)) (us : List UInt16) :
    scanFrom done us = done.reverse ++ scan us := by
  induction hn : us.length using Nat.strongRecOn generalizing done us with
  | ind n ih =>
    match us with
    | [] => simp [scan, scanFrom]
    | [u] => simp [scan, scanFrom]
    | u :: v :: rest =>
      have h₁ : rest.length < n := by simp at hn; omega
      have h₂ : (v :: rest).length < n := by simp at hn ⊢; omega
      rw [scan, scanFrom, scanFrom]
      split
      · rw [ih _ h₁ _ _ rfl, ih _ h₁ [_] _ rfl]; simp
      · rw [ih _ h₂ _ _ rfl, ih _ h₂ [_] _ rfl]; simp

@[simp] theorem scan_nil : scan [] = [] := by
  simp [scan, scanFrom]

@[simp] theorem scan_singleton (u : UInt16) : scan [u] = [single u] := by
  simp [scan, scanFrom]

/-- A lead surrogate and the trail surrogate after it are one character; any other unit is read
by itself. -/
theorem scan_cons_cons (u v : UInt16) (rest : List UInt16) :
    scan (u :: v :: rest)
      = if isLead u && isTrail v then some (paired u v) :: scan rest
        else single u :: scan (v :: rest) := by
  rw [scan, scanFrom, scanFrom_eq, scanFrom_eq]
  rfl

/-- The bytes of one unit, the higher one first. -/
def bytesOfUnit (u : UInt16) : Bytes :=
  [(u.toNat / 256).toUInt8, (u.toNat % 256).toUInt8]

/-- Units as bytes, the higher byte of each first. -/
def bigEndian (us : List UInt16) : Bytes :=
  us.flatMap bytesOfUnit

/-- The units that byte pairs make up by `join`, and the byte left over, if any.  The units
already collected, latest first, are `done`. -/
def pairsFrom (join : UInt8 → UInt8 → UInt16) (done : List UInt16) :
    Bytes → List UInt16 × Option UInt8
  | [] => (done.reverse, none)
  | [b] => (done.reverse, some b)
  | a :: b :: rest => pairsFrom join (join a b :: done) rest

/-- The units of bytes with the higher byte of each unit first, and the byte left over. -/
def ofBigEndian (s : Bytes) : List UInt16 × Option UInt8 :=
  pairsFrom (fun a b => (a.toNat * 256 + b.toNat).toUInt16) [] s

/-- The units of bytes with the lower byte of each unit first, and the byte left over. -/
def ofLittleEndian (s : Bytes) : List UInt16 × Option UInt8 :=
  pairsFrom (fun a b => (b.toNat * 256 + a.toNat).toUInt16) [] s

theorem pairsFrom_eq (join : UInt8 → UInt8 → UInt16) (done : List UInt16) (s : Bytes) :
    pairsFrom join done s
      = (done.reverse ++ (pairsFrom join [] s).1, (pairsFrom join [] s).2) := by
  induction hn : s.length using Nat.strongRecOn generalizing done s with
  | ind n ih =>
    match s with
    | [] => simp [pairsFrom]
    | [b] => simp [pairsFrom]
    | a :: b :: rest =>
      have hr : rest.length < n := by simp at hn; omega
      rw [pairsFrom, pairsFrom, ih _ hr _ _ rfl, ih _ hr [_] _ rfl]
      simp

end Utf16

end ImapMessage
