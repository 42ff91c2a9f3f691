/-
# UTF-8

Writing characters as UTF-8 and reading arbitrary bytes as UTF-8.  Bytes that are
not UTF-8 are cut into the longest starts of a character that they hold ("maximal
ill-formed parts"): one such part is one unreadable item, wherever the reader then
goes on.

Key constructions:
* `Utf8.scan`: the characters of arbitrary bytes, `none` for each ill-formed part.
* `Utf8.decode?`: the text of bytes that are UTF-8 throughout.
* `Utf8.decodeLossy`: the text with U+FFFD for each ill-formed part.
-/
import ImapMessage.Text.Bytes

namespace ImapMessage

namespace Utf8

/-- The bytes that write one character. -/
def encodeChar (c : Char) : Bytes :=
  String.utf8EncodeChar c

/-- The bytes that write a text. -/
def encode (s : String) : Bytes :=
  s.toList.flatMap encodeChar

/-- What the first byte of a longer character says about it: how many bytes follow the
second one, the range of the second byte, and the leading bits of the code point. -/
structure Lead where
  /-- How many bytes follow the second one. -/
  more : Nat
  /-- The least second byte. -/
  low : UInt8
  /-- The greatest second byte. -/
  high : UInt8
  /-- The bits of the code point that the first byte holds. -/
  bits : Nat

/-- The first bytes of characters of two to four bytes.  The narrower ranges of the second
byte rule out overlong forms, surrogates and code points beyond U+10FFFF. -/
def lead? (b : UInt8) : Option Lead :=
  if 0xC2 ≤ b && b ≤ 0xDF then some ⟨0, 0x80, 0xBF, b.toNat - 0xC0⟩
  else if b == 0xE0 then some ⟨1, 0xA0, 0xBF, 0⟩
  else if b == 0xED then some ⟨1, 0x80, 0x9F, 13⟩
  else if 0xE1 ≤ b && b ≤ 0xEF then some ⟨1, 0x80, 0xBF, b.toNat - 0xE0⟩
  else if b == 0xF0 then some ⟨2, 0x90, 0xBF, 0⟩
  else if 0xF1 ≤ b && b ≤ 0xF3 then some ⟨2, 0x80, 0xBF, b.toNat - 0xF0⟩
  else if b == 0xF4 then some ⟨2, 0x80, 0x8F, 4⟩
  else none

/-- Read `n` continuation bytes onto the code point `v`. -/
def tails : Nat → Nat → Bytes → Option Char × Bytes
  | 0, v, rest => (some (Char.ofNat v), rest)
  | _ + 1, _, [] => (none, [])
  | n + 1, v, b :: rest =>
    if 0x80 ≤ b && b ≤ 0xBF then tails n (64 * v + (b.toNat - 0x80)) rest else (none, b :: rest)

/-- Read one character, or one maximal ill-formed part, whose first byte is `b`. -/
def next (b : UInt8) (rest : Bytes) : Option Char × Bytes :=
  if b < 0x80 then (some (Char.ofNat b.toNat), rest)
  else
    match lead? b, rest with
    | none, _ => (none, rest)
    | some _, [] => (none, [])
    | some l, c :: rest' =>
      if l.low ≤ c && c ≤ l.high then tails l.more (64 * l.bits + (c.toNat - 0x80)) rest'
      else (none, c :: rest')

theorem tails_length_le (n v : Nat) (s : Bytes) : (tails n v s).2.length ≤ s.length := by
  fun_induction tails n v s with
  | case1 => exact Nat.le_refl _
  | case2 => exact Nat.le_refl _
  | case3 _ _ b rest _ ih => exact Nat.le_succ_of_le ih
  | case4 => exact Nat.le_refl _

theorem next_length_le (b : UInt8) (s : Bytes) : (next b s).2.length ≤ s.length := by
  unfold next
  split
  · exact Nat.le_refl _
  · split
    · exact Nat.le_refl _
    · exact Nat.le_refl _
    · split
      · exact Nat.le_succ_of_le (tails_length_le ..)
      · exact Nat.le_refl _

/-- The items of `s` after those collected, latest first, in `done`. -/
def scanFrom (done : List (Option Char)) : Bytes → List (Option Char)
  | [] => done.reverse
  | b :: rest =>
    match h : next b rest with
    | (item, rest') =>
      have : rest'.length < rest.length + 1 := by
        have := next_length_le b rest
        rw [h] at this
        exact Nat.lt_succ_of_le this
      scanFrom (item :: done) rest'
termination_by s => s.length

/-- The characters of `s` in order, with `none` for each maximal ill-formed part. -/
def scan (s : Bytes) : List (Option Char) :=
  scanFrom [] s

theorem scanFrom_cons (done : List (Option Char)) (b : UInt8) (rest : Bytes) :
    scanFrom done (b :: rest) = scanFrom ((next b rest).1 :: done) (next b rest).2 := by
  rw [scanFrom]

theorem scanFrom_eq (done : List (Option Char)) (s : Bytes) :
    scanFrom done s = done.reverse ++ scan s := by
  induction hn : s.length using Nat.strongRecOn generalizing done s with
  | ind n ih =>
    cases s with
    | nil => simp [scan, scanFrom]
    | cons b rest =>
      have hlt : (next b rest).2.length < n := by
        rw [← hn]
        exact Nat.lt_succ_of_le (next_length_le b rest)
      rw [scan, scanFrom_cons, scanFrom_cons, ih _ hlt _ _ rfl, ih _ hlt [_] _ rfl]
      simp

@[simp] theorem scan_nil : scan [] = [] := by
  simp [scan, scanFrom]

/-- Reading goes item by item. -/
theorem scan_cons (b : UInt8) (rest : Bytes) :
    scan (b :: rest) = (next b rest).1 :: scan (next b rest).2 := by
  rw [scan, scanFrom_cons, scanFrom_eq]
  rfl

/-- The text of bytes that are UTF-8 throughout. -/
def decode? (s : Bytes) : Option String :=
  ((scan s).mapM id).map String.ofList

/-- The text of arbitrary bytes, with U+FFFD in place of each maximal ill-formed part. -/
def decodeLossy (s : Bytes) : String :=
  String.ofList ((scan s).map fun c => c.getD '\uFFFD')

end Utf8

end ImapMessage
