/-
# Readers

A reader takes what it understands from the start of some bytes and leaves the rest, or
refuses.  Whoever tries a reader that refuses goes on from where that reader began.

Key constructions:
* `Reader`: the type of readers.
* `Reader.many`: as often as possible.
* `Reader.sepBy1`: once or more, with something in between.
* `Reader.optional`: once, if possible.
-/
import ImapMessage.Field.Comment

namespace ImapMessage

/-- A reader of values of type `α`. -/
abbrev Reader (α : Type) := Bytes → Option (α × Bytes)

namespace Reader

/-- Read one given byte. -/
def byte (c : Char) : Reader Unit
  | [] => none
  | b :: rest => if b = c.toUInt8 then some ((), rest) else none

/-- Read a value, if possible. -/
def optional {α : Type} (p : Reader α) (s : Bytes) : Option α × Bytes :=
  match p s with
  | some (a, rest) => (some a, rest)
  | none => (none, s)

/-- Read by the first of two readers, or else by the second. -/
def orElse {α : Type} (p q : Reader α) : Reader α := fun s =>
  match p s with
  | some r => some r
  | none => q s

/-- Read as many values as possible.  A value that takes no bytes ends the reading. -/
def many {α : Type} (p : Reader α) (s : Bytes) : List α × Bytes :=
  match p s with
  | none => ([], s)
  | some (a, rest) =>
    if rest.length < s.length then
      let (as, rest') := many p rest
      (a :: as, rest')
    else ([], s)
termination_by s.length

/-- Read something that only separates and then a value. -/
def after {α : Type} (sep : Reader Unit) (p : Reader α) : Reader α := fun s =>
  match sep s with
  | none => none
  | some ((), rest) => p rest

/-- Read one value, and then as many as possible with separators before them.  A separator with
no value after it is left. -/
def sepBy1 {α : Type} (sep : Reader Unit) (p : Reader α) : Reader (List α) := fun s =>
  match p s with
  | none => none
  | some (a, rest) =>
    let (as, rest') := many (after sep p) rest
    some (a :: as, rest')

/-- Read the longest non-empty run of bytes of a class, with comments and white space around. -/
def run (p : UInt8 → Bool) : Reader Bytes := fun s =>
  match (Comment.skip s).span p with
  | ([], _) => none
  | (w, rest) => some (w, Comment.skip rest)

/-- Read at least `least` and at most `most` decimal digits. -/
def digits (least most : Nat) : Reader Bytes := fun s =>
  let ds := (s.take most).takeWhile Ascii.isDigit
  if least ≤ ds.length then some (ds, s.drop ds.length) else none

/-- Read a given word of ASCII letters in any case. -/
def anyCase (w : List Char) : Reader Unit := fun s =>
  if (s.take w.length).map Ascii.lower = w.map Char.toUInt8 then some ((), s.drop w.length)
  else none

/-- Whatever is read by one of two readers is read by the first or by the second. -/
theorem eq_some_of_orElse {α : Type} {p q : Reader α} {s : Bytes} {r : α × Bytes}
    (h : orElse p q s = some r) : p s = some r ∨ q s = some r := by
  unfold orElse at h
  split at h
  · rename_i hp
    exact .inl (hp.trans h)
  · exact .inr h

end Reader

end ImapMessage
