/-
# Ranges of a section

A range of a section holds the bytes of the whole section between its two ends, as far as there are
any.  Ranges that follow each other up to the end hold together the whole section.

Key constructions:
* `ByteRange.stop`, `ByteRange.slice_eq`, `ByteRange.slice_some`: a range by its ends.
* `ByteRange.sliceOfWords`: the same with ends that are computed in words.
* `ByteRange.consecutive`: ranges that follow each other.
* `Section.fetch_ranges`: what is fetched of the ranges of a section.
-/
import ImapMessage.Section
import Mathlib.Algebra.GroupWithZero.Nat
import Mathlib.Data.List.Forall2

namespace ImapMessage

namespace ByteRange

/-! ## The ends of a range -/

/-- Where a range ends in data of some size. -/
def stop (r : ByteRange) (size : Nat) : Nat :=
  match r.length with
  | none => size
  | some n => min (r.start + n) size

/-- A range holds what is before its end and not before its start. -/
theorem slice_eq (r : ByteRange) (s : Bytes) :
    r.slice s = (s.take (r.stop s.length)).drop (min r.start s.length) := by
  obtain ⟨start, length⟩ := r
  cases length with
  | none => rfl
  | some n =>
    -- An end that is counted from a start beyond the data is beyond the data, too.
    have hstop : min (min start s.length + n) s.length = min (start + n) s.length := by omega
    rw [slice, stop]
    exact congrArg (fun stop => (s.take stop).drop (min start s.length)) hstop

/-- A range of some length holds as many bytes from its start on. -/
theorem slice_some (start n : Nat) (s : Bytes) :
    slice ⟨start, some n⟩ s = (s.drop start).take n := by
  have htake : min (start + n) s.length - min start s.length = min n (s.length - start) := by
    omega
  rw [slice_eq, stop, List.drop_take, htake, ← List.drop_eq_drop_min, ← List.length_drop,
    ← List.take_eq_take_min]

/-! ## Words -/

/-- The range with ends that are given in words. -/
def ofWords (start : UInt64) (length : Option UInt64) : ByteRange :=
  ⟨start.toNat, length.map UInt64.toNat⟩

/-- The largest word. -/
def lastWord : UInt64 := UInt64.ofNat (UInt64.size - 1)

/-- The sum of two words, or the largest word if the sum is larger. -/
def saturatingAdd (a b : UInt64) : UInt64 :=
  if a + b < a then lastWord else a + b

theorem toNat_saturatingAdd (a b : UInt64) :
    (saturatingAdd a b).toNat = min (a.toNat + b.toNat) (UInt64.size - 1) := by
  have ha : a.toNat < 2 ^ 64 := a.toNat_lt
  have hb : b.toNat < 2 ^ 64 := b.toNat_lt
  have hsize : UInt64.size = 2 ^ 64 := rfl
  have hmax : lastWord.toNat = UInt64.size - 1 :=
    UInt64.toNat_ofNat_of_lt' (by decide)
  unfold saturatingAdd
  -- A sum that wraps around is smaller than each of the words, and one that does not is not.
  split
  · next hwraps =>
    rw [UInt64.lt_iff_toNat_lt, UInt64.toNat_add] at hwraps
    rw [hmax]
    omega
  · next hfits =>
    rw [UInt64.lt_iff_toNat_lt, UInt64.toNat_add] at hfits
    rw [UInt64.toNat_add]
    omega

/-- Where a range ends in data of some size, computed in words. -/
def stopOfWords (start : UInt64) (length : Option UInt64) (size : UInt64) : UInt64 :=
  match length with
  | none => size
  | some n => min (saturatingAdd start n) size

/-- The bytes of a range, with both ends computed in words. -/
def sliceOfWords (start : UInt64) (length : Option UInt64) (s : Bytes) : Bytes :=
  let size := s.length.toUInt64
  let first := min start size
  (s.take (stopOfWords first length size).toNat).drop first.toNat

/-- Ends that are computed in words are the same, if the size of the data is a word. -/
theorem slice_ofWords (start : UInt64) (length : Option UInt64) {s : Bytes}
    (h : s.length < UInt64.size) :
    (ofWords start length).slice s = sliceOfWords start length s := by
  have hlength : s.length.toUInt64.toNat = s.length := UInt64.toNat_ofNat_of_lt' h
  have hfirst : (min start s.length.toUInt64).toNat = min start.toNat s.length := by
    rw [UInt64.toNat_min, hlength]
  have hstop : (stopOfWords (min start s.length.toUInt64) length s.length.toUInt64).toNat
      = (ofWords start length).stop s.length := by
    cases length with
    | none => exact hlength
    | some n =>
      -- A sum that is too large for a word is larger than the data, too.
      have hwithout : (ofWords start (some n)).stop s.length
          = min (start.toNat + n.toNat) s.length := rfl
      rw [stopOfWords, UInt64.toNat_min, hlength, toNat_saturatingAdd, hfirst, hwithout]
      omega
  rw [slice_eq, sliceOfWords, hstop, hfirst, ofWords]

/-! ## Ranges that follow each other -/

/-- Ranges of some lengths, each of which begins where the one before it ends, and the first one at
a given place. -/
def consecutive (start : Nat) : List Nat → List ByteRange
  | [] => []
  | n :: ns => ⟨start, some n⟩ :: consecutive (start + n) ns

/-- Ranges that follow each other hold all bytes from the start of the first to the end of the
last. -/
theorem flatMap_slice_consecutive (s : Bytes) (start : Nat) (lengths : List Nat) :
    ((consecutive start lengths).flatMap fun r => r.slice s)
      = (s.drop start).take lengths.sum := by
  induction lengths generalizing start with
  | nil => rfl
  | cons n ns ih =>
    rw [consecutive, List.flatMap_cons, ih, slice_some, List.sum_cons, List.take_add,
      List.drop_drop]

end ByteRange

namespace Section

/-- What is fetched of a range is that range of the whole section. -/
theorem fetch_range_of_whole {s : Section} (hrange : s.range = none) {message : Entity}
    {whole : Fetched} (h : s.fetch message = .ok whole) (r : ByteRange) :
    { s with range := some r }.fetch message = .ok (answer (r.slice whole.data)) := by
  unfold fetch at h ⊢
  dsimp only
  cases he : message.locate s.path with
  | error err =>
    rw [he] at h
    cases h
  | ok e =>
    rw [he, Except.map, Except.ok.injEq, bytesOf, hrange] at h
    subst h
    rfl

/-- **The ranges of a section are parts of it, and put together they are the section.**  A range
holds the bytes of the whole section from its start to its end, neither of them beyond the end of
the data, and a NUL is reported exactly if there is one among these bytes.  Ranges that follow each
other from the beginning and whose lengths are enough for the data hold, one after another, all of
them.  Whoever computes with words, and stops at the largest of them, comes to the same ranges. -/
theorem fetch_ranges {s : Section} (hrange : s.range = none) {message : Entity} {whole : Fetched}
    (h : s.fetch message = .ok whole) :
    (∀ r : ByteRange, ∃ part, { s with range := some r }.fetch message = .ok part
        ∧ part.data = (whole.data.take (r.stop whole.data.length)).drop
            (min r.start whole.data.length)
        ∧ (part.containsNul = true ↔ 0 ∈ part.data))
      ∧ (∀ lengths : List Nat, whole.data.length ≤ lengths.sum →
          ∃ parts, List.Forall₂ (fun r part => { s with range := some r }.fetch message = .ok part)
              (ByteRange.consecutive 0 lengths) parts
            ∧ parts.flatMap Fetched.data = whole.data)
      ∧ (whole.data.length < UInt64.size → ∀ (start : UInt64) (length : Option UInt64),
          ∃ part, { s with range := some (.ofWords start length) }.fetch message = .ok part
            ∧ part.data = ByteRange.sliceOfWords start length whole.data) := by
  have hfetch := fetch_range_of_whole hrange h
  refine ⟨fun r => ⟨_, hfetch r, r.slice_eq _, List.contains_iff_mem⟩, ?_, ?_⟩
  · intro lengths hlengths
    refine ⟨(ByteRange.consecutive 0 lengths).map fun r => answer (r.slice whole.data), ?_, ?_⟩
    · rw [List.forall₂_map_right_iff, List.forall₂_same]
      exact fun r _ => hfetch r
    · rw [List.flatMap_map]
      exact (ByteRange.flatMap_slice_consecutive whole.data 0 lengths).trans
        (List.take_of_length_le hlengths)
  · intro hsize start length
    exact ⟨_, hfetch _, ByteRange.slice_ofWords start length hsize⟩

/-- A message with a NUL between two letters. -/
def nulNote : Entity :=
  .ofHeader .empty [97, 0, 98]

/-- A NUL between two letters is fetched in three ranges, of which the last one goes past the end;
and there is nothing in a range that starts at the largest word. -/
theorem fetch_ranges_nul_note :
    fetch { portion := .text } nulNote = .ok ⟨[97, 0, 98], true⟩
      ∧ (∃ part, fetch { portion := .text, range := some ⟨2, some 9⟩ } nulNote = .ok part
        ∧ part.data = [98] ∧ (part.containsNul = true ↔ 0 ∈ part.data))
      ∧ (∃ parts, List.Forall₂
          (fun r part => fetch { portion := .text, range := some r } nulNote = .ok part)
          [⟨0, some 1⟩, ⟨1, some 1⟩, ⟨2, some 9⟩] parts
        ∧ parts.flatMap Fetched.data = [97, 0, 98])
      ∧ ∃ part, fetch { portion := .text, range := some (.ofWords ByteRange.lastWord
          (some ByteRange.lastWord)) } nulNote = .ok part ∧ part.data = [] := by
  have hwhole : fetch { portion := .text } nulNote = .ok ⟨[97, 0, 98], true⟩ := by decide
  obtain ⟨hparts, hall, hwords⟩ := fetch_ranges rfl hwhole
  exact ⟨hwhole, hparts ⟨2, some 9⟩, hall [1, 1, 9] (by decide),
    hwords (by decide) ByteRange.lastWord (some ByteRange.lastWord)⟩

end Section

end ImapMessage
