/-
# Zones by name

A zone is told by a word.  Its first three letters decide whether it is one of the American zones,
whatever letters follow them; every other word is universal time.  So a word is read as the zone of
that name if it has three letters at most, and a longer one if it does not begin like an American
zone.

Key constructions:
* `DateTime.americanZones`, `DateTime.zoneHours`: which words name zones, and how far these are off.
* `Reader.anyCase_of_isPrefix`, `Reader.isPrefix_of_anyCase`: which words are found at the start of one.
* `DateTime.zone_word`: what a word is read as.
-/
import ImapMessage.Proofs.Field.Dates

namespace ImapMessage

namespace Reader

/-- The letters at the start of a text are read as a word. -/
theorem anyCase_of_isPrefix {w : List Char} {z : Bytes} (h : w.map Char.toUInt8 <+: z.map Ascii.lower)
    (rest : Bytes) : anyCase w (z ++ rest) = some ((), z.drop w.length ++ rest) := by
  have htake : (z.take w.length).map Ascii.lower = w.map Char.toUInt8 := by
    rw [List.map_take, ← List.length_map Char.toUInt8, ← List.prefix_iff_eq_take.mp h]
  rw [← anyCase_written htake, ← List.append_assoc, List.take_append_drop]

/-- No word of letters goes on behind the letters of a text. -/
theorem isPrefix_of_anyCase {w : List Char} {z rest : Bytes}
    (hw : ∀ c ∈ w, Ascii.isLetter c.toUInt8 = true)
    (hrest : ∀ b ∈ rest.head?, Ascii.isLetter b = false) (h : (anyCase w (z ++ rest)).isSome) :
    w.map Char.toUInt8 <+: z.map Ascii.lower := by
  have hword : ((z ++ rest).take w.length).map Ascii.lower = w.map Char.toUInt8 := by
    by_contra hne
    rw [anyCase, if_neg hne] at h
    cases h
  rw [List.take_append, List.map_append] at hword
  have hover : rest.take (w.length - z.length) = [] := by
    cases rest with
    | nil => exact List.take_nil
    | cons b rest =>
      cases hn : w.length - z.length with
      | zero => exact List.take_zero
      | succ n =>
        -- The word would go on with what follows the letters, but it has only letters itself.
        have hb : Ascii.lower b ∈ w.map Char.toUInt8 := by
          rw [← hword, hn, List.take_succ_cons, List.map_cons]
          exact List.mem_append_right _ List.mem_cons_self
        obtain ⟨c, hc, hlower⟩ := List.mem_map.mp hb
        have hletter := Ascii.isLetter_of_lower (hlower ▸ hw c hc)
        rw [hrest b rfl] at hletter
        cases hletter
  rw [hover, List.map_nil, List.append_nil, List.map_take] at hword
  exact hword ▸ List.take_prefix w.length _

end Reader

namespace DateTime

/-- The American zones, and by how many hours they are ahead of universal time. -/
def americanZones : List (Bytes × Int) :=
  [(Utf8.encode "edt", -4), (Utf8.encode "est", -5), (Utf8.encode "cdt", -5),
    (Utf8.encode "cst", -6), (Utf8.encode "mdt", -6), (Utf8.encode "mst", -7),
    (Utf8.encode "pdt", -7), (Utf8.encode "pst", -8)]

/-- By how many hours the zone of a name, in any letter case, is ahead of universal time.  All zones
but the American ones are universal time. -/
def zoneHours (z : Bytes) : Int :=
  (americanZones.lookup (z.map Ascii.lower)).getD 0

/-- A zone is told by letters. -/
def IsWord (z : Bytes) : Prop :=
  z ≠ [] ∧ ∀ b ∈ z, Ascii.isLetter b = true

theorem zoneHours_of_forall {z : Bytes} (h : ∀ e ∈ americanZones, z.map Ascii.lower ≠ e.1) :
    zoneHours z = 0 := by
  have hnone : americanZones.lookup (z.map Ascii.lower) = none :=
    List.lookup_eq_none_iff.mpr fun e he => bne_iff_ne.mpr (h e he)
  rw [zoneHours, hnone, Option.getD_none]

/-- The names of American zones have three letters. -/
theorem zoneHours_of_length {z : Bytes} (h : z.length ≠ 3) : zoneHours z = 0 := by
  have hlengths : ∀ e ∈ americanZones, e.1.length = 3 := by decide
  refine zoneHours_of_forall fun e he heq => h ?_
  rw [← hlengths e he, ← heq, List.length_map]

/-- No zone is more than a day from universal time. -/
theorem zoneHours_bounds (z : Bytes) : -24 < zoneHours z ∧ zoneHours z < 24 := by
  have hbounds : ∀ e ∈ americanZones, -24 < e.2 ∧ e.2 < 24 := by decide
  unfold zoneHours
  cases h : americanZones.lookup (z.map Ascii.lower) with
  | none => decide
  | some hours =>
    obtain ⟨l, l', heq, _⟩ := List.lookup_eq_some_iff.mp h
    refine hbounds (z.map Ascii.lower, hours) ?_
    rw [heq]
    exact List.mem_append_right l List.mem_cons_self

/-- No name in the table is the start of another. -/
theorem eq_of_isPrefix {e e' : List Char × Int} (he : e ∈ zoneNames) (he' : e' ∈ zoneNames)
    (h : e.1.map Char.toUInt8 <+: e'.1.map Char.toUInt8) : e = e' := by
  have hall : ∀ e ∈ zoneNames, ∀ e' ∈ zoneNames,
      e.1.map Char.toUInt8 <+: e'.1.map Char.toUInt8 → e = e' := by decide
  exact hall e he e' he' h

/-- A word that begins with a name in the table has the offset of that name in its first three
letters. -/
theorem zoneHours_of_isPrefix {e : List Char × Int} (he : e ∈ zoneNames) {z : Bytes}
    (h : e.1.map Char.toUInt8 <+: z.map Ascii.lower) : zoneHours (z.take 3) = e.2 := by
  have hall : ∀ e ∈ zoneNames, e = (['u', 't'], 0) ∨ (e.1.map Char.toUInt8).length = 3 ∧
      (americanZones.lookup (e.1.map Char.toUInt8)).getD 0 = e.2 := by decide
  obtain ⟨t, ht⟩ := h
  rw [zoneHours, List.map_take, ← ht]
  rcases hall e he with rfl | ⟨hlength, hlookup⟩
  · -- Universal time has two letters, and no American zone begins with them.
    cases t <;> rfl
  · rw [List.take_left' hlength, hlookup]

/-- A word that begins with no name in the table is not American in its first three letters. -/
theorem zoneHours_of_not_isPrefix {z : Bytes}
    (h : ∀ e ∈ zoneNames, ¬e.1.map Char.toUInt8 <+: z.map Ascii.lower) :
    zoneHours (z.take 3) = 0 := by
  have htable : ∀ e ∈ americanZones, ∃ e' ∈ zoneNames, e'.1.map Char.toUInt8 = e.1 := by
    decide
  refine zoneHours_of_forall fun e he heq => ?_
  obtain ⟨e', he', hname⟩ := htable e he
  refine h e' he' ?_
  rw [hname, ← heq, List.map_take]
  exact List.take_prefix 3 _

/-- The table is searched for the names that a word begins with. -/
theorem named_word {z rest : Bytes} (hrest : ∀ b ∈ rest.head?, Ascii.isLetter b = false) :
    (∃ r, named zoneNames (z ++ rest) = some (zoneHours (z.take 3), r)) ∨
      named zoneNames (z ++ rest) = none ∧ zoneHours (z.take 3) = 0 := by
  have hletters : ∀ e ∈ zoneNames, ∀ c ∈ e.1, Ascii.isLetter c.toUInt8 = true := by decide
  have hstart : ∀ e ∈ zoneNames, (Reader.anyCase e.1 (z ++ rest)).isSome →
      e.1.map Char.toUInt8 <+: z.map Ascii.lower :=
    fun e he => Reader.isPrefix_of_anyCase (hletters e he) hrest
  by_cases hany : ∃ e ∈ zoneNames, e.1.map Char.toUInt8 <+: z.map Ascii.lower
  · obtain ⟨⟨w, hours⟩, he, h⟩ := hany
    refine .inl ⟨z.drop w.length ++ rest, ?_⟩
    rw [zoneHours_of_isPrefix he h]
    refine named_of_mem he (Reader.anyCase_of_isPrefix h rest) fun e' he' hsome => ?_
    -- Of two names that the word begins with, one would begin with the other.
    rcases List.prefix_or_prefix_of_prefix h (hstart e' he' hsome) with hle | hle
    · exact (eq_of_isPrefix he he' hle).symm
    · exact eq_of_isPrefix he' he hle
  · have hnone : ∀ e ∈ zoneNames, ¬e.1.map Char.toUInt8 <+: z.map Ascii.lower :=
      fun e he h => hany ⟨e, he, h⟩
    refine .inr ⟨?_, zoneHours_of_not_isPrefix hnone⟩
    refine List.findSome?_eq_none_iff.mpr fun e he => ?_
    rw [Option.map_eq_none_iff, ← Option.not_isSome_iff_eq_none]
    exact fun hsome => hnone e he (hstart e he hsome)

/-- A word is read as the zone that its first three letters name. -/
theorem zone_word {z rest : Bytes} (hz : IsWord z)
    (hrest : ∀ b ∈ rest.head?, Ascii.isLetter b = false) :
    ∃ r, zone (z ++ rest) = some (3600 * zoneHours (z.take 3), r) := by
  obtain ⟨b, w, rfl⟩ := List.exists_cons_of_ne_nil hz.1
  have hb : Ascii.isLetter b = true := hz.2 b List.mem_cons_self
  have hplus : b ≠ '+'.toUInt8 := by
    rintro rfl
    cases hb
  have hminus : b ≠ '-'.toUInt8 := by
    rintro rfl
    cases hb
  have hnumeric : numericZone (b :: (w ++ rest)) = none := by
    rw [numericZone, if_neg hplus, if_neg hminus]
  rcases named_word (z := b :: w) hrest with ⟨r, hnamed⟩ | ⟨hnamed, hhours⟩
  · refine ⟨r, ?_⟩
    rw [List.cons_append] at hnamed ⊢
    rw [zone, Reader.orElse, hnumeric]
    dsimp only
    rw [Reader.orElse, namedZone, hnamed, Int.mul_comm]
    rfl
  · have hatom := Word.isAtomByte_of_isLetter hb
    refine ⟨(b :: (w ++ rest)).dropWhile Word.isAtomByte, ?_⟩
    rw [List.cons_append] at hnamed ⊢
    rw [hhours, zone, Reader.orElse, hnumeric]
    dsimp only
    rw [Reader.orElse, namedZone, hnamed, Option.map_none]
    dsimp only
    rw [otherZone, List.span_eq_takeWhile_dropWhile, List.takeWhile_cons_of_pos hatom]
    rfl

/-- A date-time with a word for its zone is read in the zone that the first three letters of the
word name.  That is the zone that the word names if there are no more letters, and else if that zone
is universal time. -/
theorem parse_zoneWord {value z rest : Bytes} {date : CalendarDate} {hour minute second : Nat}
    (hstem : stem value = some ((date, hour, minute, second), z ++ rest)) (hz : IsWord z)
    (hrest : ∀ b ∈ rest.head?, Ascii.isLetter b = false)
    (hvalid : (⟨date, hour, minute, second, 0⟩ : DateTime).IsValid) :
    parse value = some ⟨date, hour, minute, second, 3600 * zoneHours (z.take 3)⟩ ∧
      (parse value = some ⟨date, hour, minute, second, 3600 * zoneHours z⟩ ↔
        z.length ≤ 3 ∨ zoneHours (z.take 3) = 0) := by
  have hparse : parse value = some ⟨date, hour, minute, second, 3600 * zoneHours (z.take 3)⟩ := by
    obtain ⟨r, hzone⟩ := zone_word hz hrest
    obtain ⟨hdate, hhour, hminute, hsecond, _⟩ := hvalid
    obtain ⟨hlow, hhigh⟩ := zoneHours_bounds (z.take 3)
    have hoffset : (⟨date, hour, minute, second, 3600 * zoneHours (z.take 3)⟩ : DateTime).IsValid :=
      ⟨hdate, hhour, hminute, hsecond, by dsimp only; omega, by dsimp only; omega⟩
    rw [parse, reader_eq_stem, hstem, Option.bind_some]
    dsimp only
    rw [token, hzone]
    exact if_pos hoffset
  refine ⟨hparse, ?_⟩
  rw [hparse, Option.some.injEq, DateTime.mk.injEq]
  constructor
  · rintro ⟨-, -, -, -, heq⟩
    by_cases hlength : z.length ≤ 3
    · exact .inl hlength
    · have hzero : zoneHours z = 0 := zoneHours_of_length (by omega)
      exact .inr (by omega)
  · intro h
    have heq : zoneHours (z.take 3) = zoneHours z := by
      by_cases hlength : z.length ≤ 3
      · rw [List.take_of_length_le hlength]
      · rw [h.resolve_left hlength, zoneHours_of_length (by omega)]
    exact ⟨rfl, rfl, rfl, rfl, by rw [heq]⟩

/-- A date-time on two lines, in Pacific daylight time. -/
theorem parse_zoneWord_pacific :
    stem (Utf8.encode "Thu,\r\n 13 (x) Feb 2020 10:00:01 pDt (x)")
        = some ((⟨2020, 2, 13⟩, 10, 0, 1), Utf8.encode "pDt" ++ Utf8.encode " (x)") ∧
      parse (Utf8.encode "Thu,\r\n 13 (x) Feb 2020 10:00:01 pDt (x)")
        = some ⟨⟨2020, 2, 13⟩, 10, 0, 1, -25200⟩ := by
  have hstem : stem (Utf8.encode "Thu,\r\n 13 (x) Feb 2020 10:00:01 pDt (x)")
      = some ((⟨2020, 2, 13⟩, 10, 0, 1), Utf8.encode "pDt" ++ Utf8.encode " (x)") := by
    decide +kernel
  have hword : IsWord (Utf8.encode "pDt") := ⟨by decide, by decide⟩
  have hparse := (parse_zoneWord hstem hword (by decide) (by decide)).1
  exact ⟨hstem, hparse.trans (by decide)⟩

/-- A word that begins like the name of Eastern standard time is read as it, and names no zone. -/
theorem not_universal_eastern :
    zoneHours (Utf8.encode "ESTX") = 0 ∧
      parse (Utf8.encode "Mon, 7 Feb 1994 21:52:25 ESTX")
        = some ⟨⟨1994, 2, 7⟩, 21, 52, 25, -18000⟩ := by
  constructor <;> decide +kernel

end DateTime

end ImapMessage
