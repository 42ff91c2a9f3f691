/-
# UTF-16 is canonical

Characters are determined by their units and units by their bytes: well-formed units are those
that writing produces.

Key constructions:
* `Utf16.scan_units`, `Utf16.eq_units_of_scan`: units of a text and characters of units.
* `Utf16.ofBigEndian_bigEndian`, `Utf16.eq_bigEndian_of_ofBigEndian`: units and their bytes.
-/
import ImapMessage.Text.Utf16
import Mathlib.Tactic.SplitIfs

namespace ImapMessage

namespace Utf16

/-! ## Units and their codes -/

/-- A code below 65536 is that of its unit. -/
theorem toNat_toUInt16 {n : Nat} (h : n < 65536) : n.toUInt16.toNat = n :=
  UInt16.toNat_ofNat_of_lt' h

/-- A unit is determined by its code. -/
theorem toUInt16_eq_of_eq {n : Nat} {u : UInt16} (h : n = u.toNat) : n.toUInt16 = u := by
  subst h
  exact UInt16.ofNat_toNat

/-- Lead surrogates by their codes. -/
theorem isLead_iff (u : UInt16) : isLead u = true ↔ 0xD800 ≤ u.toNat ∧ u.toNat ≤ 0xDBFF := by
  simp only [isLead, Bool.and_eq_true, decide_eq_true_eq, UInt16.le_iff_toNat_le]
  rfl

/-- Trail surrogates by their codes. -/
theorem isTrail_iff (u : UInt16) : isTrail u = true ↔ 0xDC00 ≤ u.toNat ∧ u.toNat ≤ 0xDFFF := by
  simp only [isTrail, Bool.and_eq_true, decide_eq_true_eq, UInt16.le_iff_toNat_le]
  rfl

/-- A valid code point is that of its character. -/
theorem toNat_ofNat_of_isValidChar {n : Nat} (h : n.isValidChar) : (Char.ofNat n).toNat = n := by
  rw [Char.ofNat, dif_pos h]
  exact UInt32.toNat_ofNatLT

/-- A unit that is no surrogate stands for the character with its code. -/
theorem single_eq_some_iff (u : UInt16) (c : Char) :
    single u = some c ↔ c.toNat = u.toNat := by
  have hu := u.toNat_lt
  have hc := c.valid
  change c.toNat.isValidChar at hc
  unfold single
  constructor
  · intro h
    split_ifs at h with hs
    rw [Bool.or_eq_true, isLead_iff, isTrail_iff] at hs
    cases h
    exact toNat_ofNat_of_isValidChar (by unfold Nat.isValidChar; omega)
  · intro h
    have hs : ¬ (isLead u || isTrail u) = true := by
      rw [Bool.or_eq_true, isLead_iff, isTrail_iff]
      unfold Nat.isValidChar at hc
      omega
    rw [if_neg hs, ← h, Char.ofNat_toNat]

/-- The code point of a pair. -/
theorem toNat_paired {u v : UInt16} (hu : isLead u = true) (hv : isTrail v = true) :
    (paired u v).toNat = 0x10000 + (u.toNat - 0xD800) * 0x400 + (v.toNat - 0xDC00) := by
  rw [isLead_iff] at hu
  rw [isTrail_iff] at hv
  exact toNat_ofNat_of_isValidChar (by unfold Nat.isValidChar; omega)

/-! ## Characters and their units -/

/-- The unit of a character below U+10000. -/
theorem unitsOfChar_of_single {u : UInt16} {c : Char} (h : single u = some c) :
    unitsOfChar c = [u] := by
  rw [single_eq_some_iff] at h
  have hu := u.toNat_lt
  rw [unitsOfChar, if_pos (by omega), toUInt16_eq_of_eq h]

/-- The units of a character of a pair. -/
theorem unitsOfChar_paired {u v : UInt16} (hu : isLead u = true) (hv : isTrail v = true) :
    unitsOfChar (paired u v) = [u, v] := by
  have hpair := toNat_paired hu hv
  rw [isLead_iff] at hu
  rw [isTrail_iff] at hv
  have hlead : (0xD800 + ((paired u v).toNat - 0x10000) / 0x400).toUInt16 = u :=
    toUInt16_eq_of_eq (by omega)
  have htrail : (0xDC00 + ((paired u v).toNat - 0x10000) % 0x400).toUInt16 = v :=
    toUInt16_eq_of_eq (by omega)
  rw [unitsOfChar, if_neg (by omega), hlead, htrail]

/-- A character is a unit or a pair. -/
theorem unitsOfChar_cases (c : Char) :
    (∃ u, unitsOfChar c = [u] ∧ single u = some c) ∨
      ∃ u v, unitsOfChar c = [u, v] ∧ isLead u = true ∧ isTrail v = true ∧ paired u v = c := by
  have hc : c.toNat.isValidChar := c.valid
  by_cases hlow : c.toNat < 0x10000
  · -- characters are no surrogates, so this unit stands for itself
    left
    refine ⟨c.toNat.toUInt16, by rw [unitsOfChar, if_pos hlow], ?_⟩
    rw [single_eq_some_iff, toNat_toUInt16 hlow]
  · right
    unfold Nat.isValidChar at hc
    have hlead : (0xD800 + (c.toNat - 0x10000) / 0x400).toUInt16.toNat
        = 0xD800 + (c.toNat - 0x10000) / 0x400 := toNat_toUInt16 (by omega)
    have htrail : (0xDC00 + (c.toNat - 0x10000) % 0x400).toUInt16.toNat
        = 0xDC00 + (c.toNat - 0x10000) % 0x400 := toNat_toUInt16 (by omega)
    refine ⟨_, _, by rw [unitsOfChar, if_neg hlow], ?_, ?_, ?_⟩
    · rw [isLead_iff, hlead]
      omega
    · rw [isTrail_iff, htrail]
      omega
    · rw [paired, hlead, htrail]
      have hcode : 0x10000 + (0xD800 + (c.toNat - 0x10000) / 0x400 - 0xD800) * 0x400
          + (0xDC00 + (c.toNat - 0x10000) % 0x400 - 0xDC00) = c.toNat := by omega
      rw [hcode, Char.ofNat_toNat]

/-- A unit that is no surrogate is read by itself, whatever follows. -/
theorem scan_cons_of_single {u : UInt16} {c : Char} (h : single u = some c) (us : List UInt16) :
    scan (u :: us) = some c :: scan us := by
  cases us with
  | nil => rw [scan_singleton, scan_nil, h]
  | cons v us =>
    have hlead : ¬ (isLead u && isTrail v) = true := by
      intro hpair
      rw [Bool.and_eq_true] at hpair
      rw [single, hpair.1] at h
      cases h
    rw [scan_cons_cons, if_neg hlead, h]

/-- The units of a text are read as its characters. -/
theorem scan_units (cs : List Char) : scan (units cs) = cs.map some := by
  induction cs with
  | nil => exact scan_nil
  | cons c cs ih =>
    rw [units, List.flatMap_cons, ← units, List.map_cons, ← ih]
    rcases unitsOfChar_cases c with ⟨u, hunits, hsingle⟩ | ⟨u, v, hunits, hlead, htrail, hpair⟩
    · rw [hunits, List.singleton_append, scan_cons_of_single hsingle]
    · rw [hunits, List.cons_append, List.singleton_append, scan_cons_cons, hlead, htrail, hpair]
      rfl

/-- Units that are read as the characters of a text, without an unpaired surrogate, are the
units of the text. -/
theorem eq_units_of_scan {us : List UInt16} {cs : List Char} (h : scan us = cs.map some) :
    us = units cs := by
  -- A pair takes two units at once, so the induction is on the number of units.
  induction hn : us.length using Nat.strongRecOn generalizing us cs with
  | ind n ih =>
    match us with
    | [] =>
      rw [scan_nil] at h
      rw [List.map_eq_nil_iff.mp h.symm]
      rfl
    | [u] =>
      rw [scan_singleton] at h
      obtain ⟨c, cs', rfl, hc, hcs'⟩ := List.map_eq_cons_iff.mp h.symm
      rw [List.map_eq_nil_iff.mp hcs', units, List.flatMap_cons,
        unitsOfChar_of_single hc.symm]
      rfl
    | u :: v :: rest =>
      rw [scan_cons_cons] at h
      split_ifs at h with hpair
      · obtain ⟨c, cs', rfl, hc, hcs'⟩ := List.map_eq_cons_iff.mp h.symm
        rw [Bool.and_eq_true] at hpair
        have hrest : rest = units cs' := ih _ (by simp at hn; omega) hcs'.symm rfl
        rw [units, List.flatMap_cons, ← units, Option.some.inj hc,
          unitsOfChar_paired hpair.1 hpair.2, ← hrest]
        rfl
      · obtain ⟨c, cs', rfl, hc, hcs'⟩ := List.map_eq_cons_iff.mp h.symm
        have hrest : v :: rest = units cs' := ih _ (by simp at hn ⊢; omega) hcs'.symm rfl
        rw [units, List.flatMap_cons, ← units, unitsOfChar_of_single hc.symm, ← hrest]
        rfl

/-! ## Units and their bytes -/

/-- The first two bytes are the first unit. -/
theorem ofBigEndian_cons_cons (a b : UInt8) (s : Bytes) :
    ofBigEndian (a :: b :: s) =
      ((a.toNat * 256 + b.toNat).toUInt16 :: (ofBigEndian s).1, (ofBigEndian s).2) := by
  rw [ofBigEndian, pairsFrom, pairsFrom_eq]
  rfl

/-- Bytes of units are read back. -/
theorem ofBigEndian_bigEndian (us : List UInt16) : ofBigEndian (bigEndian us) = (us, none) := by
  induction us with
  | nil => rfl
  | cons u us ih =>
    have hu := u.toNat_lt
    have hhigh : (u.toNat / 256).toUInt8.toNat = u.toNat / 256 := toNat_toUInt8 (by omega)
    have hlow : (u.toNat % 256).toUInt8.toNat = u.toNat % 256 := toNat_toUInt8 (by omega)
    have hunit : (u.toNat / 256 * 256 + u.toNat % 256).toUInt16 = u :=
      toUInt16_eq_of_eq (by omega)
    rw [bigEndian, List.flatMap_cons, ← bigEndian, bytesOfUnit, List.cons_append,
      List.singleton_append, ofBigEndian_cons_cons, ih, hhigh, hlow, hunit]

/-- Bytes that are read as units, with none left over, are the bytes of the units. -/
theorem eq_bigEndian_of_ofBigEndian : ∀ {s : Bytes} {us : List UInt16},
    ofBigEndian s = (us, none) → s = bigEndian us
  | [], us, h => by
    cases h
    rfl
  | [_], us, h => by
    cases h
  | a :: b :: s, us, h => by
    have ha := a.toNat_lt
    have hb := b.toNat_lt
    rw [ofBigEndian_cons_cons] at h
    obtain ⟨rfl, hnone⟩ := Prod.mk.injEq .. ▸ h
    have hs : s = bigEndian (ofBigEndian s).1 :=
      eq_bigEndian_of_ofBigEndian (Prod.ext rfl hnone)
    have hunit : (a.toNat * 256 + b.toNat).toUInt16.toNat = a.toNat * 256 + b.toNat :=
      toNat_toUInt16 (by omega)
    have hhigh : ((a.toNat * 256 + b.toNat) / 256).toUInt8 = a := toUInt8_eq_of_eq (by omega)
    have hlow : ((a.toNat * 256 + b.toNat) % 256).toUInt8 = b := toUInt8_eq_of_eq (by omega)
    rw [bigEndian, List.flatMap_cons, ← bigEndian, ← hs, bytesOfUnit, hunit, hhigh, hlow]
    rfl

end Utf16

end ImapMessage
