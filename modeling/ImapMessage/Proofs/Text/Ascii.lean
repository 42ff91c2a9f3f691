/-
# Characters and digits of ASCII

A byte is written as two hexadecimal digits, each of them in upper or in lower case, and a number as
decimal digits, as many as there is room for.  Both are read back, and nothing else is a pair of
hexadecimal digits.

Key constructions:
* `decidableForallMem`: deciding what is said of all members of a list.
* `Ascii.toUInt8_ofNat_toNat`, `Ascii.isAlphanum_iff`: characters and their codes.
* `Ascii.lowerName_lowerName`, `Ascii.lowerName_upperName`: names in lower and in upper case.
* `Ascii.hexDigit`, `Ascii.IsHexPair`: hexadecimal digits.
* `Ascii.hexByte_eq_some_iff`: which pairs of bytes are read as a byte.
* `Ascii.decimalDigits`: decimal digits, with zeros in front.
* `Ascii.decimal_append_decimalDigits`: the number that is read from them, behind other digits.
-/
import ImapMessage.Text.Bytes
import Mathlib.Algebra.Group.Nat.Defs

namespace ImapMessage

/-! ## Deciding

There are finitely many bytes and characters, and so all of them could be tried where something is
said of the members of a list.  It is decided member by member instead. -/

instance (priority := 2000) decidableForallMem {α : Type} (P : α → Prop) [DecidablePred P]
    (xs : List α) : Decidable (∀ x ∈ xs, P x) :=
  List.decidableBAll P xs

instance (priority := 2000) decidableForallMemOption {α : Type} (P : α → Prop) [DecidablePred P]
    (x? : Option α) : Decidable (∀ x ∈ x?, P x) :=
  Option.decidableForallMem x?

namespace Ascii

/-! ## Characters -/

/-- The code of the character of a byte. -/
theorem toNat_ofNat_toNat (b : UInt8) : (Char.ofNat b.toNat).toNat = b.toNat := by
  have hb := b.toNat_lt
  have hvalid : b.toNat.isValidChar := by
    unfold Nat.isValidChar
    omega
  rw [Char.ofNat, dif_pos hvalid]
  exact UInt32.toNat_ofNatLT

/-- The byte of the character of a byte. -/
theorem toUInt8_ofNat_toNat (b : UInt8) : (Char.ofNat b.toNat).toUInt8 = b := by
  rw [← UInt8.toNat_inj]
  show (Char.ofNat b.toNat).toNat % 2 ^ 8 = b.toNat
  rw [toNat_ofNat_toNat]
  exact Nat.mod_eq_of_lt b.toNat_lt

/-- Letters and digits of ASCII by their codes. -/
theorem isAlphanum_iff (c : Char) :
    c.isAlphanum = true ↔
      ((65 ≤ c.toNat ∧ c.toNat ≤ 90) ∨ (97 ≤ c.toNat ∧ c.toNat ≤ 122))
        ∨ (48 ≤ c.toNat ∧ c.toNat ≤ 57) := by
  have hclasses : c.isAlphanum =
      ((decide ('A'.val ≤ c.val ∧ c.val ≤ 'Z'.val)
        || (decide ('a'.val ≤ c.val) && decide (c.val ≤ 'z'.val)))
        || (decide ('0'.val ≤ c.val) && decide (c.val ≤ '9'.val))) := rfl
  rw [hclasses]
  simp only [Bool.or_eq_true, Bool.and_eq_true, decide_eq_true_eq, UInt32.le_iff_toNat_le]
  exact Iff.rfl

/-- Only upper-case letters have a lower case of their own. -/
theorem toLower_eq_self_or (c : Char) : c.toLower = c ∨ 65 ≤ c.toNat ∧ c.toNat ≤ 90 := by
  by_cases hc : 65 ≤ c.toNat ∧ c.toNat ≤ 90
  · exact .inr hc
  · refine .inl (dif_neg ?_)
    rintro ⟨hlow, hhigh⟩
    exact hc ⟨UInt32.le_iff_toNat_le.mp hlow, UInt32.le_iff_toNat_le.mp hhigh⟩

/-- What is in lower case is kept. -/
theorem toLower_toLower (c : Char) : c.toLower.toLower = c.toLower := by
  rcases toLower_eq_self_or c with h | h
  · rw [h, h]
  · have hall : ∀ n < 91, (Char.ofNat n).toLower.toLower = (Char.ofNat n).toLower := by decide
    have hc := hall c.toNat (by omega)
    rwa [Char.ofNat_toNat] at hc

/-- Only letters are different in lower case. -/
theorem eq_of_toLower_eq {c d : Char} (hd : d.isAlphanum = false) (h : c.toLower = d) : c = d := by
  rcases toLower_eq_self_or c with heq | hletter
  · rw [← heq, h]
  · have hall : ∀ n < 91, 65 ≤ n → (Char.ofNat n).toLower.isAlphanum = true := by decide
    have hlower := hall c.toNat (by omega) hletter.1
    rw [Char.ofNat_toNat, h, hd] at hlower
    cases hlower

theorem lowerName_lowerName (s : String) : lowerName (lowerName s) = lowerName s := by
  have hlower : Char.toLower ∘ Char.toLower = Char.toLower := funext toLower_toLower
  rw [lowerName, lowerName, String.toList_ofList, List.map_map, hlower]

theorem sameName_iff (a b : String) : sameName a b = true ↔ lowerName a = lowerName b :=
  beq_iff_eq

/-- Names are compared alike in lower case. -/
theorem sameName_lowerName (a b : String) : sameName (lowerName a) b = sameName a b := by
  rw [sameName, sameName, lowerName_lowerName]

/-- Only lower-case letters have an upper case of their own. -/
theorem toUpper_eq_self_or (c : Char) : c.toUpper = c ∨ 97 ≤ c.toNat ∧ c.toNat ≤ 122 := by
  by_cases hc : 97 ≤ c.toNat ∧ c.toNat ≤ 122
  · exact .inr hc
  · refine .inl (dif_neg ?_)
    rintro ⟨hlow, hhigh⟩
    exact hc ⟨UInt32.le_iff_toNat_le.mp hlow, UInt32.le_iff_toNat_le.mp hhigh⟩

theorem toLower_toUpper (c : Char) : c.toUpper.toLower = c.toLower := by
  rcases toUpper_eq_self_or c with h | h
  · rw [h]
  · have hall : ∀ n < 123, (Char.ofNat n).toUpper.toLower = (Char.ofNat n).toLower := by decide
    have hc := hall c.toNat (by omega)
    rwa [Char.ofNat_toNat] at hc

/-- A name is the same in lower case if it was in upper case before. -/
theorem lowerName_upperName (s : String) : lowerName (upperName s) = lowerName s := by
  have hlower : Char.toLower ∘ Char.toUpper = Char.toLower := funext toLower_toUpper
  rw [lowerName, lowerName, upperName, String.toList_ofList, List.map_map, hlower]

/-- In upper case a name has no characters of its own that are not letters. -/
theorem mem_of_mem_upperName {c : Char} (hc : c.isAlphanum = false) {s : String}
    (h : c ∈ (upperName s).toList) : c ∈ s.toList := by
  rw [upperName, String.toList_ofList, List.mem_map] at h
  obtain ⟨d, hd, rfl⟩ := h
  rcases toUpper_eq_self_or d with heq | hletter
  · rwa [heq]
  · have hall : ∀ n < 123, 97 ≤ n → (Char.ofNat n).toUpper.isAlphanum = true := by decide
    have hupper := hall d.toNat (by omega) hletter.1
    rw [Char.ofNat_toNat, hc] at hupper
    cases hupper

/-- What is a letter in lower case is a letter. -/
theorem isLetter_of_lower {b : UInt8} (h : isLetter (lower b) = true) : isLetter b = true := by
  unfold lower at h
  split at h
  · next hupper => rw [isLetter, hupper, Bool.true_or]
  · exact h

/-! ## Hexadecimal digits -/

/-- The hexadecimal digit for a value below 16. -/
def hexDigit (upper : Bool) (n : Nat) : UInt8 :=
  if n < 10 then (48 + n).toUInt8 else if upper then (55 + n).toUInt8 else (87 + n).toUInt8

/-- A byte is written as two hexadecimal digits, each in either case. -/
def IsHexPair (x high low : UInt8) : Prop :=
  (∃ upper, high = hexDigit upper (x.toNat / 16)) ∧ ∃ upper, low = hexDigit upper (x.toNat % 16)

theorem hexValue_hexDigit {upper : Bool} {n : Nat} (hn : n < 16) :
    hexValue (hexDigit upper n) = some n.toUInt8 := by
  have hall : ∀ upper, ∀ n < 16, hexValue (hexDigit upper n) = some n.toUInt8 := by decide
  exact hall upper n hn

/-- Only the digits for a value have it. -/
theorem exists_of_hexValue {b v : UInt8} (h : hexValue b = some v) :
    v.toNat < 16 ∧ ∃ upper, b = hexDigit upper v.toNat := by
  have hall : ∀ n < 256, ∀ v ∈ hexValue n.toUInt8,
      v.toNat < 16 ∧ (n.toUInt8 = hexDigit true v.toNat ∨ n.toUInt8 = hexDigit false v.toNat) := by
    decide +kernel
  have hb : b.toNat.toUInt8 = b := UInt8.ofNat_toNat
  obtain ⟨hv, hdigit⟩ := hall b.toNat b.toNat_lt v (by rw [hb, h]; rfl)
  rw [hb] at hdigit
  exact ⟨hv, hdigit.elim (fun h => ⟨true, h⟩) fun h => ⟨false, h⟩⟩

/-- Two bytes are read as a byte if and only if they write it. -/
theorem hexByte_eq_some_iff {x high low : UInt8} :
    hexByte high low = some x ↔ IsHexPair x high low := by
  have htoNat : ∀ h l : UInt8, h.toNat < 16 → l.toNat < 16 →
      (h * 16 + l).toNat = 16 * h.toNat + l.toNat := by
    intro h l hh hl
    rw [UInt8.toNat_add, UInt8.toNat_mul]
    simp only [UInt8.reduceToNat]
    omega
  constructor
  · intro h
    simp only [hexByte, Option.bind_eq_bind, Option.pure_def, Option.bind_eq_some_iff,
      Option.some.injEq] at h
    obtain ⟨h, hhigh, l, hlow, rfl⟩ := h
    obtain ⟨hh, upper, rfl⟩ := exists_of_hexValue hhigh
    obtain ⟨hl, upper', rfl⟩ := exists_of_hexValue hlow
    refine ⟨⟨upper, ?_⟩, upper', ?_⟩
    · rw [htoNat h l hh hl, show (16 * h.toNat + l.toNat) / 16 = h.toNat by omega]
    · rw [htoNat h l hh hl, show (16 * h.toNat + l.toNat) % 16 = l.toNat by omega]
  · rintro ⟨⟨upper, rfl⟩, upper', rfl⟩
    have hx := x.toNat_lt
    have hh : (x.toNat / 16).toUInt8.toNat = x.toNat / 16 := toNat_toUInt8 (by omega)
    have hl : (x.toNat % 16).toUInt8.toNat = x.toNat % 16 := toNat_toUInt8 (by omega)
    have hvalue : (x.toNat / 16).toUInt8 * 16 + (x.toNat % 16).toUInt8 = x := by
      rw [← UInt8.toNat_inj, htoNat _ _ (by omega) (by omega), hh, hl]
      omega
    rw [hexByte, hexValue_hexDigit (by omega), hexValue_hexDigit (by omega)]
    exact congrArg some hvalue

/-! ## Decimal digits -/

/-- So many decimal digits of a number, with zeros in front where it has fewer. -/
def decimalDigits : (width n : Nat) → Bytes
  | 0, _ => []
  | width + 1, n => decimalDigits width (n / 10) ++ [(48 + n % 10).toUInt8]

@[simp] theorem length_decimalDigits (width n : Nat) : (decimalDigits width n).length = width := by
  induction width generalizing n with
  | zero => rfl
  | succ width ih => rw [decimalDigits, List.length_append, ih, List.length_singleton]

theorem isDigit_of_mem_decimalDigits {width n : Nat} {b : UInt8} (hb : b ∈ decimalDigits width n) :
    isDigit b = true := by
  induction width generalizing n with
  | zero => cases hb
  | succ width ih =>
    rw [decimalDigits, List.mem_append, List.mem_singleton] at hb
    rcases hb with hb | rfl
    · exact ih hb
    · have hall : ∀ d < 10, isDigit (48 + d).toUInt8 = true := by decide
      exact hall (n % 10) (Nat.mod_lt n (by decide))

theorem decimal_concat (s : Bytes) (b : UInt8) :
    decimal (s ++ [b]) = 10 * decimal s + (b.toNat - 48) := by
  rw [decimal, List.foldl_append]
  rfl

/-- Digits behind others are worth less than those. -/
theorem decimal_append_decimalDigits (s : Bytes) (width n : Nat) :
    decimal (s ++ decimalDigits width n) = decimal s * 10 ^ width + n % 10 ^ width := by
  induction width generalizing n with
  | zero =>
    rw [decimalDigits, List.append_nil, Nat.pow_zero, Nat.mod_one, Nat.mul_one, Nat.add_zero]
  | succ width ih =>
    have hdigit : (48 + n % 10).toUInt8.toNat = 48 + n % 10 := toNat_toUInt8 (by omega)
    rw [decimalDigits, ← List.append_assoc, decimal_concat, ih, hdigit, Nat.pow_succ,
      Nat.mul_comm (10 ^ width), Nat.mod_mul, Nat.mul_left_comm]
    omega

/-- The digits of a number are read back, as far as there is room for them. -/
theorem decimal_decimalDigits (width n : Nat) :
    decimal (decimalDigits width n) = n % 10 ^ width := by
  have happend := decimal_append_decimalDigits [] width n
  rwa [List.nil_append, show decimal [] = 0 from rfl, Nat.zero_mul, Nat.zero_add] at happend

end Ascii

end ImapMessage
