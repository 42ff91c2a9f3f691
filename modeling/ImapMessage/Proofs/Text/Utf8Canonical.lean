/-
# UTF-8 is canonical

Every character has one written form, and reading accepts nothing else: bytes that are read as a
text are those that writing the text produces.

Key constructions:
* `Utf8.encodeChar_of_lt_two` and its siblings: the written forms of one to four bytes.
* `Utf8.toUInt8_mem_encode_iff`: the bytes of ASCII in a written text.
* `Utf8.next_encodeChar`, `Utf8.eq_encodeChar_of_next`: one character, written and read.
* `Utf8.decode?_eq_some_iff`: texts.
-/
import ImapMessage.Proofs.Text.Utf16Canonical
import ImapMessage.Text.Utf8

namespace ImapMessage

namespace Utf8

/-! ## Written forms -/

/-- The form of one byte. -/
theorem encodeChar_of_lt_two {c : Char} (h : c.toNat < 0x80) :
    encodeChar c = [c.toNat.toUInt8] := by
  have h1 : c.val.toNat ≤ 0x7F := Nat.le_of_lt_succ h
  rw [encodeChar, String.utf8EncodeChar, if_pos h1]
  rfl

/-- The form of two bytes. -/
theorem encodeChar_of_lt_three {c : Char} (h : 0x80 ≤ c.toNat) (h' : c.toNat < 0x800) :
    encodeChar c = [(0xC0 + c.toNat / 64).toUInt8, (0x80 + c.toNat % 64).toUInt8] := by
  have h1 : ¬ c.val.toNat ≤ 0x7F := Nat.not_le.mpr h
  have h2 : c.val.toNat ≤ 0x7FF := Nat.le_of_lt_succ h'
  have hlead : c.val.toNat / 64 % 0x20 = c.val.toNat / 64 := by omega
  rw [encodeChar, String.utf8EncodeChar, if_neg h1, if_pos h2, hlead, Nat.add_comm 0xC0,
    Nat.add_comm 0x80]
  rfl

/-- The form of three bytes. -/
theorem encodeChar_of_lt_four {c : Char} (h : 0x800 ≤ c.toNat) (h' : c.toNat < 0x10000) :
    encodeChar c = [(0xE0 + c.toNat / 4096).toUInt8, (0x80 + c.toNat / 64 % 64).toUInt8,
      (0x80 + c.toNat % 64).toUInt8] := by
  change 0x800 ≤ c.val.toNat at h
  have h1 : ¬ c.val.toNat ≤ 0x7F := by omega
  have h2 : ¬ c.val.toNat ≤ 0x7FF := by omega
  have h3 : c.val.toNat ≤ 0xFFFF := Nat.le_of_lt_succ h'
  have hlead : c.val.toNat / 4096 % 0x10 = c.val.toNat / 4096 := by omega
  rw [encodeChar, String.utf8EncodeChar, if_neg h1, if_neg h2, if_pos h3, hlead,
    Nat.add_comm 0xE0, Nat.add_comm 0x80, Nat.add_comm 0x80]
  rfl

/-- The form of four bytes. -/
theorem encodeChar_of_four_le {c : Char} (h : 0x10000 ≤ c.toNat) :
    encodeChar c = [(0xF0 + c.toNat / 262144).toUInt8, (0x80 + c.toNat / 4096 % 64).toUInt8,
      (0x80 + c.toNat / 64 % 64).toUInt8, (0x80 + c.toNat % 64).toUInt8] := by
  have hc : c.val.toNat.isValidChar := c.valid
  unfold Nat.isValidChar at hc
  change 0x10000 ≤ c.val.toNat at h
  have h1 : ¬ c.val.toNat ≤ 0x7F := by omega
  have h2 : ¬ c.val.toNat ≤ 0x7FF := by omega
  have h3 : ¬ c.val.toNat ≤ 0xFFFF := by omega
  have hlead : c.val.toNat / 262144 % 0x08 = c.val.toNat / 262144 := by omega
  rw [encodeChar, String.utf8EncodeChar, if_neg h1, if_neg h2, if_neg h3, hlead,
    Nat.add_comm 0xF0, Nat.add_comm 0x80, Nat.add_comm 0x80, Nat.add_comm 0x80]
  rfl

/-! ## ASCII -/

/-- A longer form has no byte of ASCII. -/
theorem le_of_mem_encodeChar {c : Char} {b : UInt8} (h : 0x80 ≤ c.toNat) (hb : b ∈ encodeChar c) :
    0x80 ≤ b.toNat := by
  have hlead : ∀ low n, 0x80 ≤ low → low + n < 256 → 0x80 ≤ (low + n).toUInt8.toNat := by
    intro low n hlow hn
    rw [toNat_toUInt8 hn]
    omega
  have htail : ∀ n, 0x80 ≤ (0x80 + n % 64).toUInt8.toNat :=
    fun n => hlead 0x80 (n % 64) (Nat.le_refl _) (by omega)
  by_cases h2 : c.toNat < 0x800
  · rw [encodeChar_of_lt_three h h2] at hb
    simp only [List.mem_cons, List.not_mem_nil, or_false] at hb
    rcases hb with rfl | rfl
    · exact hlead _ _ (by omega) (by omega)
    · exact htail _
  · by_cases h3 : c.toNat < 0x10000
    · rw [encodeChar_of_lt_four (by omega) h3] at hb
      simp only [List.mem_cons, List.not_mem_nil, or_false] at hb
      rcases hb with rfl | rfl | rfl
      · exact hlead _ _ (by omega) (by omega)
      · exact htail _
      · exact htail _
    · have hc : c.val.toNat.isValidChar := c.valid
      unfold Nat.isValidChar at hc
      change c.toNat < 0xD800 ∨ 0xDFFF < c.toNat ∧ c.toNat < 0x110000 at hc
      rw [encodeChar_of_four_le (by omega)] at hb
      simp only [List.mem_cons, List.not_mem_nil, or_false] at hb
      rcases hb with rfl | rfl | rfl | rfl
      · exact hlead _ _ (by omega) (by omega)
      · exact htail _
      · exact htail _
      · exact htail _

theorem toNat_toUInt8_of_ascii {c : Char} (hc : c.toNat < 0x80) : c.toUInt8.toNat = c.toNat :=
  toNat_toUInt8 (Nat.lt_of_lt_of_le hc (by decide))

/-- The bytes of ASCII in a written text are its characters of ASCII. -/
theorem toUInt8_mem_encode_iff {c : Char} (hc : c.toNat < 0x80) {s : String} :
    c.toUInt8 ∈ encode s ↔ c ∈ s.toList := by
  rw [encode, List.mem_flatMap]
  constructor
  · rintro ⟨d, hd, hmem⟩
    have hlt : d.toNat < 0x80 := by
      apply Nat.lt_of_not_le
      intro hge
      have := le_of_mem_encodeChar hge hmem
      rw [toNat_toUInt8_of_ascii hc] at this
      omega
    rw [encodeChar_of_lt_two hlt, List.mem_singleton] at hmem
    have heq : c.toNat = d.toNat := by
      rw [← toNat_toUInt8_of_ascii hc, hmem]
      exact toNat_toUInt8_of_ascii hlt
    rwa [Char.toNat_inj.mp heq]
  · intro hmem
    refine ⟨c, hmem, ?_⟩
    rw [encodeChar_of_lt_two hc]
    exact List.mem_singleton_self _

/-! ## First bytes -/

/-- A range of bytes by their codes. -/
theorem within_iff (low high b : UInt8) :
    (decide (low ≤ b) && decide (b ≤ high)) = true
      ↔ low.toNat ≤ b.toNat ∧ b.toNat ≤ high.toNat := by
  rw [Bool.and_eq_true, decide_eq_true_eq, decide_eq_true_eq, UInt8.le_iff_toNat_le,
    UInt8.le_iff_toNat_le]

/-- The first bytes of two. -/
theorem lead?_two {b : UInt8} (h : 0xC2 ≤ b.toNat) (h' : b.toNat ≤ 0xDF) :
    lead? b = some ⟨0, 0x80, 0xBF, b.toNat - 0xC0⟩ := by
  have h2 : (decide (0xC2 ≤ b) && decide (b ≤ 0xDF)) = true := (within_iff 0xC2 0xDF b).mpr ⟨h, h'⟩
  rw [lead?, if_pos h2]

/-- The first bytes of three.  The range of the second byte leaves out overlong forms and
surrogates. -/
theorem lead?_three {b : UInt8} (h : 0xE0 ≤ b.toNat) (h' : b.toNat ≤ 0xEF) :
    ∃ low high, lead? b = some ⟨1, low, high, b.toNat - 0xE0⟩ ∧
      ∀ n, low.toNat ≤ n ∧ n ≤ high.toNat ↔ 0x80 ≤ n ∧ n ≤ 0xBF
        ∧ 0x20 ≤ 64 * (b.toNat - 0xE0) + (n - 0x80)
        ∧ ¬ (0x360 ≤ 64 * (b.toNat - 0xE0) + (n - 0x80)
          ∧ 64 * (b.toNat - 0xE0) + (n - 0x80) < 0x380) := by
  have h2 : ¬ (decide (0xC2 ≤ b) && decide (b ≤ 0xDF)) = true := by
    rw [within_iff 0xC2 0xDF b]
    exact fun hb => absurd (Nat.le_trans h hb.2) (by decide)
  by_cases h0 : b = 0xE0
  · subst h0
    refine ⟨0xA0, 0xBF, rfl, fun n => ?_⟩
    simp only [UInt8.reduceToNat]
    omega
  · by_cases hD : b = 0xED
    · subst hD
      refine ⟨0x80, 0x9F, rfl, fun n => ?_⟩
      simp only [UInt8.reduceToNat]
      omega
    · have hne : b.toNat ≠ 0xE0 := fun hb => h0 (UInt8.toNat_inj.mp hb)
      have hne' : b.toNat ≠ 0xED := fun hb => hD (UInt8.toNat_inj.mp hb)
      have h3 : (decide (0xE1 ≤ b) && decide (b ≤ 0xEF)) = true :=
        (within_iff 0xE1 0xEF b).mpr ⟨by simp only [UInt8.reduceToNat]; omega, h'⟩
      refine ⟨0x80, 0xBF, ?_, fun n => ?_⟩
      · rw [lead?, if_neg h2, if_neg (by simpa using h0), if_neg (by simpa using hD), if_pos h3]
      · simp only [UInt8.reduceToNat]
        omega

/-- The first bytes of four.  The range of the second byte leaves out overlong forms and what is no
code point. -/
theorem lead?_four {b : UInt8} (h : 0xF0 ≤ b.toNat) (h' : b.toNat ≤ 0xF4) :
    ∃ low high, lead? b = some ⟨2, low, high, b.toNat - 0xF0⟩ ∧
      ∀ n, low.toNat ≤ n ∧ n ≤ high.toNat ↔ 0x80 ≤ n ∧ n ≤ 0xBF
        ∧ 0x10 ≤ 64 * (b.toNat - 0xF0) + (n - 0x80)
        ∧ 64 * (b.toNat - 0xF0) + (n - 0x80) < 0x110 := by
  have h2 : ¬ (decide (0xC2 ≤ b) && decide (b ≤ 0xDF)) = true := by
    rw [within_iff 0xC2 0xDF b]
    exact fun hb => absurd (Nat.le_trans h hb.2) (by decide)
  have h3 : ¬ (decide (0xE1 ≤ b) && decide (b ≤ 0xEF)) = true := by
    rw [within_iff 0xE1 0xEF b]
    exact fun hb => absurd (Nat.le_trans h hb.2) (by decide)
  have hE0 : b ≠ 0xE0 := by
    rintro rfl
    exact absurd h (by decide)
  have hED : b ≠ 0xED := by
    rintro rfl
    exact absurd h (by decide)
  by_cases h0 : b = 0xF0
  · subst h0
    refine ⟨0x90, 0xBF, rfl, fun n => ?_⟩
    simp only [UInt8.reduceToNat]
    omega
  · by_cases hF : b = 0xF4
    · subst hF
      refine ⟨0x80, 0x8F, rfl, fun n => ?_⟩
      simp only [UInt8.reduceToNat]
      omega
    · have hne : b.toNat ≠ 0xF0 := fun hb => h0 (UInt8.toNat_inj.mp hb)
      have hne' : b.toNat ≠ 0xF4 := fun hb => hF (UInt8.toNat_inj.mp hb)
      have h4 : (decide (0xF1 ≤ b) && decide (b ≤ 0xF3)) = true :=
        (within_iff 0xF1 0xF3 b).mpr (by simp only [UInt8.reduceToNat]; omega)
      refine ⟨0x80, 0xBF, ?_, fun n => ?_⟩
      · rw [lead?, if_neg h2, if_neg (by simpa using hE0), if_neg (by simpa using hED), if_neg h3,
          if_neg (by simpa using h0), if_pos h4]
      · simp only [UInt8.reduceToNat]
        omega

/-- All other bytes begin no longer form. -/
theorem lead?_eq_none {b : UInt8} (h : b.toNat < 0xC2 ∨ 0xF4 < b.toNat) : lead? b = none := by
  have hne : ∀ c : UInt8, 0xC2 ≤ c.toNat → c.toNat ≤ 0xF4 → ¬ (b == c) = true := by
    intro c hlow hhigh hb
    rw [beq_iff_eq.mp hb] at h
    omega
  have hrange : ∀ low high : UInt8, 0xC2 ≤ low.toNat → high.toNat ≤ 0xF4 →
      ¬ (decide (low ≤ b) && decide (b ≤ high)) = true := by
    intro low high hlow hhigh hb
    rw [within_iff] at hb
    omega
  rw [lead?, if_neg (hrange _ _ (by decide) (by decide)), if_neg (hne _ (by decide) (by decide)),
    if_neg (hne _ (by decide) (by decide)), if_neg (hrange _ _ (by decide) (by decide)),
    if_neg (hne _ (by decide) (by decide)), if_neg (hrange _ _ (by decide) (by decide)),
    if_neg (hne _ (by decide) (by decide))]

/-! ## Reading step by step -/

/-- A byte of ASCII is read by itself. -/
theorem next_of_ascii {b : UInt8} (h : b.toNat < 0x80) (s : Bytes) :
    next b s = (some (Char.ofNat b.toNat), s) := by
  unfold next
  rw [if_pos (UInt8.lt_iff_toNat_lt.mpr h)]

theorem not_lt_ascii {b : UInt8} (h : 0x80 ≤ b.toNat) : ¬ b < 0x80 :=
  fun hlt => absurd (UInt8.lt_iff_toNat_lt.mp hlt) (Nat.not_lt.mpr h)

/-- A byte that begins no form is not read. -/
theorem next_of_none {b : UInt8} (h : 0x80 ≤ b.toNat) (hl : lead? b = none) (s : Bytes) :
    next b s = (none, s) := by
  unfold next
  rw [if_neg (not_lt_ascii h), hl]

/-- A first byte and a second byte in its range are read. -/
theorem next_of_lead {b x low high : UInt8} {more bits : Nat} (h : 0x80 ≤ b.toNat)
    (hl : lead? b = some ⟨more, low, high, bits⟩) (hx : low.toNat ≤ x.toNat ∧ x.toNat ≤ high.toNat)
    (s : Bytes) : next b (x :: s) = tails more (64 * bits + (x.toNat - 0x80)) s := by
  unfold next
  rw [if_neg (not_lt_ascii h), hl]
  exact if_pos ((within_iff _ _ _).mpr hx)

/-- What is read after a first byte begins with a second byte in its range. -/
theorem exists_cons_of_next {b low high : UInt8} {more bits : Nat} {s rest : Bytes} {c : Char}
    (h : 0x80 ≤ b.toNat) (hl : lead? b = some ⟨more, low, high, bits⟩)
    (hread : next b s = (some c, rest)) :
    ∃ x s', s = x :: s' ∧ (low.toNat ≤ x.toNat ∧ x.toNat ≤ high.toNat)
      ∧ tails more (64 * bits + (x.toNat - 0x80)) s' = (some c, rest) := by
  unfold next at hread
  rw [if_neg (not_lt_ascii h), hl] at hread
  cases s with
  | nil => cases hread
  | cons x s' =>
    dsimp only at hread
    split_ifs at hread with hx
    · exact ⟨x, s', rfl, (within_iff _ _ _).mp hx, hread⟩
    · cases hread

/-- A continuation byte adds six bits. -/
theorem tails_cons {b : UInt8} (h : 0x80 ≤ b.toNat ∧ b.toNat ≤ 0xBF) (n v : Nat) (s : Bytes) :
    tails (n + 1) v (b :: s) = tails n (64 * v + (b.toNat - 0x80)) s := by
  rw [tails, if_pos ((within_iff 0x80 0xBF b).mpr h)]

/-- What is read to its end begins with a continuation byte. -/
theorem exists_cons_of_tails {n v : Nat} {s rest : Bytes} {c : Char}
    (h : tails (n + 1) v s = (some c, rest)) :
    ∃ b s', s = b :: s' ∧ (0x80 ≤ b.toNat ∧ b.toNat ≤ 0xBF)
      ∧ tails n (64 * v + (b.toNat - 0x80)) s' = (some c, rest) := by
  cases s with
  | nil =>
    rw [tails] at h
    cases h
  | cons b s' =>
    rw [tails] at h
    split_ifs at h with hb
    · exact ⟨b, s', rfl, (within_iff 0x80 0xBF b).mp hb, h⟩
    · cases h

/-- Without further bytes the code point is complete. -/
theorem of_tails_zero {v : Nat} {s rest : Bytes} {c : Char} (h : tails 0 v s = (some c, rest)) :
    Char.ofNat v = c ∧ s = rest := by
  rw [tails] at h
  cases h
  exact ⟨rfl, rfl⟩

/-! ## Forms of two, three and four bytes -/

section Forms

variable {b x y z : UInt8} {s rest : Bytes} {c : Char}

/-- A form of two bytes is read. -/
theorem next_two (hb : 0xC2 ≤ b.toNat ∧ b.toNat ≤ 0xDF) (hx : 0x80 ≤ x.toNat ∧ x.toNat ≤ 0xBF)
    (hc : c.toNat = 64 * (b.toNat - 0xC0) + (x.toNat - 0x80)) :
    next b (x :: s) = (some c, s) := by
  rw [next_of_lead (by omega) (lead?_two hb.1 hb.2) hx, ← hc, tails, Char.ofNat_toNat]

/-- A form of three bytes is read. -/
theorem next_three (hb : 0xE0 ≤ b.toNat ∧ b.toNat ≤ 0xEF) (hx : 0x80 ≤ x.toNat ∧ x.toNat ≤ 0xBF)
    (hy : 0x80 ≤ y.toNat ∧ y.toNat ≤ 0xBF) (hlong : 0x800 ≤ c.toNat)
    (hc : c.toNat = 64 * (64 * (b.toNat - 0xE0) + (x.toNat - 0x80)) + (y.toNat - 0x80)) :
    next b (x :: y :: s) = (some c, s) := by
  have hvalid : c.toNat.isValidChar := c.valid
  unfold Nat.isValidChar at hvalid
  obtain ⟨low, high, hlead, hrange⟩ := lead?_three hb.1 hb.2
  rw [next_of_lead (by omega) hlead ((hrange _).mpr (by omega)), tails_cons hy, ← hc, tails,
    Char.ofNat_toNat]

/-- A form of four bytes is read. -/
theorem next_four (hb : 0xF0 ≤ b.toNat ∧ b.toNat ≤ 0xF4) (hx : 0x80 ≤ x.toNat ∧ x.toNat ≤ 0xBF)
    (hy : 0x80 ≤ y.toNat ∧ y.toNat ≤ 0xBF) (hz : 0x80 ≤ z.toNat ∧ z.toNat ≤ 0xBF)
    (hlong : 0x10000 ≤ c.toNat)
    (hc : c.toNat = 64 * (64 * (64 * (b.toNat - 0xF0) + (x.toNat - 0x80)) + (y.toNat - 0x80))
      + (z.toNat - 0x80)) :
    next b (x :: y :: z :: s) = (some c, s) := by
  have hvalid : c.toNat.isValidChar := c.valid
  unfold Nat.isValidChar at hvalid
  obtain ⟨low, high, hlead, hrange⟩ := lead?_four hb.1 hb.2
  rw [next_of_lead (by omega) hlead ((hrange _).mpr (by omega)), tails_cons hy, tails_cons hz, ← hc,
    tails, Char.ofNat_toNat]

/-- What is read after the first byte of two is such a form. -/
theorem eq_encodeChar_of_next_two (hb : 0xC2 ≤ b.toNat ∧ b.toNat ≤ 0xDF)
    (h : next b s = (some c, rest)) : b :: s = encodeChar c ++ rest := by
  obtain ⟨x, s, rfl, hx, h⟩ := exists_cons_of_next (by omega) (lead?_two hb.1 hb.2) h
  simp only [UInt8.reduceToNat] at hx
  obtain ⟨hc, hs⟩ := of_tails_zero h
  have hcode := Utf16.toNat_ofNat_of_isValidChar
    (n := 64 * (b.toNat - 0xC0) + (x.toNat - 0x80)) (by unfold Nat.isValidChar; omega)
  rw [hc] at hcode
  rw [encodeChar_of_lt_three (by omega) (by omega), toUInt8_eq_of_eq (b := b) (by omega),
    toUInt8_eq_of_eq (b := x) (by omega), hs]
  rfl

/-- What is read after the first byte of three is such a form. -/
theorem eq_encodeChar_of_next_three (hb : 0xE0 ≤ b.toNat ∧ b.toNat ≤ 0xEF)
    (h : next b s = (some c, rest)) : b :: s = encodeChar c ++ rest := by
  obtain ⟨low, high, hlead, hrange⟩ := lead?_three hb.1 hb.2
  obtain ⟨x, s, rfl, hx, h⟩ := exists_cons_of_next (by omega) hlead h
  rw [hrange] at hx
  obtain ⟨y, s, rfl, hy, h⟩ := exists_cons_of_tails h
  obtain ⟨hc, hs⟩ := of_tails_zero h
  have hcode := Utf16.toNat_ofNat_of_isValidChar
    (n := 64 * (64 * (b.toNat - 0xE0) + (x.toNat - 0x80)) + (y.toNat - 0x80))
    (by unfold Nat.isValidChar; omega)
  rw [hc] at hcode
  rw [encodeChar_of_lt_four (by omega) (by omega), toUInt8_eq_of_eq (b := b) (by omega),
    toUInt8_eq_of_eq (b := x) (by omega), toUInt8_eq_of_eq (b := y) (by omega), hs]
  rfl

/-- What is read after the first byte of four is such a form. -/
theorem eq_encodeChar_of_next_four (hb : 0xF0 ≤ b.toNat ∧ b.toNat ≤ 0xF4)
    (h : next b s = (some c, rest)) : b :: s = encodeChar c ++ rest := by
  obtain ⟨low, high, hlead, hrange⟩ := lead?_four hb.1 hb.2
  obtain ⟨x, s, rfl, hx, h⟩ := exists_cons_of_next (by omega) hlead h
  rw [hrange] at hx
  obtain ⟨y, s, rfl, hy, h⟩ := exists_cons_of_tails h
  obtain ⟨z, s, rfl, hz, h⟩ := exists_cons_of_tails h
  obtain ⟨hc, hs⟩ := of_tails_zero h
  have hcode := Utf16.toNat_ofNat_of_isValidChar
    (n := 64 * (64 * (64 * (b.toNat - 0xF0) + (x.toNat - 0x80)) + (y.toNat - 0x80))
      + (z.toNat - 0x80)) (by unfold Nat.isValidChar; omega)
  rw [hc] at hcode
  rw [encodeChar_of_four_le (by omega), toUInt8_eq_of_eq (b := b) (by omega),
    toUInt8_eq_of_eq (b := x) (by omega), toUInt8_eq_of_eq (b := y) (by omega),
    toUInt8_eq_of_eq (b := z) (by omega), hs]
  rfl

end Forms

/-! ## Characters -/

/-- A written character is read, whatever follows. -/
theorem next_encodeChar (c : Char) (rest : Bytes) :
    ∃ b s, encodeChar c = b :: s ∧ next b (s ++ rest) = (some c, rest) := by
  have hc : c.toNat.isValidChar := c.valid
  unfold Nat.isValidChar at hc
  have htail : ∀ n, (0x80 + n % 64).toUInt8.toNat = 0x80 + n % 64 :=
    fun n => toNat_toUInt8 (by omega)
  by_cases h1 : c.toNat < 0x80
  · refine ⟨_, _, encodeChar_of_lt_two h1, ?_⟩
    have hb : c.toNat.toUInt8.toNat = c.toNat := toNat_toUInt8 (by omega)
    rw [next_of_ascii (by omega), hb, Char.ofNat_toNat, List.nil_append]
  · by_cases h2 : c.toNat < 0x800
    · refine ⟨_, _, encodeChar_of_lt_three (by omega) h2, ?_⟩
      have hb : (0xC0 + c.toNat / 64).toUInt8.toNat = 0xC0 + c.toNat / 64 :=
        toNat_toUInt8 (by omega)
      have hx := htail c.toNat
      exact next_two (by omega) (by omega) (by omega)
    · by_cases h3 : c.toNat < 0x10000
      · refine ⟨_, _, encodeChar_of_lt_four (by omega) h3, ?_⟩
        have hb : (0xE0 + c.toNat / 4096).toUInt8.toNat = 0xE0 + c.toNat / 4096 :=
          toNat_toUInt8 (by omega)
        have hx := htail (c.toNat / 64)
        have hy := htail c.toNat
        exact next_three (by omega) (by omega) (by omega) (by omega) (by omega)
      · refine ⟨_, _, encodeChar_of_four_le (by omega), ?_⟩
        have hb : (0xF0 + c.toNat / 262144).toUInt8.toNat = 0xF0 + c.toNat / 262144 :=
          toNat_toUInt8 (by omega)
        have hx := htail (c.toNat / 4096)
        have hy := htail (c.toNat / 64)
        have hz := htail c.toNat
        exact next_four (by omega) (by omega) (by omega) (by omega) (by omega) (by omega)

/-- What is read as a character is what writing it produces. -/
theorem eq_encodeChar_of_next {b : UInt8} {s rest : Bytes} {c : Char}
    (h : next b s = (some c, rest)) : b :: s = encodeChar c ++ rest := by
  have hnone : ¬ (0x80 ≤ b.toNat ∧ (b.toNat < 0xC2 ∨ 0xF4 < b.toNat)) := by
    rintro ⟨hb, hout⟩
    rw [next_of_none hb (lead?_eq_none hout)] at h
    cases h
  by_cases h1 : b.toNat < 0x80
  · rw [next_of_ascii h1] at h
    cases h
    have hc : (Char.ofNat b.toNat).toNat = b.toNat :=
      Utf16.toNat_ofNat_of_isValidChar (by unfold Nat.isValidChar; omega)
    rw [encodeChar_of_lt_two (by omega), toUInt8_eq_of_eq hc]
    rfl
  · by_cases h2 : b.toNat ≤ 0xDF
    · exact eq_encodeChar_of_next_two (by omega) h
    · by_cases h3 : b.toNat ≤ 0xEF
      · exact eq_encodeChar_of_next_three (by omega) h
      · exact eq_encodeChar_of_next_four (by omega) h

/-! ## Texts -/

/-- A written text is read character by character. -/
theorem scan_encode (s : String) : scan (encode s) = s.toList.map some := by
  unfold encode
  induction s.toList with
  | nil => exact scan_nil
  | cons c cs ih =>
    obtain ⟨b, w, hw, hnext⟩ := next_encodeChar c (cs.flatMap encodeChar)
    rw [List.flatMap_cons, hw, List.cons_append, scan_cons, hnext, List.map_cons, ← ih]

/-- Bytes that are read as the characters of a text, without an ill-formed part, are those of the
text. -/
theorem eq_flatMap_encodeChar_of_scan {s : Bytes} {cs : List Char} (h : scan s = cs.map some) :
    s = cs.flatMap encodeChar := by
  -- A character takes several bytes at once, so the induction is on the characters.
  induction cs generalizing s with
  | nil =>
    cases s with
    | nil => rfl
    | cons b s =>
      rw [scan_cons] at h
      cases h
  | cons c cs ih =>
    cases s with
    | nil =>
      rw [scan_nil] at h
      cases h
    | cons b s =>
      rw [scan_cons, List.map_cons, List.cons.injEq] at h
      have hnext : next b s = (some c, (next b s).2) := Prod.ext h.1 rfl
      rw [List.flatMap_cons, ← ih h.2]
      exact eq_encodeChar_of_next hnext

/-- A list of values that are all there. -/
theorem mapM_id_eq_some_iff {α : Type} {xs : List (Option α)} {ys : List α} :
    xs.mapM id = some ys ↔ xs = ys.map some := by
  induction xs generalizing ys with
  | nil => cases ys <;> simp
  | cons x xs ih =>
    cases x with
    | none => cases ys <;> simp
    | some a =>
      have hcons : (some a :: xs).mapM id = (xs.mapM id).map (a :: ·) := by
        cases h : xs.mapM id <;> simp [h]
      rw [hcons, Option.map_eq_some_iff]
      constructor
      · rintro ⟨zs, hzs, rfl⟩
        rw [ih.mp hzs, List.map_cons]
      · intro h
        cases ys with
        | nil => cases h
        | cons y ys =>
          rw [List.map_cons, List.cons.injEq, Option.some.injEq] at h
          exact ⟨ys, ih.mpr h.2, by rw [h.1]⟩

/-- **UTF-8 is canonical.**  Bytes are read as a text if and only if writing the text produces
them. -/
theorem decode?_eq_some_iff {raw : Bytes} {s : String} : decode? raw = some s ↔ raw = encode s := by
  constructor
  · intro h
    obtain ⟨cs, hcs, rfl⟩ := Option.map_eq_some_iff.mp h
    rw [encode, String.toList_ofList]
    exact eq_flatMap_encodeChar_of_scan (mapM_id_eq_some_iff.mp hcs)
  · rintro rfl
    rw [decode?, mapM_id_eq_some_iff.mpr (scan_encode s), Option.map_some, String.ofList_toList]

/-- A written text is read as it is, even where ill-formed parts would be let pass. -/
theorem decodeLossy_encode (s : String) : decodeLossy (encode s) = s := by
  have hread : (s.toList.map some).map (fun c => c.getD '\uFFFD') = s.toList := by
    rw [List.map_map]
    exact List.map_id _
  rw [decodeLossy, scan_encode, hread, String.ofList_toList]

/-- Bytes of ASCII are those of a text. -/
theorem exists_encode_of_ascii {raw : Bytes} (h : ∀ b ∈ raw, b.toNat < 0x80) :
    ∃ s, encode s = raw := by
  refine ⟨String.ofList (raw.map fun b => Char.ofNat b.toNat), ?_⟩
  rw [encode, String.toList_ofList]
  induction raw with
  | nil => rfl
  | cons b raw ih =>
    have hb : b.toNat < 0x80 := h b List.mem_cons_self
    have hcode : (Char.ofNat b.toNat).toNat = b.toNat :=
      Utf16.toNat_ofNat_of_isValidChar (by unfold Nat.isValidChar; omega)
    rw [List.map_cons, List.flatMap_cons, ih fun c hc => h c (List.mem_cons_of_mem b hc),
      encodeChar_of_lt_two (by omega), toUInt8_eq_of_eq hcode, List.singleton_append]

/-- Bytes of ASCII are read and written back. -/
theorem encode_decodeLossy_of_ascii {raw : Bytes} (h : ∀ b ∈ raw, b.toNat < 0x80) :
    encode (decodeLossy raw) = raw := by
  obtain ⟨s, rfl⟩ := exists_encode_of_ascii h
  rw [decodeLossy_encode]

end Utf8

end ImapMessage
