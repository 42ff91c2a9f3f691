/-
# Base64 without padding is canonical

An unpadded text is read if and only if writing produces it, and then it is read as the bytes
that it was written from.

Key constructions:
* `Base64.Alphabet.IsProper`: no two digits of an alphabet have the same value.
* `Base64.decode_encode`, `Base64.eq_encode_of_decode`: reading inverts writing, and nothing
  else is read.
* `Base64.Writes`, `Base64.decode_eq_some_iff_writes`: the same with padding.
-/
import ImapMessage.Text.Base64
import Mathlib.Data.List.TakeWhile
import Mathlib.Tactic.SplitIfs

namespace ImapMessage

namespace Base64

/-! ## Digits and their values -/

/-- An alphabet whose last digit is neither one of the others nor the padding. -/
def Alphabet.IsProper (a : Alphabet) : Prop :=
  a.value? a.last = some 63 ∧ a.last ≠ pad

instance (a : Alphabet) : Decidable a.IsProper :=
  inferInstanceAs (Decidable (_ ∧ _))

theorem standard_isProper : standard.IsProper := by decide

theorem mailbox_isProper : mailbox.IsProper := by decide

/-- The value of a digit in terms of its code. -/
theorem value?_eq (a : Alphabet) (b : UInt8) :
    a.value? b =
      if 65 ≤ b.toNat ∧ b.toNat ≤ 90 then some (b.toNat - 65)
      else if 97 ≤ b.toNat ∧ b.toNat ≤ 122 then some (b.toNat - 71)
      else if 48 ≤ b.toNat ∧ b.toNat ≤ 57 then some (b.toNat + 4)
      else if b.toNat = 43 then some 62
      else if b = a.last then some 63
      else none := by
  have hplus : b = '+'.toUInt8 ↔ b.toNat = 43 := by
    rw [← UInt8.toNat_inj]
    rfl
  simp only [Alphabet.value?, Bool.and_eq_true, decide_eq_true_eq, UInt8.le_iff_toNat_le, hplus]
  rfl

/-- The code of the digit for a value. -/
theorem toNat_digit (a : Alphabet) (n : Nat) (hn : n < 63) :
    (a.digit n).toNat =
      if n < 26 then 65 + n else if n < 52 then 71 + n else if n < 62 then n - 4 else 43 := by
  unfold Alphabet.digit
  split_ifs with h₁ h₂ h₃ h₄
  · exact toNat_toUInt8 (by omega)
  · exact toNat_toUInt8 (by omega)
  · exact toNat_toUInt8 (by omega)
  · rfl
  · omega

/-- A digit has the value that it was chosen for. -/
theorem value?_digit {a : Alphabet} (ha : a.IsProper) {n : Nat} (hn : n < 64) :
    a.value? (a.digit n) = some n := by
  by_cases hlast : n = 63
  · subst hlast
    exact ha.1
  · have hcode := toNat_digit a n (by omega)
    rw [value?_eq]
    grind

/-- Only the digit for a value has it. -/
theorem digit_of_value? {a : Alphabet} {b : UInt8} {n : Nat} (h : a.value? b = some n) :
    n < 64 ∧ a.digit n = b := by
  rw [value?_eq] at h
  by_cases hlast : n = 63
  · -- only the branch of the last digit gives 63
    have hb : b = a.last := by grind
    subst hlast
    exact ⟨by omega, hb.symm⟩
  · have hn : n < 63 := by grind
    have hcode := toNat_digit a n hn
    refine ⟨by omega, UInt8.toNat_inj.mp ?_⟩
    grind

/-- The padding is no digit. -/
theorem value?_pad {a : Alphabet} (ha : a.IsProper) : a.value? pad = none := by
  rw [value?_eq]
  have hpad : pad.toNat = 61 := rfl
  simp [hpad, ha.2.symm]

/-- The values of written digits. -/
theorem mapM_value?_digit {a : Alphabet} (ha : a.IsProper) (ns : List Nat)
    (hns : ∀ n ∈ ns, n < 64) : (ns.map a.digit).mapM a.value? = some ns := by
  induction ns with
  | nil => rfl
  | cons n ns ih =>
    have hn : a.value? (a.digit n) = some n := value?_digit ha (hns n List.mem_cons_self)
    have ih' := ih fun m hm => hns m (List.mem_cons_of_mem n hm)
    rw [List.map_cons, List.mapM_cons, hn, ih']
    rfl

/-- Digits are determined by their values. -/
theorem map_digit_of_mapM {a : Alphabet} {s : Bytes} {ns : List Nat}
    (h : s.mapM a.value? = some ns) : s = ns.map a.digit ∧ ∀ n ∈ ns, n < 64 := by
  induction s generalizing ns with
  | nil =>
    rw [List.mapM_nil] at h
    cases h
    exact ⟨rfl, by simp⟩
  | cons b s ih =>
    rw [List.mapM_cons] at h
    simp only [Option.bind_eq_bind, Option.pure_def, Option.bind_eq_some_iff,
      Option.some.injEq] at h
    obtain ⟨n, hb, ms, hs, rfl⟩ := h
    obtain ⟨hn, hdigit⟩ := digit_of_value? hb
    obtain ⟨hs', hms⟩ := ih hs
    refine ⟨by rw [List.map_cons, hdigit, ← hs'], ?_⟩
    intro m hm
    rcases List.mem_cons.mp hm with rfl | hm
    · exact hn
    · exact hms m hm

/-! ## Groups of digits -/

/-- The first four digits of a longer text write three bytes. -/
theorem unpack_cons_four (p q r t : Nat) (rest : List Nat) :
    unpack (p :: q :: r :: t :: rest) =
      (unpack rest).map fun s =>
        (p * 4 + q / 16).toUInt8 :: (q % 16 * 16 + r / 4).toUInt8 :: (r % 4 * 64 + t).toUInt8
          :: s := by
  rw [unpack, unpackFrom, unpackFrom_eq]
  rfl

/-- Six bits are below 64. -/
theorem lt_of_mem_sextets (s : Bytes) : ∀ n ∈ sextets s, n < 64 := by
  fun_induction sextets s with
  | case1 => simp
  | case2 x =>
    have hx := x.toNat_lt
    simp only [List.mem_cons, List.not_mem_nil, or_false]
    omega
  | case3 x y =>
    have hx := x.toNat_lt
    have hy := y.toNat_lt
    simp only [List.mem_cons, List.not_mem_nil, or_false]
    omega
  | case4 x y z rest ih =>
    have hx := x.toNat_lt
    have hy := y.toNat_lt
    have hz := z.toNat_lt
    simp only [List.mem_cons]
    rintro n (rfl | rfl | rfl | rfl | hn)
    · omega
    · omega
    · omega
    · omega
    · exact ih n hn

/-- The digits of some bytes write them. -/
theorem unpack_sextets (s : Bytes) : unpack (sextets s) = some s := by
  fun_induction sextets s with
  | case1 => rfl
  | case2 x =>
    have hx : (x.toNat / 4 * 4 + x.toNat % 4 * 16 / 16).toUInt8 = x := toUInt8_eq_of_eq (by omega)
    have hbits : x.toNat % 4 * 16 % 16 = 0 := by omega
    rw [unpack, unpackFrom, if_pos hbits, hx]
    rfl
  | case3 x y =>
    have hy' := y.toNat_lt
    have hx : (x.toNat / 4 * 4 + (x.toNat % 4 * 16 + y.toNat / 16) / 16).toUInt8 = x :=
      toUInt8_eq_of_eq (by omega)
    have hy : ((x.toNat % 4 * 16 + y.toNat / 16) % 16 * 16 + y.toNat % 16 * 4 / 4).toUInt8 = y :=
      toUInt8_eq_of_eq (by omega)
    have hbits : y.toNat % 16 * 4 % 4 = 0 := by omega
    rw [unpack, unpackFrom, if_pos hbits, hx, hy]
    rfl
  | case4 x y z rest ih =>
    have hy' := y.toNat_lt
    have hz' := z.toNat_lt
    have hx : (x.toNat / 4 * 4 + (x.toNat % 4 * 16 + y.toNat / 16) / 16).toUInt8 = x :=
      toUInt8_eq_of_eq (by omega)
    have hy : ((x.toNat % 4 * 16 + y.toNat / 16) % 16 * 16
        + (y.toNat % 16 * 4 + z.toNat / 64) / 4).toUInt8 = y := toUInt8_eq_of_eq (by omega)
    have hz : ((y.toNat % 16 * 4 + z.toNat / 64) % 4 * 64 + z.toNat % 64).toUInt8 = z :=
      toUInt8_eq_of_eq (by omega)
    rw [unpack_cons_four, ih, hx, hy, hz]
    rfl

/-- Digits that write some bytes are the digits of those bytes: no bits are left over. -/
theorem eq_sextets_of_unpack : ∀ (ns : List Nat) (s : Bytes), (∀ n ∈ ns, n < 64) →
    unpack ns = some s → ns = sextets s
  | [], s, _, h => by
    rw [unpack, unpackFrom] at h
    cases h
    rfl
  | [_], s, _, h => by
    rw [unpack, unpackFrom] at h
    cases h
  | [p, q], s, hns, h => by
    have hp : p < 64 := hns p (by simp)
    have hq : q < 64 := hns q (by simp)
    rw [unpack, unpackFrom] at h
    -- `hbits`: the last four bits of `q` are zero.
    split_ifs at h with hbits
    cases h
    have hx : (p * 4 + q / 16).toUInt8.toNat = p * 4 + q / 16 := toNat_toUInt8 (by omega)
    simp only [List.reverse_cons, List.reverse_nil, List.nil_append, sextets, hx]
    congr 1
    · omega
    · congr 1
      omega
  | [p, q, r], s, hns, h => by
    have hp : p < 64 := hns p (by simp)
    have hq : q < 64 := hns q (by simp)
    have hr : r < 64 := hns r (by simp)
    rw [unpack, unpackFrom] at h
    split_ifs at h with hbits
    cases h
    have hx : (p * 4 + q / 16).toUInt8.toNat = p * 4 + q / 16 := toNat_toUInt8 (by omega)
    have hy : (q % 16 * 16 + r / 4).toUInt8.toNat = q % 16 * 16 + r / 4 :=
      toNat_toUInt8 (by omega)
    simp only [List.reverse_cons, List.reverse_nil, List.nil_append, List.cons_append, sextets,
      hx, hy]
    simp only [List.cons.injEq, and_true]
    omega
  | p :: q :: r :: t :: rest, s, hns, h => by
    have hp : p < 64 := hns p (by simp)
    have hq : q < 64 := hns q (by simp)
    have hr : r < 64 := hns r (by simp)
    have ht : t < 64 := hns t (by simp)
    have hrest : ∀ n ∈ rest, n < 64 := fun n hn => hns n (by simp [hn])
    rw [unpack_cons_four] at h
    obtain ⟨s', hs', rfl⟩ := Option.map_eq_some_iff.mp h
    have hx : (p * 4 + q / 16).toUInt8.toNat = p * 4 + q / 16 := toNat_toUInt8 (by omega)
    have hy : (q % 16 * 16 + r / 4).toUInt8.toNat = q % 16 * 16 + r / 4 :=
      toNat_toUInt8 (by omega)
    have hz : (r % 4 * 64 + t).toUInt8.toNat = r % 4 * 64 + t := toNat_toUInt8 (by omega)
    rw [sextets, hx, hy, hz, ← eq_sextets_of_unpack rest s' hrest hs']
    simp only [List.cons.injEq, and_true]
    omega

/-- A single digit left over writes nothing. -/
theorem unpack_eq_none : ∀ ns : List Nat, ns.length % 4 = 1 → unpack ns = none
  | [], h | [_, _], h | [_, _, _], h => by simp at h
  | [_], _ => rfl
  | p :: q :: r :: t :: rest, h => by
    have hrest : rest.length % 4 = 1 := by
      simp only [List.length_cons] at h
      omega
    rw [unpack_cons_four, unpack_eq_none rest hrest]
    rfl

/-! ## Unpadded texts -/

/-- The padding at the end of a text is taken off. -/
theorem strip_padding {s : Bytes} (hs : pad ∉ s) (n : Nat) :
    ((s ++ List.replicate n pad).reverse.dropWhile (· == pad)).reverse = s := by
  have hpad : ∀ b ∈ List.replicate n pad, (b == pad) = true := by
    intro b hb
    rw [List.eq_of_mem_replicate hb]
    rfl
  rw [List.reverse_append, List.reverse_replicate, List.dropWhile_append_of_pos hpad]
  -- Nothing more is taken off.
  cases hr : s.reverse with
  | nil =>
    rw [List.reverse_eq_nil_iff.mp hr]
    rfl
  | cons b r =>
    have hb : b ∈ s := by
      rw [← List.mem_reverse, hr]
      exact List.mem_cons_self
    have hne : ¬ (b == pad) = true := by
      intro h
      exact hs (beq_iff_eq.mp h ▸ hb)
    rw [List.dropWhile_cons_of_neg (p := (· == pad)) hne, ← hr, List.reverse_reverse]

/-- Without padding, a text is read digit by digit. -/
theorem decode_of_no_pad (a : Alphabet) {s : Bytes} (hs : pad ∉ s) :
    decode a s = (s.mapM a.value?).bind unpack := by
  have hdigits := strip_padding hs 0
  rw [List.replicate_zero, List.append_nil] at hdigits
  rw [decode, hdigits, valuesFrom_eq, Nat.sub_self]
  simp only [List.reverse_nil, List.nil_append, Option.map_id']
  split_ifs with hfits
  · rfl
  · -- No padding does not fit only after a single digit, and that writes nothing anyway.
    have hlen : s.length % 4 = 1 := by
      unfold paddingFits at hfits
      split at hfits <;> simp_all
    cases hv : s.mapM a.value? with
    | none => rfl
    | some ns =>
      obtain ⟨rfl, -⟩ := map_digit_of_mapM hv
      rw [Option.bind_some, unpack_eq_none ns (by simpa using hlen)]

/-- No written digit is padding. -/
theorem pad_not_mem_encode {a : Alphabet} (ha : a.IsProper) (s : Bytes) : pad ∉ encode a s := by
  intro h
  obtain ⟨n, hn, hpad⟩ := List.mem_map.mp h
  have hvalue := value?_digit ha (lt_of_mem_sextets s n hn)
  rw [hpad, value?_pad ha] at hvalue
  cases hvalue

/-- Written bytes are read back. -/
theorem decode_encode {a : Alphabet} (ha : a.IsProper) (s : Bytes) :
    decode a (encode a s) = some s := by
  rw [decode_of_no_pad a (pad_not_mem_encode ha s), encode,
    mapM_value?_digit ha (sextets s) (lt_of_mem_sextets s)]
  exact unpack_sextets s

/-- An unpadded text that is read as some bytes is the one that writing them produces. -/
theorem eq_encode_of_decode {a : Alphabet} {s r : Bytes} (hs : pad ∉ s)
    (h : decode a s = some r) : s = encode a r := by
  rw [decode_of_no_pad a hs] at h
  obtain ⟨ns, hv, hr⟩ := Option.bind_eq_some_iff.mp h
  obtain ⟨rfl, hns⟩ := map_digit_of_mapM hv
  rw [encode, ← eq_sextets_of_unpack ns r hns hr]

/-! ## Padded texts -/

/-- A text is read as some bytes if and only if it consists of their digits and of padding that
fits. -/
theorem decode_eq_some_iff {a : Alphabet} (ha : a.IsProper) {s r : Bytes} :
    decode a s = some r ↔ ∃ n, s = encode a r ++ List.replicate n pad
      ∧ paddingFits (encode a r).length n = true := by
  constructor
  · intro h
    unfold decode at h
    dsimp only at h
    split_ifs at h with hfits
    rw [valuesFrom_eq] at h
    obtain ⟨_, hmap, hr⟩ := Option.bind_eq_some_iff.mp h
    obtain ⟨ns, hvalues, rfl⟩ := Option.map_eq_some_iff.mp hmap
    obtain ⟨hdigits, hlt⟩ := map_digit_of_mapM hvalues
    have hencode : (s.reverse.dropWhile (· == pad)).reverse = encode a r := by
      rw [hdigits, encode, ← eq_sextets_of_unpack ns r hlt hr]
    have hpadding : s.reverse.takeWhile (· == pad)
        = List.replicate (s.reverse.takeWhile (· == pad)).length pad := by
      rw [List.eq_replicate_iff]
      refine ⟨rfl, fun b hb => ?_⟩
      have hb' := List.mem_takeWhile_imp (p := (· == pad)) hb
      exact beq_iff_eq.mp hb'
    have hs : s = encode a r ++ List.replicate (s.reverse.takeWhile (· == pad)).length pad := by
      rw [← hencode, ← List.reverse_replicate, ← hpadding, ← List.reverse_append,
        List.takeWhile_append_dropWhile, List.reverse_reverse]
    refine ⟨_, hs, ?_⟩
    have hlength := congrArg List.length hs
    rw [List.length_append, List.length_replicate] at hlength
    rwa [hencode, show s.length - (encode a r).length
      = (s.reverse.takeWhile (· == pad)).length from by omega] at hfits
  · rintro ⟨n, rfl, hfits⟩
    have hdigits := strip_padding (pad_not_mem_encode ha r) n
    rw [decode, hdigits, valuesFrom_eq, encode, mapM_value?_digit ha _ (lt_of_mem_sextets r),
      ← encode, List.length_append, List.length_replicate, Nat.add_sub_cancel_left, if_pos hfits]
    exact unpack_sextets r

/-- Three bytes have four digits, one byte left over has two, and two have three. -/
theorem length_sextets (s : Bytes) : (sextets s).length = (4 * s.length + 2) / 3 := by
  fun_induction sextets s with
  | case1 | case2 | case3 => simp
  | case4 x y z rest ih =>
    simp only [List.length_cons, ih]
    omega

/-- Bytes are written as their digits, and perhaps with as much padding as fills the last group of
four, or with less. -/
def Writes (a : Alphabet) (r s : Bytes) : Prop :=
  ∃ n, n ≤ (3 - r.length % 3) % 3 ∧ s = encode a r ++ List.replicate n pad

theorem paddingFits_iff (a : Alphabet) (r : Bytes) (n : Nat) :
    paddingFits (encode a r).length n = true ↔ n ≤ (3 - r.length % 3) % 3 := by
  have hlength : (encode a r).length = (4 * r.length + 2) / 3 := by
    rw [encode, List.length_map, length_sextets]
  rw [hlength]
  rcases (by omega : r.length % 3 = 0 ∨ r.length % 3 = 1 ∨ r.length % 3 = 2) with h | h | h
  · have hfull : (4 * r.length + 2) / 3 % 4 = 0 := by omega
    simp [paddingFits, hfull, h]
  · have htwo : (4 * r.length + 2) / 3 % 4 = 2 := by omega
    simp [paddingFits, htwo, h]
  · have hthree : (4 * r.length + 2) / 3 % 4 = 3 := by omega
    simp [paddingFits, hthree, h]

/-- A text is read as some bytes if and only if these are written so. -/
theorem decode_eq_some_iff_writes {a : Alphabet} (ha : a.IsProper) {s r : Bytes} :
    decode a s = some r ↔ Writes a r s := by
  rw [decode_eq_some_iff ha]
  exact exists_congr fun n => by rw [paddingFits_iff, and_comm]

/-- A text that consists of the digits of some bytes, and perhaps of padding that fits. -/
def IsPadded (a : Alphabet) (s : Bytes) : Prop :=
  ∃ r n, s = encode a r ++ List.replicate n pad ∧ paddingFits (encode a r).length n = true

theorem isPadded_iff {a : Alphabet} (ha : a.IsProper) {s : Bytes} :
    IsPadded a s ↔ ∃ r, decode a s = some r :=
  exists_congr fun _ => (decode_eq_some_iff ha).symm

end Base64

end ImapMessage
