/-
# Encoded bodies that are cut short

Quoted-printable is undone escape by escape and base64 digit by digit, so what stands first in
an encoded body is also first in what is read.  This holds of the start of a body as long as that
start is encoded properly itself.  A cut may leave less than an escape of quoted-printable, which is
then kept as it stands, or too few digits of base64, and then the whole start is.

Key constructions:
* `TransferEncoding.IsQuotedPrintable`, `TransferEncoding.IsValid`: properly encoded bodies.
* `TransferEncoding.exists_escapes_of_prefix`: the start of a body in quoted-printable.
* `Base64.decode_prefix`: the start of a body in base64.
* `TransferEncoding.decode_prefix`: what is read of the start of a body.
-/
import ImapMessage.Proofs.Text.Base64Canonical
import ImapMessage.Transfer
import Mathlib.Data.List.Infix
import Mathlib.Data.List.TakeWhile

namespace ImapMessage

/-! ## Quoted-printable -/

namespace TransferEncoding

section

variable (done rest : Bytes)

theorem unquoteFrom_plain {b : UInt8} (hb : b ≠ escapeMark) :
    unquoteFrom done (b :: rest) = unquoteFrom (b :: done) rest := by
  rw [unquoteFrom.eq_def]
  exact if_neg hb

theorem unquoteFrom_lf :
    unquoteFrom done (escapeMark :: Ascii.lf :: rest) = unquoteFrom done rest := by
  rw [unquoteFrom.eq_def]
  rfl

theorem unquoteFrom_crlf :
    unquoteFrom done (escapeMark :: Ascii.cr :: Ascii.lf :: rest) = unquoteFrom done rest := by
  rw [unquoteFrom.eq_def]
  rfl

/-- Hexadecimal digits are no line ending. -/
theorem of_hexByte {c d x : UInt8} (h : Ascii.hexByte c d = some x) :
    c ≠ Ascii.lf ∧ c ≠ Ascii.cr := by
  constructor
  · rintro rfl
    cases h
  · rintro rfl
    cases h

theorem unquoteFrom_escape {c d x : UInt8} (h : Ascii.hexByte c d = some x) :
    unquoteFrom done (escapeMark :: c :: d :: rest) = unquoteFrom (x :: done) rest := by
  obtain ⟨hlf, hcr⟩ := of_hexByte h
  rw [unquoteFrom.eq_def]
  simp [hlf, hcr, h]

theorem unquoteFrom_mark : unquoteFrom done [escapeMark] = (escapeMark :: done).reverse := by
  rw [unquoteFrom.eq_def]
  rfl

theorem unquoteFrom_mark_single {c : UInt8} (h : c ≠ Ascii.lf) :
    unquoteFrom done [escapeMark, c] = unquoteFrom (escapeMark :: done) [c] := by
  rw [unquoteFrom.eq_def]
  simp [h]

theorem unquoteFrom_mark_other {c d : UInt8} (hlf : c ≠ Ascii.lf)
    (hcrlf : ¬(c = Ascii.cr ∧ d = Ascii.lf)) (h : Ascii.hexByte c d = none) :
    unquoteFrom done (escapeMark :: c :: d :: rest)
      = unquoteFrom (escapeMark :: done) (c :: d :: rest) := by
  rw [unquoteFrom.eq_def]
  simp [hlf, hcrlf, h]

end

/-- What has been read already does not matter for what follows. -/
theorem unquoteFrom_append (done more s : Bytes) :
    unquoteFrom (done ++ more) s = more.reverse ++ unquoteFrom done s := by
  fun_induction unquoteFrom done s with
  | case1 done => rw [unquoteFrom, List.reverse_append]
  | case2 done => rw [unquoteFrom_mark, ← List.cons_append, List.reverse_append]
  | case3 done rest ih => rw [unquoteFrom_lf, ih]
  | case4 done c hc ih =>
    rw [unquoteFrom_mark_single _ hc, ← ih]
    rfl
  | case5 done c hc d rest hbreak ih =>
    obtain ⟨rfl, rfl⟩ := hbreak
    rw [unquoteFrom_crlf, ih]
  | case6 done c hc d rest hbreak x hx ih =>
    rw [unquoteFrom_escape _ _ hx, ← ih]
    rfl
  | case7 done c hc d rest hbreak hx ih =>
    rw [unquoteFrom_mark_other _ _ hc hbreak hx, ← ih]
    rfl
  | case8 done b rest hb ih =>
    rw [unquoteFrom_plain _ _ hb, ← ih]
    rfl

theorem unquoteFrom_eq (done s : Bytes) : unquoteFrom done s = done.reverse ++ unquote s :=
  unquoteFrom_append [] done s

/-- A body in which every escape is complete: each equals sign stands before a line ending or before
two hexadecimal digits. -/
inductive IsQuotedPrintable : Bytes → Prop where
  | nil : IsQuotedPrintable []
  | plain {b : UInt8} {s : Bytes} (hb : b ≠ escapeMark) (h : IsQuotedPrintable s) :
      IsQuotedPrintable (b :: s)
  | lf {s : Bytes} (h : IsQuotedPrintable s) : IsQuotedPrintable (escapeMark :: Ascii.lf :: s)
  | crlf {s : Bytes} (h : IsQuotedPrintable s) :
      IsQuotedPrintable (escapeMark :: Ascii.cr :: Ascii.lf :: s)
  | escape {c d x : UInt8} {s : Bytes} (hx : Ascii.hexByte c d = some x)
      (h : IsQuotedPrintable s) : IsQuotedPrintable (escapeMark :: c :: d :: s)

/-- After complete escapes, reading goes on independently of them. -/
theorem IsQuotedPrintable.unquote_append {s : Bytes} (h : IsQuotedPrintable s) (t : Bytes) :
    unquote (s ++ t) = unquote s ++ unquote t := by
  have hfrom : ∀ done, unquoteFrom done (s ++ t) = unquoteFrom done s ++ unquote t := by
    induction h with
    | nil =>
      intro done
      rw [List.nil_append, unquoteFrom_eq, unquoteFrom]
    | plain hb h ih =>
      intro done
      rw [List.cons_append, unquoteFrom_plain _ _ hb, unquoteFrom_plain _ _ hb, ih]
    | lf h ih =>
      intro done
      rw [List.cons_append, List.cons_append, unquoteFrom_lf, unquoteFrom_lf, ih]
    | crlf h ih =>
      intro done
      rw [List.cons_append, List.cons_append, List.cons_append, unquoteFrom_crlf, unquoteFrom_crlf,
        ih]
    | escape hx h ih =>
      intro done
      rw [List.cons_append, List.cons_append, List.cons_append, unquoteFrom_escape _ _ hx,
        unquoteFrom_escape _ _ hx, ih]
  exact hfrom []

/-- The start of a body in quoted-printable: complete escapes, and then at most two bytes of one
that is not complete and is kept as it stands. -/
theorem exists_escapes_of_prefix {s u : Bytes} (h : IsQuotedPrintable s) (hu : u <+: s) :
    ∃ v w, u = v ++ w ∧ IsQuotedPrintable v ∧ w.length ≤ 2 ∧ unquote w = w := by
  -- Nothing, or an equals sign with nothing or one byte after it, is what a cut can leave.
  have hnothing : ∃ v w, ([] : Bytes) = v ++ w ∧ IsQuotedPrintable v ∧ w.length ≤ 2
      ∧ unquote w = w :=
    ⟨[], [], rfl, .nil, Nat.zero_le 2, by rw [unquote, unquoteFrom]; rfl⟩
  have hmark : ∃ v w, [escapeMark] = v ++ w ∧ IsQuotedPrintable v ∧ w.length ≤ 2
      ∧ unquote w = w :=
    ⟨[], [escapeMark], rfl, .nil, Nat.le_succ 1, unquoteFrom_mark []⟩
  have hsingle : ∀ c, c ≠ Ascii.lf → c ≠ escapeMark → ∃ v w, [escapeMark, c] = v ++ w
      ∧ IsQuotedPrintable v ∧ w.length ≤ 2 ∧ unquote w = w := by
    intro c hlf hc
    refine ⟨[], [escapeMark, c], rfl, .nil, Nat.le_refl 2, ?_⟩
    rw [unquote, unquoteFrom_mark_single _ hlf, unquoteFrom_plain _ _ hc, unquoteFrom]
    rfl
  induction h generalizing u with
  | nil =>
    rw [List.prefix_nil.mp hu]
    exact hnothing
  | plain hb h ih =>
    rcases List.prefix_cons_iff.mp hu with rfl | ⟨u₁, rfl, hu₁⟩
    · exact hnothing
    · obtain ⟨v, w, rfl, hv, hw⟩ := ih hu₁
      exact ⟨_, w, rfl, .plain hb hv, hw⟩
  | lf h ih =>
    rcases List.prefix_cons_iff.mp hu with rfl | ⟨u₁, rfl, hu₁⟩
    · exact hnothing
    · rcases List.prefix_cons_iff.mp hu₁ with rfl | ⟨u₂, rfl, hu₂⟩
      · exact hmark
      · obtain ⟨v, w, rfl, hv, hw⟩ := ih hu₂
        exact ⟨_, w, rfl, .lf hv, hw⟩
  | crlf h ih =>
    rcases List.prefix_cons_iff.mp hu with rfl | ⟨u₁, rfl, hu₁⟩
    · exact hnothing
    · rcases List.prefix_cons_iff.mp hu₁ with rfl | ⟨u₂, rfl, hu₂⟩
      · exact hmark
      · rcases List.prefix_cons_iff.mp hu₂ with rfl | ⟨u₃, rfl, hu₃⟩
        · exact hsingle Ascii.cr (by decide) (by decide)
        · obtain ⟨v, w, rfl, hv, hw⟩ := ih hu₃
          exact ⟨_, w, rfl, .crlf hv, hw⟩
  | @escape c d x s hx h ih =>
    have hc : c ≠ escapeMark := by
      rintro rfl
      cases hx
    rcases List.prefix_cons_iff.mp hu with rfl | ⟨u₁, rfl, hu₁⟩
    · exact hnothing
    · rcases List.prefix_cons_iff.mp hu₁ with rfl | ⟨u₂, rfl, hu₂⟩
      · exact hmark
      · rcases List.prefix_cons_iff.mp hu₂ with rfl | ⟨u₃, rfl, hu₃⟩
        · exact hsingle c (of_hexByte hx).1 hc
        · obtain ⟨v, w, rfl, hv, hw⟩ := ih hu₃
          exact ⟨_, w, rfl, .escape hx hv, hw⟩

end TransferEncoding

/-! ## Base64 -/

namespace Base64

/-- The first two digits write the first byte. -/
theorem exists_cons_of_unpack {p q : Nat} {ns : List Nat} {s : Bytes}
    (h : unpack (p :: q :: ns) = some s) : ∃ t, s = (p * 4 + q / 16).toUInt8 :: t := by
  match ns with
  | [] =>
    rw [unpack, unpackFrom] at h
    split_ifs at h
    cases h
    exact ⟨[], rfl⟩
  | [r] =>
    rw [unpack, unpackFrom] at h
    split_ifs at h
    cases h
    exact ⟨_, rfl⟩
  | r :: u :: rest =>
    rw [unpack_cons_four] at h
    obtain ⟨t, -, rfl⟩ := Option.map_eq_some_iff.mp h
    exact ⟨_, rfl⟩

/-- The third digit writes the second byte together with the one before it. -/
theorem exists_cons_cons_of_unpack {p q r : Nat} {ns : List Nat} {s : Bytes}
    (h : unpack (p :: q :: r :: ns) = some s) :
    ∃ t, s = (p * 4 + q / 16).toUInt8 :: (q % 16 * 16 + r / 4).toUInt8 :: t := by
  match ns with
  | [] =>
    rw [unpack, unpackFrom] at h
    split_ifs at h
    cases h
    exact ⟨[], rfl⟩
  | u :: rest =>
    rw [unpack_cons_four] at h
    obtain ⟨t, -, rfl⟩ := Option.map_eq_some_iff.mp h
    exact ⟨_, rfl⟩

/-- More digits write more bytes after the same ones. -/
theorem unpack_prefix : ∀ (ns ms : List Nat) (s t : Bytes), unpack ns = some s →
    unpack (ns ++ ms) = some t → s <+: t
  | [], ms, s, t, hs, _ => by
    rw [unpack, unpackFrom] at hs
    cases hs
    exact List.nil_prefix
  | [_], ms, s, t, hs, _ => by
    rw [unpack, unpackFrom] at hs
    cases hs
  | [p, q], ms, s, t, hs, ht => by
    obtain ⟨t, rfl⟩ := exists_cons_of_unpack ht
    rw [unpack, unpackFrom] at hs
    split_ifs at hs
    cases hs
    exact ⟨t, rfl⟩
  | [p, q, r], ms, s, t, hs, ht => by
    obtain ⟨t, rfl⟩ := exists_cons_cons_of_unpack ht
    rw [unpack, unpackFrom] at hs
    split_ifs at hs
    cases hs
    exact ⟨t, rfl⟩
  | p :: q :: r :: u :: rest, ms, s, t, hs, ht => by
    rw [unpack_cons_four] at hs
    rw [List.cons_append, List.cons_append, List.cons_append, List.cons_append,
      unpack_cons_four] at ht
    obtain ⟨s', hs', rfl⟩ := Option.map_eq_some_iff.mp hs
    obtain ⟨t', ht', rfl⟩ := Option.map_eq_some_iff.mp ht
    have hrest := unpack_prefix rest ms s' t' hs' ht'
    simpa [List.cons_prefix_cons] using hrest

/-- The start of a text is read as the start of what the text is read as, if it is read at all. -/
theorem decode_prefix {a : Alphabet} (ha : a.IsProper) {s t r q : Bytes}
    (hs : decode a s = some r) (ht : decode a (s ++ t) = some q) : r <+: q := by
  obtain ⟨n, rfl, -⟩ := (decode_eq_some_iff ha).mp hs
  obtain ⟨n', heq, -⟩ := (decode_eq_some_iff ha).mp ht
  -- The digits of the whole text go on where those of its start end.
  have hmore : ∃ more, encode a q = encode a r ++ more := by
    rw [List.append_assoc] at heq
    rcases List.append_eq_append_iff.mp heq with ⟨more, hmore, -⟩ | ⟨more, hr, hmore⟩
    · exact ⟨more, hmore⟩
    · cases more with
      | nil => exact ⟨[], by rw [hr, List.append_nil, List.append_nil]⟩
      | cons b more =>
        have hb : b ∈ List.replicate n' pad := by
          rw [hmore]
          exact List.mem_cons_self
        have hpad : b ∈ encode a r := by
          rw [hr]
          exact List.mem_append_right _ List.mem_cons_self
        rw [List.eq_of_mem_replicate hb] at hpad
        exact absurd hpad (pad_not_mem_encode ha r)
  obtain ⟨more, hmore⟩ := hmore
  have hvalues := mapM_value?_digit ha (sextets q) (lt_of_mem_sextets q)
  rw [← encode, hmore, List.mapM_append, encode,
    mapM_value?_digit ha (sextets r) (lt_of_mem_sextets r), Option.bind_eq_bind,
    Option.bind_some] at hvalues
  obtain ⟨ms, -, hms⟩ := Option.bind_eq_some_iff.mp hvalues
  have hsextets : sextets r ++ ms = sextets q := Option.some_inj.mp hms
  exact unpack_prefix (sextets r) ms r q (unpack_sextets r) (hsextets ▸ unpack_sextets q)

end Base64

/-! ## Both encodings -/

namespace TransferEncoding

/-- A body that is encoded properly. -/
def IsValid : TransferEncoding → Bytes → Prop
  | .identity, _ => True
  | .quotedPrintable, s => IsQuotedPrintable s
  | .base64, s => Base64.IsPadded Base64.standard (s.filter fun b => !Ascii.isSpace b)

/-- What is read of the start of a body is the start of what is read of all of it, if both are
encoded properly. -/
theorem decode_prefix {e : TransferEncoding} {s t : Bytes} (hs : e.IsValid s)
    (ht : e.IsValid (s ++ t)) : e.decode s <+: e.decode (s ++ t) := by
  cases e with
  | identity => exact List.prefix_append s t
  | quotedPrintable =>
    rw [decode, decode, hs.unquote_append]
    exact List.prefix_append _ _
  | base64 =>
    obtain ⟨r, hr⟩ := (Base64.isPadded_iff Base64.standard_isProper).mp hs
    obtain ⟨q, hq⟩ := (Base64.isPadded_iff Base64.standard_isProper).mp ht
    rw [decode, decode, hr, hq, Option.getD_some, Option.getD_some]
    rw [List.filter_append] at hq
    exact Base64.decode_prefix Base64.standard_isProper hr hq

/-- What is read of the start of a body that is not encoded properly itself.  In quoted-printable
at most two bytes at its end are kept as they stand; in base64 all of it is. -/
theorem decode_of_not_isValid {e : TransferEncoding} {s u : Bytes} (hs : e.IsValid s)
    (hu : u <+: s) (hnot : ¬e.IsValid u) :
    (e = .base64 ∧ e.decode u = u)
      ∨ (e = .quotedPrintable ∧ ∃ v w, u = v ++ w ∧ e.IsValid v ∧ w ≠ [] ∧ w.length ≤ 2
        ∧ e.decode u = e.decode v ++ w) := by
  cases e with
  | identity => exact absurd trivial hnot
  | quotedPrintable =>
    obtain ⟨v, w, rfl, hv, hlength, hw⟩ := exists_escapes_of_prefix hs hu
    refine .inr ⟨rfl, v, w, rfl, hv, ?_, hlength, ?_⟩
    · rintro rfl
      rw [List.append_nil] at hnot
      exact hnot hv
    · rw [decode, decode, hv.unquote_append, hw]
  | base64 =>
    rw [IsValid, Base64.isPadded_iff Base64.standard_isProper, not_exists,
      ← Option.eq_none_iff_forall_ne_some] at hnot
    exact .inl ⟨rfl, by rw [decode, hnot, Option.getD_none]⟩

end TransferEncoding

end ImapMessage
