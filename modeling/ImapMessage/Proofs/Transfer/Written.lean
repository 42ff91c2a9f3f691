/-
# Encoded bodies as they are written

Quoted-printable leaves many choices to the writer: every byte except the equals sign may stand for
itself or be escaped, with digits in either case, and lines may be broken softly anywhere between.
Base64 may be padded or not, and white space may stand anywhere in it.  Whatever the choices are,
the body is read back as what was written, and only bodies that are written in this way are encoded
properly.

Key constructions:
* `TransferEncoding.Quotes`: bytes in quoted-printable.
* `Ascii.Spread`: a text with white space anywhere.
* `TransferEncoding.Writes`: bytes in any of the encodings.
* `TransferEncoding.writes_iff`: what is written is read back, and nothing else is encoded properly.
-/
import ImapMessage.Proofs.Text.Ascii
import ImapMessage.Proofs.Transfer.Truncation

namespace ImapMessage

/-! ## White space anywhere -/

namespace Ascii

/-- A text with white space before, between and after its bytes. -/
inductive Spread : Bytes → Bytes → Prop where
  | nil : Spread [] []
  | byte (b : UInt8) {s t : Bytes} (h : Spread s t) : Spread (b :: s) (b :: t)
  | space {b : UInt8} {s t : Bytes} (hb : isSpace b = true) (h : Spread s t) : Spread s (b :: t)

/-- A text without white space is found again among the white space. -/
theorem spread_iff {s t : Bytes} (hs : ∀ b ∈ s, isSpace b = false) :
    Spread s t ↔ t.filter (fun b => !isSpace b) = s := by
  constructor
  · intro h
    induction h with
    | nil => rfl
    | byte b h ih =>
      rw [List.filter_cons_of_pos (by simp [hs b List.mem_cons_self]),
        ih fun c hc => hs c (List.mem_cons_of_mem b hc)]
    | space hb h ih => rw [List.filter_cons_of_neg (by simp [hb]), ih hs]
  · rintro rfl
    induction t with
    | nil => exact .nil
    | cons b t ih =>
      cases hb : isSpace b with
      | true =>
        rw [List.filter_cons_of_neg (by simp [hb])]
        exact .space hb (ih fun c hc => by simpa using (List.mem_filter.mp hc).2)
      | false =>
        rw [List.filter_cons_of_pos (by simp [hb])]
        exact .byte b (ih fun c hc => by simpa using (List.mem_filter.mp hc).2)

end Ascii

/-- Neither digits nor padding are white space. -/
theorem Base64.isSpace_of_writes {r s : Bytes} (h : Writes standard r s) :
    ∀ b ∈ s, Ascii.isSpace b = false := by
  obtain ⟨n, -, rfl⟩ := h
  intro b hb
  rcases List.mem_append.mp hb with hb | hb
  · obtain ⟨m, hm, rfl⟩ := List.mem_map.mp hb
    have hdigit : ∀ m < 64, Ascii.isSpace (standard.digit m) = false := by decide
    exact hdigit m (lt_of_mem_sextets r m hm)
  · rw [List.eq_of_mem_replicate hb]
    rfl

namespace TransferEncoding

/-! ## Quoted-printable -/

/-- Bytes in quoted-printable: each byte, unless it is an equals sign, stands for itself, or an
equals sign and two hexadecimal digits stand for it, and an equals sign before a line ending stands
for nothing. -/
inductive Quotes : Bytes → Bytes → Prop where
  | nil : Quotes [] []
  | plain {b : UInt8} {v s : Bytes} (hb : b ≠ escapeMark) (h : Quotes v s) :
      Quotes (b :: v) (b :: s)
  | escape {b c d : UInt8} {v s : Bytes} (hcd : Ascii.IsHexPair b c d) (h : Quotes v s) :
      Quotes (b :: v) (escapeMark :: c :: d :: s)
  | lf {v s : Bytes} (h : Quotes v s) : Quotes v (escapeMark :: Ascii.lf :: s)
  | crlf {v s : Bytes} (h : Quotes v s) : Quotes v (escapeMark :: Ascii.cr :: Ascii.lf :: s)

section

variable (s : Bytes)

theorem unquote_nil : unquote [] = [] := by
  rw [unquote, unquoteFrom]
  rfl

theorem unquote_plain {b : UInt8} (hb : b ≠ escapeMark) : unquote (b :: s) = b :: unquote s := by
  rw [unquote, unquoteFrom_plain _ _ hb, unquoteFrom_eq]
  rfl

theorem unquote_escape {b c d : UInt8} (h : Ascii.hexByte c d = some b) :
    unquote (escapeMark :: c :: d :: s) = b :: unquote s := by
  rw [unquote, unquoteFrom_escape _ _ h, unquoteFrom_eq]
  rfl

theorem unquote_lf : unquote (escapeMark :: Ascii.lf :: s) = unquote s :=
  unquoteFrom_lf [] s

theorem unquote_crlf : unquote (escapeMark :: Ascii.cr :: Ascii.lf :: s) = unquote s :=
  unquoteFrom_crlf [] s

end

/-- Quoted bytes are read back. -/
theorem Quotes.unquote_eq {v s : Bytes} (h : Quotes v s) : unquote s = v := by
  induction h with
  | nil => exact unquote_nil
  | plain hb _ ih => rw [unquote_plain _ hb, ih]
  | escape hcd _ ih => rw [unquote_escape _ (Ascii.hexByte_eq_some_iff.mpr hcd), ih]
  | lf _ ih => rw [unquote_lf, ih]
  | crlf _ ih => rw [unquote_crlf, ih]

/-- Every escape in quoted bytes is complete. -/
theorem Quotes.isQuotedPrintable {v s : Bytes} (h : Quotes v s) : IsQuotedPrintable s := by
  induction h with
  | nil => exact .nil
  | plain hb _ ih => exact .plain hb ih
  | escape hcd _ ih => exact .escape (Ascii.hexByte_eq_some_iff.mpr hcd) ih
  | lf _ ih => exact .lf ih
  | crlf _ ih => exact .crlf ih

/-- Complete escapes write what is read from them. -/
theorem IsQuotedPrintable.quotes {s : Bytes} (h : IsQuotedPrintable s) : Quotes (unquote s) s := by
  induction h with
  | nil =>
    rw [unquote_nil]
    exact .nil
  | plain hb _ ih =>
    rw [unquote_plain _ hb]
    exact .plain hb ih
  | lf _ ih =>
    rw [unquote_lf]
    exact .lf ih
  | crlf _ ih =>
    rw [unquote_crlf]
    exact .crlf ih
  | escape hx _ ih =>
    rw [unquote_escape _ hx]
    exact .escape (Ascii.hexByte_eq_some_iff.mp hx) ih

/-! ## All encodings -/

/-- Bytes are written as a body in an encoding. -/
def Writes : TransferEncoding → Bytes → Bytes → Prop
  | .identity, v, s => s = v
  | .quotedPrintable, v, s => Quotes v s
  | .base64, v, s => ∃ t, Base64.Writes Base64.standard v t ∧ Ascii.Spread t s

theorem writes_base64_iff {v s : Bytes} : Writes .base64 v s
    ↔ Base64.decode Base64.standard (s.filter fun b => !Ascii.isSpace b) = some v := by
  rw [Base64.decode_eq_some_iff_writes Base64.standard_isProper]
  constructor
  · rintro ⟨t, ht, hs⟩
    rwa [(Ascii.spread_iff (Base64.isSpace_of_writes ht)).mp hs]
  · intro h
    exact ⟨_, h, (Ascii.spread_iff (Base64.isSpace_of_writes h)).mpr rfl⟩

/-- Bytes that are written in an encoding are read back, and every body that is encoded properly is
written in this way. -/
theorem writes_iff {e : TransferEncoding} {v s : Bytes} :
    e.Writes v s ↔ e.IsValid s ∧ e.decode s = v := by
  cases e with
  | identity => exact ⟨fun h => ⟨trivial, h⟩, fun h => h.2⟩
  | quotedPrintable =>
    constructor
    · intro h
      exact ⟨h.isQuotedPrintable, h.unquote_eq⟩
    · rintro ⟨h, rfl⟩
      exact h.quotes
  | base64 =>
    rw [writes_base64_iff, IsValid, Base64.isPadded_iff Base64.standard_isProper, decode]
    constructor
    · intro h
      exact ⟨⟨v, h⟩, by rw [h, Option.getD_some]⟩
    · rintro ⟨⟨r, hr⟩, rfl⟩
      rw [hr, Option.getD_some]

end TransferEncoding

end ImapMessage
