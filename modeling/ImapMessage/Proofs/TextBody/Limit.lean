/-
# Texts that are read up to a limit

A limit on the raw bytes of a body cuts the body before its transfer encoding is undone.  If what is
left is properly encoded itself, then the text that is read is the beginning of the text of the
whole body.  Otherwise the cut has gone through an escape or through a group of digits, and raw
bytes are read as text: an incomplete escape of quoted-printable, or everything before the cut in
base64.

Key constructions:
* `TextBody.encodingOf`: the transfer encoding of an entity.
* `TextBody.decode?_of_singleByte`: what is read up to a limit, in a charset of single bytes.
* `TextBody.decode?_limit`: when a limit only truncates, and what happens otherwise.
-/
import ImapMessage.Proofs.Transfer.Truncation
import ImapMessage.Search.Data

namespace ImapMessage

namespace SingleByte

theorem toList_decode (t : SingleByte) (s : Bytes) : (t.decode s).toList = s.map t.decodeByte :=
  String.toList_ofList

/-- Bytes are read one by one. -/
theorem decode_append (t : SingleByte) (s s' : Bytes) :
    t.decode (s ++ s') = t.decode s ++ t.decode s' := by
  rw [← String.toList_inj, String.toList_append, toList_decode, toList_decode, toList_decode,
    List.map_append]

/-- The beginning of some bytes is the beginning of their text. -/
theorem decode_prefix {s s' : Bytes} (h : s <+: s') (t : SingleByte) :
    (t.decode s).toList <+: (t.decode s').toList := by
  rw [toList_decode, toList_decode]
  exact h.map t.decodeByte

end SingleByte

/-- A label of a charset stands for it. -/
theorem Charset.decodeLabelled_of_ofLabel? [FurtherCharsets] {label : Option String}
    {charset : Charset} (h : ofLabel? (label.getD "us-ascii") = some charset) (s : Bytes) :
    decodeLabelled label s = charset.decode s := by
  unfold decodeLabelled
  rw [h]

namespace TextBody

/-- The transfer encoding of an entity. -/
def encodingOf (c : Content) : TransferEncoding :=
  TransferEncoding.ofName (c.header.get? "Content-Transfer-Encoding")

section

variable [FurtherCharsets] {c : Content} {t : SingleByte}
  (htext : c.contentType.isType "text" = true)
  (hcharset : Charset.ofLabel? ((c.contentType.parameter? "charset").getD "us-ascii")
    = some (.singleByte t))

include htext hcharset

/-- In a charset of single bytes, the transfer encoding is undone up to the limit, and then each
byte is one character. -/
theorem decode?_of_singleByte (limit : Nat) :
    decode? limit (.leaf c) = some (t.decode ((encodingOf c).decode (c.body.take limit))) := by
  rw [decode?, if_pos htext, textOf, Charset.decodeLabelled_of_ofLabel? hcharset]
  rfl

/-- A limit on the raw bytes of a text in a charset of single bytes only truncates the text, as long
as what is left of the body is properly encoded itself.  Otherwise, of a body in base64 the raw bytes
before the limit are read as they stand, and of one in quoted-printable the one or two bytes of
an incomplete escape, after the text of what is before them. -/
theorem decode?_limit (hvalid : (encodingOf c).IsValid c.body) (limit : Nat) :
    ((encodingOf c).IsValid (c.body.take limit) → ∃ text whole,
      decode? limit (.leaf c) = some text ∧ decode? c.body.length (.leaf c) = some whole
        ∧ text.toList <+: whole.toList)
      ∧ (¬(encodingOf c).IsValid (c.body.take limit) →
        (encodingOf c = .base64
          ∧ decode? limit (.leaf c) = some (t.decode (c.body.take limit)))
        ∨ (encodingOf c = .quotedPrintable ∧ ∃ n, n < limit ∧ limit ≤ n + 2
          ∧ (encodingOf c).IsValid (c.body.take n)
          ∧ decode? limit (.leaf c) = (decode? n (.leaf c)).map
            (· ++ t.decode ((c.body.take limit).drop n)))) := by
  have hread := decode?_of_singleByte htext hcharset
  refine ⟨fun hcut => ?_, fun hcut => ?_⟩
  · have hwhole := c.body.take_append_drop limit
    refine ⟨_, _, hread limit, hread c.body.length, SingleByte.decode_prefix ?_ t⟩
    rw [List.take_length]
    conv_rhs => rw [← hwhole]
    exact TransferEncoding.decode_prefix hcut (hwhole.symm ▸ hvalid)
  · rcases TransferEncoding.decode_of_not_isValid hvalid (List.take_prefix limit c.body) hcut with
      ⟨hbase64, hraw⟩ | ⟨hquoted, v, w, hsplit, hv, hne, hlength, hdecode⟩
    · exact .inl ⟨hbase64, by rw [hread, hraw]⟩
    · -- A limit beyond the end would not cut anything.
      have hlimit : limit ≤ c.body.length := by
        by_contra hlt
        rw [List.take_of_length_le (by omega)] at hcut
        exact hcut hvalid
      have hsum : limit = v.length + w.length := by
        rw [← List.length_append, ← hsplit, List.length_take_of_le hlimit]
      have hw : 0 < w.length := List.length_pos_iff.mpr hne
      have htake : c.body.take v.length = v := by
        have := congrArg (List.take v.length) hsplit
        rwa [List.take_take, Nat.min_eq_left (by omega), List.take_left] at this
      refine .inr ⟨hquoted, v.length, by omega, by omega, htake.symm ▸ hv, ?_⟩
      rw [hread, hread, htake, hdecode, SingleByte.decode_append, hsplit, List.drop_left]
      rfl

end

/-- A text of two bytes in base64. -/
def twoBytes : Content :=
  Entity.contentOf ⟨[⟨"Content-Transfer-Encoding", Utf8.encode "base64"⟩]⟩ (Utf8.encode "aGk=")

theorem isType_twoBytes : twoBytes.contentType.isType "text" = true := by decide +kernel

theorem ofLabel?_twoBytes :
    Charset.ofLabel? ((twoBytes.contentType.parameter? "charset").getD "us-ascii")
      = some (.singleByte .windows1252) := by
  decide +kernel

theorem encodingOf_twoBytes : encodingOf twoBytes = .base64 := by decide +kernel

theorem isValid_twoBytes : (encodingOf twoBytes).IsValid twoBytes.body := by
  rw [encodingOf_twoBytes]
  exact (Base64.isPadded_iff Base64.standard_isProper).mpr ⟨Utf8.encode "hi", by decide +kernel⟩

/-- Without the padding the text is still read, and without its last digit no more. -/
theorem decode?_limit_two_bytes :
    (encodingOf twoBytes).IsValid (twoBytes.body.take 3)
      ∧ (∃ text whole, decode? 3 (.leaf twoBytes) = some text
        ∧ decode? 4 (.leaf twoBytes) = some whole ∧ text.toList <+: whole.toList)
      ∧ ¬(encodingOf twoBytes).IsValid (twoBytes.body.take 2)
      ∧ decode? 2 (.leaf twoBytes) = some "aG" := by
  have hlimit := decode?_limit isType_twoBytes ofLabel?_twoBytes isValid_twoBytes
  have hthree : (encodingOf twoBytes).IsValid (twoBytes.body.take 3) := by
    rw [encodingOf_twoBytes]
    exact (Base64.isPadded_iff Base64.standard_isProper).mpr ⟨Utf8.encode "hi", by decide +kernel⟩
  have hnone : Base64.decode Base64.standard
      ((twoBytes.body.take 2).filter fun b => !Ascii.isSpace b) = none := by
    decide +kernel
  have htwo : ¬(encodingOf twoBytes).IsValid (twoBytes.body.take 2) := by
    rw [encodingOf_twoBytes, TransferEncoding.IsValid,
      Base64.isPadded_iff Base64.standard_isProper, hnone]
    rintro ⟨r, ⟨⟩⟩
  refine ⟨hthree, (hlimit 3).1 hthree, htwo, ?_⟩
  rcases (hlimit 2).2 htwo with ⟨-, hraw⟩ | ⟨hquoted, -⟩
  · rw [hraw]
    decide +kernel
  · rw [encodingOf_twoBytes] at hquoted
    cases hquoted

/-- A limit after two of the three digits of a text shows the digits, which are not the beginning of
the text, and the search finds them in the message. -/
theorem not_truncated_two_digits :
    twoBytes.contentType.isType "text" = true
      ∧ twoBytes.contentType.parameter? "charset" = some "us-ascii"
      ∧ (encodingOf twoBytes).IsValid twoBytes.body
      ∧ decode? 2 (.leaf twoBytes) = some "aG"
      ∧ decode? twoBytes.body.length (.leaf twoBytes) = some "hi"
      ∧ ¬"aG".toList <+: "hi".toList
      ∧ SearchData.contentText 2 (.leaf twoBytes) = "aG" ++ SearchData.nul := by
  refine ⟨isType_twoBytes, by decide +kernel, isValid_twoBytes, by decide +kernel, by decide +kernel,
    by decide, by decide +kernel⟩

end TextBody

end ImapMessage
