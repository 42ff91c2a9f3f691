/-
# Texts without a declared charset

A text that declares no charset, or plain ASCII, is read in windows-1252, of which ASCII is a part.
Every byte is one character there and none is unreadable, so that nothing is left to be read as
UTF-8: the text is what reading UTF-8 would give exactly if all bytes are ASCII.

Key constructions:
* `Utf8.length_scan_le`: reading UTF-8 gives at most one item for each byte.
* `SingleByte.decode_eq_decodeLossy_iff`: texts in a charset of single bytes and in UTF-8.
* `TextBody.decode?_undeclared`: what is read if no charset is declared.
-/
import ImapMessage.Proofs.TextBody.Limit
import ImapMessage.Proofs.Text.Utf8Canonical

namespace ImapMessage

/-! ## Single bytes and UTF-8 -/

namespace Utf8

/-- Every item takes a byte at least. -/
theorem length_scan_le (s : Bytes) : (scan s).length ≤ s.length := by
  induction hn : s.length using Nat.strongRecOn generalizing s with
  | ind n ih =>
    cases s with
    | nil => simp
    | cons b s =>
      have hrest := next_length_le b s
      rw [List.length_cons] at hn
      have := ih (next b s).2.length (by omega) (next b s).2 rfl
      rw [scan_cons, List.length_cons]
      omega

/-- The bytes of a character are ASCII exactly if it is. -/
theorem ascii_encodeChar_iff (c : Char) :
    (∀ b ∈ encodeChar c, b.toNat < 0x80) ↔ c.toNat < 0x80 := by
  constructor
  · intro h
    obtain ⟨b, s, hform, -⟩ := next_encodeChar c []
    have hb : b ∈ encodeChar c := hform ▸ List.mem_cons_self
    by_contra hc
    exact absurd (h b hb) (Nat.not_lt.mpr (le_of_mem_encodeChar (Nat.not_lt.mp hc) hb))
  · intro h b hb
    rw [encodeChar_of_lt_two h, List.mem_singleton] at hb
    rw [hb, toNat_toUInt8 (by omega)]
    exact h

/-- The bytes of a text are ASCII exactly if its characters are. -/
theorem ascii_encode_iff (s : String) :
    (∀ b ∈ encode s, b.toNat < 0x80) ↔ ∀ c ∈ s.toList, c.toNat < 0x80 := by
  rw [encode, List.forall_mem_flatMap]
  exact forall₂_congr fun c _ => ascii_encodeChar_iff c

/-- The form of a character beyond ASCII has two bytes at least. -/
theorem two_le_length_encodeChar {c : Char} (h : 0x80 ≤ c.toNat) :
    2 ≤ (encodeChar c).length := by
  by_cases h2 : c.toNat < 0x800
  · rw [encodeChar_of_lt_three h h2]
    exact Nat.le_refl 2
  · by_cases h3 : c.toNat < 0x10000
    · rw [encodeChar_of_lt_four (by omega) h3]
      exact Nat.le_succ 2
    · rw [encodeChar_of_four_le (by omega)]
      exact Nat.le_add_right 2 2

/-- A byte beyond ASCII is unreadable, or takes further bytes with it. -/
theorem next_of_not_ascii {b : UInt8} (hb : 0x80 ≤ b.toNat) (s : Bytes) :
    (next b s).1 = none ∨ (next b s).2.length < s.length := by
  cases hread : (next b s).1 with
  | none => exact .inl rfl
  | some c =>
    have hform : b :: s = encodeChar c ++ (next b s).2 :=
      eq_encodeChar_of_next (Prod.ext hread rfl)
    have hc : 0x80 ≤ c.toNat := by
      by_contra hascii
      rw [encodeChar_of_lt_two (Nat.not_le.mp hascii), List.singleton_append, List.cons.injEq]
        at hform
      have hcode := toNat_toUInt8 (n := c.toNat) (by omega)
      rw [← hform.1] at hcode
      omega
    have hlength := congrArg List.length hform
    rw [List.length_cons, List.length_append] at hlength
    have := two_le_length_encodeChar hc
    exact .inr (by omega)

end Utf8

namespace SingleByte

/-- A charset of single bytes that has a character for every byte agrees with UTF-8 exactly on
ASCII. -/
theorem decode_eq_decodeLossy_iff {t : SingleByte}
    (ht : ∀ b : UInt8, 0x80 ≤ b.toNat → t.decodeByte b ≠ '\uFFFD') (s : Bytes) :
    t.decode s = Utf8.decodeLossy s ↔ ∀ b ∈ s, b.toNat < 0x80 := by
  rw [← String.toList_inj, toList_decode, Utf8.decodeLossy, String.toList_ofList]
  induction s with
  | nil => simp
  | cons b s ih =>
    rw [List.map_cons, Utf8.scan_cons, List.map_cons, List.cons.injEq, List.forall_mem_cons]
    by_cases hb : b.toNat < 0x80
    · have hchar : t.decodeByte b = Char.ofNat b.toNat := if_pos (UInt8.lt_iff_toNat_lt.mpr hb)
      rw [Utf8.next_of_ascii hb, hchar, ih]
      simp [hb]
    · refine iff_of_false ?_ fun h => hb h.1
      rintro ⟨hhead, htail⟩
      -- Either the first item is unreadable, or it leaves fewer items than bytes.
      have hlength := congrArg List.length htail
      rw [List.length_map, List.length_map] at hlength
      have hle := Utf8.length_scan_le (Utf8.next b s).2
      rcases Utf8.next_of_not_ascii (Nat.not_lt.mp hb) s with hnone | hshort
      · rw [hnone] at hhead
        exact ht b (Nat.not_lt.mp hb) hhead
      · omega

/-- Windows-1252 has a character for every byte. -/
theorem decodeByte_windows1252_ne {b : UInt8} (hb : 0x80 ≤ b.toNat) :
    windows1252.decodeByte b ≠ '\uFFFD' := by
  have hall : ∀ n < 256, 0x80 ≤ n → windows1252.decodeByte n.toUInt8 ≠ '\uFFFD' := by
    decide +kernel
  have := hall b.toNat b.toNat_lt hb
  rwa [toUInt8_eq_of_eq (b := b) rfl] at this

end SingleByte

namespace TextBody

/-- Plain ASCII is read in windows-1252. -/
theorem ofLabel?_undeclared [FurtherCharsets] {label : Option String}
    (h : ∀ l ∈ label, Ascii.lowerName (Charset.trimLabel l) = "us-ascii") :
    Charset.ofLabel? (label.getD "us-ascii") = some (.singleByte .windows1252) := by
  have hname : Ascii.lowerName (Charset.trimLabel (label.getD "us-ascii")) = "us-ascii" := by
    cases label with
    | none => decide
    | some l => exact h l rfl
  have hlisted : Charset.ofListed? "us-ascii" = some (.singleByte .windows1252) := by decide
  rw [Charset.ofLabel?, hname, hlisted]
  rfl

/-- A text that declares no charset, or plain ASCII in any letter case, is read in windows-1252 once
its transfer encoding is undone.  It is read as UTF-8 with replacements would be if and only if
the bytes are ASCII; so a text in UTF-8 is read as it is if and only if its characters are. -/
theorem decode?_undeclared [FurtherCharsets] {c : Content}
    (htext : c.contentType.isType "text" = true)
    (hcharset : ∀ label ∈ c.contentType.parameter? "charset",
      Ascii.lowerName (Charset.trimLabel label) = "us-ascii")
    {limit : Nat} (hlimit : c.body.length ≤ limit) :
    decode? limit (.leaf c)
        = some (SingleByte.windows1252.decode ((encodingOf c).decode c.body))
      ∧ (decode? limit (.leaf c) = some (Utf8.decodeLossy ((encodingOf c).decode c.body))
        ↔ ∀ b ∈ (encodingOf c).decode c.body, b.toNat < 0x80)
      ∧ ∀ text, (encodingOf c).decode c.body = Utf8.encode text →
        (decode? limit (.leaf c) = some text ↔ ∀ x ∈ text.toList, x.toNat < 0x80) := by
  have hread : decode? limit (.leaf c)
      = some (SingleByte.windows1252.decode ((encodingOf c).decode c.body)) := by
    rw [decode?_of_singleByte htext (ofLabel?_undeclared hcharset), List.take_of_length_le hlimit]
  have hiff : decode? limit (.leaf c) = some (Utf8.decodeLossy ((encodingOf c).decode c.body))
      ↔ ∀ b ∈ (encodingOf c).decode c.body, b.toNat < 0x80 := by
    rw [hread, Option.some.injEq]
    exact SingleByte.decode_eq_decodeLossy_iff
      (fun _ hb => SingleByte.decodeByte_windows1252_ne hb) _
  refine ⟨hread, hiff, fun text hbody => ?_⟩
  rw [hbody, Utf8.decodeLossy_encode, Utf8.ascii_encode_iff] at hiff
  exact hiff

/-- A text in base64 that declares plain ASCII. -/
def declaredAscii : Content :=
  Entity.contentOf ⟨[⟨"Content-Type", Utf8.encode "text/plain; charset=US-ASCII"⟩,
    ⟨"Content-Transfer-Encoding", Utf8.encode "base64"⟩]⟩ (Utf8.encode "aGk=")

/-- The text of two letters is read as it is. -/
theorem decode?_undeclared_two_letters :
    declaredAscii.contentType.isType "text" = true
      ∧ declaredAscii.contentType.parameter? "charset" = some "US-ASCII"
      ∧ decode? 4 (.leaf declaredAscii) = some "hi" := by
  have htext : declaredAscii.contentType.isType "text" = true := by decide +kernel
  have hlabel : declaredAscii.contentType.parameter? "charset" = some "US-ASCII" := by
    decide +kernel
  have hcharset : ∀ label ∈ declaredAscii.contentType.parameter? "charset",
      Ascii.lowerName (Charset.trimLabel label) = "us-ascii" := by
    rw [hlabel]
    rintro label ⟨⟩
    decide
  have hbody : (encodingOf declaredAscii).decode declaredAscii.body = Utf8.encode "hi" := by
    decide +kernel
  have hlimit : declaredAscii.body.length ≤ 4 := by decide
  obtain ⟨-, -, hutf8⟩ := decode?_undeclared htext hcharset hlimit
  exact ⟨htext, hlabel, (hutf8 "hi" hbody).mpr (by decide)⟩

/-- A text without a charset, with a character that is not ASCII. -/
def accented : Content :=
  Entity.contentOf ⟨[⟨"Content-Type", Utf8.encode "text/plain"⟩]⟩ (Utf8.encode "é")

/-- The text in UTF-8 is not read as it is, but byte by byte. -/
theorem not_unchanged_accented :
    accented.contentType.isType "text" = true
      ∧ accented.contentType.parameter? "charset" = none
      ∧ Utf8.decodeLossy ((encodingOf accented).decode accented.body) = "é"
      ∧ decode? accented.body.length (.leaf accented) = some "Ã©" := by
  refine ⟨by decide +kernel, by decide +kernel, by decide +kernel, by decide +kernel⟩

end TextBody

end ImapMessage
