/-
# Line breaks in parameters

The value of a header field goes on in further lines, so line breaks may stand anywhere in it, even
in a quoted parameter after a backslash, which then stands for the carriage return.  What is read as
the value of a parameter contains no line feed and no carriage return at the end of a line
nevertheless: after a carriage return there is always a space.

Key constructions:
* `Line.IsPaired`: bytes whose line breaks are whole.
* `Line.IsUnbroken`: bytes that cannot reach over the end of a line.
* `Reader.LeavesSuffix`: readers that leave the end of what they read.
* `Word.isUnbroken_of_enclosed`: what is read in quotes.
* `Utf8.isUnbroken_encode_decodeLossy`: the same after decoding and encoding.
* `ContentType.isUnbroken_of_boundary`: boundaries.
-/
import ImapMessage.Entity.Parse
import ImapMessage.Proofs.Field.Gaps
import ImapMessage.Proofs.Text.Utf8Canonical
import Mathlib.Data.List.TakeDrop
import Mathlib.Data.List.TakeWhile

namespace ImapMessage

/-! ## Whole line breaks -/

namespace Line

/-- A line feed stands after each carriage return, and nowhere else but at the start. -/
def IsPaired : Bytes → Prop
  | [] => True
  | b :: s => (b = Ascii.cr ↔ s.head? = some Ascii.lf) ∧ IsPaired s

/-- There is no line feed, and a space stands after each carriage return. -/
def IsUnbroken : Bytes → Prop
  | [] => True
  | b :: s => b ≠ Ascii.lf ∧ (b = Ascii.cr → s.head? = some Ascii.sp) ∧ IsUnbroken s

theorem IsPaired.of_suffix {s t : Bytes} (h : IsPaired s) (ht : t <:+ s) : IsPaired t := by
  induction s with
  | nil => rwa [List.suffix_nil.mp ht]
  | cons b s ih =>
    rcases List.suffix_cons_iff.mp ht with rfl | ht
    · exact h
    · exact ih h.2 ht

theorem IsUnbroken.of_suffix {s t : Bytes} (h : IsUnbroken s) (ht : t <:+ s) : IsUnbroken t := by
  induction s with
  | nil => rwa [List.suffix_nil.mp ht]
  | cons b s ih =>
    rcases List.suffix_cons_iff.mp ht with rfl | ht
    · exact h
    · exact ih h.2.2 ht

theorem IsUnbroken.lf_not_mem {s : Bytes} (h : IsUnbroken s) : Ascii.lf ∉ s := by
  intro hmem
  obtain ⟨u, v, rfl⟩ := List.append_of_mem hmem
  exact (h.of_suffix (List.suffix_append u _)).1 rfl

/-- A carriage return stands before a space. -/
theorem IsUnbroken.exists_of_cr_mem {s : Bytes} (h : IsUnbroken s) (hmem : Ascii.cr ∈ s) :
    ∃ u v, s = u ++ Ascii.cr :: Ascii.sp :: v := by
  obtain ⟨u, t, rfl⟩ := List.append_of_mem hmem
  obtain ⟨v, rfl⟩ := List.head?_eq_some_iff.mp ((h.of_suffix (List.suffix_append u _)).2.1 rfl)
  exact ⟨u, v, rfl⟩

/-- Bytes other than carriage returns and line feeds do not matter before whole line breaks. -/
theorem IsPaired.append {w s : Bytes} (hw : Ascii.cr ∉ w ∧ Ascii.lf ∉ w) (h : IsPaired s)
    (hs : s.head? ≠ some Ascii.lf) : IsPaired (w ++ s) ∧ (w ++ s).head? ≠ some Ascii.lf := by
  induction w with
  | nil => exact ⟨h, hs⟩
  | cons b w ih =>
    rw [List.mem_cons, not_or, List.mem_cons, not_or] at hw
    obtain ⟨hpaired, hhead⟩ := ih ⟨hw.1.2, hw.2.2⟩
    refine ⟨⟨iff_of_false (fun hb => hw.1.1 hb.symm) hhead, hpaired⟩, fun hb => hw.2.1 ?_⟩
    exact (Option.some_inj.mp hb).symm

/-- Bytes other than carriage returns and line feeds do not matter. -/
theorem IsUnbroken.append {w s : Bytes} (hw : Ascii.cr ∉ w ∧ Ascii.lf ∉ w) (h : IsUnbroken s) :
    IsUnbroken (w ++ s) := by
  induction w with
  | nil => exact h
  | cons b w ih =>
    rw [List.mem_cons, not_or, List.mem_cons, not_or] at hw
    exact ⟨fun hb => hw.2.1 hb.symm, fun hb => absurd hb.symm hw.1.1, ih ⟨hw.1.2, hw.2.2⟩⟩

/-- Bytes without carriage returns and line feeds. -/
theorem isUnbroken_of_not_mem {w : Bytes} (hw : Ascii.cr ∉ w ∧ Ascii.lf ∉ w) : IsUnbroken w := by
  have := IsUnbroken.append hw (s := []) trivial
  rwa [List.append_nil] at this

/-- Lines with line breaks between them have whole line breaks. -/
theorem isPaired_intercalate {ws : List Bytes} (h : ∀ w ∈ ws, Ascii.cr ∉ w ∧ Ascii.lf ∉ w) :
    IsPaired (Ascii.crlf.intercalate ws)
      ∧ (Ascii.crlf.intercalate ws).head? ≠ some Ascii.lf := by
  induction ws with
  | nil => exact ⟨trivial, by simp⟩
  | cons w ws ih =>
    have hw := h w List.mem_cons_self
    cases ws with
    | nil =>
      have := IsPaired.append hw (s := []) trivial (by simp)
      rw [List.append_nil] at this
      rwa [List.intercalate_singleton]
    | cons w' ws =>
      obtain ⟨hpaired, hhead⟩ := ih fun v hv => h v (List.mem_cons_of_mem w hv)
      rw [List.intercalate_cons_cons, List.append_assoc]
      have hfirst : some Ascii.cr ≠ some Ascii.lf := by decide
      exact IsPaired.append hw ⟨iff_of_true rfl rfl, iff_of_false (by decide) hhead, hpaired⟩ hfirst

end Line

/-! ## What readers leave -/

/-- What follows the white space and comments at the start is the end of the bytes. -/
theorem Comment.skip_suffix (s : Bytes) : skip s <:+ s := by
  obtain ⟨g, -, heq⟩ := exists_gap s
  exact ⟨g, heq.symm⟩

namespace Reader

/-- What a reader leaves is the end of what it has read from. -/
def LeavesSuffix {α : Type} (p : Reader α) : Prop :=
  ∀ s a rest, p s = some (a, rest) → rest <:+ s

theorem leavesSuffix_byte (c : Char) : LeavesSuffix (byte c) := by
  intro s a rest h
  cases s with
  | nil => cases h
  | cons b s =>
    rw [byte] at h
    split_ifs at h
    cases h
    exact List.suffix_cons b rest

theorem leavesSuffix_run (p : UInt8 → Bool) : LeavesSuffix (run p) := by
  intro s a rest h
  unfold run at h
  rw [List.span_eq_takeWhile_dropWhile] at h
  split at h
  · cases h
  · rename_i w rest' _ hspan
    cases h
    rw [Prod.mk.injEq] at hspan
    rw [← hspan.2]
    exact (Comment.skip_suffix _).trans ((List.dropWhile_suffix _).trans (Comment.skip_suffix s))

theorem LeavesSuffix.orElse {α : Type} {p q : Reader α} (hp : LeavesSuffix p)
    (hq : LeavesSuffix q) : LeavesSuffix (orElse p q) := by
  intro s a rest h
  rcases eq_some_of_orElse h with h | h
  · exact hp s a rest h
  · exact hq s a rest h

end Reader

/-! ## Quoted text -/

namespace Word

/-- What is left of quoted text with one more byte is what is left without it. -/
theorem of_map_cons {x : UInt8} {w rest : Bytes} {e : Option (Bytes × Bytes)}
    (h : (e.map fun (w, r) => (x :: w, r)) = some (w, rest)) :
    ∃ w', e = some (w', rest) ∧ w = x :: w' := by
  obtain ⟨⟨w', r⟩, he, heq⟩ := Option.map_eq_some_iff.mp h
  cases heq
  exact ⟨w', he, rfl⟩

theorem leavesSuffix_enclosed (close : UInt8) (barred : UInt8 → Bool) :
    Reader.LeavesSuffix (enclosed close barred) := by
  intro s w rest h
  fun_induction enclosed close barred s generalizing w with
  | case1 | case3 | case5 | case8 => cases h
  | case2 rest' =>
    cases h
    exact List.suffix_cons close rest
  | case4 c s _ ih =>
    obtain ⟨w', hread, -⟩ := of_map_cons h
    exact (ih w' hread).trans ((List.suffix_cons c s).trans (List.suffix_cons _ _))
  | case6 b _ _ _ c s _ ih => exact (ih w h).trans (List.suffix_cons b _)
  | case7 b _ _ _ c s _ ih =>
    obtain ⟨w', hread, -⟩ := of_map_cons h
    exact (ih w' hread).trans (List.suffix_cons b _)
  | case9 b s _ _ _ _ ih =>
    obtain ⟨w', hread, -⟩ := of_map_cons h
    exact (ih w' hread).trans (List.suffix_cons b s)

/-- What is read in quotes, from bytes whose line breaks are whole, cannot reach over the end of a
line.  If the bytes begin with white space, it begins with a space. -/
theorem isUnbroken_of_enclosed {s w rest : Bytes} (hs : Line.IsPaired s)
    (h : enclosed quote (fun _ => false) s = some (w, rest)) :
    Line.IsUnbroken w ∧ ((∃ b ∈ s.head?, Ascii.isFold b = true) → w.head? = some Ascii.sp) := by
  fun_induction enclosed quote (fun _ => false) s generalizing w with
  | case1 | case3 | case5 | case8 => cases h
  | case2 rest' =>
    cases h
    refine ⟨trivial, ?_⟩
    rintro ⟨b, hb, hfold⟩
    cases hb
    cases hfold
  | case4 c s _ ih =>
    obtain ⟨w', hread, rfl⟩ := of_map_cons h
    obtain ⟨hw, hhead⟩ := ih hs.2.2 hread
    refine ⟨⟨?_, ?_, hw⟩, ?_⟩
    · -- A line feed stands after a carriage return and not after a backslash.
      rintro rfl
      exact absurd (hs.1.mpr rfl) (by decide)
    · -- After a carriage return there is a line feed, which is white space.
      intro hc
      exact hhead ⟨Ascii.lf, hs.2.1.mp hc, rfl⟩
    · rintro ⟨b, hb, hfold⟩
      cases hb
      cases hfold
  | case6 b _ _ _ c s hc ih =>
    obtain ⟨hw, hhead⟩ := ih hs.2 h
    exact ⟨hw, fun _ => hhead ⟨c, rfl, hc⟩⟩
  | case7 b _ _ _ c s _ ih =>
    obtain ⟨w', hread, rfl⟩ := of_map_cons h
    exact ⟨⟨by decide, fun hb => absurd hb (by decide), (ih hs.2 hread).1⟩, fun _ => rfl⟩
  | case9 b s _ _ hfold _ ih =>
    obtain ⟨w', hread, rfl⟩ := of_map_cons h
    refine ⟨⟨?_, ?_, (ih hs.2 hread).1⟩, ?_⟩
    · rintro rfl
      exact hfold rfl
    · rintro rfl
      exact absurd rfl hfold
    · rintro ⟨b', hb', hfold'⟩
      cases hb'
      exact absurd hfold' hfold

theorem leavesSuffix_quotedString : Reader.LeavesSuffix quotedString := by
  intro s w rest h
  unfold quotedString at h
  split at h
  · cases h
  · rename_i b s' hskip
    split_ifs at h
    obtain ⟨⟨w', r⟩, hr, heq⟩ := Option.map_eq_some_iff.mp h
    cases heq
    have hs' : s' <:+ s := (List.suffix_cons b s').trans (hskip ▸ Comment.skip_suffix s)
    exact (Comment.skip_suffix r).trans ((leavesSuffix_enclosed _ _ s' w r hr).trans hs')

theorem isUnbroken_of_quotedString {s w rest : Bytes} (hs : Line.IsPaired s)
    (h : quotedString s = some (w, rest)) : Line.IsUnbroken w := by
  unfold quotedString at h
  split at h
  · cases h
  · rename_i b s' hskip
    split_ifs at h
    obtain ⟨⟨w', r⟩, hr, heq⟩ := Option.map_eq_some_iff.mp h
    cases heq
    have hs' : s' <:+ s := (List.suffix_cons b s').trans (hskip ▸ Comment.skip_suffix s)
    exact (isUnbroken_of_enclosed (hs.of_suffix hs') hr).1

end Word

/-! ## Parameters -/

namespace Parameter

theorem leavesSuffix_bareValue : Reader.LeavesSuffix bareValue := by
  intro s w rest h
  unfold bareValue at h
  rw [List.span_eq_takeWhile_dropWhile] at h
  split at h
  · cases h
  · rename_i w' rest' _ hspan
    cases h
    rw [Prod.mk.injEq] at hspan
    rw [← hspan.2]
    exact (Comment.skip_suffix _).trans (List.dropWhile_suffix _)

/-- A value without quotes has no white space. -/
theorem isUnbroken_of_bareValue {s w rest : Bytes} (h : bareValue s = some (w, rest)) :
    Line.IsUnbroken w := by
  unfold bareValue at h
  rw [List.span_eq_takeWhile_dropWhile] at h
  split at h
  · cases h
  · rename_i w' rest' _ hspan
    cases h
    rw [Prod.mk.injEq] at hspan
    have hbare : ∀ b ∈ w, isBareByte b = true := by
      intro b hb
      rw [← hspan.1] at hb
      exact List.mem_takeWhile_imp hb
    apply Line.isUnbroken_of_not_mem
    exact ⟨fun hcr => absurd (hbare _ hcr) (by decide), fun hlf => absurd (hbare _ hlf) (by decide)⟩

/-- A parameter, read from bytes whose line breaks are whole: what is left of them, and where the
value comes from. -/
theorem of_reader {s rest : Bytes} {p : Parameter} (h : reader s = some (p, rest)) :
    rest <:+ s ∧ (Line.IsPaired s → ∃ w, Line.IsUnbroken w ∧ p.value = Utf8.decodeLossy w) := by
  unfold reader at h
  simp only [Option.bind_eq_bind, Option.bind_eq_some_iff] at h
  obtain ⟨⟨_, s₁⟩, h₁, ⟨name, s₂⟩, h₂, ⟨_, s₃⟩, h₃, ⟨value, s₄⟩, h₄, heq⟩ := h
  cases heq
  have hs₁ : s₁ <:+ s := Reader.leavesSuffix_byte _ s _ s₁ h₁
  have hs₂ : s₂ <:+ s :=
    (Reader.leavesSuffix_run _ _ _ s₂ h₂).trans ((Comment.skip_suffix s₁).trans hs₁)
  have hs₃ : s₃ <:+ s := (Reader.leavesSuffix_byte _ s₂ _ s₃ h₃).trans hs₂
  have hrest := Word.leavesSuffix_quotedString.orElse leavesSuffix_bareValue s₃ value s₄ h₄
  refine ⟨hrest.trans hs₃, fun hs => ⟨value, ?_, rfl⟩⟩
  rcases Reader.eq_some_of_orElse h₄ with h₄ | h₄
  · exact Word.isUnbroken_of_quotedString (hs.of_suffix hs₃) h₄
  · exact isUnbroken_of_bareValue h₄

/-- The values of parameters, one after another. -/
theorem isUnbroken_of_mem_many {s : Bytes} (hs : Line.IsPaired s) :
    ∀ p ∈ (Reader.many reader s).1, ∃ w, Line.IsUnbroken w ∧ p.value = Utf8.decodeLossy w := by
  fun_induction Reader.many reader s with
  | case1 => simp
  | case2 s p rest hread _ ps rest' hmany ih =>
    obtain ⟨hrest, hvalue⟩ := of_reader hread
    rw [hmany] at ih
    intro q hq
    rcases List.mem_cons.mp hq with rfl | hq
    · exact hvalue hs
    · exact ih (hs.of_suffix hrest) q hq
  | case3 => simp

end Parameter

/-! ## Decoding and encoding -/

namespace Utf8

theorem tails_suffix (n v : Nat) (s : Bytes) : (tails n v s).2 <:+ s := by
  fun_induction tails n v s with
  | case1 | case2 | case4 => exact List.suffix_rfl
  | case3 _ _ b rest _ ih => exact ih.trans (List.suffix_cons b rest)

theorem next_suffix (b : UInt8) (s : Bytes) : (next b s).2 <:+ s := by
  unfold next
  split
  · exact List.suffix_rfl
  · split
    · exact List.suffix_rfl
    · exact List.suffix_rfl
    · rename_i c rest _
      split
      · exact (tails_suffix _ _ rest).trans (List.suffix_cons c rest)
      · exact List.suffix_rfl

/-- A byte of ASCII is decoded and encoded by itself. -/
theorem encode_decodeLossy_cons {b : UInt8} (hb : b.toNat < 0x80) (s : Bytes) :
    encode (decodeLossy (b :: s)) = b :: encode (decodeLossy s) := by
  have hcode : (Char.ofNat b.toNat).toNat = b.toNat :=
    Utf16.toNat_ofNat_of_isValidChar (by unfold Nat.isValidChar; omega)
  have hchar : encodeChar (Char.ofNat b.toNat) = [b] := by
    rw [encodeChar_of_lt_two (by omega), toUInt8_eq_of_eq hcode]
  simp only [encode, decodeLossy, scan_cons, next_of_ascii hb, List.map_cons, Option.getD_some,
    String.toList_ofList, List.flatMap_cons, hchar, List.singleton_append]

/-- Any other byte is decoded, with some bytes after it, to a character beyond ASCII. -/
theorem exists_encode_decodeLossy_cons {b : UInt8} (hb : 0x80 ≤ b.toNat) (s : Bytes) :
    ∃ w, encode (decodeLossy (b :: s)) = w ++ encode (decodeLossy (next b s).2)
      ∧ ∀ x ∈ w, 0x80 ≤ x.toNat := by
  have hcons : encode (decodeLossy (b :: s))
      = encodeChar ((next b s).1.getD '\uFFFD') ++ encode (decodeLossy (next b s).2) := by
    simp only [encode, decodeLossy, scan_cons, List.map_cons, String.toList_ofList,
      List.flatMap_cons]
  refine ⟨_, hcons, fun x hx => le_of_mem_encodeChar ?_ hx⟩
  cases hitem : (next b s).1 with
  | none => decide
  | some c =>
    rw [Option.getD_some]
    by_contra hc
    -- A character of ASCII has no first byte beyond ASCII.
    have hnext : next b s = (some c, (next b s).2) := Prod.ext hitem rfl
    have heq := eq_encodeChar_of_next hnext
    rw [encodeChar_of_lt_two (Nat.lt_of_not_le hc), List.singleton_append, List.cons.injEq] at heq
    rw [heq.1, toNat_toUInt8 (by omega)] at hb
    exact hc hb

/-- What cannot reach over the end of a line cannot do so after decoding and encoding. -/
theorem isUnbroken_encode_decodeLossy {s : Bytes} (h : Line.IsUnbroken s) :
    Line.IsUnbroken (encode (decodeLossy s)) := by
  induction hn : s.length using Nat.strongRecOn generalizing s with
  | ind n ih =>
    cases s with
    | nil =>
      rw [encode_decodeLossy_of_ascii (by simp)]
      exact h
    | cons b s =>
      have hrest : ∀ {t : Bytes}, t <:+ s → Line.IsUnbroken (encode (decodeLossy t)) := by
        intro t ht
        have hlength := ht.length_le
        exact ih t.length (by rw [List.length_cons] at hn; omega) (h.2.2.of_suffix ht) rfl
      by_cases hb : b.toNat < 0x80
      · rw [encode_decodeLossy_cons hb]
        refine ⟨h.1, fun hcr => ?_, hrest List.suffix_rfl⟩
        -- The space after a carriage return is decoded by itself.
        obtain ⟨s', rfl⟩ : ∃ s', s = Ascii.sp :: s' := List.head?_eq_some_iff.mp (h.2.1 hcr)
        rw [encode_decodeLossy_cons (by decide)]
        rfl
      · obtain ⟨w, heq, hw⟩ := exists_encode_decodeLossy_cons (Nat.le_of_not_lt hb) s
        rw [heq]
        refine Line.IsUnbroken.append ⟨fun hcr => ?_, fun hlf => ?_⟩ (hrest (next_suffix b s))
        · exact absurd (hw _ hcr) (by decide)
        · exact absurd (hw _ hlf) (by decide)

end Utf8

/-! ## Boundaries -/

namespace ContentType

/-- A boundary, read from bytes whose line breaks are whole, cannot reach over the end of a line. -/
theorem isUnbroken_of_boundary {value boundary : Bytes} {c : ContentType}
    (hvalue : Line.IsPaired value) (hparse : parse value = some c)
    (hboundary : Entity.boundary? c = some boundary) : Line.IsUnbroken boundary := by
  unfold parse reader at hparse
  simp only [Option.bind_eq_bind, Option.map_eq_some_iff, Option.bind_eq_some_iff] at hparse
  obtain ⟨_, ⟨⟨type, s₁⟩, h₁, ⟨_, s₂⟩, h₂, ⟨subtype, s₃⟩, h₃, heq⟩, rfl⟩ := hparse
  cases heq
  have hs₃ : s₃ <:+ value :=
    (Reader.leavesSuffix_run _ _ _ s₃ h₃).trans
      ((Reader.leavesSuffix_byte _ _ _ s₂ h₂).trans (Reader.leavesSuffix_run _ _ _ s₁ h₁))
  have hparameters := Parameter.isUnbroken_of_mem_many (hvalue.of_suffix hs₃)
  unfold Entity.boundary? at hboundary
  split_ifs at hboundary
  obtain ⟨text, htext, rfl⟩ := Option.map_eq_some_iff.mp hboundary
  obtain ⟨p, hp, rfl⟩ := Option.map_eq_some_iff.mp htext
  obtain ⟨w, hw, hvalue⟩ := hparameters p (List.mem_of_find?_eq_some hp)
  rw [hvalue]
  exact Utf8.isUnbroken_encode_decodeLossy hw

end ContentType

end ImapMessage
