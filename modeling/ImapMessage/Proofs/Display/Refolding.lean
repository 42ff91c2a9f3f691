/-
# Refolded values

Whoever passes a message on may fold its long header lines anew: a line break and some white space
take the place of a space between two words.  What a value without further structure shows does not
depend on where it is folded.

Key constructions:
* `Display.IsSpacing`: a space, or a fold in its place.
* `Display.IsFolding`: some words, folded in one way or another.
* `Display.unfold_of_isFolding`: all of these are one value.
* `Display.unstructured_of_isFolding`: and they show the same.
-/
import ImapMessage.Display

namespace ImapMessage

namespace Display

/-! ## Ways to fold -/

/-- What may stand between two words: a space, or a line break and some spaces and tabs at the start
of the next line. -/
inductive IsSpacing : Bytes → Prop where
  | space : IsSpacing [Ascii.sp]
  | fold {ending indent : Bytes} (hending : ending = Ascii.crlf ∨ ending = [Ascii.lf])
      (hne : indent ≠ []) (hindent : ∀ b ∈ indent, b = Ascii.sp ∨ b = Ascii.tab) :
      IsSpacing (ending ++ indent)

/-- Words with a space or a fold between each two of them. -/
inductive IsFolding : List Bytes → Bytes → Prop where
  | nil : IsFolding [] []
  | one (word : Bytes) : IsFolding [word] word
  | cons {word next spacing s : Bytes} {words : List Bytes} (hspacing : IsSpacing spacing)
      (h : IsFolding (next :: words) s) : IsFolding (word :: next :: words) (word ++ (spacing ++ s))

/-- The bytes of a word: at least one, and no white space. -/
structure IsUnspaced (word : Bytes) : Prop where
  /-- It is not empty. -/
  ne_nil : word ≠ []
  /-- There is no white space in it. -/
  not_fold : ∀ b ∈ word, Ascii.isFold b = false

/-- Words with single spaces between them are folded nowhere. -/
theorem isFolding_joined (words : List Bytes) :
    IsFolding words ([Ascii.sp].intercalate words) := by
  induction words with
  | nil => exact .nil
  | cons word words ih =>
    cases words with
    | nil =>
      rw [List.intercalate_singleton]
      exact .one word
    | cons next words =>
      rw [List.intercalate_cons_cons, List.append_assoc]
      exact .cons .space ih

/-- A fold contains a line feed, so text without one is folded nowhere. -/
theorem IsFolding.eq_joined {words : List Bytes} {s : Bytes} (h : IsFolding words s)
    (hs : Ascii.lf ∉ s) : s = [Ascii.sp].intercalate words := by
  induction h with
  | nil => rfl
  | one word => rw [List.intercalate_singleton]
  | @cons word next spacing s words hspacing _ ih =>
    simp only [List.mem_append, not_or] at hs
    obtain ⟨-, hbreak, hrest⟩ := hs
    rw [List.intercalate_cons_cons, List.append_assoc, ← ih hrest]
    cases hspacing with
    | space => rfl
    | fold hending =>
      -- Either line ending ends with the line feed.
      refine absurd (List.mem_append_left _ ?_) hbreak
      rcases hending with rfl | rfl
      · exact List.mem_cons_of_mem _ List.mem_cons_self
      · exact List.mem_cons_self

/-! ## Unfolding -/

section

variable {word s : Bytes}

/-- A byte that is no white space ends a fold and is kept. -/
theorem unfoldFrom_cons {b : UInt8} (hb : Ascii.isFold b = false) (done : Bytes) (folded : Bool) :
    unfoldFrom done folded (b :: s) = unfoldFrom (b :: done) false s := by
  have hbreak : ¬(b = Ascii.cr ∨ b = Ascii.lf) := by
    rintro (rfl | rfl) <;> exact absurd hb (by decide)
  rw [unfoldFrom, hb, Bool.and_false, if_neg Bool.false_ne_true, if_neg hbreak]

/-- A word is kept, whether or not it stands after a fold. -/
theorem unfoldFrom_word (h : IsUnspaced word) (done : Bytes) (folded : Bool) :
    unfoldFrom done folded (word ++ s) = unfoldFrom (word.reverse ++ done) false s := by
  have hkeep : ∀ w : Bytes, (∀ b ∈ w, Ascii.isFold b = false) → ∀ done,
      unfoldFrom done false (w ++ s) = unfoldFrom (w.reverse ++ done) false s := by
    intro w hw
    induction w with
    | nil => exact fun _ => rfl
    | cons b w ih =>
      intro done
      obtain ⟨hb, hw⟩ := List.forall_mem_cons.mp hw
      rw [List.cons_append, unfoldFrom_cons hb, ih hw, List.reverse_cons, List.append_assoc,
        List.singleton_append]
  obtain ⟨b, w, rfl⟩ := List.exists_cons_of_ne_nil h.ne_nil
  obtain ⟨hb, hw⟩ := List.forall_mem_cons.mp h.not_fold
  rw [List.cons_append, unfoldFrom_cons hb, hkeep w hw, List.reverse_cons, List.append_assoc,
    List.singleton_append]

/-- White space after a line break is dropped. -/
theorem unfoldFrom_indent {indent : Bytes} (h : ∀ b ∈ indent, Ascii.isFold b = true)
    (done : Bytes) : unfoldFrom done true (indent ++ s) = unfoldFrom done true s := by
  induction indent with
  | nil => rfl
  | cons b indent ih =>
    obtain ⟨hb, hindent⟩ := List.forall_mem_cons.mp h
    rw [List.cons_append, unfoldFrom, hb, Bool.and_true, if_pos rfl, ih hindent]

/-- A space is kept, and one takes the place of a fold. -/
theorem unfoldFrom_spacing {spacing : Bytes} (h : IsSpacing spacing) (done : Bytes) :
    ∃ folded, unfoldFrom done false (spacing ++ s) = unfoldFrom (Ascii.sp :: done) folded s := by
  cases h with
  | space => exact ⟨false, rfl⟩
  | @fold ending indent hending _ hindent =>
    have hblank : ∀ b ∈ indent, Ascii.isFold b = true := by
      intro b hb
      rcases hindent b hb with rfl | rfl <;> rfl
    refine ⟨true, ?_⟩
    rw [List.append_assoc, ← unfoldFrom_indent hblank]
    rcases hending with rfl | rfl
    · -- The line feed is white space after the carriage return.
      have hlf : ∀ b ∈ [Ascii.lf], Ascii.isFold b = true := by decide
      exact unfoldFrom_indent hlf _
    · rfl

end

/-- Going through a folded text keeps its words, with a space between each two of them. -/
theorem unfoldFrom_of_isFolding {words : List Bytes} {s : Bytes} (h : IsFolding words s)
    (hwords : ∀ w ∈ words, IsUnspaced w) (done : Bytes) (folded : Bool) :
    unfoldFrom done folded s = done.reverse ++ [Ascii.sp].intercalate words := by
  induction h generalizing done folded with
  | nil => rw [unfoldFrom, List.intercalate_nil, List.append_nil]
  | one word =>
    have hword := hwords word List.mem_cons_self
    have := unfoldFrom_word (s := []) hword done folded
    rw [List.append_nil] at this
    rw [this, unfoldFrom, List.reverse_append, List.reverse_reverse, List.intercalate_singleton]
  | @cons word next spacing s words hspacing _ ih =>
    obtain ⟨hword, hrest⟩ := List.forall_mem_cons.mp hwords
    obtain ⟨folded', hspace⟩ := unfoldFrom_spacing (s := s) hspacing (word.reverse ++ done)
    rw [unfoldFrom_word hword, hspace, ih hrest, List.intercalate_cons_cons]
    simp

/-- Unfolding leaves the words with single spaces between them, however they were folded. -/
theorem unfold_of_isFolding {words : List Bytes} {s : Bytes} (h : IsFolding words s)
    (hwords : ∀ w ∈ words, IsUnspaced w) : unfold s = [Ascii.sp].intercalate words := by
  unfold unfold
  split
  · exact unfoldFrom_of_isFolding h hwords [] false
  · rename_i hlf
    rw [List.contains_iff_mem] at hlf
    exact h.eq_joined hlf

/-- **A value shows the same however it is folded.**  Let words without white space stand with
single spaces between them, and in another text with a fold in place of any of these spaces: a line
break with or without a carriage return, and then any spaces and tabs, at least one.  Both texts
show the same, whatever bytes the words consist of: the words with single spaces between them,
trimmed and with encoded words decoded. -/
theorem unstructured_of_isFolding [FurtherCharsets] (words : List Bytes)
    (hwords : ∀ w ∈ words, IsUnspaced w) (s : Bytes) (h : IsFolding words s) :
    unstructured s = unstructured ([Ascii.sp].intercalate words)
      ∧ unstructured s = EncodedWord.decodeText
        (Blank.trim (Utf8.decodeLossy ([Ascii.sp].intercalate words))) := by
  have hjoined := unfold_of_isFolding (isFolding_joined words) hwords
  rw [unstructured, unstructured, unfold_of_isFolding h hwords, hjoined]
  exact ⟨rfl, rfl⟩

/-- Two encoded words, and the first byte of a character without the second one. -/
def sampleWords : List Bytes :=
  [Utf8.encode "=?utf-8?q?a?=", Utf8.encode "=?utf-8?q?b?=", [0xC3], Utf8.encode "c"]

/-- `sampleWords` with a fold in two places. -/
def sampleFolded : Bytes :=
  Utf8.encode "=?utf-8?q?a?=" ++ ((Ascii.crlf ++ [Ascii.tab, Ascii.sp])
    ++ (Utf8.encode "=?utf-8?q?b?=" ++ ([Ascii.sp]
      ++ ([0xC3] ++ (([Ascii.lf] ++ [Ascii.sp]) ++ Utf8.encode "c")))))

/-- Between encoded words a fold is dropped like a space, and a character that breaks off is not
continued in the next line. -/
theorem unstructured_of_isFolding_sample :
    (∀ w ∈ sampleWords, IsUnspaced w) ∧ IsFolding sampleWords sampleFolded
      ∧ unstructured sampleFolded = unstructured ([Ascii.sp].intercalate sampleWords)
      ∧ unstructured sampleFolded = "ab \uFFFD c" := by
  have hwords : ∀ w ∈ sampleWords, IsUnspaced w := by
    have hall : ∀ w ∈ sampleWords, w ≠ [] ∧ ∀ b ∈ w, Ascii.isFold b = false := by decide +kernel
    exact fun w hw => ⟨(hall w hw).1, (hall w hw).2⟩
  have hfolding : IsFolding sampleWords sampleFolded :=
    .cons (.fold (.inl rfl) (List.cons_ne_nil _ _) (by decide))
      (.cons .space (.cons (.fold (.inr rfl) (List.cons_ne_nil _ _) (by decide)) (.one _)))
  exact ⟨hwords, hfolding, (unstructured_of_isFolding sampleWords hwords sampleFolded hfolding).1,
    by decide +kernel⟩

end Display

end ImapMessage
