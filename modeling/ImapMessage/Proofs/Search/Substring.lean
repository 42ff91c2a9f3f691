/-
# Patterns that are found wherever they stand

A pattern is found in every text that contains it if and only if the white space inside of it
consists of gaps.  White space of another kind is taken for a gap in the pattern and is none in
the text, so that such a pattern does not even find itself.

Key constructions:
* `Pattern.HasOnlyGaps`, `Pattern.IsPlain`: texts whose white space consists of gaps, and patterns
  for which this is true apart from their ends.
* `Pattern.spaced_words`: a text whose white space consists of gaps consists of its words.
* `Pattern.found_of_infix`, `Pattern.isPlain_of_found_self`: plain patterns, and no others.
* `Criteria.matchesContent_subject`: what a search in the subject looks at.
-/
import ImapMessage.Entity.Parse
import ImapMessage.Proofs.Search.Loading
import ImapMessage.Proofs.Search.Spacing

namespace ImapMessage

namespace Pattern

/-! ## Texts whose white space consists of gaps -/

/-- White space consists of gaps. -/
def HasOnlyGaps (cs : List Char) : Prop :=
  ∀ c ∈ cs, Blank.isBlank c = true → isGap c = true

theorem hasOnlyGaps_iff (cs : List Char) :
    HasOnlyGaps cs ↔ (cs.all fun c => !Blank.isBlank c || isGap c) = true := by
  rw [HasOnlyGaps, List.all_eq_true]
  refine forall₂_congr fun c _ => ?_
  cases Blank.isBlank c <;> simp

instance (cs : List Char) : Decidable (HasOnlyGaps cs) :=
  decidable_of_iff _ (hasOnlyGaps_iff cs).symm

theorem HasOnlyGaps.of_subset {cs cs' : List Char} (h : HasOnlyGaps cs) (hsub : cs' ⊆ cs) :
    HasOnlyGaps cs' :=
  fun c hc => h c (hsub hc)

theorem hasOnlyGaps_append {cs cs' : List Char} (h : HasOnlyGaps cs) (h' : HasOnlyGaps cs') :
    HasOnlyGaps (cs ++ cs') :=
  fun c hc => (List.mem_append.mp hc).elim (h c) (h' c)

/-- Folding does not change which white space consists of gaps. -/
theorem hasOnlyGaps_fold (cs : List Char) :
    HasOnlyGaps (cs.map CaseFold.fold) ↔ HasOnlyGaps cs := by
  rw [HasOnlyGaps, List.forall_mem_map]
  simp only [CaseFold.isBlank_fold, isGap_fold]
  rfl

/-- A text that does not end in white space and whose white space consists of gaps consists of its
words. -/
theorem spaced_words {cs : List Char} (hlast : ∀ c ∈ cs.getLast?, Blank.isBlank c = false)
    (hgap : HasOnlyGaps cs) : Spaced (Blank.words cs) (cs.dropWhile Blank.isBlank) := by
  induction cs using Blank.wordInduction with
  | word w hw =>
    rw [Blank.words_of_not_isBlank hw]
    cases w with
    | nil => exact .nil
    | cons d ds =>
      rw [List.dropWhile_cons_of_neg (by simp [hw d List.mem_cons_self])]
      exact .single (d :: ds)
  | append w c rest hw hc ih =>
    have hsuffix : rest <:+ w ++ c :: rest := ⟨w ++ [c], by simp⟩
    have hrest := ih (Blank.getLast?_of_suffix hlast hsuffix) (hgap.of_subset hsuffix.subset)
    rw [Blank.words_append_cons w rest hc]
    cases w with
    | nil =>
      rw [Blank.words_nil, List.nil_append, List.nil_append, List.dropWhile_cons_of_pos hc]
      exact hrest
    | cons d ds =>
      have hwords : Blank.words rest ≠ [] := by
        intro hnil
        obtain ⟨e, he⟩ : ∃ e, e ∈ (c :: rest).getLast? :=
          ⟨_, List.getLast_mem_getLast? (List.cons_ne_nil c rest)⟩
        have hblank : Blank.isBlank e = true := by
          rcases List.mem_cons.mp (List.mem_of_getLast? he) with rfl | hmem
          · exact hc
          · exact Blank.isBlank_of_words_eq_nil hnil e hmem
        rw [hlast e (by rwa [List.getLast?_append_cons])] at hblank
        cases hblank
      have htext : (d :: ds ++ c :: rest).dropWhile Blank.isBlank
          = (d :: ds) ++ (c :: rest.takeWhile Blank.isBlank) ++ rest.dropWhile Blank.isBlank := by
        rw [List.cons_append, List.dropWhile_cons_of_neg (by simp [hw d List.mem_cons_self]),
          List.append_assoc, List.cons_append, List.cons_append, List.takeWhile_append_dropWhile]
      rw [Blank.words_of_not_isBlank hw, htext]
      refine .cons (List.cons_ne_nil c _) ?_ hwords hrest
      intro e he
      rcases List.mem_cons.mp he with rfl | he
      · exact hgap _ (List.mem_append_right _ List.mem_cons_self) hc
      · exact hgap e (hsuffix.subset ((List.takeWhile_prefix _).subset he))
          (List.mem_takeWhile_imp he)

section

variable {chunks : List (List Char)} {text : List Char}

/-- Words with gaps between them contain no other white space. -/
theorem Spaced.hasOnlyGaps (h : Spaced chunks text) (hwords : AreWords chunks) :
    HasOnlyGaps text := by
  have hword : ∀ chunk ∈ chunks, HasOnlyGaps chunk := by
    intro chunk hchunk c hc hblank
    rw [(hwords chunk hchunk).2 c hc] at hblank
    cases hblank
  induction h with
  | nil => simp [HasOnlyGaps]
  | single chunk => exact hword chunk List.mem_cons_self
  | @cons chunk gap text chunks _ hgaps _ _ ih =>
    have hgap : HasOnlyGaps gap := fun c hc _ => hgaps c hc
    exact hasOnlyGaps_append (hasOnlyGaps_append (hword chunk List.mem_cons_self) hgap)
      (ih hwords.tail fun w hw => hword w (List.mem_cons_of_mem chunk hw))

/-- Words with gaps between them are what is no white space. -/
theorem Spaced.filter_eq_flatten (h : Spaced chunks text) (hwords : AreWords chunks) :
    (text.filter fun c => !Blank.isBlank c) = chunks.flatten := by
  have hword : ∀ chunk ∈ chunks, (chunk.filter fun c => !Blank.isBlank c) = chunk := by
    intro chunk hchunk
    exact List.filter_eq_self.mpr fun c hc => by simp [(hwords chunk hchunk).2 c hc]
  induction h with
  | nil => rfl
  | single chunk => rw [hword chunk List.mem_cons_self, List.flatten_singleton]
  | @cons chunk gap text chunks _ hgaps _ _ ih =>
    have hgap : (gap.filter fun c => !Blank.isBlank c) = [] :=
      List.filter_eq_nil_iff.mpr fun c hc => by simp [isBlank_of_isGap (hgaps c hc)]
    rw [List.filter_append, List.filter_append, hgap, List.append_nil,
      hword chunk List.mem_cons_self,
      ih hwords.tail fun w hw => hword w (List.mem_cons_of_mem chunk hw), List.flatten_cons]

end

/-- A text with a part that consists of its words has gaps only, apart from its ends. -/
theorem hasOnlyGaps_of_spaced_words {cs part : List Char} (hpart : part <:+: cs)
    (h : Spaced (Blank.words cs) part) : HasOnlyGaps (Blank.trimChars cs) := by
  have hwords := areWords_words cs
  obtain ⟨pre, post, rfl⟩ := hpart
  have hfilter := h.filter_eq_flatten hwords
  rw [Blank.flatten_words, List.filter_append, List.filter_append] at hfilter
  -- Around the part there is nothing but white space.
  have hlength := congrArg List.length hfilter
  rw [List.length_append, List.length_append] at hlength
  have hblank : ∀ cs : List Char, (cs.filter fun c => !Blank.isBlank c).length = 0 →
      ∀ c ∈ cs, Blank.isBlank c = true := by
    intro cs hcs c hc
    have := List.filter_eq_nil_iff.mp (List.length_eq_zero_iff.mp hcs) c hc
    simpa using this
  rw [Blank.trimChars_padded (hblank pre (by omega)) (hblank post (by omega))]
  exact (h.hasOnlyGaps hwords).of_subset fun c hc => Blank.mem_of_mem_trimChars hc

/-! ## Plain patterns -/

/-- The white space of a pattern, apart from its ends, consists of gaps. -/
def IsPlain (written : String) : Prop :=
  HasOnlyGaps (Blank.trimChars written.toList)

instance (written : String) : Decidable (IsPlain written) :=
  inferInstanceAs (Decidable (HasOnlyGaps _))

/-- A plain pattern, folded, has gaps only, apart from its ends. -/
theorem isPlain_iff_fold (written : String) :
    IsPlain written ↔ HasOnlyGaps (Blank.trimChars (written.toList.map CaseFold.fold)) := by
  rw [Blank.trimChars_map CaseFold.isBlank_fold, hasOnlyGaps_fold, IsPlain]

section

variable [PatternLimit]

/-- A plain pattern that is small enough is found in every text that contains it in any letter
case. -/
theorem found_of_infix {written text : String} (hadmits : PatternLimit.admits written = true)
    (hplain : IsPlain written)
    (h : written.toList.map CaseFold.fold <:+: text.toList.map CaseFold.fold) :
    found written text = true := by
  rw [isPlain_iff_fold] at hplain
  have htrimmed := Blank.isTrimmed_trimChars (written.toList.map CaseFold.fold)
  obtain ⟨pre, post, heq, hpre, hpost⟩ := Blank.exists_padding (written.toList.map CaseFold.fold)
  have hspaced := spaced_words htrimmed.2 hplain
  rw [Blank.dropWhile_of_isTrimmed htrimmed, ← Blank.words_padded hpre hpost, ← heq] at hspaced
  rw [found_iff]
  refine ⟨hadmits, _, ?_, hspaced⟩
  have hsub : Blank.trimChars (written.toList.map CaseFold.fold)
      <:+: written.toList.map CaseFold.fold :=
    ⟨pre, post, heq.symm⟩
  exact hsub.trans h

/-- A pattern that finds itself is plain. -/
theorem isPlain_of_found_self {written : String} (h : found written written = true) :
    IsPlain written := by
  obtain ⟨-, part, hpart, hspaced⟩ := (found_iff written written).mp h
  rw [isPlain_iff_fold]
  exact hasOnlyGaps_of_spaced_words hpart hspaced

end

end Pattern

namespace Criteria

section

variable [FurtherCharsets] [PatternLimit]

/-- A single criterion may be met by what it is about if it is met by all that can be loaded of a
message. -/
theorem mayHold_singleton {c : Criterion} {d : SearchData} {limits : SearchLimits}
    {message : Entity} {b : Bool}
    (h : c.evaluate (d.loadMessage (fun _ => true) limits message) = some b) :
    mayHold [c] (d.loadMessage (fun p => needs p [c]) limits message) = b := by
  rw [mayHold, evaluate_loadMessage_needs, evaluate, evaluate, h]
  cases b <;> rfl

/-- A single criterion is met by a message if it is met by all that can be loaded of it. -/
theorem matchesContent_singleton {c : Criterion} {limits : SearchLimits} {message : Entity}
    {b : Bool}
    (h : c.evaluate (SearchData.loadMessage {} (fun _ => true) limits message) = some b) :
    matchesContent [c] limits message = b :=
  mayHold_singleton h

/-- A criterion about the subject is met if its pattern is found in the subject. -/
theorem matchesContent_subject (pattern : String) (limits : SearchLimits) (message : Entity) :
    matchesContent [.subject pattern] limits message
      = Pattern.found pattern (SearchData.subjectText message.header) := by
  apply matchesContent_singleton
  rw [Criterion.evaluate]
  rfl

end

end Criteria

namespace Pattern

/-- A pattern of at most 5000 characters is found in every text that contains it if and only if it
is plain; and if it is plain, then every message whose subject contains it is found. -/
theorem found_infix_iff [FurtherCharsets] [PatternLimit] (pattern : String)
    (h : pattern.length ≤ 5000) :
    ((∀ text : String, pattern.toList <:+: text.toList → foundIn pattern (some text) = some true)
        ↔ IsPlain pattern)
      ∧ (IsPlain pattern → ∀ (limits : SearchLimits) (message : Entity),
        pattern.toList <:+: (SearchData.subjectText message.header).toList →
          Criteria.matchesContent [.subject pattern] limits message = true) := by
  have hadmits : PatternLimit.admits pattern = true := PatternLimit.admits_of_length_le h
  refine ⟨⟨fun hfound => ?_, fun hplain text hsub => ?_⟩, fun hplain limits message hsub => ?_⟩
  · have hself := hfound pattern List.infix_rfl
    rw [foundIn, Option.map_some, Option.some_inj] at hself
    exact isPlain_of_found_self hself
  · rw [foundIn, Option.map_some, found_of_infix hadmits hplain (hsub.map CaseFold.fold)]
  · rw [Criteria.matchesContent_subject]
    exact found_of_infix hadmits hplain (hsub.map CaseFold.fold)

/-- A message with a subject of several words. -/
def spacedSubject : Bytes :=
  Utf8.encode "Subject: one two  three\r\n\r\n"

/-- Two words with two spaces between them are found in a subject that contains them. -/
theorem found_infix_iff_two_spaces :
    IsPlain "two  three" ∧ foundIn "two  three" (some "one two  three") = some true
      ∧ Criteria.matchesContent [.subject "two  three"] {} (Entity.parse {} spacedSubject)
        = true := by
  obtain ⟨hiff, hsubject⟩ := found_infix_iff "two  three" (by decide)
  have hplain : IsPlain "two  three" := by decide
  refine ⟨hplain, hiff.mpr hplain "one two  three" (by decide), hsubject hplain {} _ ?_⟩
  decide +kernel

/-- A message with a no-break space in its subject. -/
def noBreakSubject : Bytes :=
  Utf8.encode "Subject: a\u00a0b\r\n\r\n"

/-- A no-break space in a pattern is taken for a gap, and is none in the subject. -/
theorem not_found_no_break_space :
    (SearchData.subjectText (Entity.parse {} noBreakSubject).header) = "a\u00a0b"
      ∧ Criteria.matchesContent [.subject "a\u00a0b"] {} (Entity.parse {} noBreakSubject) = false
      ∧ foundIn "a\u00a0b" (some "a\u00a0b") = some false := by
  decide +kernel

end Pattern

end ImapMessage
