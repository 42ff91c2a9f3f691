/-
# Words and the white space around them

Trimming takes the white space off both ends of a text and nothing else.  Words are what stands
between white space, and no white space around a text changes them.

Key constructions:
* `Blank.IsTrimmed`: no white space at either end.
* `Blank.exists_padding`, `Blank.trimChars_padded`: a text is its trimmed form, padded.
* `Blank.words_append_cons`, `Blank.words_padded`: the words of a text by its parts.
* `Blank.flatten_words`: the words make up all that is no white space.
* `Blank.trimChars_map`, `Blank.words_map`: changes of other characters.
-/
import ImapMessage.Text.Blank
import Mathlib.Data.List.DropRight

namespace ImapMessage

/-- What is left of a list without a prefix. -/
theorem isPrefixOf?_eq_some_iff {α : Type} [BEq α] [LawfulBEq α] {xs ys rest : List α} :
    xs.isPrefixOf? ys = some rest ↔ ys = xs ++ rest := by
  induction xs generalizing ys with
  | nil => simp [List.isPrefixOf?]
  | cons x xs ih =>
    cases ys with
    | nil => simp [List.isPrefixOf?]
    | cons y ys =>
      rw [List.isPrefixOf?, List.cons_append, List.cons.injEq, ← ih]
      split
      · rename_i hxy
        simp [beq_iff_eq.mp hxy]
      · rename_i hxy
        have hne : ¬y = x := fun heq => hxy (beq_iff_eq.mpr heq.symm)
        simp [hne]

namespace Blank

variable {cs pre post : List Char}

/-! ## Trimming -/

/-- No white space at either end. -/
def IsTrimmed (cs : List Char) : Prop :=
  (∀ c ∈ cs.head?, isBlank c = false) ∧ ∀ c ∈ cs.getLast?, isBlank c = false

theorem trimChars_eq (cs : List Char) :
    trimChars cs = (cs.dropWhile isBlank).rdropWhile isBlank := rfl

/-- What is left of a trimmed text without its first characters ends in no white space. -/
theorem getLast?_of_suffix {cs' : List Char} (h : ∀ c ∈ cs.getLast?, isBlank c = false)
    (hsuffix : cs' <:+ cs) : ∀ c ∈ cs'.getLast?, isBlank c = false := by
  obtain ⟨before, rfl⟩ := hsuffix
  intro c hc
  exact h c (List.mem_getLast?_append_of_mem_getLast? hc)

theorem dropWhile_of_isTrimmed (h : IsTrimmed cs) : cs.dropWhile isBlank = cs := by
  cases cs with
  | nil => rfl
  | cons c cs => rw [List.dropWhile_cons_of_neg (by simp [h.1 c rfl])]

/-- A trimmed text stays as it is. -/
theorem trimChars_of_isTrimmed (h : IsTrimmed cs) : trimChars cs = cs := by
  rw [trimChars_eq, dropWhile_of_isTrimmed h, List.rdropWhile_eq_self_iff]
  intro hne
  simp [h.2 _ (List.getLast_mem_getLast? hne)]

/-- White space at the end is taken off. -/
theorem rdropWhile_padded (hpost : ∀ c ∈ post, isBlank c = true) :
    (cs ++ post).rdropWhile isBlank = cs.rdropWhile isBlank := by
  have hpost' : ∀ c ∈ post.reverse, isBlank c = true :=
    fun c hc => hpost c (List.mem_reverse.mp hc)
  rw [List.rdropWhile, List.reverse_append, List.dropWhile_append_of_pos hpost', List.rdropWhile]

/-- Padding a text with white space does not change its trimmed form. -/
theorem trimChars_padded (hpre : ∀ c ∈ pre, isBlank c = true)
    (hpost : ∀ c ∈ post, isBlank c = true) : trimChars (pre ++ cs ++ post) = trimChars cs := by
  rw [trimChars_eq, trimChars_eq, List.append_assoc, List.dropWhile_append_of_pos hpre,
    List.dropWhile_append]
  split
  · -- All of the text is white space.
    rename_i hblank
    rw [List.isEmpty_iff.mp hblank, List.dropWhile_eq_nil_iff.mpr hpost]
  · exact rdropWhile_padded hpost

/-- A text is its trimmed form with white space around it. -/
theorem exists_padding (cs : List Char) :
    ∃ pre post, cs = pre ++ trimChars cs ++ post ∧ (∀ c ∈ pre, isBlank c = true)
      ∧ ∀ c ∈ post, isBlank c = true := by
  refine ⟨cs.takeWhile isBlank, (cs.dropWhile isBlank).rtakeWhile isBlank, ?_,
    fun c hc => List.mem_takeWhile_imp hc, fun c hc => List.mem_rtakeWhile_imp hc⟩
  rw [trimChars_eq, List.append_assoc, List.rdropWhile_append_rtakeWhile,
    List.takeWhile_append_dropWhile]

theorem isTrimmed_trimChars (cs : List Char) : IsTrimmed (trimChars cs) := by
  refine ⟨fun c hc => ?_, fun c hc => ?_⟩
  · -- The first character is also the first one after the white space in front.
    have hprefix : trimChars cs <+: cs.dropWhile isBlank := List.rdropWhile_prefix isBlank _
    obtain ⟨rest, hrest⟩ := hprefix
    cases htrim : trimChars cs with
    | nil =>
      rw [htrim] at hc
      cases hc
    | cons d ds =>
      rw [htrim] at hc hrest
      cases hc
      have := List.head?_dropWhile_not isBlank cs
      rw [← hrest] at this
      simpa using this
  · have hne : trimChars cs ≠ [] := by
      intro hnil
      rw [hnil] at hc
      cases hc
    have hlast := List.rdropWhile_last_not isBlank (cs.dropWhile isBlank) hne
    rw [List.getLast?_eq_some_getLast hne, Option.mem_some_iff] at hc
    rw [← hc]
    exact Bool.not_eq_true _ ▸ hlast

theorem trimChars_trimChars (cs : List Char) : trimChars (trimChars cs) = trimChars cs :=
  trimChars_of_isTrimmed (isTrimmed_trimChars cs)

theorem mem_of_mem_trimChars {c : Char} (h : c ∈ trimChars cs) : c ∈ cs := by
  obtain ⟨pre, post, heq, -, -⟩ := exists_padding cs
  rw [heq]
  exact List.mem_append_left _ (List.mem_append_right _ h)

/-! ## Words -/

/-- White space divides words. -/
theorem words_append_cons (xs ys : List Char) {c : Char} (hc : isBlank c = true) :
    words (xs ++ c :: ys) = words xs ++ words ys := by
  rw [words, List.splitOnP_append_cons xs ys hc, List.filter_append]
  rfl

theorem words_nil : words [] = [] := rfl

theorem words_cons_of_isBlank {c : Char} (hc : isBlank c = true) (cs : List Char) :
    words (c :: cs) = words cs :=
  words_append_cons [] cs hc

/-- White space in front changes no words. -/
theorem words_append_of_isBlank (hpre : ∀ c ∈ pre, isBlank c = true) (cs : List Char) :
    words (pre ++ cs) = words cs := by
  induction pre with
  | nil => rfl
  | cons c pre ih =>
    rw [List.cons_append, words_cons_of_isBlank (hpre c List.mem_cons_self),
      ih fun d hd => hpre d (List.mem_cons_of_mem c hd)]

theorem words_of_isBlank (h : ∀ c ∈ cs, isBlank c = true) : words cs = [] := by
  rw [← List.append_nil cs, words_append_of_isBlank h, words_nil]

/-- Padding a text with white space does not change its words. -/
theorem words_padded (hpre : ∀ c ∈ pre, isBlank c = true) (hpost : ∀ c ∈ post, isBlank c = true) :
    words (pre ++ cs ++ post) = words cs := by
  rw [List.append_assoc, words_append_of_isBlank hpre]
  cases post with
  | nil => rw [List.append_nil]
  | cons c post =>
    rw [words_append_cons cs post (hpost c List.mem_cons_self),
      words_of_isBlank fun d hd => hpost d (List.mem_cons_of_mem c hd), List.append_nil]

/-- Induction along the words of a text: it has no white space, or a run without white space comes
first, then a white space character, and then a shorter text. -/
theorem wordInduction {motive : List Char → Prop}
    (word : ∀ w, (∀ d ∈ w, isBlank d = false) → motive w)
    (append : ∀ w c rest, (∀ d ∈ w, isBlank d = false) → isBlank c = true → motive rest →
      motive (w ++ c :: rest))
    (cs : List Char) : motive cs := by
  have hmem : ∀ d ∈ cs.takeWhile (fun d => !isBlank d), isBlank d = false := by
    intro d hd
    simpa using List.mem_takeWhile_imp hd
  cases hrest : cs.dropWhile fun d => !isBlank d with
  | nil =>
    apply word
    intro d hd
    simpa using List.dropWhile_eq_nil_iff.mp hrest d hd
  | cons c rest =>
    have hcs : cs = cs.takeWhile (fun d => !isBlank d) ++ c :: rest := by
      rw [← hrest, List.takeWhile_append_dropWhile]
    have hblank : isBlank c = true := by
      have := List.head?_dropWhile_not (fun d => !isBlank d) cs
      rw [hrest] at this
      simpa using this
    have hlength : rest.length < cs.length := by
      rw [hcs, List.length_append, List.length_cons]
      omega
    rw [hcs]
    exact append _ c rest hmem hblank (wordInduction word append rest)
termination_by cs.length

/-- A text without white space is one word, unless it is empty. -/
theorem words_of_not_isBlank (h : ∀ c ∈ cs, isBlank c = false) :
    words cs = [cs].filter fun w => !w.isEmpty := by
  rw [words, List.splitOnP_eq_singleton h]

/-- Words are not empty and contain no white space. -/
theorem of_mem_words {w : List Char} (h : w ∈ words cs) :
    w ≠ [] ∧ ∀ c ∈ w, isBlank c = false := by
  induction cs using wordInduction with
  | word v hv =>
    rw [words_of_not_isBlank hv, List.mem_filter, List.mem_singleton] at h
    obtain ⟨rfl, hne⟩ := h
    exact ⟨by simpa using hne, hv⟩
  | append v c rest hv hc ih =>
    rw [words_append_cons v rest hc, words_of_not_isBlank hv, List.mem_append, List.mem_filter,
      List.mem_singleton] at h
    rcases h with ⟨rfl, hne⟩ | h
    · exact ⟨by simpa using hne, hv⟩
    · exact ih h

/-- The words make up all that is no white space. -/
theorem flatten_words (cs : List Char) : (words cs).flatten = cs.filter fun c => !isBlank c := by
  have hword : ∀ w, (∀ d ∈ w, isBlank d = false) →
      (words w).flatten = w.filter fun c => !isBlank c := by
    intro w hw
    have hself : (w.filter fun c => !isBlank c) = w :=
      List.filter_eq_self.mpr fun c hc => by simp [hw c hc]
    rw [words_of_not_isBlank hw, hself]
    cases w <;> simp
  induction cs using wordInduction with
  | word w hw => exact hword w hw
  | append w c rest hw hc ih =>
    rw [words_append_cons w rest hc, List.flatten_append, hword w hw, ih, List.filter_append,
      List.filter_cons_of_neg (by simp [hc])]

/-- A text without words is white space. -/
theorem isBlank_of_words_eq_nil (h : words cs = []) : ∀ c ∈ cs, isBlank c = true := by
  have hfilter := flatten_words cs
  rw [h, List.flatten_nil] at hfilter
  intro c hc
  simpa using List.filter_eq_nil_iff.mp hfilter.symm c hc

/-! ## Changing characters -/

section

variable {f : Char → Char} (hf : ∀ c, isBlank (f c) = isBlank c)

include hf

theorem isBlank_of_mem_map {b : Bool} (h : ∀ c ∈ cs, isBlank c = b) :
    ∀ c ∈ cs.map f, isBlank c = b := by
  intro c hc
  obtain ⟨d, hd, rfl⟩ := List.mem_map.mp hc
  rw [hf, h d hd]

/-- A change of characters that keeps white space apart from the rest does not change what is
trimmed. -/
theorem trimChars_map (cs : List Char) : trimChars (cs.map f) = (trimChars cs).map f := by
  obtain ⟨pre, post, heq, hpre, hpost⟩ := exists_padding cs
  have htrimmed : IsTrimmed ((trimChars cs).map f) := by
    obtain ⟨hhead, hlast⟩ := isTrimmed_trimChars cs
    refine ⟨fun c hc => ?_, fun c hc => ?_⟩
    · rw [List.head?_map, Option.mem_def, Option.map_eq_some_iff] at hc
      obtain ⟨d, hd, rfl⟩ := hc
      rw [hf, hhead d hd]
    · rw [List.getLast?_map, Option.mem_def, Option.map_eq_some_iff] at hc
      obtain ⟨d, hd, rfl⟩ := hc
      rw [hf, hlast d hd]
  conv_lhs => rw [heq, List.map_append, List.map_append]
  rw [trimChars_padded (isBlank_of_mem_map hf hpre) (isBlank_of_mem_map hf hpost),
    trimChars_of_isTrimmed htrimmed]

/-- Nor does it change where words begin and end. -/
theorem words_map (cs : List Char) : words (cs.map f) = (words cs).map fun w => w.map f := by
  have hword : ∀ w : List Char, (∀ d ∈ w, isBlank d = false) →
      words (w.map f) = (words w).map fun w => w.map f := by
    intro w hw
    rw [words_of_not_isBlank hw, words_of_not_isBlank (isBlank_of_mem_map hf hw)]
    cases w <;> rfl
  induction cs using wordInduction with
  | word w hw => exact hword w hw
  | append w c rest hw hc ih =>
    have hc' : isBlank (f c) = true := by rw [hf, hc]
    rw [List.map_append, List.map_cons, words_append_cons _ _ hc', hword w hw, ih,
      words_append_cons w rest hc, List.map_append]

end

end Blank

end ImapMessage
