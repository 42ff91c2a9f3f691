/-
# Where patterns occur

A pattern occurs in a text where its chunks stand one after another with gaps between them, in any
letter case.  Letter case and white space do not interfere: folding leaves white space as it is
and makes no other character white.

Key constructions:
* `CaseFold.isBlank_fold`, `Pattern.isGap_fold`: folding and white space.
* `Pattern.Spaced`: texts that consist of chunks with gaps between them.
* `Pattern.occursFrom_iff`, `Pattern.found_iff`: what searching finds.
-/
import ImapMessage.Proofs.Text.Utf16Canonical
import ImapMessage.Proofs.Text.Words
import ImapMessage.Search.Pattern
import Mathlib.Data.List.Infix

namespace ImapMessage

/-! ## White space by its codes -/

namespace Blank

/-- The codes of all white space characters. -/
def codes : List Nat :=
  [9, 10, 11, 12, 13, 0x20, 0x85, 0xA0, 0x1680, 0x2000, 0x2001, 0x2002, 0x2003, 0x2004, 0x2005,
    0x2006, 0x2007, 0x2008, 0x2009, 0x200A, 0x2028, 0x2029, 0x202F, 0x205F, 0x3000]

theorem isBlank_iff_mem_codes (c : Char) : isBlank c = true ↔ c.toNat ∈ codes := by
  simp only [isBlank, codes, Bool.or_eq_true, Bool.and_eq_true, decide_eq_true_eq, beq_iff_eq,
    List.mem_cons, List.not_mem_nil, or_false]
  omega

theorem mem_codes_of_ofNat {n : Nat} (h : (Char.ofNat n).toNat ∈ codes) : n ∈ codes := by
  by_cases hn : n.isValidChar
  · rwa [Utf16.toNat_ofNat_of_isValidChar hn] at h
  · have hnul : Char.ofNat n = '\x00' := dif_neg hn
    rw [hnul] at h
    exact absurd h (by decide)

end Blank

/-! ## White space and letter case -/

namespace CaseFold

/-- No mapping leads to white space. -/
theorem not_mem_codes_of_run {r : Run} (hr : r ∈ runs) {n : Nat} (hn : r.contains n = true) :
    (n + r.shift).toNat ∉ Blank.codes := by
  have hrange : ∀ r ∈ runs, ∀ code ∈ Blank.codes,
      (code : Int) < r.first + r.shift ∨ r.last + r.shift < code := by
    decide +kernel
  have hpositive : ∀ r ∈ runs, 0 ≤ r.first + r.shift := by decide +kernel
  simp only [Run.contains, Bool.and_eq_true, decide_eq_true_eq] at hn
  intro hmem
  have := hrange r hr _ hmem
  have := hpositive r hr
  omega

/-- A character is an ASCII one and becomes its lower case, or a run maps it, or it stays as it
is. -/
theorem fold_cases (c : Char) :
    (c.toNat < 0x80 ∧ fold c = c.toLower)
      ∨ (∃ r ∈ runs, r.contains c.toNat = true ∧ fold c = Char.ofNat (c.toNat + r.shift).toNat)
      ∨ fold c = c := by
  by_cases hascii : c.toNat < 0x80
  · exact .inl ⟨hascii, if_pos hascii⟩
  · refine .inr ?_
    rw [fold, if_neg hascii, foldCode]
    split
    · next r hfind =>
      have hcontains : r.contains c.toNat = true := by
        have := List.find?_some hfind
        exact this
      exact .inl ⟨r, List.mem_of_find?_eq_some hfind, hcontains, rfl⟩
    · exact .inr (Char.ofNat_toNat c)

/-- What is folded to white space is folded to itself. -/
theorem fold_eq_self_of_isBlank_fold {c : Char} (h : Blank.isBlank (fold c) = true) :
    fold c = c := by
  rcases fold_cases c with ⟨hascii, hfold⟩ | ⟨r, hr, hcontains, hfold⟩ | hfold
  · have hlower : ∀ n < 0x80, Blank.isBlank (Char.ofNat n).toLower = true →
        (Char.ofNat n).toLower = Char.ofNat n := by
      decide +kernel
    have := hlower c.toNat hascii
    rw [Char.ofNat_toNat, ← hfold] at this
    exact this h
  · rw [hfold, Blank.isBlank_iff_mem_codes] at h
    exact absurd (Blank.mem_codes_of_ofNat h) (not_mem_codes_of_run hr hcontains)
  · exact hfold

/-- White space is folded to itself. -/
theorem fold_of_isBlank {c : Char} (h : Blank.isBlank c = true) : fold c = c := by
  have hcodes : ∀ code ∈ Blank.codes, fold (Char.ofNat code) = Char.ofNat code := by decide +kernel
  have := hcodes c.toNat ((Blank.isBlank_iff_mem_codes c).mp h)
  rwa [Char.ofNat_toNat] at this

theorem isBlank_fold (c : Char) : Blank.isBlank (fold c) = Blank.isBlank c := by
  rw [Bool.eq_iff_iff]
  constructor
  · intro h
    rwa [fold_eq_self_of_isBlank_fold h] at h
  · intro h
    rwa [fold_of_isBlank h]

end CaseFold

namespace Pattern

/-- Gaps are white space. -/
theorem isBlank_of_isGap {c : Char} (h : isGap c = true) : Blank.isBlank c = true := by
  simp only [isGap, Bool.or_eq_true, beq_iff_eq] at h
  rcases h with ((rfl | rfl) | rfl) | rfl <;> rfl

theorem isGap_fold (c : Char) : isGap (CaseFold.fold c) = isGap c := by
  rw [Bool.eq_iff_iff]
  constructor
  · intro h
    rwa [CaseFold.fold_eq_self_of_isBlank_fold (isBlank_of_isGap h)] at h
  · intro h
    rwa [CaseFold.fold_of_isBlank (isBlank_of_isGap h)]

/-! ## Chunks with gaps between them -/

/-- A text consists of chunks with gaps between them. -/
inductive Spaced : List (List Char) → List Char → Prop where
  | nil : Spaced [] []
  | single (chunk : List Char) : Spaced [chunk] chunk
  | cons {chunk gap text : List Char} {chunks : List (List Char)} (hgap : gap ≠ [])
      (hgaps : ∀ c ∈ gap, isGap c = true) (hchunks : chunks ≠ []) (h : Spaced chunks text) :
      Spaced (chunk :: chunks) (chunk ++ gap ++ text)

/-- Chunks that are not empty and contain no white space. -/
def AreWords (chunks : List (List Char)) : Prop :=
  ∀ chunk ∈ chunks, chunk ≠ [] ∧ ∀ c ∈ chunk, Blank.isBlank c = false

theorem AreWords.tail {chunk : List Char} {chunks : List (List Char)}
    (h : AreWords (chunk :: chunks)) : AreWords chunks :=
  fun chunk' hchunk' => h chunk' (List.mem_cons_of_mem chunk hchunk')

theorem areWords_words (cs : List Char) : AreWords (Blank.words cs) :=
  fun _ h => Blank.of_mem_words h

section

variable {chunks : List (List Char)} {text : List Char}

/-- What consists of words begins with no gap. -/
theorem Spaced.dropWhile_append (h : Spaced chunks text) (hwords : AreWords chunks)
    (hne : chunks ≠ []) (rest : List Char) :
    (text ++ rest).dropWhile isGap = text ++ rest := by
  have hfirst : ∀ chunk tail, chunk ≠ [] → (∀ c ∈ chunk, Blank.isBlank c = false) →
      (chunk ++ tail).dropWhile isGap = chunk ++ tail := by
    intro chunk tail hchunk hblank
    obtain ⟨c, cs, rfl⟩ := List.exists_cons_of_ne_nil hchunk
    have hgap : ¬isGap c = true := by
      intro hgap
      have := isBlank_of_isGap hgap
      rw [hblank c List.mem_cons_self] at this
      cases this
    rw [List.cons_append, List.dropWhile_cons_of_neg hgap]
  cases h with
  | nil => exact absurd rfl hne
  | single chunk =>
    obtain ⟨hchunk, hblank⟩ := hwords text List.mem_cons_self
    exact hfirst text rest hchunk hblank
  | @cons chunk gap text chunks _ _ _ _ =>
    obtain ⟨hchunk, hblank⟩ := hwords chunk List.mem_cons_self
    rw [List.append_assoc, List.append_assoc]
    exact hfirst chunk _ hchunk hblank

/-- A text begins with what consists of words. -/
theorem beginsWith_of_spaced (h : Spaced chunks text) (hwords : AreWords chunks)
    (rest : List Char) : beginsWith chunks (text ++ rest) = true := by
  induction h with
  | nil => rw [beginsWith]
  | single chunk =>
    rw [beginsWith, isPrefixOf?_eq_some_iff.mpr rfl]
  | @cons chunk gap text chunks hgap hgaps hchunks h ih =>
    obtain ⟨g, gs, rfl⟩ := List.exists_cons_of_ne_nil hgap
    obtain ⟨second, others, rfl⟩ := List.exists_cons_of_ne_nil hchunks
    have hgs : ∀ c ∈ gs, isGap c = true := fun c hc => hgaps c (List.mem_cons_of_mem g hc)
    have hprefix : chunk.isPrefixOf? (chunk ++ (g :: gs) ++ text ++ rest)
        = some (g :: (gs ++ (text ++ rest))) := by
      rw [isPrefixOf?_eq_some_iff]
      simp
    rw [beginsWith, hprefix]
    simp only [hgaps g List.mem_cons_self, Bool.true_and, List.dropWhile_append_of_pos hgs,
      h.dropWhile_append hwords.tail hchunks, ih hwords.tail]

/-- What a text that begins with chunks begins with. -/
theorem exists_spaced_of_beginsWith (h : beginsWith chunks text = true) :
    ∃ start rest, text = start ++ rest ∧ Spaced chunks start := by
  induction chunks generalizing text with
  | nil => exact ⟨[], text, rfl, .nil⟩
  | cons chunk chunks ih =>
    unfold beginsWith at h
    split at h
    · cases h
    · rename_i rest hrest
      rw [isPrefixOf?_eq_some_iff] at hrest
      cases chunks with
      | nil => exact ⟨chunk, rest, hrest, .single chunk⟩
      | cons second others =>
        cases rest with
        | nil => cases h
        | cons g rest =>
          obtain ⟨hg, hnext⟩ := Bool.and_eq_true_iff.mp h
          obtain ⟨start, after, heq, hstart⟩ := ih hnext
          refine ⟨chunk ++ g :: rest.takeWhile isGap ++ start, after, ?_,
            .cons (List.cons_ne_nil g _) ?_ (List.cons_ne_nil second others) hstart⟩
          · rw [hrest, List.append_assoc, List.append_assoc, ← heq, List.cons_append,
              List.takeWhile_append_dropWhile]
          · intro c hc
            rcases List.mem_cons.mp hc with rfl | hc
            · exact hg
            · exact List.mem_takeWhile_imp hc

/-- Words occur in a text where they stand one after another with gaps between them. -/
theorem occursFrom_iff (hwords : AreWords chunks) :
    occursFrom chunks text = true ↔ ∃ part, part <:+: text ∧ Spaced chunks part := by
  induction text with
  | nil =>
    rw [occursFrom]
    constructor
    · intro h
      obtain ⟨start, rest, heq, hstart⟩ := exists_spaced_of_beginsWith h
      exact ⟨start, ⟨[], rest, heq.symm⟩, hstart⟩
    · rintro ⟨part, hpart, hspaced⟩
      rw [List.infix_nil.mp hpart] at hspaced
      exact beginsWith_of_spaced hspaced hwords []
  | cons c text ih =>
    rw [occursFrom, Bool.or_eq_true, ih]
    constructor
    · rintro (h | ⟨part, hpart, hspaced⟩)
      · obtain ⟨start, rest, heq, hstart⟩ := exists_spaced_of_beginsWith h
        exact ⟨start, ⟨[], rest, heq.symm⟩, hstart⟩
      · exact ⟨part, hpart.trans (List.suffix_cons c text).isInfix, hspaced⟩
    · rintro ⟨part, hpart, hspaced⟩
      rcases List.infix_cons_iff.mp hpart with hprefix | hinfix
      · obtain ⟨rest, hrest⟩ := hprefix
        rw [← hrest]
        exact .inl (beginsWith_of_spaced hspaced hwords rest)
      · exact .inr ⟨part, hinfix, hspaced⟩

end

/-! ## Written patterns -/

/-- A pattern that is small enough is found where its words stand one after another with gaps
between them, in any letter case, and another one is found nowhere. -/
theorem found_iff [PatternLimit] (written text : String) :
    found written text = true ↔ PatternLimit.admits written = true
      ∧ ∃ part, part <:+: text.toList.map CaseFold.fold
        ∧ Spaced (Blank.words (written.toList.map CaseFold.fold)) part := by
  cases hadmits : PatternLimit.admits written with
  | false => simp [found, ofString?, hadmits]
  | true =>
    have hread : ofString? written
        = some ⟨Blank.words (written.toList.map CaseFold.fold)⟩ := by
      rw [ofString?, if_pos hadmits, Blank.words_map CaseFold.isBlank_fold]
    rw [found, hread]
    exact (occursFrom_iff (areWords_words _)).trans (and_iff_right rfl).symm

end Pattern

end ImapMessage
