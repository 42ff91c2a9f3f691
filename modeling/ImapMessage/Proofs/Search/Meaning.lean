/-
# What patterns mean

A pattern is found in a text where its words stand one after another, each of them in any letter
case, with a run of spaces, tabs and line ends between two of them.  The words are the maximal runs
of the pattern without white space.  No character in them means anything but itself, and a pattern
without words is found everywhere.

Key constructions:
* `Blank.Runs`: the maximal runs of a text without white space, by where they stand.
* `CaseFold.SameText`: texts that differ in letter case at most.
* `Pattern.exists_spaced_of_map_fold`: words with gaps between them, folded and as they stand.
* `Pattern.Means`, `Pattern.found_iff_means`: the texts that a pattern stands for.
* `Pattern.foundIn_iff`: where a pattern is found.
-/
import ImapMessage.Proofs.Search.Spacing
import Mathlib.Data.List.Forall2

namespace ImapMessage

/-! ## Maximal runs without white space -/

namespace Blank

/-- The maximal runs of a text without white space, in order. -/
inductive Runs : List Char → List (List Char) → Prop where
  | blank {cs : List Char} (h : ∀ c ∈ cs, isBlank c = true) : Runs cs []
  | run {pre w rest : List Char} {ws : List (List Char)} (hpre : ∀ c ∈ pre, isBlank c = true)
      (hne : w ≠ []) (hw : ∀ c ∈ w, isBlank c = false)
      (hrest : ∀ c ∈ rest.head?, isBlank c = true) (h : Runs rest ws) :
      Runs (pre ++ (w ++ rest)) (w :: ws)

/-- White space in front changes no runs. -/
theorem Runs.cons_blank {cs : List Char} {ws : List (List Char)} (h : Runs cs ws) {c : Char}
    (hc : isBlank c = true) : Runs (c :: cs) ws := by
  cases h with
  | blank h => exact .blank (List.forall_mem_cons.mpr ⟨hc, h⟩)
  | run hpre hne hw hrest h =>
    exact .run (List.forall_mem_cons.mpr ⟨hc, hpre⟩) hne hw hrest h

theorem runs_words (cs : List Char) : Runs cs (words cs) := by
  have hword : ∀ w rest ws, (∀ d ∈ w, isBlank d = false) →
      (∀ c ∈ rest.head?, isBlank c = true) → Runs rest ws → Runs (w ++ rest) (words w ++ ws) := by
    intro w rest ws hw hrest h
    rw [words_of_not_isBlank hw]
    cases w with
    | nil => exact h
    | cons d ds => exact .run (List.forall_mem_nil _) (List.cons_ne_nil d ds) hw hrest h
  induction cs using wordInduction with
  | word w hw =>
    have h := hword w [] [] hw (by simp) (.blank (List.forall_mem_nil _))
    rwa [List.append_nil, List.append_nil] at h
  | append w c rest hw hc ih =>
    rw [words_append_cons w rest hc]
    exact hword w (c :: rest) (words rest) hw (by simpa using hc) (ih.cons_blank hc)

/-- Cutting a text into words finds its maximal runs without white space. -/
theorem runs_iff {cs : List Char} {ws : List (List Char)} : Runs cs ws ↔ ws = words cs := by
  constructor
  · intro h
    induction h with
    | blank h => exact (words_of_isBlank h).symm
    | @run pre w rest ws hpre hne hw hrest _ ih =>
      have hone : words w = [w] := by
        rw [words_of_not_isBlank hw, List.filter_cons_of_pos (by simpa using hne)]
        rfl
      have hmore : words (w ++ rest) = words w ++ words rest := by
        cases rest with
        | nil => rw [List.append_nil, words_nil, List.append_nil]
        | cons c rest =>
          have hc : isBlank c = true := hrest c rfl
          rw [words_append_cons w rest hc, words_cons_of_isBlank hc]
      rw [words_append_of_isBlank hpre, hmore, hone, ih]
      rfl
  · rintro rfl
    exact runs_words cs

end Blank

/-! ## Letter case -/

/-- Lists are related element by element by what a function makes of them. -/
theorem forall₂_iff_map_eq {α β : Type} (f : α → β) {s t : List α} :
    List.Forall₂ (fun a b => f a = f b) s t ↔ s.map f = t.map f := by
  have heq : List.Forall₂ (· = ·) (s.map f) (t.map f) ↔ s.map f = t.map f := by
    rw [List.forall₂_eq_eq_eq]
  rw [← heq, List.forall₂_map_left_iff, List.forall₂_map_right_iff]

namespace CaseFold

/-- Two texts are equally long and differ in letter case at most, character by character. -/
def SameText (s t : List Char) : Prop :=
  List.Forall₂ (fun c d => fold c = fold d) s t

theorem forall₂_sameText_iff {ss ts : List (List Char)} :
    List.Forall₂ SameText ss ts ↔ ss.map (List.map fold) = ts.map (List.map fold) := by
  have hsame : SameText = fun s t => s.map fold = t.map fold := by
    funext s t
    exact propext (forall₂_iff_map_eq fold)
  rw [hsame]
  exact forall₂_iff_map_eq (List.map fold)

end CaseFold

/-! ## Words with gaps between them -/

namespace Pattern

/-- Words with gaps between them are still such when they are folded. -/
theorem Spaced.map_fold {chunks : List (List Char)} {text : List Char} (h : Spaced chunks text) :
    Spaced (chunks.map (List.map CaseFold.fold)) (text.map CaseFold.fold) := by
  induction h with
  | nil => exact .nil
  | single chunk => exact .single _
  | @cons chunk gap text chunks hgap hgaps hchunks _ ih =>
    rw [List.map_append, List.map_append]
    refine .cons (by simpa using hgap) ?_ (by simpa using hchunks) ih
    rw [List.forall_mem_map]
    intro c hc
    rw [isGap_fold, hgaps c hc]

/-- What is folded to words with gaps between them consists of such words. -/
theorem exists_spaced_of_map_fold {chunks : List (List Char)} {text : List Char}
    (h : Spaced chunks (text.map CaseFold.fold)) :
    ∃ ws, ws.map (List.map CaseFold.fold) = chunks ∧ Spaced ws text := by
  generalize heq : text.map CaseFold.fold = folded at h
  induction h generalizing text with
  | nil =>
    rw [List.map_eq_nil_iff] at heq
    exact ⟨[], rfl, heq ▸ .nil⟩
  | single chunk => exact ⟨[text], by rw [List.map_singleton, heq], .single text⟩
  | @cons chunk gap rest chunks hgap hgaps hchunks _ ih =>
    obtain ⟨front, text', rfl, hfront, htext'⟩ := List.map_eq_append_iff.mp heq
    obtain ⟨w, gap', rfl, rfl, rfl⟩ := List.map_eq_append_iff.mp hfront
    obtain ⟨ws, rfl, hws⟩ := ih htext'
    refine ⟨w :: ws, rfl, .cons (by simpa using hgap) ?_ (by simpa using hchunks) hws⟩
    intro c hc
    rw [← isGap_fold]
    exact hgaps _ (List.mem_map_of_mem hc)

/-- A text is one that a pattern stands for: the words of the pattern, each in any letter case, with
gaps between them. -/
def Means (written : String) (part : List Char) : Prop :=
  ∃ ws, List.Forall₂ CaseFold.SameText (Blank.words written.toList) ws ∧ Spaced ws part

section

variable [PatternLimit]

/-- A pattern that is small enough is found where a text stands that it stands for. -/
theorem found_iff_means (written text : String) :
    found written text = true ↔ PatternLimit.admits written = true
      ∧ ∃ part, Means written part ∧ part <:+: text.toList := by
  rw [found_iff, Blank.words_map CaseFold.isBlank_fold]
  refine and_congr_right fun _ => ⟨?_, ?_⟩
  · rintro ⟨folded, ⟨before, after, heq⟩, hspaced⟩
    obtain ⟨front, after', htext, hfront, -⟩ := List.map_eq_append_iff.mp heq.symm
    obtain ⟨before', part, rfl, -, rfl⟩ := List.map_eq_append_iff.mp hfront
    obtain ⟨ws, hws, hpart⟩ := exists_spaced_of_map_fold hspaced
    exact ⟨part, ⟨ws, CaseFold.forall₂_sameText_iff.mpr hws.symm, hpart⟩, before', after',
      htext.symm⟩
  · rintro ⟨part, ⟨ws, hsame, hspaced⟩, hpart⟩
    refine ⟨part.map CaseFold.fold, hpart.map CaseFold.fold, ?_⟩
    rw [CaseFold.forall₂_sameText_iff.mp hsame]
    exact hspaced.map_fold

/-- **What a pattern means.**  A pattern of at most 5000 characters is found in a text if and only if
a part of the text consists of the maximal runs of the pattern without white space, in order and in
any letter case, with a run of spaces, tabs and line ends between two of them. -/
theorem foundIn_iff {written : String} (h : written.length ≤ 5000) (text : String) :
    foundIn written (some text) = some true ↔ ∃ runs ws part, Blank.Runs written.toList runs
      ∧ List.Forall₂ CaseFold.SameText runs ws ∧ Spaced ws part ∧ part <:+: text.toList := by
  rw [foundIn, Option.map_some, Option.some_inj, found_iff_means,
    and_iff_right (PatternLimit.admits_of_length_le h)]
  constructor
  · rintro ⟨part, ⟨ws, hsame, hspaced⟩, hpart⟩
    exact ⟨_, ws, part, Blank.runs_words _, hsame, hspaced, hpart⟩
  · rintro ⟨runs, ws, part, hruns, hsame, hspaced, hpart⟩
    rw [Blank.runs_iff.mp hruns] at hsame
    exact ⟨part, ⟨ws, hsame, hspaced⟩, hpart⟩

end

/-- Marks are found as they stand, letters beyond ASCII in any case, and a line break for the white
space of the pattern. -/
theorem foundIn_iff_marks :
    " a.c\u00a0\\Σ".length ≤ 5000
      ∧ foundIn " a.c\u00a0\\Σ" (some "xA.C\r\n\t\\ςy") = some true := by
  have hruns : Blank.Runs " a.c\u00a0\\Σ".toList ["a.c".toList, "\\Σ".toList] :=
    Blank.runs_iff.mpr (by decide)
  have hsame : List.Forall₂ CaseFold.SameText ["a.c".toList, "\\Σ".toList]
      ["A.C".toList, "\\ς".toList] :=
    CaseFold.forall₂_sameText_iff.mpr (by decide)
  have hspaced : Spaced ["A.C".toList, "\\ς".toList]
      ("A.C".toList ++ "\r\n\t".toList ++ "\\ς".toList) :=
    .cons (by decide) (by decide) (by decide) (.single _)
  refine ⟨by decide, (foundIn_iff (by decide) _).mpr ⟨_, _, _, hruns, hsame, hspaced, ?_⟩⟩
  decide

end Pattern

end ImapMessage
