/-
# Searching in values that are put together

The values of all fields of a name are searched as one text with a NUL between two of them, and the
texts of all text parts as one text with a NUL after each of them.  No pattern without NUL reaches
from one of them into the next: neither its words nor the gaps between them can be a NUL.  Searching
all together is therefore the same as searching them one by one, even if they contain NULs of their
own.

Key constructions:
* `CaseFold.fold_eq_nul_iff`: no other letter case of NUL.
* `Pattern.Means.nul_not_mem`: what a pattern stands for.
* `Pattern.found_intercalate_iff`, `Pattern.found_join_iff`: searching texts with separators.
* `SearchData.lookup_headerLines`: the values of a name.
* `Criteria.matchesContent_one_by_one`: searching fields and text parts one by one.
-/
import ImapMessage.Proofs.Search.Meaning
import ImapMessage.Proofs.Search.Substring
import ImapMessage.Proofs.Search.TextLeaves
import ImapMessage.Proofs.Text.Infix

namespace ImapMessage

/-! ## NUL and letter case -/

namespace CaseFold

/-- Every mapping leads to a character, and none leads to NUL. -/
theorem toNat_ofNat_of_run {r : Run} (hr : r ∈ runs) {n : Nat} (hn : r.contains n = true) :
    (Char.ofNat (n + r.shift).toNat).toNat = (n + r.shift).toNat ∧ 0 < n + r.shift := by
  have hrange : ∀ r ∈ runs, 0 < r.first + r.shift
      ∧ (r.last + r.shift < 0xD800 ∨ 0xDFFF < r.first + r.shift ∧ r.last + r.shift < 0x110000) := by
    decide +kernel
  simp only [Run.contains, Bool.and_eq_true, decide_eq_true_eq] at hn
  obtain ⟨hpositive, hvalid⟩ := hrange r hr
  refine ⟨Utf16.toNat_ofNat_of_isValidChar ?_, by omega⟩
  unfold Nat.isValidChar
  omega

/-- NUL has no other letter case. -/
theorem fold_eq_nul_iff {c : Char} : fold c = '\x00' ↔ c = '\x00' := by
  refine ⟨fun h => ?_, by rintro rfl; decide⟩
  rcases fold_cases c with ⟨hascii, hfold⟩ | ⟨r, hr, hcontains, hfold⟩ | hfold
  · have hlower : ∀ n < 0x80, (Char.ofNat n).toLower = '\x00' → Char.ofNat n = '\x00' := by
      decide +kernel
    have := hlower c.toNat hascii
    rw [Char.ofNat_toNat, ← hfold] at this
    exact this h
  · obtain ⟨hcode, hpositive⟩ := toNat_ofNat_of_run hr hcontains
    have hnul : ('\x00').toNat = 0 := rfl
    rw [← hfold, h] at hcode
    omega
  · rwa [hfold] at h

end CaseFold

/-! ## What a pattern stands for -/

namespace Pattern

section

variable {written : String} {part : List Char}

/-- What a pattern stands for has its characters, in any letter case, apart from white space. -/
theorem Means.filter_map_fold (h : Means written part) :
    ((part.map CaseFold.fold).filter fun c => !Blank.isBlank c)
      = (written.toList.map CaseFold.fold).filter fun c => !Blank.isBlank c := by
  obtain ⟨ws, hsame, hspaced⟩ := h
  have hfolded := hspaced.map_fold
  rw [← CaseFold.forall₂_sameText_iff.mp hsame, ← Blank.words_map CaseFold.isBlank_fold] at hfolded
  rw [hfolded.filter_eq_flatten (areWords_words _), Blank.flatten_words]

/-- A pattern without NUL stands for texts without NUL. -/
theorem Means.nul_not_mem (h : Means written part) (hnul : '\x00' ∉ written.toList) :
    '\x00' ∉ part := by
  intro hmem
  have hfold : '\x00' ∈ (part.map CaseFold.fold).filter fun c => !Blank.isBlank c :=
    List.mem_filter.mpr ⟨List.mem_map.mpr ⟨_, hmem, by decide⟩, by decide⟩
  rw [h.filter_map_fold, List.mem_filter, List.mem_map] at hfold
  obtain ⟨⟨c, hc, hnul'⟩, -⟩ := hfold
  rw [CaseFold.fold_eq_nul_iff] at hnul'
  exact hnul (hnul' ▸ hc)

/-- A pattern that is not all white space stands for texts that are not empty. -/
theorem Means.ne_nil (h : Means written part)
    (hword : ∃ c ∈ written.toList, Blank.isBlank c = false) : part ≠ [] := by
  rintro rfl
  obtain ⟨c, hc, hblank⟩ := hword
  have hmem : CaseFold.fold c
      ∈ (written.toList.map CaseFold.fold).filter fun c => !Blank.isBlank c := by
    rw [List.mem_filter, CaseFold.isBlank_fold, hblank]
    exact ⟨List.mem_map_of_mem hc, rfl⟩
  rw [← h.filter_map_fold] at hmem
  cases hmem

/-- If all that a pattern stands for is found in a text where it is found in one of several others,
then so is the pattern. -/
theorem found_iff_exists_found [PatternLimit] {text : String} {texts : List String}
    (h : ∀ part, Means written part → (part <:+: text.toList ↔ ∃ t ∈ texts, part <:+: t.toList)) :
    found written text = true ↔ ∃ t ∈ texts, found written t = true := by
  simp only [found_iff_means]
  constructor
  · rintro ⟨hadmits, part, hmeans, hpart⟩
    obtain ⟨t, ht, hpart⟩ := (h part hmeans).mp hpart
    exact ⟨t, ht, hadmits, part, hmeans, hpart⟩
  · rintro ⟨t, ht, hadmits, part, hmeans, hpart⟩
    exact ⟨hadmits, part, hmeans, (h part hmeans).mpr ⟨t, ht, hpart⟩⟩

section

variable [PatternLimit] (hnul : '\x00' ∉ written.toList)

include hnul

/-- A pattern without NUL is found in texts with NULs between them if it is found in one of them. -/
theorem found_intercalate_iff {texts : List String} (hne : texts ≠ []) :
    found written (SearchData.nul.intercalate texts) = true
      ↔ ∃ t ∈ texts, found written t = true := by
  refine found_iff_exists_found fun part hmeans => ?_
  have hseparator : SearchData.nul.toList = ['\x00'] := rfl
  rw [String.toList_intercalate, hseparator,
    infix_intercalate_iff (hmeans.nul_not_mem hnul) (by simpa using hne)]
  simp

/-- The same for texts with a NUL after each of them, if the pattern is not all white space. -/
theorem found_join_iff (hword : ∃ c ∈ written.toList, Blank.isBlank c = false)
    (texts : List String) :
    found written (String.join (texts.map fun t => t ++ SearchData.nul)) = true
      ↔ ∃ t ∈ texts, found written t = true := by
  refine found_iff_exists_found fun part hmeans => ?_
  have htext : (String.join (texts.map fun t => t ++ SearchData.nul)).toList
      = (texts.map String.toList).flatMap (· ++ ['\x00']) := by
    simp [String.toList_join, SearchData.nul, List.flatMap_map]
  rw [htext, infix_flatMap_iff (hmeans.nul_not_mem hnul) (hmeans.ne_nil hword)]
  simp

end

end

end Pattern

/-! ## The values of a name -/

theorem Header.contains_iff (h : Header) (name : String) :
    h.contains name = true ↔ h.getAll name ≠ [] := by
  simp [contains, getAll]

/-- What a function makes of the members of a list is looked up by the member. -/
theorem lookup_map_self {α β : Type} [BEq α] [LawfulBEq α] (f : α → β) (xs : List α) (x : α) :
    (xs.map fun y => (y, f y)).lookup x = if x ∈ xs then some (f x) else none := by
  induction xs with
  | nil => rfl
  | cons y ys ih =>
    rw [List.map_cons, List.lookup_cons]
    by_cases h : x = y
    · simp [h]
    · have hbeq : (x == y) = false := beq_false_of_ne h
      simp [h, hbeq, ih]

namespace SearchData

/-- The values of a name are looked up in any letter case. -/
theorem lookup_headerLines [FurtherCharsets] (h : Header) (name : String) :
    (headerLines h).lookup (Ascii.lowerName name)
      = if h.contains name then some (nul.intercalate ((h.getAll name).map Display.unstructured))
        else none := by
  have hvalue : headerValue h (Ascii.lowerName name)
      = nul.intercalate ((h.getAll name).map Display.unstructured) := by
    rw [headerValue, Header.getAll, List.map_map]
    rfl
  have hmem : Ascii.lowerName name ∈ (h.fields.map fun f => Ascii.lowerName f.name).eraseDups
      ↔ h.contains name = true := by
    rw [List.mem_eraseDups, List.mem_map, Header.contains, List.any_eq_true]
    simp only [Field.hasName, Ascii.sameName, beq_iff_eq]
  rw [headerLines, lookup_map_self, hvalue]
  simp only [hmem]

end SearchData

/-! ## Searching -/

namespace Criteria

section

variable [FurtherCharsets] [PatternLimit]

/-- A criterion about a field is met if its pattern is found in the values of the name. -/
theorem matchesContent_header (name pattern : String) (limits : SearchLimits) (message : Entity) :
    matchesContent [.header name pattern] limits message
      = (message.header.contains name && Pattern.found pattern (SearchData.nul.intercalate
          ((message.header.getAll name).map Display.unstructured))) := by
  apply matchesContent_singleton
  rw [Criterion.evaluate, SearchData.foundInField]
  simp only [SearchData.loadMessage, SearchData.replaceIf, if_true, Option.map_some,
    SearchData.lookup_headerLines]
  cases message.header.contains name <;> rfl

/-- A criterion about the body is met if its pattern is found in the texts of the text parts. -/
theorem matchesContent_body (pattern : String) (limits : SearchLimits) (message : Entity) :
    matchesContent [.body pattern] limits message
      = Pattern.found pattern (SearchData.contentText limits.contentReadLimit message) := by
  apply matchesContent_singleton
  rw [Criterion.evaluate]
  rfl

/-- **Fields and text parts are searched one by one.**  A pattern without NUL is found in the fields
of a name if and only if it is found in the value of one of them; and if it is not all white space
and the limit is above the size of the text parts, it is found in the body if and only if it is found
in the text of one of them. -/
theorem matchesContent_one_by_one (pattern : String) (hnul : '\x00' ∉ pattern.toList)
    (limits : SearchLimits) (message : Entity) :
    (∀ name, matchesContent [.header name pattern] limits message = true
        ↔ ∃ f ∈ message.header.fields, f.hasName name = true
          ∧ Pattern.found pattern (Display.unstructured f.value) = true)
      ∧ ((∃ c ∈ pattern.toList, Blank.isBlank c = false) →
        message.textSize < limits.contentReadLimit →
          (matchesContent [.body pattern] limits message = true
            ↔ ∃ c ∈ message.textLeaves, Pattern.found pattern (TextBody.textOf c c.body) = true)) := by
  refine ⟨fun name => ?_, fun hword hlimit => ?_⟩
  · have hvalues : (∃ t ∈ (message.header.getAll name).map Display.unstructured,
        Pattern.found pattern t = true)
          ↔ ∃ f ∈ message.header.fields, f.hasName name = true
            ∧ Pattern.found pattern (Display.unstructured f.value) = true := by
      simp [Header.getAll, and_assoc]
    rw [matchesContent_header, Bool.and_eq_true, Header.contains_iff, ← hvalues]
    by_cases hnil : message.header.getAll name = []
    · simp [hnil]
    · rw [Pattern.found_intercalate_iff hnul (by simpa using hnil)]
      exact and_iff_right hnil
  · rw [matchesContent_body, SearchData.contentText_of_lt hlimit,
      Pattern.found_join_iff hnul hword]
    simp

end

/-- A message with two fields of one name and two text parts. -/
def twoOfEach : Entity :=
  .withParts ⟨[⟨"X-Tag", Utf8.encode "one"⟩, ⟨"x-tag", Utf8.encode "two"⟩]⟩ []
    [.ofHeader .empty (Utf8.encode "three"), .ofHeader .empty (Utf8.encode "four")]

/-- The values and the texts are found, but nothing that would reach over the end of one. -/
theorem matchesContent_one_by_one_two_of_each :
    '\x00' ∉ "TWO".toList ∧ matchesContent [.header "X-TAG" "TWO"] {} twoOfEach = true
      ∧ matchesContent [.header "X-TAG" "one two"] {} twoOfEach = false
      ∧ twoOfEach.textSize < ({} : SearchLimits).contentReadLimit
      ∧ matchesContent [.body "four"] {} twoOfEach = true
      ∧ matchesContent [.body "three four"] {} twoOfEach = false := by
  have hvalue := matchesContent_one_by_one "TWO" (by decide) {} twoOfEach
  have hvalues := matchesContent_one_by_one "one two" (by decide) {} twoOfEach
  have htext := matchesContent_one_by_one "four" (by decide) {} twoOfEach
  have htexts := matchesContent_one_by_one "three four" (by decide) {} twoOfEach
  have hsize : twoOfEach.textSize < ({} : SearchLimits).contentReadLimit := by decide +kernel
  refine ⟨by decide, (hvalue.1 "X-TAG").mpr (by decide +kernel), ?_, hsize,
    (htext.2 ⟨'f', by decide⟩ hsize).mpr (by decide +kernel), ?_⟩
  · exact Bool.eq_false_iff.mpr (mt (hvalues.1 "X-TAG").mp (by decide +kernel))
  · exact Bool.eq_false_iff.mpr (mt (htexts.2 ⟨'f', by decide⟩ hsize).mp (by decide +kernel))

end Criteria

end ImapMessage
