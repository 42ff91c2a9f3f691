/-
# Mailbox names level by level

A mark between the levels of a name, such as `/` or `.`, is written as it stands, and no shift
sequence contains it.  Writing therefore goes level by level, and so does reading: a shift sequence
that is cut by a mark is refused on both sides of it, and two that a mark keeps apart are not
adjacent.

Key constructions:
* `MailboxName.isMark`: the characters that may stand between levels.
* `MailboxName.levels`, `MailboxName.ofLevels`: the levels of a name, and the name of some levels.
* `MailboxName.encodeChars_mark`: what is written around a mark.
* `MailboxName.decode_level_by_level`: writing and reading.
-/
import ImapMessage.Proofs.MailboxName.Canonical
import Mathlib.Data.List.Forall2

namespace ImapMessage

namespace MailboxName

/-- Marks between the levels of a name: printable ASCII, without the characters that occur in shift
sequences. -/
def isMark (c : Char) : Bool :=
  isDirect c && !isShiftDigit c && c != '&' && c != '-'

/-- The levels of a name. -/
def levels (mark : Char) (name : String) : List String :=
  (name.toList.splitOn mark).map String.ofList

/-- The name of some levels. -/
def ofLevels (mark : Char) (names : List String) : String :=
  (String.singleton mark).intercalate names

theorem toList_ofLevels (mark : Char) (names : List String) :
    (ofLevels mark names).toList = [mark].intercalate (names.map String.toList) := by
  rw [ofLevels, String.toList_intercalate, String.toList_singleton]

/-- A name is determined by its levels. -/
theorem ofLevels_levels (mark : Char) (name : String) :
    ofLevels mark (levels mark name) = name := by
  have hback : ((name.toList.splitOn mark).map String.ofList).map String.toList
      = name.toList.splitOn mark := by
    rw [List.map_map]
    exact (List.map_congr_left fun _ _ => String.toList_ofList).trans (List.map_id _)
  rw [← String.toList_inj, toList_ofLevels, levels, hback, List.intercalate_splitOn]

/-- A text with a mark in it is divided on both sides of the mark. -/
theorem splitOn_append_cons (mark : Char) (front rest : List Char) :
    (front ++ mark :: rest).splitOn mark = front.splitOn mark ++ rest.splitOn mark :=
  List.splitOnP_append_cons front rest (beq_self_eq_true mark)

/-- Texts that are read one by one are the written forms of what they are read as. -/
theorem forall₂_decode_iff {ws names : List String} :
    List.Forall₂ (fun w name => decode w = .ok name) ws names ↔ ws = names.map encode := by
  have hread : (fun w name => decode w = .ok name) = fun w name => w = encode name := by
    funext w name
    refine propext ⟨eq_encode_of_decode, ?_⟩
    rintro rfl
    exact decode_encode name
  rw [hread, ← List.forall₂_eq_eq_eq, List.forall₂_map_right_iff]

section

variable {mark : Char} (hmark : isMark mark = true)

include hmark

theorem of_isMark : isDirect mark = true ∧ isShiftDigit mark = false ∧ mark ≠ '&' ∧ mark ≠ '-' := by
  simpa [isMark, and_assoc] using hmark

/-! ## Writing -/

/-- A mark is written as it stands, and nothing is written across it. -/
theorem encodeChars_mark (cs rest : List Char) :
    encodeChars (cs ++ mark :: rest) = encodeChars cs ++ mark :: encodeChars rest := by
  obtain ⟨hdirect, -, hamp, -⟩ := of_isMark hmark
  have hnext : StartsDirect (mark :: rest) := by
    intro c hc
    cases hc
    exact hdirect
  rw [encodeChars_append hnext, encodeChars_cons_of_direct rest hdirect, escape, if_neg hamp]
  rfl

/-- No mark is written but for a mark. -/
theorem mark_not_mem_encodeChars {cs : List Char} (h : mark ∉ cs) : mark ∉ encodeChars cs := by
  obtain ⟨-, hdigit, hamp, hhyphen⟩ := of_isMark hmark
  induction cs using pieceInduction with
  | nil => exact List.not_mem_nil
  | direct c cs hc ih =>
    rw [List.mem_cons, not_or] at h
    rw [encodeChars_cons_of_direct cs hc, List.mem_append, not_or]
    refine ⟨?_, ih h.2⟩
    -- An ampersand is written with a hyphen, and every other direct character as it stands.
    unfold escape
    split
    · simp [hamp, hhyphen]
    · simpa using h.1
  | shifted run cs hrun hshift hnext ih =>
    rw [List.mem_append, not_or] at h
    have hdigits : mark ∉ shiftDigits run := by
      intro hmem
      rw [isShiftDigit_of_mem_shiftDigits run mark hmem] at hdigit
      cases hdigit
    rw [encodeChars_append_of_shifted hrun hshift hnext, shift]
    simp [hamp, hhyphen, hdigits, ih h.2]

/-- What is written is divided at a mark where the text is. -/
theorem splitOn_encodeChars (cs : List Char) :
    (encodeChars cs).splitOn mark = (cs.splitOn mark).map encodeChars := by
  induction hn : cs.length using Nat.strongRecOn generalizing cs with
  | ind n ih =>
    by_cases hmem : mark ∈ cs
    · -- Before and after one of the marks the text is shorter.
      obtain ⟨front, rest, rfl⟩ := List.append_of_mem hmem
      rw [List.length_append, List.length_cons] at hn
      rw [encodeChars_mark hmark, splitOn_append_cons, splitOn_append_cons, List.map_append,
        ih front.length (by omega) front rfl, ih rest.length (by omega) rest rfl]
    · rw [List.splitOn_eq_singleton hmem, List.map_singleton,
        List.splitOn_eq_singleton (mark_not_mem_encodeChars hmark hmem)]

/-- The levels of a written name are the written levels. -/
theorem levels_encode (name : String) :
    levels mark (encode name) = (levels mark name).map encode := by
  rw [levels, toList_encode, splitOn_encodeChars hmark, levels, List.map_map, List.map_map]
  refine List.map_congr_left fun cs _ => ?_
  rw [Function.comp_apply, Function.comp_apply, ← String.toList_inj, toList_encode,
    String.toList_ofList, String.toList_ofList]

/-- The name of some levels is written level by level. -/
theorem encode_ofLevels (names : List String) :
    encode (ofLevels mark names) = ofLevels mark (names.map encode) := by
  have hchars : ∀ css : List (List Char),
      encodeChars ([mark].intercalate css) = [mark].intercalate (css.map encodeChars) := by
    intro css
    induction css with
    | nil => rfl
    | cons cs css ih =>
      cases css with
      | nil => simp
      | cons cs' css =>
        rw [List.intercalate_cons_cons, List.append_assoc, List.singleton_append,
          encodeChars_mark hmark, ih]
        simp
  rw [← String.toList_inj, toList_encode, toList_ofLevels, toList_ofLevels, hchars, List.map_map,
    List.map_map]
  exact congrArg _ (List.map_congr_left fun name _ => (toList_encode name).symm)

/-! ## Reading -/

/-- If each level of a text is read as a name, the text is read as the name of which these are the
levels. -/
theorem decode_of_forall₂ {written : String} {names : List String}
    (h : List.Forall₂ (fun level name => decode level = .ok name) (levels mark written) names) :
    decode written = .ok (ofLevels mark names) ∧ levels mark (ofLevels mark names) = names := by
  rw [forall₂_decode_iff] at h
  have hwritten : written = encode (ofLevels mark names) := by
    rw [encode_ofLevels hmark, ← h, ofLevels_levels]
  rw [hwritten, levels_encode hmark] at h
  refine ⟨?_, encode_injective.list_map h⟩
  rw [hwritten, decode_encode]

/-- **Names are written and read level by level.**  The levels of a written name are the written
levels of the name; a text is read as a name if and only if each of its levels is, and what the
levels are read as are then the levels of the name. -/
theorem decode_level_by_level :
    (∀ name, levels mark (encode name) = (levels mark name).map encode)
      ∧ ∀ written,
        ((∃ name, decode written = .ok name) ↔
            ∀ level ∈ levels mark written, ∃ name, decode level = .ok name)
          ∧ ∀ names,
            List.Forall₂ (fun level name => decode level = .ok name) (levels mark written) names →
              decode written = .ok (ofLevels mark names)
                ∧ levels mark (ofLevels mark names) = names := by
  refine ⟨levels_encode hmark, fun written => ⟨⟨?_, fun h => ?_⟩, fun _ => decode_of_forall₂ hmark⟩⟩
  · rintro ⟨name, hname⟩ level hlevel
    rw [eq_encode_of_decode hname, levels_encode hmark] at hlevel
    obtain ⟨n, -, rfl⟩ := List.mem_map.mp hlevel
    exact ⟨n, decode_encode n⟩
  · choose! name hname using h
    have hlevels : List.Forall₂ (fun level name => decode level = .ok name) (levels mark written)
        ((levels mark written).map name) :=
      List.forall₂_map_right_iff.mpr (List.forall₂_same.mpr hname)
    exact ⟨_, (decode_of_forall₂ hmark hlevels).1⟩

end

/-- Levels with and without shift sequences, two of which touch the marks from both sides. -/
theorem decode_level_by_level_mailboxes :
    isMark '/' = true
      ∧ levels '/' (encode "~peter/台北/日本語&") = ["~peter", "&U,BTFw-", "&ZeVnLIqe-&-"]
      ∧ decode "~peter/&U,BTFw-/&ZeVnLIqe-&-" = .ok "~peter/台北/日本語&" := by
  have hmark : isMark '/' = true := by decide
  have hlevels := decode_level_by_level hmark
  have hname : ofLevels '/' ["~peter", "台北", "日本語&"] = "~peter/台北/日本語&" := by decide
  refine ⟨hmark, ?_, ?_⟩
  · rw [hlevels.1]
    decide +kernel
  · rw [← hname]
    refine ((hlevels.2 _).2 _ ?_).1
    have hsplit : levels '/' "~peter/&U,BTFw-/&ZeVnLIqe-&-"
        = ["~peter", "&U,BTFw-", "&ZeVnLIqe-&-"] := by decide +kernel
    rw [hsplit]
    exact .cons (by decide +kernel) (.cons (by decide +kernel) (.cons (by decide +kernel) .nil))

end MailboxName

end ImapMessage
