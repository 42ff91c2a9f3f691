/-
# Lines of written bytes

Bytes that end in a line feed are divided into lines independently of what follows them.  A line
that is written with a carriage return and a line feed is read back without them.

Key constructions:
* `Line.lines_append`, `Line.lines_written_append`: the lines of bytes one after another.
* `Line.lines_written`: the lines of a written text.
* `Line.text_written`: the text of a written line.
-/
import ImapMessage.Entity.Line
import Mathlib.Data.List.SplitBy

namespace ImapMessage

namespace Line

/-! ## Lines and the bytes that they make up -/

/-- Lines make up the bytes that they are lines of. -/
theorem flatten_lines (s : Bytes) : (lines s).flatten = s :=
  List.flatten_splitBy _ s

theorem mem_of_mem_lines {s line : Bytes} {b : UInt8} (h : line ∈ lines s) (hb : b ∈ line) :
    b ∈ s := by
  rw [← flatten_lines s]
  exact List.mem_flatten.mpr ⟨line, h, hb⟩

/-- A line has at least its ending. -/
theorem length_pos_of_mem_lines {s line : Bytes} (h : line ∈ lines s) : 0 < line.length :=
  List.length_pos_iff.mpr (List.ne_nil_of_mem_splitBy h)

theorem lines_nil : lines [] = [] := rfl

/-- Bytes after a line feed begin a line of their own. -/
theorem lines_append {s t : Bytes} (h : ∀ b ∈ s.getLast?, b = Ascii.lf) :
    lines (s ++ t) = lines s ++ lines t := by
  apply List.splitBy_append
  intro a ha b _
  simp [h a ha]

/-- Bytes without a line feed, with one at most at their end, are one line. -/
theorem lines_eq_singleton {s : Bytes} (hne : s ≠ []) (h : Ascii.lf ∉ s.dropLast) :
    lines s = [s] := by
  apply List.splitBy_of_isChain hne
  rw [List.isChain_iff_getElem]
  intro i hi
  rw [bne_iff_ne]
  intro heq
  apply h
  have hi' : i < s.dropLast.length := by
    rw [List.length_dropLast]
    omega
  have hmem : s.dropLast[i] ∈ s.dropLast := List.getElem_mem hi'
  rwa [List.getElem_dropLast, heq] at hmem

/-- A line feed ends a line. -/
theorem lines_append_lf {w : Bytes} (h : Ascii.lf ∉ w) (t : Bytes) :
    lines (w ++ Ascii.lf :: t) = (w ++ [Ascii.lf]) :: lines t := by
  have hline : lines (w ++ [Ascii.lf]) = [w ++ [Ascii.lf]] :=
    lines_eq_singleton (List.append_ne_nil_of_right_ne_nil w (List.cons_ne_nil _ _))
      (by rwa [List.dropLast_concat])
  rw [List.append_cons, lines_append (by simp), hline, List.singleton_append]

/-- A line has no line feed before its end. -/
theorem not_mem_dropLast_of_mem_lines {s line : Bytes} (h : line ∈ lines s) :
    Ascii.lf ∉ line.dropLast := by
  have hchain := List.isChain_of_mem_splitBy h
  rw [List.isChain_iff_getElem] at hchain
  intro hmem
  obtain ⟨i, hi, heq⟩ := List.getElem_of_mem hmem
  rw [List.length_dropLast] at hi
  rw [List.getElem_dropLast] at heq
  exact bne_iff_ne.mp (hchain i (by omega)) heq

/-- A line has a line feed at its end, or none at all. -/
theorem exists_of_mem_lines {s line : Bytes} (h : line ∈ lines s) :
    ∃ w, Ascii.lf ∉ w ∧ (line = w ∨ line = w ++ [Ascii.lf]) := by
  have hinit := not_mem_dropLast_of_mem_lines h
  have hline := List.dropLast_concat_getLast (List.ne_nil_of_mem_splitBy h)
  by_cases hlast : line.getLast (List.ne_nil_of_mem_splitBy h) = Ascii.lf
  · rw [hlast] at hline
    exact ⟨line.dropLast, hinit, .inr hline.symm⟩
  · refine ⟨line, fun hmem => ?_, .inl rfl⟩
    rw [← hline, List.mem_append, List.mem_singleton] at hmem
    exact hmem.elim hinit fun heq => hlast heq.symm

/-- Induction along the lines of some bytes. -/
theorem lineInduction {motive : Bytes → Prop} (line : ∀ w, Ascii.lf ∉ w → motive w)
    (append : ∀ w rest, Ascii.lf ∉ w → motive rest → motive (w ++ Ascii.lf :: rest)) (s : Bytes) :
    motive s := by
  by_cases hlf : Ascii.lf ∈ s
  · obtain ⟨w, rest, heq, hw⟩ := List.eq_append_cons_of_mem hlf
    subst heq
    exact append w rest hw (lineInduction line append rest)
  · exact line s hlf
termination_by s.length
decreasing_by
  rw [heq, List.length_append, List.length_cons]
  omega

/-! ## Without the ending -/

theorem without_isPrefix (b : UInt8) (s : Bytes) : without b s <+: s := by
  unfold without
  split
  · exact List.dropLast_prefix s
  · exact List.prefix_rfl

theorem withoutBreak_isPrefix (s : Bytes) : withoutBreak s <+: s := by
  unfold withoutBreak
  split
  · exact (without_isPrefix Ascii.cr s.dropLast).trans (List.dropLast_prefix s)
  · exact List.prefix_rfl

theorem without_concat (b : UInt8) (s : Bytes) : without b (s ++ [b]) = s := by
  rw [without, if_pos List.getLast?_concat, List.dropLast_concat]

theorem text_isPrefix (line : Bytes) : text line <+: line :=
  (without_isPrefix Ascii.cr _).trans (without_isPrefix Ascii.lf line)

/-- The text of a line has no line feed. -/
theorem lf_not_mem_text {s line : Bytes} (h : line ∈ lines s) : Ascii.lf ∉ text line := by
  obtain ⟨w, hw, rfl | rfl⟩ := exists_of_mem_lines h
  · exact fun hmem => hw ((text_isPrefix line).subset hmem)
  · rw [text, without_concat]
    exact fun hmem => hw ((without_isPrefix _ _).subset hmem)

theorem without_of_not_mem {b : UInt8} {s : Bytes} (h : b ∉ s) : without b s = s :=
  if_neg fun hlast => h (List.mem_of_getLast? hlast)

/-! ## Written lines -/

/-- A written line is read back without its ending. -/
theorem text_written (w : Bytes) : text (w ++ Ascii.crlf) = w := by
  rw [text, Ascii.crlf, List.append_cons, without_concat, without_concat]

theorem withoutBreak_written (w : Bytes) : withoutBreak (w ++ Ascii.crlf) = w := by
  rw [withoutBreak, Ascii.crlf, List.append_cons, if_pos List.getLast?_concat,
    List.dropLast_concat, without_concat]

theorem getLast?_written (w : Bytes) : (w ++ Ascii.crlf).getLast? = some Ascii.lf := by
  rw [Ascii.crlf, List.append_cons, List.getLast?_concat]

/-- What follows a line ending does not change the lines before it. -/
theorem lines_written_append (s t : Bytes) :
    lines (s ++ Ascii.crlf ++ t) = lines (s ++ Ascii.crlf) ++ lines t := by
  apply lines_append
  intro b hb
  rw [getLast?_written] at hb
  exact (Option.some_inj.mp hb).symm

/-- A written line is a line, whatever follows it. -/
theorem lines_written {w : Bytes} (h : Ascii.lf ∉ w) (t : Bytes) :
    lines (w ++ Ascii.crlf ++ t) = (w ++ Ascii.crlf) :: lines t := by
  have hcr : Ascii.lf ∉ w ++ [Ascii.cr] := by
    rw [List.mem_append, List.mem_singleton, not_or]
    exact ⟨h, by decide⟩
  have hline := lines_append_lf hcr t
  rw [List.append_cons, ← List.append_cons w] at hline
  exact hline

/-- A line before a line ending is a line without it, or one with it. -/
theorem of_mem_lines_written {s line : Bytes} (h : line ∈ lines (s ++ Ascii.crlf)) :
    line ∈ lines s ∨ ∃ line', (line' = [] ∨ line' ∈ lines s) ∧ line = line' ++ Ascii.crlf := by
  induction s using lineInduction with
  | line w hw =>
    have hlines := lines_written hw []
    rw [List.append_nil] at hlines
    rw [hlines, lines_nil, List.mem_singleton] at h
    refine .inr ⟨w, ?_, h⟩
    by_cases hne : w = []
    · exact .inl hne
    · rw [lines_eq_singleton hne fun hmem => hw (List.dropLast_subset w hmem)]
      exact .inr (List.mem_singleton_self w)
  | append w rest hw ih =>
    rw [List.append_assoc, List.cons_append, lines_append_lf hw] at h
    rw [lines_append_lf hw, List.mem_cons]
    rcases List.mem_cons.mp h with rfl | h
    · exact .inl (.inl rfl)
    · rcases ih h with hline | ⟨line', hline', rfl⟩
      · exact .inl (.inr hline)
      · exact .inr ⟨line', hline'.imp id fun hmem => List.mem_cons_of_mem _ hmem, rfl⟩

end Line

end ImapMessage
