/-
# Bodies as they are divided

A body consists of what stands before its first delimiter line, and then of delimiter lines and
parts in turn, with the line break before a delimiter line between the part and that line.  A
closing delimiter line ends the parts, whatever stands after it.  There is one way only in which a
body is divided so, and its parts are those that are found.

Key constructions:
* `Multipart.IsDelimiterLine`: delimiter lines as they are written.
* `Multipart.IsBreak`: the line break between a part and a delimiter line.
* `Multipart.Divides`: the parts into which a body is divided.
* `Multipart.exists_first`: the first delimiter line of a body.
* `Multipart.parts_divide`: the parts that are found are those into which the body is divided.
-/
import ImapMessage.Proofs.Entity.Delimited

namespace ImapMessage

namespace Multipart

/-! ## Delimiter lines -/

/-- What stands in a delimiter line after the boundary. -/
def Delimiter.mark : Delimiter → Bytes
  | .next => []
  | .close => hyphens

/-- A delimiter line: two hyphens and the boundary, two more hyphens if it closes the parts, and
then only white space. -/
def IsDelimiterLine (boundary : Bytes) (d : Delimiter) (line : Bytes) : Prop :=
  ∃ padding, padding.all Ascii.isFold = true ∧ line = hyphens ++ boundary ++ (d.mark ++ padding)

theorem delimiterOfRest_eq_some_iff {rest : Bytes} {d : Delimiter} : delimiterOfRest rest = some d
    ↔ ∃ padding, padding.all Ascii.isFold = true ∧ rest = d.mark ++ padding := by
  unfold delimiterOfRest
  cases hprefix : hyphens.isPrefixOf? rest with
  | none =>
    -- What begins with no hyphens is white space only, or nothing that is looked for.
    have hclose : ∀ padding, rest ≠ hyphens ++ padding := by
      intro padding heq
      rw [isPrefixOf?_eq_some_iff.mpr heq] at hprefix
      cases hprefix
    simp only [Option.ite_none_right_eq_some, Option.some.injEq]
    constructor
    · rintro ⟨hfold, rfl⟩
      exact ⟨rest, hfold, rfl⟩
    · rintro ⟨padding, hfold, heq⟩
      cases d with
      | next => exact ⟨heq ▸ hfold, rfl⟩
      | close => exact absurd heq (hclose padding)
  | some rest' =>
    obtain rfl := isPrefixOf?_eq_some_iff.mp hprefix
    simp only [Option.ite_none_right_eq_some, Option.some.injEq]
    constructor
    · rintro ⟨hfold, rfl⟩
      exact ⟨rest', hfold, rfl⟩
    · rintro ⟨padding, hfold, heq⟩
      cases d with
      | next =>
        -- A hyphen is no white space.
        rw [← show hyphens ++ rest' = padding from heq, List.all_append] at hfold
        cases hfold
      | close => exact ⟨List.append_cancel_left heq ▸ hfold, rfl⟩

/-- Delimiter lines are known by their form. -/
theorem delimiter?_eq_some_iff {boundary line : Bytes} {d : Delimiter} :
    delimiter? boundary line = some d ↔ IsDelimiterLine boundary d line := by
  rw [delimiter?, Option.bind_eq_some_iff]
  simp only [isPrefixOf?_eq_some_iff, delimiterOfRest_eq_some_iff]
  constructor
  · rintro ⟨rest, rfl, padding, hfold, rfl⟩
    exact ⟨padding, hfold, rfl⟩
  · rintro ⟨padding, hfold, rfl⟩
    exact ⟨_, rfl, padding, hfold, rfl⟩

theorem isInner_iff {boundary line : Bytes} :
    isInner boundary line = true ↔ ∀ d, ¬IsDelimiterLine boundary d line := by
  simp only [isInner, Option.isNone_iff_eq_none, Option.eq_none_iff_forall_ne_some, ne_eq,
    delimiter?_eq_some_iff]

/-- White space at its end does not make a delimiter line another line. -/
theorem IsDelimiterLine.append {boundary line e : Bytes} {d : Delimiter}
    (h : IsDelimiterLine boundary d line) (he : e.all Ascii.isFold = true) :
    IsDelimiterLine boundary d (line ++ e) := by
  obtain ⟨padding, hfold, rfl⟩ := h
  refine ⟨padding ++ e, ?_, by simp only [List.append_assoc]⟩
  rw [List.all_append, hfold, he]
  rfl

/-- Bytes that have no delimiter line before a line ending have none without it. -/
theorem IsFree.of_append {boundary s e : Bytes} (h : IsFree boundary (s ++ e)) (hne : e ≠ [])
    (he : e.all Ascii.isFold = true) (hlf : Ascii.lf ∉ e.dropLast) : IsFree boundary s := by
  induction s using Line.lineInduction with
  | line w hw =>
    have hend : Ascii.lf ∉ (w ++ e).dropLast := by
      rw [List.dropLast_append_of_ne_nil hne, List.mem_append, not_or]
      exact ⟨hw, hlf⟩
    intro line hline
    have hmem : line = w := by
      have hw' : w ≠ [] := by
        rintro rfl
        cases hline
      rw [Line.lines_eq_singleton hw' fun hmem => hw (List.dropLast_subset w hmem)] at hline
      exact List.mem_singleton.mp hline
    have hfree := h (w ++ e) (by
      rw [Line.lines_eq_singleton (List.append_ne_nil_of_right_ne_nil w hne) hend]
      exact List.mem_singleton_self _)
    rw [isInner_iff] at hfree ⊢
    exact fun d hd => hfree d (hmem ▸ hd.append he)
  | append w rest hw ih =>
    rw [IsFree, List.append_assoc, List.cons_append, Line.lines_append_lf hw] at h
    intro line hline
    rw [Line.lines_append_lf hw] at hline
    rcases List.mem_cons.mp hline with rfl | hline
    · exact h _ List.mem_cons_self
    · exact ih (fun line hline => h line (List.mem_cons_of_mem _ hline)) line hline

/-! ## Parts between delimiter lines -/

/-- The line break between a part and the delimiter line after it: a carriage return and a line
feed, or a line feed alone if no carriage return stands before it, or nothing at all if nothing
stands between the delimiter lines. -/
inductive IsBreak : Bytes → Bytes → Prop where
  | none : IsBreak [] []
  | crlf (part : Bytes) : IsBreak part Ascii.crlf
  | lf {part : Bytes} (h : part.getLast? ≠ some Ascii.cr) : IsBreak part [Ascii.lf]

/-- Bytes that end where a line ends, if they do not end the body. -/
def EndsLine (s : Bytes) : Prop :=
  ∀ b ∈ s.getLast?, b = Ascii.lf

/-- A line stands before other bytes: it has no line feed before its end, and one at its end unless
nothing follows it. -/
structure StandsBefore (line rest : Bytes) : Prop where
  /-- There is no line feed before the end. -/
  lf_not_mem : Ascii.lf ∉ line.dropLast
  /-- There is one at the end, or nothing comes after it. -/
  ends : EndsLine line ∨ rest = []

/-- The parts in what follows a delimiter line that begins one. -/
inductive DividesAfter (boundary : Bytes) : Bytes → List Bytes → Prop where
  /-- The last part goes to the end. -/
  | last {part : Bytes} (hpart : IsFree boundary part) : DividesAfter boundary part [part]
  /-- The last part goes to a closing delimiter line. -/
  | close {part e line epilogue : Bytes} (hpart : IsFree boundary (part ++ e))
      (he : IsBreak part e) (hline : IsDelimiterLine boundary .close line)
      (hstands : StandsBefore line epilogue) :
      DividesAfter boundary (part ++ e ++ (line ++ epilogue)) [part]
  /-- A part goes to the delimiter line before the next one. -/
  | next {part e line rest : Bytes} {parts : List Bytes} (hpart : IsFree boundary (part ++ e))
      (he : IsBreak part e) (hline : IsDelimiterLine boundary .next line)
      (hstands : StandsBefore line rest) (hrest : DividesAfter boundary rest parts) :
      DividesAfter boundary (part ++ e ++ (line ++ rest)) (part :: parts)

/-- The parts of a body. -/
inductive Divides (boundary : Bytes) : Bytes → List Bytes → Prop where
  /-- There is no delimiter line. -/
  | none {body : Bytes} (hbody : IsFree boundary body) : Divides boundary body []
  /-- The first delimiter line is a closing one. -/
  | close {preamble line epilogue : Bytes} (hpreamble : IsFree boundary preamble)
      (hends : EndsLine preamble) (hline : IsDelimiterLine boundary .close line)
      (hstands : StandsBefore line epilogue) : Divides boundary (preamble ++ (line ++ epilogue)) []
  /-- The parts begin after the first delimiter line. -/
  | next {preamble line rest : Bytes} {parts : List Bytes} (hpreamble : IsFree boundary preamble)
      (hends : EndsLine preamble) (hline : IsDelimiterLine boundary .next line)
      (hstands : StandsBefore line rest) (hrest : DividesAfter boundary rest parts) :
      Divides boundary (preamble ++ (line ++ rest)) parts

/-! ## Line breaks -/

/-- A line break is taken off with nothing else. -/
theorem IsBreak.withoutBreak {part e : Bytes} (h : IsBreak part e) :
    Line.withoutBreak (part ++ e) = part := by
  cases h with
  | none => rfl
  | crlf => exact Line.withoutBreak_written part
  | lf h =>
    rw [Line.withoutBreak, if_pos List.getLast?_concat, List.dropLast_concat, Line.without,
      if_neg h]

theorem IsBreak.endsLine {part e : Bytes} (h : IsBreak part e) : EndsLine (part ++ e) := by
  intro b hb
  cases h with
  | none => cases hb
  | crlf =>
    rw [Line.getLast?_written] at hb
    exact (Option.some_inj.mp hb).symm
  | lf =>
    rw [List.getLast?_concat] at hb
    exact (Option.some_inj.mp hb).symm

/-- What ends a line consists of a part and a line break. -/
theorem exists_isBreak {s : Bytes} (h : EndsLine s) : ∃ part e, s = part ++ e ∧ IsBreak part e := by
  rcases List.eq_nil_or_concat' s with rfl | ⟨t, b, rfl⟩
  · exact ⟨[], [], rfl, .none⟩
  · obtain rfl := h b List.getLast?_concat
    by_cases hcr : t.getLast? = some Ascii.cr
    · obtain ⟨part, rfl⟩ := List.getLast?_eq_some_iff.mp hcr
      exact ⟨part, Ascii.crlf, by simp [Ascii.crlf], .crlf part⟩
    · exact ⟨t, [Ascii.lf], rfl, .lf hcr⟩

/-- A part has no delimiter line if there is none up to the line break. -/
theorem IsBreak.isFree {boundary part e : Bytes} (h : IsBreak part e)
    (hfree : IsFree boundary (part ++ e)) : IsFree boundary part := by
  cases h with
  | none => exact hfree
  | crlf => exact hfree.of_append (List.cons_ne_nil _ _) rfl (by decide)
  | lf => exact hfree.of_append (List.cons_ne_nil _ _) rfl (by decide)

/-! ## The parts that are found -/

section

variable {boundary : Bytes}

/-- A delimiter line is not empty. -/
theorem IsDelimiterLine.ne_nil {d : Delimiter} {line : Bytes}
    (h : IsDelimiterLine boundary d line) : line ≠ [] := by
  obtain ⟨padding, -, rfl⟩ := h
  exact List.cons_ne_nil _ _

/-- The lines of bytes in which a delimiter line stands. -/
theorem lines_delimited {d : Delimiter} {inner line rest : Bytes} (hinner : EndsLine inner)
    (hline : IsDelimiterLine boundary d line) (hstands : StandsBefore line rest) :
    Line.lines (inner ++ (line ++ rest)) = Line.lines inner ++ line :: Line.lines rest := by
  have hone : Line.lines line = [line] := Line.lines_eq_singleton hline.ne_nil hstands.lf_not_mem
  rw [Line.lines_append hinner]
  rcases hstands.ends with hends | rfl
  · rw [Line.lines_append hends, hone, List.singleton_append]
  · rw [List.append_nil, hone, Line.lines_nil]

/-- Bytes have no delimiter line, or there is a first one among them. -/
theorem exists_first (boundary s : Bytes) : IsFree boundary s ∨ ∃ inner line rest d,
    s = inner ++ (line ++ rest) ∧ IsFree boundary inner ∧ EndsLine inner
      ∧ IsDelimiterLine boundary d line ∧ StandsBefore line rest := by
  have hempty : IsFree boundary [] := by
    rintro line ⟨⟩
  have hends : EndsLine [] := by
    rintro b ⟨⟩
  -- The induction is along the lines, and the question is whether the first one is a delimiter.
  induction s using Line.lineInduction with
  | line w hw =>
    cases hw' : delimiter? boundary w with
    | none =>
      refine .inl fun line hline => ?_
      have hne : w ≠ [] := by
        rintro rfl
        cases hline
      rw [Line.lines_eq_singleton hne fun hmem => hw (List.dropLast_subset w hmem)] at hline
      rw [List.mem_singleton.mp hline, isInner, hw']
      rfl
    | some d =>
      exact .inr ⟨[], w, [], d, (List.append_nil w).symm, hempty, hends,
        delimiter?_eq_some_iff.mp hw', fun hmem => hw (List.dropLast_subset w hmem), .inr rfl⟩
  | append w rest hw ih =>
    have hfirst : EndsLine (w ++ [Ascii.lf]) := by
      intro b hb
      rw [List.getLast?_concat] at hb
      exact (Option.some_inj.mp hb).symm
    cases hw' : delimiter? boundary (w ++ [Ascii.lf]) with
    | some d =>
      exact .inr ⟨[], w ++ [Ascii.lf], rest, d, by simp, hempty, hends,
        delimiter?_eq_some_iff.mp hw', by rwa [List.dropLast_concat], .inl hfirst⟩
    | none =>
      have hline : isInner boundary (w ++ [Ascii.lf]) = true := by
        rw [isInner, hw']
        rfl
      have hcons : ∀ s, IsFree boundary s → IsFree boundary (w ++ Ascii.lf :: s) := by
        intro s hs
        rw [IsFree, Line.lines_append_lf hw, List.forall_mem_cons]
        exact ⟨hline, hs⟩
      rcases ih with hfree | ⟨inner, line, rest, d, rfl, hfree, hinner, hd, hstands⟩
      · exact .inl (hcons rest hfree)
      · refine .inr ⟨w ++ Ascii.lf :: inner, line, rest, d, by simp, hcons inner hfree, ?_, hd,
          hstands⟩
        rw [List.append_cons, EndsLine, List.getLast?_append]
        intro b hb
        cases hlast : inner.getLast? with
        | none =>
          rw [hlast] at hb
          exact hfirst b hb
        | some c =>
          rw [hlast] at hb
          obtain rfl := Option.some_inj.mp hb
          exact hinner c hlast

/-- Bytes without delimiter lines are one part after a delimiter line. -/
theorem partsAfter_of_isFree {s : Bytes} (h : IsFree boundary s) :
    partsAfter boundary (Line.lines s) = [s] := by
  rw [partsAfter_of_eq_nil (List.dropWhile_eq_nil_iff.mpr h), List.takeWhile_eq_self_iff.mpr h,
    Line.flatten_lines]

/-- A part and its line break stand before a delimiter line. -/
theorem partsAfter_delimited {d : Delimiter} {part e line rest : Bytes}
    (hpart : IsFree boundary (part ++ e)) (he : IsBreak part e)
    (hline : IsDelimiterLine boundary d line) (hstands : StandsBefore line rest) :
    partsAfter boundary (Line.lines (part ++ e ++ (line ++ rest)))
      = part :: if d = .close then [] else partsAfter boundary (Line.lines rest) := by
  rw [lines_delimited he.endsLine hline hstands,
    partsAfter_append hpart (delimiter?_eq_some_iff.mpr hline), he.withoutBreak]

/-- Without delimiter lines there are no parts. -/
theorem parts_of_isFree {body : Bytes} (h : IsFree boundary body) : parts boundary body = [] := by
  rw [parts, List.dropWhile_eq_nil_iff.mpr h]

/-- The parts after the first delimiter line are those of the body. -/
theorem parts_delimited {d : Delimiter} {preamble line rest : Bytes}
    (hpreamble : IsFree boundary preamble) (hends : EndsLine preamble)
    (hline : IsDelimiterLine boundary d line) (hstands : StandsBefore line rest) :
    parts boundary (preamble ++ (line ++ rest))
      = if d = .close then [] else partsAfter boundary (Line.lines rest) := by
  have hdelimiter := delimiter?_eq_some_iff.mpr hline
  have hline' : ¬isInner boundary line = true := by
    rw [isInner, hdelimiter]
    exact Bool.false_ne_true
  rw [parts, lines_delimited hends hline hstands, List.dropWhile_append_of_pos hpreamble,
    List.dropWhile_cons_of_neg hline']
  dsimp only
  rw [hdelimiter]
  simp only [Option.some.injEq]

/-- The parts that are found after a delimiter line are those into which the bytes are divided. -/
theorem dividesAfter_partsAfter (boundary s : Bytes) :
    DividesAfter boundary s (partsAfter boundary (Line.lines s)) := by
  rcases exists_first boundary s with hfree | ⟨inner, line, rest, d, heq, hinner, hends, hline,
    hstands⟩
  · rw [partsAfter_of_isFree hfree]
    exact .last hfree
  · obtain ⟨part, e, rfl, he⟩ := exists_isBreak hends
    have hlt : rest.length < s.length := by
      have hpos := List.length_pos_iff.mpr hline.ne_nil
      rw [heq]
      simp only [List.length_append]
      omega
    rw [heq, partsAfter_delimited hinner he hline hstands]
    cases d with
    | close => exact .close hinner he hline hstands
    | next => exact .next hinner he hline hstands (dividesAfter_partsAfter boundary rest)
termination_by s.length

/-- No other parts are. -/
theorem DividesAfter.eq_partsAfter {s : Bytes} {parts : List Bytes}
    (h : DividesAfter boundary s parts) : parts = partsAfter boundary (Line.lines s) := by
  induction h with
  | last hpart => rw [partsAfter_of_isFree hpart]
  | close hpart he hline hstands =>
    rw [partsAfter_delimited hpart he hline hstands, if_pos rfl]
  | next hpart he hline hstands _ ih =>
    rw [partsAfter_delimited hpart he hline hstands, if_neg (by decide), ih]

/-- No part has a delimiter line. -/
theorem DividesAfter.isFree {s : Bytes} {parts : List Bytes} (h : DividesAfter boundary s parts) :
    ∀ part ∈ parts, IsFree boundary part := by
  induction h with
  | last hpart =>
    intro part hmem
    rwa [List.mem_singleton.mp hmem]
  | close hpart he _ _ =>
    intro part hmem
    rw [List.mem_singleton.mp hmem]
    exact he.isFree hpart
  | next hpart he _ _ _ ih => exact List.forall_mem_cons.mpr ⟨he.isFree hpart, ih⟩

theorem divides_parts (boundary body : Bytes) : Divides boundary body (parts boundary body) := by
  rcases exists_first boundary body with hfree | ⟨preamble, line, rest, d, rfl, hpreamble, hends,
    hline, hstands⟩
  · rw [parts_of_isFree hfree]
    exact .none hfree
  · rw [parts_delimited hpreamble hends hline hstands]
    cases d with
    | close => exact .close hpreamble hends hline hstands
    | next => exact .next hpreamble hends hline hstands (dividesAfter_partsAfter boundary rest)

theorem Divides.eq_parts {body : Bytes} {ps : List Bytes} (h : Divides boundary body ps) :
    ps = parts boundary body := by
  cases h with
  | none hbody => rw [parts_of_isFree hbody]
  | close hpreamble hends hline hstands =>
    rw [parts_delimited hpreamble hends hline hstands, if_pos rfl]
  | next hpreamble hends hline hstands hrest =>
    rw [parts_delimited hpreamble hends hline hstands, if_neg (by decide), hrest.eq_partsAfter]

theorem Divides.isFree {body : Bytes} {ps : List Bytes} (h : Divides boundary body ps) :
    ∀ part ∈ ps, IsFree boundary part := by
  cases h with
  | none | close => exact List.forall_mem_nil _
  | next _ _ _ _ hrest => exact hrest.isFree

end

/-- A body is divided into the parts that are found in it and into no others.  No delimiter line
is left in a part, so that a part is not divided again. -/
theorem parts_divide (boundary body : Bytes) :
    (∀ ps, Divides boundary body ps ↔ ps = parts boundary body)
      ∧ ∀ part ∈ parts boundary body, IsFree boundary part ∧ parts boundary part = [] := by
  refine ⟨fun ps => ⟨Divides.eq_parts, ?_⟩, fun part hpart => ?_⟩
  · rintro rfl
    exact divides_parts boundary body
  · have hfree := (divides_parts boundary body).isFree part hpart
    exact ⟨hfree, parts_of_isFree hfree⟩

end Multipart

end ImapMessage
