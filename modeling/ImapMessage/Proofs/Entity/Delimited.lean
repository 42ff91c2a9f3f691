/-
# Delimited parts

Parts with delimiter lines around them are found again, whatever they contain, as long as no line of
theirs is a delimiter line itself.

Key constructions:
* `Multipart.join`: parts with delimiter lines around them.
* `Multipart.IsFree`: bytes without delimiter lines.
* `Multipart.parts_join`: joined parts are found again.
-/
import ImapMessage.Entity.Multipart
import ImapMessage.Proofs.Entity.Lines
import ImapMessage.Proofs.Text.Words

namespace ImapMessage

namespace Multipart

/-- Parts with a delimiter line before each of them, and a closing one after them. -/
def join (boundary : Bytes) (parts : List Bytes) : Bytes :=
  (parts.flatMap fun part => hyphens ++ boundary ++ Ascii.crlf ++ part ++ Ascii.crlf)
    ++ (hyphens ++ boundary ++ hyphens)

/-- No line is a delimiter line. -/
def IsFree (boundary s : Bytes) : Prop :=
  ∀ line ∈ Line.lines s, isInner boundary line = true

theorem isFree_of_all {boundary s : Bytes}
    (h : ((Line.lines s).all fun line => isInner boundary line) = true) : IsFree boundary s :=
  List.all_eq_true.mp h

/-! ## Delimiter lines and line endings -/

/-- Bytes that follow after one that `p` lacks do not change whether `p` stands at the start. -/
theorem isPrefixOf?_append_cons {p : Bytes} {x : UInt8} (hx : x ∉ p) (e s : Bytes) :
    p.isPrefixOf? (s ++ x :: e) = (p.isPrefixOf? s).map (· ++ x :: e) := by
  induction p generalizing s with
  | nil => simp [List.isPrefixOf?]
  | cons y p ih =>
    rw [List.mem_cons, not_or] at hx
    cases s with
    | nil =>
      have hy : (y == x) = false := beq_eq_false_iff_ne.mpr fun heq => hx.1 heq.symm
      simp [List.isPrefixOf?, hy]
    | cons z s =>
      rw [List.cons_append, List.isPrefixOf?, List.isPrefixOf?, ih hx.2]
      split <;> rfl

theorem not_mem_hyphens {b : UInt8} (h : Ascii.isFold b = true) : b ∉ hyphens := by
  intro hmem
  have hhyphen : ∀ b ∈ hyphens, (!Ascii.isFold b) = true := List.all_eq_true.mp (by decide)
  have hb := hhyphen b hmem
  rw [h] at hb
  cases hb

section

variable {x : UInt8} {e : Bytes} (he : (x :: e).all Ascii.isFold = true)

include he

theorem delimiterOfRest_append_cons (rest : Bytes) :
    delimiterOfRest (rest ++ x :: e) = delimiterOfRest rest := by
  have hfold : ∀ s : Bytes, (s ++ x :: e).all Ascii.isFold = s.all Ascii.isFold := by
    intro s
    rw [List.all_append, he, Bool.and_true]
  have hx : x ∉ hyphens := not_mem_hyphens (List.all_eq_true.mp he x List.mem_cons_self)
  unfold delimiterOfRest
  rw [isPrefixOf?_append_cons hx, hfold]
  cases hyphens.isPrefixOf? rest with
  | none => rfl
  | some rest' =>
    rw [Option.map_some]
    dsimp only
    rw [hfold]

/-- White space at the end, beginning with a byte that the boundary lacks, does not make a delimiter
line of another one. -/
theorem delimiter?_append_cons {boundary : Bytes} (hx : x ∉ boundary) (line : Bytes) :
    delimiter? boundary (line ++ x :: e) = delimiter? boundary line := by
  have hp : x ∉ hyphens ++ boundary := by
    rw [List.mem_append, not_or]
    exact ⟨not_mem_hyphens (List.all_eq_true.mp he x List.mem_cons_self), hx⟩
  rw [delimiter?, delimiter?, isPrefixOf?_append_cons hp]
  cases (hyphens ++ boundary).isPrefixOf? line with
  | none => rfl
  | some rest => exact delimiterOfRest_append_cons he rest

end

section

variable {boundary : Bytes} (hcr : Ascii.cr ∉ boundary)

include hcr

/-- Bytes without delimiter lines have none before a line ending either. -/
theorem IsFree.written {s : Bytes} (h : IsFree boundary s) : IsFree boundary (s ++ Ascii.crlf) := by
  intro line hline
  rcases Line.of_mem_lines_written hline with hline | ⟨line', hline', rfl⟩
  · exact h line hline
  · rw [isInner, Ascii.crlf, delimiter?_append_cons rfl hcr, ← isInner]
    rcases hline' with rfl | hline'
    · rfl
    · exact h line' hline'

end

/-- The delimiter line before a part. -/
theorem delimiter?_opening (boundary : Bytes) :
    delimiter? boundary (hyphens ++ boundary ++ Ascii.crlf) = some .next := by
  rw [delimiter?, isPrefixOf?_eq_some_iff.mpr rfl]
  rfl

/-- The delimiter line after the last part. -/
theorem delimiter?_closing (boundary : Bytes) :
    delimiter? boundary (hyphens ++ boundary ++ hyphens) = some .close := by
  rw [delimiter?, isPrefixOf?_eq_some_iff.mpr rfl]
  rfl

/-! ## Finding parts -/

section

variable {boundary : Bytes} {lines : List Bytes}

/-- Without a delimiter line the last part goes to the end. -/
theorem partsAfter_of_eq_nil (h : lines.dropWhile (isInner boundary) = []) :
    partsAfter boundary lines = [(lines.takeWhile (isInner boundary)).flatten] := by
  rw [partsAfter]
  split
  · rfl
  · rename_i line rest hcons
    rw [h] at hcons
    cases hcons

/-- A delimiter line ends a part. -/
theorem partsAfter_of_eq_cons {line : Bytes} {rest : List Bytes}
    (h : lines.dropWhile (isInner boundary) = line :: rest) :
    partsAfter boundary lines
      = Line.withoutBreak (lines.takeWhile (isInner boundary)).flatten
        :: if delimiter? boundary line = some .close then [] else partsAfter boundary rest := by
  rw [partsAfter]
  split
  · rename_i hnil
    rw [h] at hnil
    cases hnil
  · rename_i line' rest' hcons
    rw [h, List.cons.injEq] at hcons
    obtain ⟨rfl, rfl⟩ := hcons
    rfl

end

/-- Lines up to a delimiter line are a part. -/
theorem partsAfter_append {boundary inner line : Bytes} {d : Delimiter}
    (hfree : IsFree boundary inner) (hline : delimiter? boundary line = some d)
    (rest : List Bytes) :
    partsAfter boundary (Line.lines inner ++ line :: rest)
      = Line.withoutBreak inner :: if d = .close then [] else partsAfter boundary rest := by
  have hline' : ¬isInner boundary line = true := by
    rw [isInner, hline, Option.isNone_some]
    exact Bool.false_ne_true
  have hinner : (Line.lines inner ++ line :: rest).takeWhile (isInner boundary)
      = Line.lines inner := by
    rw [List.takeWhile_append_of_pos hfree, List.takeWhile_cons_of_neg hline', List.append_nil]
  have hrest : (Line.lines inner ++ line :: rest).dropWhile (isInner boundary) = line :: rest := by
    rw [List.dropWhile_append_of_pos hfree, List.dropWhile_cons_of_neg hline']
  rw [partsAfter_of_eq_cons hrest, hinner, Line.flatten_lines, hline]
  simp

section

variable {boundary : Bytes} (hlf : Ascii.lf ∉ boundary)

include hlf

/-- The lines of joined parts. -/
theorem lines_join_cons (part : Bytes) (parts : List Bytes) :
    Line.lines (join boundary (part :: parts))
      = (hyphens ++ boundary ++ Ascii.crlf)
        :: (Line.lines (part ++ Ascii.crlf) ++ Line.lines (join boundary parts)) := by
  have hdelimiter : Ascii.lf ∉ hyphens ++ boundary := by
    rw [List.mem_append, not_or]
    exact ⟨by decide, hlf⟩
  have hjoin : join boundary (part :: parts)
      = hyphens ++ boundary ++ Ascii.crlf ++ (part ++ Ascii.crlf ++ join boundary parts) := by
    simp [join]
  rw [hjoin, Line.lines_written hdelimiter, Line.lines_written_append]

theorem lines_join_nil : Line.lines (join boundary []) = [hyphens ++ boundary ++ hyphens] := by
  have hclosing : Ascii.lf ∉ hyphens ++ boundary ++ hyphens := by
    rw [List.mem_append, List.mem_append, not_or, not_or]
    exact ⟨⟨by decide, hlf⟩, by decide⟩
  rw [join, List.flatMap_nil, List.nil_append]
  exact Line.lines_eq_singleton (List.append_ne_nil_of_right_ne_nil _ (List.cons_ne_nil _ _))
    fun hmem => hclosing (List.dropLast_subset _ hmem)

variable (hcr : Ascii.cr ∉ boundary)

include hcr

/-- After a part, the joined parts that follow it are found. -/
theorem partsAfter_join {part : Bytes} {parts : List Bytes} (hpart : IsFree boundary part)
    (hparts : ∀ part ∈ parts, IsFree boundary part) :
    partsAfter boundary (Line.lines (part ++ Ascii.crlf) ++ Line.lines (join boundary parts))
      = part :: parts := by
  induction parts generalizing part with
  | nil =>
    rw [lines_join_nil hlf, partsAfter_append (hpart.written hcr) (delimiter?_closing boundary),
      Line.withoutBreak_written]
    rfl
  | cons next parts ih =>
    rw [lines_join_cons hlf,
      partsAfter_append (hpart.written hcr) (delimiter?_opening boundary),
      Line.withoutBreak_written,
      ih (hparts next List.mem_cons_self) fun p hp => hparts p (List.mem_cons_of_mem next hp)]
    rfl

/-- Joined parts without delimiter lines in them are found again. -/
theorem parts_join {parts : List Bytes} (hne : parts ≠ [])
    (hparts : ∀ part ∈ parts, IsFree boundary part) :
    Multipart.parts boundary (join boundary parts) = parts := by
  obtain ⟨part, others, rfl⟩ := List.exists_cons_of_ne_nil hne
  have hopening : ¬isInner boundary (hyphens ++ boundary ++ Ascii.crlf) = true := by
    rw [isInner, delimiter?_opening]
    decide
  rw [Multipart.parts, lines_join_cons hlf, List.dropWhile_cons_of_neg hopening]
  dsimp only
  rw [delimiter?_opening, if_neg (by decide),
    partsAfter_join hlf hcr (hparts part List.mem_cons_self)
      fun p hp => hparts p (List.mem_cons_of_mem part hp)]

end

end Multipart

end ImapMessage
