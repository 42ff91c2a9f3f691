/-
# Folded header lines

A header value may go on in further lines, each of which begins with a space or a tab.  Such
lines are gathered again into the value that they were written for, whatever fields stand
around it.

Key constructions:
* `HeaderBlock.IsFolded`: bytes whose line feeds all fold.
* `HeaderBlock.exists_lines_of_isFolded`: the lines of a written folded text.
* `HeaderBlock.IsGroup`, `HeaderBlock.rawFields_flatten`: the lines of fields one after another.
* `HeaderBlock.isFolded_of_mem_rawFields`: what has been gathered is folded.
-/
import ImapMessage.Entity.HeaderBlock
import ImapMessage.Proofs.Entity.Lines

namespace ImapMessage

namespace HeaderBlock

/-! ## Folding -/

/-- Line feeds stand only after a carriage return and before a space or a tab. -/
def IsFolded (s : Bytes) : Prop :=
  ∀ pre post, s = pre ++ Ascii.lf :: post →
    pre.getLast? = some Ascii.cr ∧ isContinuation post = true

theorem isFolded_of_not_mem {s : Bytes} (h : Ascii.lf ∉ s) : IsFolded s := by
  rintro pre post rfl
  exact absurd (List.mem_append_right pre List.mem_cons_self) h

/-- A line ending before a continuation folds. -/
theorem isFolded_fold {w post : Bytes} (hw : Ascii.lf ∉ w) (hpost : isContinuation post = true)
    (h : IsFolded post) : IsFolded (w ++ Ascii.crlf ++ post) := by
  have hcr : Ascii.lf ∉ w ++ [Ascii.cr] := by
    rw [List.mem_append, List.mem_singleton, not_or]
    exact ⟨hw, by decide⟩
  intro pre q heq
  have heq' : (w ++ [Ascii.cr]) ++ Ascii.lf :: post = pre ++ Ascii.lf :: q := by
    rw [← heq]
    simp [Ascii.crlf]
  rcases List.append_eq_append_iff.mp heq' with ⟨mid, rfl, hrest⟩ | ⟨mid, hcut, hrest⟩
  · cases mid with
    | nil =>
      rw [List.nil_append, List.cons.injEq] at hrest
      rw [List.append_nil, ← hrest.2]
      exact ⟨List.getLast?_concat, hpost⟩
    | cons b mid =>
      -- The line feed in question is one of `post`.
      rw [List.cons_append, List.cons.injEq] at hrest
      obtain ⟨hlast, hq⟩ := h mid q hrest.2
      refine ⟨?_, hq⟩
      rw [List.append_cons, List.getLast?_append, hlast, Option.some_or]
  · cases mid with
    | nil =>
      rw [List.nil_append, List.cons.injEq] at hrest
      rw [List.append_nil] at hcut
      rw [← hcut, hrest.2]
      exact ⟨List.getLast?_concat, hpost⟩
    | cons b mid =>
      rw [List.cons_append, List.cons.injEq] at hrest
      refine absurd ?_ hcr
      rw [hcut, hrest.1]
      exact List.mem_append_right pre List.mem_cons_self

/-- Bytes without line feeds before a folded text do not change that it is folded. -/
theorem IsFolded.append {pre s : Bytes} (hpre : Ascii.lf ∉ pre) (h : IsFolded s) :
    IsFolded (pre ++ s) := by
  intro p q heq
  rcases List.append_eq_append_iff.mp heq with ⟨mid, rfl, hrest⟩ | ⟨mid, hcut, hrest⟩
  · obtain ⟨hcr, hq⟩ := h mid q hrest
    exact ⟨by rw [List.getLast?_append, hcr, Option.some_or], hq⟩
  · cases mid with
    | nil =>
      -- The line feed would begin `s`, with nothing before it.
      obtain ⟨hcr, -⟩ := h [] q hrest.symm
      cases hcr
    | cons b mid =>
      rw [List.cons_append, List.cons.injEq] at hrest
      refine absurd ?_ hpre
      rw [hcut, hrest.1]
      exact List.mem_append_right p List.mem_cons_self

/-- What follows some bytes in a folded text is folded, unless it may begin in the middle of a line
ending. -/
theorem IsFolded.of_append {pre s : Bytes} (h : IsFolded (pre ++ s))
    (hlast : pre.getLast? ≠ some Ascii.cr) : IsFolded s := by
  rintro pre' post rfl
  obtain ⟨hcr, hpost⟩ := h (pre ++ pre') post (List.append_assoc _ _ _).symm
  refine ⟨?_, hpost⟩
  cases hne : pre'.getLast? with
  | none =>
    rw [List.getLast?_eq_none_iff.mp hne, List.append_nil] at hcr
    exact absurd hcr hlast
  | some b => rwa [List.getLast?_append, hne, Option.some_or] at hcr

/-- Induction along the line endings of a folded text. -/
theorem foldInduction {motive : (s : Bytes) → IsFolded s → Prop}
    (line : ∀ w (hw : Ascii.lf ∉ w), motive w (isFolded_of_not_mem hw))
    (fold : ∀ w post (hw : Ascii.lf ∉ w) (hpost : isContinuation post = true) (h : IsFolded post),
      motive post h → motive (w ++ Ascii.crlf ++ post) (isFolded_fold hw hpost h))
    {s : Bytes} (h : IsFolded s) : motive s h := by
  by_cases hlf : Ascii.lf ∈ s
  · obtain ⟨pre, post, heq, hpre⟩ := List.eq_append_cons_of_mem hlf
    obtain ⟨hcr, hpost⟩ := h pre post heq
    obtain ⟨w, rfl⟩ := List.getLast?_eq_some_iff.mp hcr
    have hw : Ascii.lf ∉ w := fun hmem => hpre (List.mem_append_left _ hmem)
    have heq' : s = w ++ Ascii.crlf ++ post := by
      rw [heq]
      simp [Ascii.crlf]
    subst heq'
    have hfolded : IsFolded post := by
      apply h.of_append
      rw [Line.getLast?_written]
      decide
    exact fold w post hw hpost hfolded (foldInduction line fold hfolded)
  · exact line s hlf
termination_by s.length
decreasing_by
  rw [heq', List.length_append, List.length_append, Ascii.crlf, List.length_cons]
  omega

/-! ## Groups of lines -/

/-- Line endings between lines do not change what the first line begins with. -/
theorem isContinuation_intercalate (first : Bytes) (rest : List Bytes) :
    isContinuation (Ascii.crlf.intercalate (first :: rest)) = isContinuation first := by
  cases rest with
  | nil => rw [List.intercalate_singleton]
  | cons second rest =>
    rw [List.intercalate_cons_cons]
    cases first with
    | nil => rfl
    | cons b first => rfl

/-- Lines without line feeds, all but the first of them continuations, make up a folded text. -/
theorem isFolded_intercalate {group : List Bytes} (h : ∀ w ∈ group, Ascii.lf ∉ w)
    (hrest : ∀ w ∈ group.tail, isContinuation w = true) :
    IsFolded (Ascii.crlf.intercalate group) := by
  induction group with
  | nil => exact isFolded_of_not_mem (by simp)
  | cons first rest ih =>
    cases rest with
    | nil =>
      rw [List.intercalate_singleton]
      exact isFolded_of_not_mem (h first List.mem_cons_self)
    | cons second rest =>
      rw [List.intercalate_cons_cons]
      apply isFolded_fold (h first List.mem_cons_self)
      · rw [isContinuation_intercalate]
        exact hrest second List.mem_cons_self
      · exact ih (fun w hw => h w (List.mem_cons_of_mem first hw))
          fun w hw => hrest w (List.mem_cons_of_mem second hw)

/-- A written folded text is a line and continuations of it. -/
theorem exists_lines_of_isFolded {s : Bytes} (h : IsFolded s) :
    ∃ first rest, Line.lines (s ++ Ascii.crlf) = (first :: rest).map (· ++ Ascii.crlf)
      ∧ Ascii.crlf.intercalate (first :: rest) = s ∧ ∀ w ∈ rest, isContinuation w = true := by
  induction h using foldInduction with
  | line w hw =>
    refine ⟨w, [], ?_, List.intercalate_singleton, by simp⟩
    have hlines := Line.lines_written hw []
    rwa [List.append_nil] at hlines
  | fold w post hw hpost _ ih =>
    obtain ⟨first, rest, hlines, htext, hrest⟩ := ih
    refine ⟨w, first :: rest, ?_, ?_, ?_⟩
    · rw [List.append_assoc (w ++ Ascii.crlf), Line.lines_written hw, hlines]
      rfl
    · rw [List.intercalate_cons_cons, htext]
    · intro w' hw'
      rcases List.mem_cons.mp hw' with rfl | hw'
      · rw [← isContinuation_intercalate _ rest, htext, hpost]
      · exact hrest w' hw'

/-- A line that is neither empty nor a continuation, and continuations of it. -/
def IsGroup (group : List Bytes) : Prop :=
  ∃ first rest, group = first :: rest ∧ first ≠ [] ∧ isContinuation first = false
    ∧ ∀ w ∈ rest, isContinuation w = true

/-- No line of a group is empty. -/
theorem IsGroup.ne_nil {group : List Bytes} (h : IsGroup group) {w : Bytes} (hw : w ∈ group) :
    w ≠ [] := by
  obtain ⟨first, rest, rfl, hfirst, -, hrest⟩ := h
  rcases List.mem_cons.mp hw with rfl | hw
  · exact hfirst
  · rintro rfl
    exact absurd (hrest [] hw) (by decide)

/-- Groups of lines one after another do not begin with a continuation. -/
theorem orphans_flatten {gs : List (List Bytes)} (h : ∀ group ∈ gs, IsGroup group) :
    orphans gs.flatten = [] := by
  cases gs with
  | nil => rfl
  | cons group gs =>
    obtain ⟨first, rest, rfl, -, hfirst, -⟩ := h group List.mem_cons_self
    rw [orphans, List.flatten_cons, List.cons_append,
      List.takeWhile_cons_of_neg (by simp [hfirst])]

/-- Groups of lines one after another are told apart. -/
theorem groups_flatten {gs : List (List Bytes)} (h : ∀ group ∈ gs, IsGroup group) :
    groups gs.flatten = gs := by
  apply List.splitBy_flatten
  · intro hnil
    obtain ⟨first, rest, heq, -⟩ := h [] hnil
    cases heq
  · intro group hgroup
    obtain ⟨first, rest, rfl, -, -, hrest⟩ := h group hgroup
    rw [List.isChain_iff_getElem]
    intro i hi
    exact hrest _ (List.getElem_mem (by simpa using hi))
  · rw [List.isChain_iff_getElem]
    intro i hi
    obtain ⟨first, rest, heq, -⟩ := h gs[i] (List.getElem_mem _)
    obtain ⟨first', rest', heq', -, hfirst', -⟩ := h gs[i + 1] (List.getElem_mem hi)
    simp [heq, heq', hfirst']

/-- The raw fields of groups of lines. -/
theorem rawFields_flatten {gs : List (List Bytes)} (h : ∀ group ∈ gs, IsGroup group) :
    rawFields gs.flatten = gs.map fun group => Ascii.crlf.intercalate group := by
  have hall := List.takeWhile_append_dropWhile (p := isContinuation) (l := gs.flatten)
  rw [← orphans, orphans_flatten h, List.nil_append] at hall
  rw [rawFields, hall, groups_flatten h]

/-- The lines of a group are lines of the header. -/
theorem mem_of_mem_groups {texts group : List Bytes} {w : Bytes}
    (hgroup : group ∈ groups (texts.dropWhile isContinuation)) (hw : w ∈ group) : w ∈ texts := by
  have hflat : w ∈ (groups (texts.dropWhile isContinuation)).flatten :=
    List.mem_flatten.mpr ⟨group, hgroup, hw⟩
  rw [groups, List.flatten_splitBy] at hflat
  exact (List.dropWhile_suffix _).subset hflat

/-- The raw fields of lines without line feeds are folded. -/
theorem isFolded_of_mem_rawFields {texts : List Bytes} (h : ∀ w ∈ texts, Ascii.lf ∉ w)
    {raw : Bytes} (hraw : raw ∈ rawFields texts) : IsFolded raw := by
  obtain ⟨group, hgroup, rfl⟩ := List.mem_map.mp hraw
  apply isFolded_intercalate
  · exact fun w hw => h w (mem_of_mem_groups hgroup hw)
  · have hchain := List.isChain_of_mem_splitBy hgroup
    rw [List.isChain_iff_getElem] at hchain
    intro w hw
    obtain ⟨i, hi, rfl⟩ := List.getElem_of_mem hw
    rw [List.getElem_tail]
    exact hchain i (by rw [List.length_tail] at hi; omega)

end HeaderBlock

end ImapMessage
