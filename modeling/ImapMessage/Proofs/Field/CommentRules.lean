/-
# The rules of comments

Comments and white space are described by rules.  A comment stands in parentheses, and its content
is a sequence of runs of text, escaped bytes, runs of white space and comments; where several rules
might apply the first one is taken, and what a rule has taken is not given back.  Going by the
rules leaves the same bytes as looking for the closing parenthesis.

Key constructions:
* `Comment.Rules.content`, `Comment.Rules.contents`, `Comment.Rules.comment`: the rules.
* `Comment.Rules.gap`: white space and comments by these rules.
* `Comment.Rules.afterClosing_contents`: a comment by the rules.
* `Comment.Rules.gap_eq_skip`: and what stands between two tokens.
-/
import ImapMessage.Proofs.Field.Gaps

namespace ImapMessage

namespace Comment

namespace Rules

/-- What a rule leaves of some bytes, of which it has to take at least one. -/
abbrev Rest (s : Bytes) : Type :=
  { rest : Bytes // rest.length < s.length }

/-- Bytes without a meaning of their own in comments. -/
def isText (b : UInt8) : Bool :=
  b != opening && b != closing && b != backslash && !Ascii.isFold b

/-- As many bytes of a class as there are, at least one. -/
def run (p : UInt8 → Bool) (s : Bytes) : Option (Rest s) :=
  if h : (s.dropWhile p).length < s.length then some ⟨s.dropWhile p, h⟩ else none

/-- A backslash and the byte whose meaning it takes away. -/
def pair (s : Bytes) : Option (Rest s) :=
  match s with
  | b :: _ :: rest =>
    if b = backslash then some ⟨rest, by simp only [List.length_cons]; omega⟩ else none
  | _ => none

mutual

/-- One piece of the content of a comment, by the first rule that applies. -/
def content (s : Bytes) : Option (Rest s) :=
  (run isText s).or ((pair s).or ((run Ascii.isFold s).or (comment s)))
termination_by (s.length, 1)

/-- What follows as many pieces as there are. -/
def contents (s : Bytes) : { rest : Bytes // rest.length ≤ s.length } :=
  match content s with
  | none => ⟨s, Nat.le_refl _⟩
  | some ⟨rest, h⟩ => ⟨contents rest, Nat.le_trans (contents rest).2 (Nat.le_of_lt h)⟩
termination_by (s.length, 2)

/-- A comment: its content in parentheses. -/
def comment (s : Bytes) : Option (Rest s) :=
  match s with
  | [] => none
  | b :: s =>
    if b = opening then
      match contents s with
      | ⟨[], _⟩ => none
      | ⟨c :: rest, h⟩ =>
        if c = closing then
          some ⟨rest, by simp only [List.length_cons] at h ⊢; omega⟩
        else none
    else none
termination_by (s.length, 0)

end

/-- What follows as many runs of white space and comments as there are. -/
def gap (s : Bytes) : Bytes :=
  match (run Ascii.isFold s).or (comment s) with
  | none => s
  | some ⟨rest, _⟩ => gap rest
termination_by s.length

/-! ## What each rule leaves -/

/-- What follows a closing parenthesis, if there is one. -/
def afterClosing : Bytes → Option Bytes
  | [] => none
  | b :: s => if b = closing then some s else none

variable {b : UInt8} {p : UInt8 → Bool}

theorem run_cons (p : UInt8 → Bool) (b : UInt8) (s : Bytes) :
    (run p (b :: s)).map Subtype.val = if p b then some (s.dropWhile p) else none := by
  have hle : (s.dropWhile p).length < (b :: s).length :=
    Nat.lt_succ_of_le (List.dropWhile_suffix p).length_le
  unfold run
  by_cases hb : p b = true
  · rw [if_pos hb]
    simp only [List.dropWhile_cons_of_pos hb]
    rw [dif_pos hle, Option.map_some]
  · rw [if_neg hb, dif_neg, Option.map_none]
    rw [List.dropWhile_cons_of_neg hb]
    exact Nat.lt_irrefl _

theorem pair_of_ne (hb : b ≠ backslash) (s : Bytes) : pair (b :: s) = none := by
  cases s with
  | nil => rfl
  | cons c s => exact if_neg hb

theorem contents_eq (s : Bytes) :
    (contents s).1 = match (content s).map Subtype.val with
      | none => s
      | some rest => (contents rest).1 := by
  rw [contents]
  cases content s <;> rfl

theorem comment_opening (s : Bytes) :
    (comment (opening :: s)).map Subtype.val = afterClosing (contents s).1 := by
  rw [comment, if_pos rfl]
  rcases contents s with ⟨_ | ⟨c, rest⟩, h⟩
  · rfl
  · dsimp only [afterClosing]
    split <;> rfl

theorem comment_nil : comment [] = none := by
  rw [comment]

theorem comment_of_ne (hb : b ≠ opening) (s : Bytes) : comment (b :: s) = none := by
  rw [comment, if_neg hb]

/-- A closing parenthesis belongs to no piece of a comment. -/
theorem content_closing (s : Bytes) : content (closing :: s) = none := by
  have hnone : ∀ p : UInt8 → Bool, p closing = false → run p (closing :: s) = none := by
    intro p hp
    rw [← Option.map_eq_none_iff (f := Subtype.val), run_cons, hp, if_neg Bool.false_ne_true]
  rw [content, hnone isText (by decide), pair_of_ne (by decide), hnone Ascii.isFold (by decide),
    comment_of_ne (by decide)]
  rfl

/-- A backslash belongs to the byte after it. -/
theorem content_backslash (s : Bytes) :
    (content (backslash :: s)).map Subtype.val = s.head?.map fun _ => s.tail := by
  simp only [content, Option.map_or, run_cons]
  rw [comment_of_ne (by decide)]
  cases s <;> rfl

/-- An opening parenthesis belongs to a comment. -/
theorem content_opening (s : Bytes) :
    (content (opening :: s)).map Subtype.val = afterClosing (contents s).1 := by
  have hpair : pair (opening :: s) = none := pair_of_ne (by decide) s
  simp only [content, Option.map_or, run_cons, comment_opening, hpair]
  rfl

/-- Bytes that have no meaning of their own in comments. -/
def IsHarmless (p : UInt8 → Bool) : Prop :=
  ∀ b, p b = true → b ≠ closing ∧ b ≠ backslash ∧ b ≠ opening

theorem isHarmless_isText : IsHarmless isText := by
  intro b hb
  simp only [isText, Bool.and_eq_true, bne_iff_ne] at hb
  exact ⟨hb.1.1.2, hb.1.2, hb.1.1.1⟩

theorem isHarmless_isFold : IsHarmless Ascii.isFold := by
  intro b hb
  refine ⟨?_, ?_, ?_⟩ <;> rintro rfl <;> exact absurd hb (by decide)

/-- All other bytes belong to a run. -/
theorem content_run (hclosing : b ≠ closing) (hbackslash : b ≠ backslash) (hopening : b ≠ opening)
    (s : Bytes) :
    ∃ p, IsHarmless p ∧ (content (b :: s)).map Subtype.val = some (s.dropWhile p) := by
  simp only [content, Option.map_or, run_cons, pair_of_ne hbackslash]
  by_cases hb : Ascii.isFold b = true
  · have htext : isText b = false := by rw [isText, hb, Bool.not_true, Bool.and_false]
    refine ⟨Ascii.isFold, isHarmless_isFold, ?_⟩
    rw [htext, hb]
    rfl
  · have htext : isText b = true := by
      simp only [isText, Bool.and_eq_true, bne_iff_ne, Bool.not_eq_true']
      exact ⟨⟨⟨hopening, hclosing⟩, hbackslash⟩, Bool.eq_false_iff.mpr hb⟩
    refine ⟨isText, isHarmless_isText, ?_⟩
    rw [htext]
    rfl

/-! ## Going by the rules -/

/-- Bytes of a class without a meaning of their own may be passed over. -/
theorem closed_dropWhile (hp : IsHarmless p) (s : Bytes) : closed (s.dropWhile p) = closed s := by
  induction s with
  | nil => rfl
  | cons b s ih =>
    by_cases hb : p b = true
    · obtain ⟨hclosing, hbackslash, hopening⟩ := hp b hb
      rw [List.dropWhile_cons_of_pos hb, ih, closed_byte hclosing hbackslash hopening]
    · rw [List.dropWhile_cons_of_neg hb]

/-- What follows a comment is shorter than its content and what follows. -/
theorem length_lt_of_closed {s rest : Bytes} (h : closed s = some rest) :
    rest.length < s.length := by
  rw [closed, Option.map_eq_some_iff] at h
  obtain ⟨⟨r, hr⟩, -, rfl⟩ := h
  exact hr

/-- As many pieces of a comment as there are reach to its closing parenthesis, if it has one. -/
theorem afterClosing_contents (s : Bytes) : afterClosing (contents s).1 = closed s := by
  rw [contents_eq]
  cases s with
  | nil =>
    rw [content, comment_nil, closed_nil]
    rfl
  | cons b s =>
    by_cases hclosing : b = closing
    · rw [hclosing, content_closing, closed_closing]
      rfl
    by_cases hbackslash : b = backslash
    · rw [hbackslash, content_backslash]
      cases s with
      | nil =>
        rw [closed_backslash]
        rfl
      | cons c s =>
        rw [closed_pair]
        exact afterClosing_contents s
    by_cases hopening : b = opening
    · rw [hopening, content_opening, afterClosing_contents s, closed_opening]
      cases hinner : closed s with
      | none => rfl
      | some rest =>
        -- What follows the inner comment is the rest of the outer one.
        have hlt := length_lt_of_closed hinner
        exact afterClosing_contents rest
    · obtain ⟨p, hp, hcontent⟩ := content_run hclosing hbackslash hopening s
      have hle : (s.dropWhile p).length ≤ s.length := (List.dropWhile_suffix p).length_le
      rw [hcontent, closed_byte hclosing hbackslash hopening, ← closed_dropWhile hp s]
      exact afterClosing_contents (s.dropWhile p)
termination_by s.length
decreasing_by all_goals (simp only [List.length_cons]; omega)

/-- White space may be passed over. -/
theorem skip_dropWhile (s : Bytes) : skip (s.dropWhile Ascii.isFold) = skip s := by
  induction s with
  | nil => rfl
  | cons b s ih =>
    by_cases hb : Ascii.isFold b = true
    · rw [List.dropWhile_cons_of_pos hb, ih, skip, if_pos hb]
    · rw [List.dropWhile_cons_of_neg hb]

theorem gap_eq (s : Bytes) :
    gap s = match ((run Ascii.isFold s).or (comment s)).map Subtype.val with
      | none => s
      | some rest => gap rest := by
  rw [gap]
  cases (run Ascii.isFold s).or (comment s) <;> rfl

/-- White space and comments by the rules are what is skipped. -/
theorem gap_eq_skip (s : Bytes) : gap s = skip s := by
  rw [gap_eq]
  cases s with
  | nil =>
    rw [comment_nil, skip]
    rfl
  | cons b s =>
    rw [Option.map_or, run_cons]
    by_cases hb : Ascii.isFold b = true
    · have hle : (s.dropWhile Ascii.isFold).length ≤ s.length :=
        (List.dropWhile_suffix Ascii.isFold).length_le
      rw [if_pos hb, skip, if_pos hb, ← skip_dropWhile]
      exact gap_eq_skip (s.dropWhile Ascii.isFold)
    rw [if_neg hb, Option.none_or]
    by_cases hopening : b = opening
    · rw [hopening, comment_opening, afterClosing_contents]
      cases hinner : closed s with
      | none => rw [skip_unclosed hinner]
      | some rest =>
        have hlt := length_lt_of_closed hinner
        rw [skip_comment hinner]
        exact gap_eq_skip rest
    · rw [comment_of_ne hopening, skip, if_neg hb, if_neg hopening]
      rfl
termination_by s.length
decreasing_by all_goals (simp only [List.length_cons]; omega)

end Rules

end Comment

end ImapMessage
