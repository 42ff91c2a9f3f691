/-
# Comments and white space as they are written

What is skipped between two tokens is a run of white space and comments in which every parenthesis
is closed.

Key constructions:
* `Comment.IsContent`, `Comment.IsGap`: what stands in a comment, and what stands between tokens.
* `Comment.closed_content`, `Comment.skip_gap`: both are passed over, whatever follows them.
* `Comment.exists_content`, `Comment.exists_gap`: nothing else is.
-/
import ImapMessage.Field.Comment

namespace ImapMessage

namespace Comment

/-- What may stand in a comment. -/
inductive IsContent : Bytes → Prop where
  | nil : IsContent []
  | byte {b : UInt8} {s : Bytes} (hclosing : b ≠ closing) (hbackslash : b ≠ backslash)
      (hopening : b ≠ opening) (hs : IsContent s) : IsContent (b :: s)
  | pair (b : UInt8) {s : Bytes} (hs : IsContent s) : IsContent (backslash :: b :: s)
  | comment {c s : Bytes} (hc : IsContent c) (hs : IsContent s) :
      IsContent (opening :: (c ++ closing :: s))

/-- A run of white space and comments, perhaps empty. -/
inductive IsGap : Bytes → Prop where
  | nil : IsGap []
  | fold {b : UInt8} {s : Bytes} (hb : Ascii.isFold b = true) (hs : IsGap s) : IsGap (b :: s)
  | comment {c s : Bytes} (hc : IsContent c) (hs : IsGap s) : IsGap (opening :: (c ++ closing :: s))

theorem isGap_sp : IsGap [Ascii.sp] :=
  .fold rfl .nil

/-! ## Content -/

/-- What follows the comment that has just been opened, without the bound on its length. -/
def closed (s : Bytes) : Option Bytes :=
  (close s).map Subtype.val

theorem closed_nil : closed [] = none := by
  unfold closed close
  rfl

/-- A backslash at the end takes away the meaning of nothing. -/
theorem closed_backslash : closed [backslash] = none := by
  unfold closed
  rw [close.eq_def]
  rfl

theorem closed_closing (s : Bytes) : closed (closing :: s) = some s := by
  unfold closed close
  rw [if_pos rfl, Option.map_some]

theorem closed_pair (b : UInt8) (s : Bytes) : closed (backslash :: b :: s) = closed s := by
  unfold closed
  rw [close.eq_def]
  dsimp only
  rw [if_neg (by decide), if_pos rfl]
  cases close s <;> rfl

theorem closed_opening (s : Bytes) : closed (opening :: s) = (closed s).bind closed := by
  unfold closed
  rw [close.eq_def]
  dsimp only
  rw [if_neg (by decide), if_neg (by decide), if_pos rfl]
  cases close s with
  | none => rfl
  | some r =>
    obtain ⟨r, hr⟩ := r
    dsimp only [Option.map_some, Option.bind_some]
    cases close r <;> rfl

theorem closed_byte {b : UInt8} (hclosing : b ≠ closing) (hbackslash : b ≠ backslash)
    (hopening : b ≠ opening) (s : Bytes) : closed (b :: s) = closed s := by
  unfold closed
  rw [close.eq_def]
  dsimp only
  rw [if_neg hclosing, if_neg hbackslash, if_neg hopening]
  cases close s <;> rfl

/-- A comment is closed by the first parenthesis after its content. -/
theorem closed_content {c : Bytes} (hc : IsContent c) (rest : Bytes) :
    closed (c ++ closing :: rest) = some rest := by
  induction hc generalizing rest with
  | nil => exact closed_closing rest
  | byte hclosing hbackslash hopening _ ih =>
    rw [List.cons_append, closed_byte hclosing hbackslash hopening, ih]
  | pair b _ ih => rw [List.cons_append, List.cons_append, closed_pair, ih]
  | @comment c s _ _ ihc ihs =>
    -- What follows the inner comment is the rest of the outer one.
    rw [List.cons_append, List.append_assoc, List.cons_append, closed_opening, ihc,
      Option.bind_some, ihs]

/-- A comment that is closed consists of its content and a closing parenthesis. -/
theorem exists_content {s : Bytes} {r : { rest : Bytes // rest.length < s.length }}
    (h : close s = some r) : ∃ c, IsContent c ∧ s = c ++ closing :: r := by
  fun_induction close s with
  | case1 | case3 | case4 | case6 | case7 | case9 => cases h
  | case2 s =>
    cases h
    exact ⟨[], .nil, rfl⟩
  | case5 b s rest hlt hclose _ ih =>
    cases h
    obtain ⟨c, hc, heq⟩ := ih hclose
    exact ⟨backslash :: b :: c, .pair b hc, congrArg (backslash :: b :: ·) heq⟩
  | case8 s rest hlt hclose rest' hlt' hclose' _ _ ih ih' =>
    cases h
    obtain ⟨c, hc, heq⟩ := ih hclose
    obtain ⟨c', hc', heq'⟩ := ih' hclose'
    refine ⟨opening :: (c ++ closing :: c'), .comment hc hc', ?_⟩
    calc opening :: s
      _ = opening :: (c ++ closing :: rest) := congrArg (opening :: ·) heq
      _ = opening :: (c ++ closing :: (c' ++ closing :: rest')) :=
        congrArg (fun t => opening :: (c ++ closing :: t)) heq'
      _ = opening :: (c ++ closing :: c') ++ closing :: rest' := by simp
  | case10 b s hclosing hbackslash hopening rest hlt hclose ih =>
    cases h
    obtain ⟨c, hc, heq⟩ := ih hclose
    exact ⟨b :: c, .byte hclosing hbackslash hopening hc, congrArg (b :: ·) heq⟩

/-! ## Gaps -/

theorem skip_comment {s rest : Bytes} (h : closed s = some rest) :
    skip (opening :: s) = skip rest := by
  rw [closed, Option.map_eq_some_iff] at h
  obtain ⟨⟨r, hr⟩, hclose, rfl⟩ := h
  rw [skip, if_neg (by decide), if_pos rfl, hclose]

/-- A parenthesis that is never closed is not skipped. -/
theorem skip_unclosed {s : Bytes} (h : closed s = none) : skip (opening :: s) = opening :: s := by
  rw [closed, Option.map_eq_none_iff] at h
  rw [skip, if_neg (by decide), if_pos rfl, h]

/-- A gap is skipped, and then what follows it. -/
theorem skip_gap {g : Bytes} (hg : IsGap g) (s : Bytes) : skip (g ++ s) = skip s := by
  induction hg with
  | nil => rfl
  | fold hb _ ih => rw [List.cons_append, skip, if_pos hb, ih]
  | comment hc _ ih =>
    rw [List.cons_append, List.append_assoc, List.cons_append, skip_comment (closed_content hc _),
      ih]

/-- What is skipped is a gap. -/
theorem exists_gap (s : Bytes) : ∃ g, IsGap g ∧ s = g ++ skip s := by
  fun_induction skip s with
  | case1 => exact ⟨[], .nil, rfl⟩
  | case2 b s hb ih =>
    obtain ⟨g, hg, heq⟩ := ih
    exact ⟨b :: g, .fold hb hg, congrArg (b :: ·) heq⟩
  | case3 s hb ho => exact ⟨[], .nil, rfl⟩
  | case4 s rest hlt hclose _ ih =>
    obtain ⟨g, hg, heq⟩ := ih
    obtain ⟨c, hc, hs⟩ := exists_content hclose
    refine ⟨opening :: (c ++ closing :: g), .comment hc hg, ?_⟩
    calc opening :: s
      _ = opening :: (c ++ closing :: rest) := congrArg (opening :: ·) hs
      _ = opening :: (c ++ closing :: (g ++ skip rest)) :=
        congrArg (fun t => opening :: (c ++ closing :: t)) heq
      _ = opening :: (c ++ closing :: g) ++ skip rest := by simp
  | case5 b s hb ho => exact ⟨[], .nil, rfl⟩

end Comment

end ImapMessage
