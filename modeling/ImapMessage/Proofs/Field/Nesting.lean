/-
# Counting parentheses

White space and comments are skipped in one pass over the bytes that counts how many parentheses
are open.  The count goes up at each opening parenthesis and down at each closing one, and a
backslash hides the byte after it from the count.  If the bytes end while a parenthesis is open,
nothing has been skipped from the first one on.

Key constructions:
* `Comment.countFrom`, `Comment.count`: the pass.
* `Comment.closedAll`: what follows several open comments.
* `Comment.countFrom_eq`: the pass while comments are open.
* `Comment.prefix_of_isGap`: no longer run of white space and comments stands at the start.
* `Comment.skip_eq_count_and_longest`: what is skipped.
-/
import ImapMessage.Proofs.Field.CommentRules

namespace ImapMessage

namespace Comment

/-! ## One pass -/

/-- Go on counting: so many parentheses are open as `depth` says, the first of them at `start`. -/
def countFrom (start : Bytes) (depth : Nat) (s : Bytes) : Bytes :=
  match depth, s with
  | 0, [] => []
  | 0, b :: s =>
    if Ascii.isFold b then countFrom start 0 s
    else if b = opening then countFrom (b :: s) 1 s
    else b :: s
  | _ + 1, [] => start
  | n + 1, b :: s =>
    if b = backslash then
      match s with
      | [] => start
      | _ :: s => countFrom start (n + 1) s
    else if b = opening then countFrom start (n + 2) s
    else if b = closing then countFrom start n s
    else countFrom start (n + 1) s

/-- What follows the white space and comments at the start, by counting parentheses. -/
def count (s : Bytes) : Bytes :=
  countFrom s 0 s

/-! ## Open comments -/

/-- What follows so many open comments, or `none` if one of them is never closed. -/
def closedAll : Nat → Bytes → Option Bytes
  | 0, s => some s
  | n + 1, s => (closed s).bind (closedAll n)

variable {s : Bytes} {n : Nat}

theorem closedAll_one (s : Bytes) : closedAll 1 s = closed s :=
  Option.bind_fun_some (closed s)

theorem closedAll_succ_of_none (h : closed s = none) (n : Nat) : closedAll (n + 1) s = none := by
  rw [closedAll, h, Option.bind_none]

theorem closedAll_closing (n : Nat) (s : Bytes) :
    closedAll (n + 1) (closing :: s) = closedAll n s := by
  rw [closedAll, closed_closing, Option.bind_some]

theorem closedAll_opening (n : Nat) (s : Bytes) :
    closedAll (n + 1) (opening :: s) = closedAll (n + 2) s := by
  rw [closedAll, closed_opening, Option.bind_assoc]
  rfl

theorem closedAll_congr {t : Bytes} (h : closed s = closed t) (n : Nat) :
    closedAll (n + 1) s = closedAll (n + 1) t := by
  rw [closedAll, h, closedAll]

/-- Counting goes on behind the open comments, and ends where the first of them begins if one is
never closed. -/
theorem countFrom_eq (start : Bytes) (depth : Nat) (s : Bytes) :
    countFrom start depth s = ((closedAll depth s).map skip).getD start := by
  fun_induction countFrom start depth s with
  | case1 => rw [closedAll, Option.map_some, Option.getD_some, skip]
  | case2 start b s hb ih =>
    rw [ih, closedAll, closedAll, Option.map_some, Option.map_some, Option.getD_some,
      Option.getD_some, skip, if_pos hb]
  | case3 start s hb ih =>
    rw [ih, closedAll_one, closedAll, Option.map_some, Option.getD_some]
    cases hclosed : closed s with
    | none => rw [skip_unclosed hclosed, Option.map_none, Option.getD_none]
    | some rest => rw [skip_comment hclosed, Option.map_some, Option.getD_some]
  | case4 start b s hb hopening =>
    rw [closedAll, Option.map_some, Option.getD_some, skip, if_neg hb, if_neg hopening]
  | case5 start n => rw [closedAll_succ_of_none closed_nil, Option.map_none, Option.getD_none]
  | case6 start n => rw [closedAll_succ_of_none closed_backslash, Option.map_none, Option.getD_none]
  | case7 start n b s ih => rw [ih, closedAll_congr (closed_pair b s)]
  | case8 start n s _ ih => rw [ih, closedAll_opening]
  | case9 start n s _ _ ih => rw [ih, closedAll_closing]
  | case10 start n b s hbackslash hopening hclosing ih =>
    rw [ih, closedAll_congr (closed_byte hclosing hbackslash hopening s)]

/-- Counting skips what is skipped. -/
theorem count_eq_skip (s : Bytes) : count s = skip s := by
  rw [count, countFrom_eq, closedAll, Option.map_some, Option.getD_some]

/-! ## What is skipped -/

/-- No run of white space and comments at the start is longer than the one that is skipped. -/
theorem prefix_of_isGap {g g' : Bytes} (hg : s = g ++ skip s) (hg' : IsGap g') (h : g' <+: s) :
    g' <+: g := by
  obtain ⟨t, ht⟩ := h
  have hskip : skip s = skip t := by rw [← ht, skip_gap hg']
  have hle : (skip t).length ≤ t.length := skip_length_le t
  have hlength : g'.length + t.length = g.length + (skip t).length := by
    rw [← List.length_append, ht, ← hskip, ← List.length_append, ← hg]
  refine List.prefix_of_prefix_length_le ⟨t, ht⟩ ⟨skip s, hg.symm⟩ ?_
  omega

/-- Empty comments in one another. -/
def nested (n : Nat) : Bytes :=
  List.replicate n opening ++ List.replicate n closing

theorem nested_succ (n : Nat) : nested (n + 1) = opening :: (nested n ++ [closing]) := by
  rw [nested, nested, List.replicate_succ, List.replicate_succ', List.cons_append,
    List.append_assoc]

theorem isContent_nested (n : Nat) : IsContent (nested n) := by
  induction n with
  | zero => exact .nil
  | succ n ih =>
    rw [nested_succ]
    exact .comment ih .nil

theorem isGap_nested (n : Nat) : IsGap (nested n) := by
  cases n with
  | zero => exact .nil
  | succ n =>
    rw [nested_succ]
    exact .comment (isContent_nested n) .nil

/-- **White space and comments are skipped by counting parentheses.**  Going by the rules of
comments and counting the open parentheses in one pass leave the same, and what is skipped is the
longest run of white space and closed comments at the start, whatever the bytes are and however
deep the comments nest.  After that there is nothing more to skip. -/
theorem skip_eq_count_and_longest (s : Bytes) :
    (skip s = count s ∧ Rules.gap s = count s)
      ∧ (∃ g, IsGap g ∧ s = g ++ skip s ∧ ∀ g', IsGap g' → g' <+: s → g' <+: g)
      ∧ skip (skip s) = skip s
      ∧ ∀ n, skip (nested n ++ s) = skip s := by
  obtain ⟨g, hg, heq⟩ := exists_gap s
  refine ⟨⟨(count_eq_skip s).symm, ?_⟩, ⟨g, hg, heq, fun g' hg' => prefix_of_isGap heq hg'⟩,
    skip_skip s, fun n => skip_gap (isGap_nested n) s⟩
  rw [Rules.gap_eq_skip, count_eq_skip]

/-- A space and a comment with a comment inside and a parenthesis that does not count. -/
def sampleGap : Bytes :=
  [Ascii.sp, opening, backslash, closing, opening, closing, closing]

/-- The comment after `sampleGap` ends with a backslash, so it is not skipped. -/
theorem skip_eq_count_and_longest_sampleGap :
    IsGap sampleGap ∧ sampleGap <+: sampleGap ++ [opening, backslash]
      ∧ (∃ g, IsGap g ∧ sampleGap ++ [opening, backslash] = g ++ [opening, backslash]
        ∧ sampleGap <+: g)
      ∧ skip (sampleGap ++ [opening, backslash]) = [opening, backslash]
      ∧ count (sampleGap ++ [opening, backslash]) = [opening, backslash] := by
  have hgap : IsGap sampleGap := .fold rfl (.comment (.pair closing (.comment .nil .nil)) .nil)
  have hprefix : sampleGap <+: sampleGap ++ [opening, backslash] := List.prefix_append _ _
  have hcount : count (sampleGap ++ [opening, backslash]) = [opening, backslash] := by decide
  obtain ⟨⟨hskip, -⟩, ⟨g, hg, heq, hlongest⟩, -⟩ :=
    skip_eq_count_and_longest (sampleGap ++ [opening, backslash])
  have hleft := hskip.trans hcount
  rw [hleft] at heq
  exact ⟨hgap, hprefix, ⟨g, hg, heq, hlongest sampleGap hgap hprefix⟩, hleft, hcount⟩

end Comment

end ImapMessage
