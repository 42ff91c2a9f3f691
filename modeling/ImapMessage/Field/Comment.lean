/-
# Comments and folding white space

Between the tokens of a structured header value there may be white space, line endings
included, and comments: text in parentheses, in which parentheses nest and a backslash
takes away the meaning of the byte after it.  A parenthesis that is never closed opens no
comment.

Key constructions:
* `Comment.close`: what follows the comment that has just been opened.
* `Comment.skip`: what follows the white space and comments at the start.
-/
import ImapMessage.Text.Bytes

namespace ImapMessage

namespace Comment

/-- The byte that opens a comment. -/
def opening : UInt8 := '('.toUInt8

/-- The byte that closes a comment. -/
def closing : UInt8 := ')'.toUInt8

/-- The byte that takes away the meaning of the next one. -/
def backslash : UInt8 := '\\'.toUInt8

/-- What follows the closing parenthesis of a comment whose opening parenthesis has been read,
or `none` if the comment, or one inside it, is never closed. -/
def close : (s : Bytes) → Option { rest : Bytes // rest.length < s.length }
  | [] => none
  | b :: s =>
    if b = closing then some ⟨s, by simp⟩
    else if b = backslash then
      match s with
      | [] => none
      | _ :: s' =>
        match close s' with
        | none => none
        | some ⟨r, h⟩ => some ⟨r, by simp only [List.length_cons]; omega⟩
    else if b = opening then
      match close s with
      | none => none
      | some ⟨r, h⟩ =>
        match close r with
        | none => none
        | some ⟨r', h'⟩ => some ⟨r', by simp only [List.length_cons]; omega⟩
    else
      match close s with
      | none => none
      | some ⟨r, h⟩ => some ⟨r, by simp only [List.length_cons]; omega⟩
termination_by s => s.length

/-- What follows the white space and comments at the start. -/
def skip : Bytes → Bytes
  | [] => []
  | b :: s =>
    if Ascii.isFold b then skip s
    else if b = opening then
      match close s with
      | none => b :: s
      | some ⟨r, _⟩ => skip r
    else b :: s
termination_by s => s.length

/-- Nothing is skipped that has to be given back. -/
theorem skip_length_le (s : Bytes) : (skip s).length ≤ s.length := by
  fun_induction skip s with
  | case1 => exact Nat.le_refl _
  | case2 b s _ ih => exact Nat.le_succ_of_le ih
  | case3 => exact Nat.le_refl _
  | case4 s _ r h _ ih => simp only [List.length_cons]; omega
  | case5 => exact Nat.le_refl _

/-- Skipping is done at once. -/
theorem skip_skip (s : Bytes) : skip (skip s) = skip s := by
  fun_induction skip s with
  | case1 => rw [skip]
  | case2 b s _ ih => exact ih
  | case3 s hc hb => rw [skip, if_neg hb, if_pos rfl, hc]
  | case4 s _ r h _ ih => exact ih
  | case5 b s hb ho => rw [skip, if_neg hb, if_neg ho]

end Comment

end ImapMessage
