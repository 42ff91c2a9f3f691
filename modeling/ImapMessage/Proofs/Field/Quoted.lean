/-
# Written parameters

A parameter that is written without quotes is read back, and so is one in quotes, except that a run
of white space in it becomes one space.

Key constructions:
* `Reader.run_written`: a written token.
* `Word.collapse`, `Word.enclosed_written`: quoted text and what it is read as, byte by byte with
  `Word.enclosed_close`, `Word.enclosed_pair` and `Word.enclosed_byte`.
* `Word.collapse_eq_self`, `Word.not_prefix_of_adjacent`: which texts are kept as they are.
* `Parameter.value_quoted`, `Parameter.value_bare`, `Parameter.reader_written`: a written parameter.
-/
import ImapMessage.Field.ContentType
import Mathlib.Data.List.Infix
import Mathlib.Data.List.TakeWhile

namespace ImapMessage

/-! ## Tokens -/

/-- What is neither white space nor the start of a comment is not skipped. -/
theorem Comment.skip_cons {b : UInt8} (hfold : Ascii.isFold b = false) (hopening : b ≠ opening)
    (s : Bytes) : skip (b :: s) = b :: s := by
  rw [skip, if_neg (by simp [hfold]), if_neg hopening]

/-- A class without the four bytes of white space has no white space. -/
theorem Ascii.isFold_eq_false {p : UInt8 → Bool} (hp : ∀ m ∈ [sp, tab, cr, lf], p m = false)
    {b : UInt8} (hb : p b = true) : isFold b = false := by
  rw [← Bool.not_eq_true]
  intro hfold
  have hmem : b ∈ [sp, tab, cr, lf] := by
    simp only [isFold, Bool.or_eq_true, beq_iff_eq, or_assoc] at hfold
    simpa [sp, tab, cr, lf] using hfold
  rw [hp b hmem] at hb
  cases hb

theorem Comment.skip_sp (s : Bytes) : skip (Ascii.sp :: s) = skip s := by
  rw [skip, if_pos (show Ascii.isFold Ascii.sp = true from rfl)]

theorem Reader.byte_cons (c : Char) (rest : Bytes) :
    byte c (c.toUInt8 :: rest) = some ((), rest) :=
  if_pos rfl

theorem Reader.many_of_eq_none {α : Type} {p : Reader α} {s : Bytes} (h : p s = none) :
    many p s = ([], s) := by
  rw [many, h]

theorem Reader.many_of_eq_some {α : Type} {p : Reader α} {s rest : Bytes} {a : α}
    (h : p s = some (a, rest)) (hlt : rest.length < s.length) :
    many p s = (a :: (many p rest).1, (many p rest).2) := by
  rw [many, h]
  exact if_pos hlt

/-- A written token is read back, with what is skipped around it. -/
theorem Reader.run_written {p : UInt8 → Bool} {s w rest : Bytes} (hs : Comment.skip s = w ++ rest)
    (hne : w ≠ []) (hw : ∀ b ∈ w, p b = true) (hrest : ∀ b ∈ rest.head?, p b = false) :
    run p s = some (w, Comment.skip rest) := by
  have htake : (w ++ rest).takeWhile p = w := by
    rw [List.takeWhile_append_of_pos hw]
    cases rest with
    | nil => rw [List.takeWhile_nil, List.append_nil]
    | cons b rest => rw [List.takeWhile_cons_of_neg (by simp [hrest b rfl]), List.append_nil]
  have hdrop : (w ++ rest).dropWhile p = rest := by
    rw [List.dropWhile_append_of_pos hw]
    cases rest with
    | nil => rfl
    | cons b rest => rw [List.dropWhile_cons_of_neg (by simp [hrest b rfl])]
  unfold run
  rw [hs, List.span_eq_takeWhile_dropWhile, htake, hdrop]
  cases w with
  | nil => exact absurd rfl hne
  | cons b w => rfl

/-! ## Quoted texts -/

namespace Word

/-- A text with one space for each run of white space. -/
def collapse : Bytes → Bytes
  | [] => []
  | b :: s =>
    if Ascii.isFold b then
      if s.head?.any Ascii.isFold then collapse s else Ascii.sp :: collapse s
    else b :: collapse s

theorem collapse_of_not_isFold {b : UInt8} (hb : Ascii.isFold b = false) (s : Bytes) :
    collapse (b :: s) = b :: collapse s := by
  rw [collapse]
  simp [hb]

theorem collapse_singleton {b : UInt8} (hb : Ascii.isFold b = true) :
    collapse [b] = [Ascii.sp] := by
  rw [collapse]
  simp [hb, collapse]

theorem collapse_of_isFold_isFold {b c : UInt8} (hb : Ascii.isFold b = true)
    (hc : Ascii.isFold c = true) (s : Bytes) : collapse (b :: c :: s) = collapse (c :: s) := by
  rw [collapse]
  simp [hb, hc]

theorem collapse_of_isFold_not_isFold {b c : UInt8} (hb : Ascii.isFold b = true)
    (hc : Ascii.isFold c = false) (s : Bytes) :
    collapse (b :: c :: s) = Ascii.sp :: c :: collapse s := by
  rw [collapse]
  simp [hb, hc, collapse_of_not_isFold hc]

/-- What a text is read as has no new bytes but spaces. -/
theorem mem_collapse {b : UInt8} {s : Bytes} (h : b ∈ collapse s) : b = Ascii.sp ∨ b ∈ s := by
  induction s with
  | nil => cases h
  | cons c s ih =>
    have hrest : b ∈ collapse s → b = Ascii.sp ∨ b ∈ c :: s :=
      fun hmem => (ih hmem).imp_right (List.mem_cons_of_mem c)
    rw [collapse] at h
    split at h
    · split at h
      · exact hrest h
      · rcases List.mem_cons.mp h with rfl | h
        · exact .inl rfl
        · exact hrest h
    · rcases List.mem_cons.mp h with rfl | h
      · exact .inr List.mem_cons_self
      · exact hrest h

/-- The closing byte ends a text. -/
theorem enclosed_close (close : UInt8) (barred : UInt8 → Bool) (s : Bytes) :
    enclosed close barred (close :: s) = some ([], s) := by
  unfold enclosed
  exact if_pos rfl

/-- A backslash stands for the byte after it. -/
theorem enclosed_pair {close : UInt8} (hclose : Comment.backslash ≠ close) (barred : UInt8 → Bool)
    (b : UInt8) (s : Bytes) :
    enclosed close barred (Comment.backslash :: b :: s)
      = (enclosed close barred s).map fun (w, r) => (b :: w, r) := by
  rw [enclosed.eq_def]
  dsimp only
  rw [if_neg hclose, if_pos rfl]

/-- Every other byte but white space stands for itself. -/
theorem enclosed_byte {close b : UInt8} {barred : UInt8 → Bool} (hclose : b ≠ close)
    (hbackslash : b ≠ Comment.backslash) (hfold : Ascii.isFold b = false)
    (hbarred : barred b = false) (s : Bytes) :
    enclosed close barred (b :: s)
      = (enclosed close barred s).map fun (w, r) => (b :: w, r) := by
  rw [enclosed.eq_def]
  dsimp only
  rw [if_neg hclose, if_neg hbackslash, if_neg (by simp [hfold]), if_neg (by simp [hbarred])]

/-- A text without closing bytes and backslashes is read up to the closing byte. -/
theorem enclosed_written {close : UInt8} (hclose : Ascii.isFold close = false) {s : Bytes}
    (hs : ∀ b ∈ s, b ≠ close ∧ b ≠ Comment.backslash) (rest : Bytes) :
    enclosed close (fun _ => false) (s ++ close :: rest) = some (collapse s, rest) := by
  induction s with
  | nil => exact enclosed_close close _ rest
  | cons b s ih =>
    obtain ⟨hb, hb'⟩ := hs b List.mem_cons_self
    have hrest := ih fun c hc => hs c (List.mem_cons_of_mem b hc)
    rw [List.cons_append]
    by_cases hfold : Ascii.isFold b = true
    · unfold enclosed
      dsimp only
      rw [if_neg hb, if_neg hb', if_pos hfold]
      cases s with
      | nil =>
        rw [collapse_singleton hfold]
        rw [List.nil_append, collapse] at hrest
        simp [hclose, hrest]
      | cons c s =>
        rw [List.cons_append] at hrest ⊢
        dsimp only
        by_cases hc : Ascii.isFold c = true
        · rw [if_pos hc, hrest, collapse_of_isFold_isFold hfold hc]
        · rw [Bool.not_eq_true] at hc
          rw [hrest, collapse_of_isFold_not_isFold hfold hc, collapse_of_not_isFold hc]
          simp [hc]
    · rw [Bool.not_eq_true] at hfold
      rw [enclosed_byte hb hb' hfold rfl, hrest, Option.map_some, collapse_of_not_isFold hfold]

/-- White space consists of spaces only. -/
def HasOnlySpaces (s : Bytes) : Prop :=
  ∀ b ∈ s, Ascii.isFold b = true → b = Ascii.sp

theorem HasOnlySpaces.tail {b : UInt8} {s : Bytes} (h : HasOnlySpaces (b :: s)) : HasOnlySpaces s :=
  fun c hc => h c (List.mem_cons_of_mem b hc)

/-- The first byte of a text is a space or no white space. -/
theorem HasOnlySpaces.eq_or_not_isFold {b : UInt8} {s : Bytes} (h : HasOnlySpaces (b :: s)) :
    b = Ascii.sp ∨ Ascii.isFold b = false := by
  cases hb : Ascii.isFold b with
  | true => exact .inl (h b List.mem_cons_self hb)
  | false => exact .inr rfl

/-- A text without adjacent spaces is kept as it is. -/
theorem collapse_eq_self {s : Bytes} (h : HasOnlySpaces s)
    (hadjacent : ¬[Ascii.sp, Ascii.sp] <:+: s) : collapse s = s := by
  induction s with
  | nil => rw [collapse]
  | cons b s ih =>
    have htail := ih h.tail fun hsub => hadjacent (hsub.trans (List.suffix_cons b s).isInfix)
    rcases h.eq_or_not_isFold with rfl | hb
    · cases s with
      | nil => exact collapse_singleton rfl
      | cons c s =>
        rcases h.tail.eq_or_not_isFold with rfl | hc
        · exact absurd ⟨[], s, rfl⟩ hadjacent
        · rw [collapse_of_isFold_not_isFold rfl hc, ← collapse_of_not_isFold hc, htail]
    · rw [collapse_of_not_isFold hb, htail]

/-- A text that begins with a space and does not end in one is read with one space before the
rest. -/
theorem exists_collapse_sp {s : Bytes} (h : HasOnlySpaces s)
    (hlast : (Ascii.sp :: s).getLast? ≠ some Ascii.sp) :
    ∃ b rest, collapse (Ascii.sp :: s) = Ascii.sp :: b :: rest ∧ b ≠ Ascii.sp := by
  induction s with
  | nil => exact absurd rfl hlast
  | cons b s ih =>
    rcases h.eq_or_not_isFold with rfl | hb
    · rw [collapse_of_isFold_isFold rfl rfl]
      exact ih h.tail (by rwa [List.getLast?_cons_cons] at hlast)
    · refine ⟨b, collapse s, collapse_of_isFold_not_isFold rfl hb s, ?_⟩
      rintro rfl
      cases hb

/-- What a text with adjacent spaces is read as does not begin the text, whatever follows it. -/
theorem not_prefix_of_adjacent {s : Bytes} (h : HasOnlySpaces s)
    (hlast : s.getLast? ≠ some Ascii.sp) (hadjacent : [Ascii.sp, Ascii.sp] <:+: s) (rest : Bytes) :
    ¬collapse s <+: s ++ rest := by
  induction s with
  | nil => cases List.infix_nil.mp hadjacent
  | cons b s ih =>
    cases s with
    | nil => exact absurd hadjacent.length_le (by simp)
    | cons c s =>
      have hlast' : (c :: s).getLast? ≠ some Ascii.sp := by
        rwa [List.getLast?_cons_cons] at hlast
      by_cases hboth : b = Ascii.sp ∧ c = Ascii.sp
      · -- The text goes on with a space, and what is read does not.
        obtain ⟨rfl, rfl⟩ := hboth
        obtain ⟨d, after, heq, hd⟩ := exists_collapse_sp h.tail.tail hlast'
        rw [collapse_of_isFold_isFold rfl rfl, heq, List.cons_append, List.cons_append,
          List.cons_prefix_cons, List.cons_prefix_cons]
        exact fun hstart => hd hstart.2.1
      · have hkeep : collapse (b :: c :: s) = b :: collapse (c :: s) := by
          rcases h.eq_or_not_isFold with rfl | hb
          · rcases h.tail.eq_or_not_isFold with rfl | hc
            · exact absurd ⟨rfl, rfl⟩ hboth
            · rw [collapse_of_isFold_not_isFold rfl hc, collapse_of_not_isFold hc]
          · exact collapse_of_not_isFold hb (c :: s)
        have hadjacent' : [Ascii.sp, Ascii.sp] <:+: c :: s := by
          rcases List.infix_cons_iff.mp hadjacent with hstart | hadjacent'
          · rw [List.cons_prefix_cons, List.cons_prefix_cons] at hstart
            exact absurd ⟨hstart.1.symm, hstart.2.1.symm⟩ hboth
          · exact hadjacent'
        rw [hkeep, List.cons_append, List.cons_prefix_cons]
        exact fun hstart => ih h.tail hlast' hadjacent' hstart.2

end Word

/-! ## Parameters -/

namespace Parameter

/-- Token bytes are neither white space nor the start of a comment. -/
theorem not_isFold_of_isTokenByte {b : UInt8} (hb : isTokenByte b = true) :
    Ascii.isFold b = false ∧ b ≠ Comment.opening := by
  refine ⟨Ascii.isFold_eq_false (by decide) hb, ?_⟩
  rintro rfl
  cases hb

/-- Nothing is skipped before a token. -/
theorem skip_token {w : Bytes} (hne : w ≠ []) (hw : ∀ b ∈ w, isTokenByte b = true) (rest : Bytes) :
    Comment.skip (w ++ rest) = w ++ rest := by
  obtain ⟨b, bs, rfl⟩ := List.exists_cons_of_ne_nil hne
  obtain ⟨hfold, hopening⟩ := not_isFold_of_isTokenByte (hw b List.mem_cons_self)
  exact Comment.skip_cons hfold hopening _

/-- A written token is read up to a byte that cannot belong to it. -/
theorem token_written {w : Bytes} {b : UInt8} (hne : w ≠ [])
    (hw : ∀ x ∈ w, isTokenByte x = true) (hb : isTokenByte b = false)
    (hfold : Ascii.isFold b = false) (hopening : b ≠ Comment.opening) (rest : Bytes) :
    token (w ++ b :: rest) = some (w, b :: rest) := by
  have hrest : ∀ x ∈ (b :: rest).head?, isTokenByte x = false := by
    rintro x ⟨⟩
    exact hb
  rw [token, Reader.run_written (skip_token hne hw _) hne hw hrest,
    Comment.skip_cons hfold hopening]

/-- A value in quotes is read with one space for each run of white space. -/
theorem value_quoted {value : Bytes}
    (hvalue : ∀ b ∈ value, b ≠ Word.quote ∧ b ≠ Comment.backslash) (rest : Bytes) :
    Reader.orElse Word.quotedString bareValue (Word.quote :: (value ++ Word.quote :: rest))
      = some (Word.collapse value, Comment.skip rest) := by
  have hquoted : Word.quotedString (Word.quote :: (value ++ Word.quote :: rest))
      = some (Word.collapse value, Comment.skip rest) := by
    rw [Word.quotedString, Comment.skip_cons (by decide) (by decide)]
    dsimp only
    rw [if_pos rfl, Word.enclosed_written (by decide) hvalue, Option.map_some]
  rw [Reader.orElse, hquoted]

/-- A value without quotes is read to the end. -/
theorem value_bare {value : Bytes} (hne : value ≠ [])
    (hvalue : ∀ b ∈ value, isBareByte b = true) :
    Reader.orElse Word.quotedString bareValue value = some (value, []) := by
  obtain ⟨b, bs, rfl⟩ := List.exists_cons_of_ne_nil hne
  have hb : isBareByte b = true := hvalue b List.mem_cons_self
  have hfold : Ascii.isFold b = false := by
    rw [isBareByte, Bool.not_eq_true', Bool.or_eq_false_iff] at hb
    exact hb.1
  have hopening : b ≠ Comment.opening := by
    rintro rfl
    cases hb
  have hquote : b ≠ Word.quote := by
    rintro rfl
    cases hb
  have hquoted : Word.quotedString (b :: bs) = none := by
    rw [Word.quotedString, Comment.skip_cons hfold hopening]
    exact if_neg hquote
  have hspan : (b :: bs).span isBareByte = (b :: bs, []) := by
    rw [List.span_eq_takeWhile_dropWhile, List.takeWhile_eq_self_iff.mpr hvalue,
      List.dropWhile_eq_nil_iff.mpr hvalue]
  rw [Reader.orElse, hquoted]
  dsimp only
  rw [bareValue, hspan]
  dsimp only
  rw [Comment.skip]

/-- A written parameter is read with what is read as its value. -/
theorem reader_written {name s value rest : Bytes} (hne : name ≠ [])
    (hname : ∀ b ∈ name, isTokenByte b = true)
    (hvalue : Reader.orElse Word.quotedString bareValue s = some (value, rest)) :
    reader (';'.toUInt8 :: Ascii.sp :: (name ++ '='.toUInt8 :: s))
      = some (⟨lowered name, Utf8.decodeLossy value⟩, rest) := by
  have hskip : Comment.skip (Ascii.sp :: (name ++ '='.toUInt8 :: s)) = name ++ '='.toUInt8 :: s := by
    rw [Comment.skip_sp, skip_token hne hname]
  have htoken := token_written hne hname (b := '='.toUInt8) (by decide) (by decide) (by decide) s
  rw [reader]
  simp only [Reader.byte_cons, hskip, htoken, hvalue, Option.bind_eq_bind, Option.bind_some]
  rfl

end Parameter

end ImapMessage
