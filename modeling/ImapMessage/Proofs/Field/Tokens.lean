/-
# Words as they are written

A word of an address is written as an atom or in quotes, with a gap after it.  Both are read back up
to a mark that belongs to no word, alone, one after another, and with separators between them.

Key constructions:
* `Reader.Reads`: what a reader reads from a text whatever gap is before it.
* `Word.escaped`, `Word.AtomForm`, `Word.QuotedForm`, `Word.Form`: how words are written.
* `Word.Joined`, `Reader.sepBy1_joined`: values with separators between them.
* `Word.NameForm`, `Word.phrase_name`, `Word.phrase_dotted`: what phrases read.
-/
import ImapMessage.Proofs.Field.Gaps
import ImapMessage.Proofs.Field.Quoted
import ImapMessage.Field.Word

namespace ImapMessage

/-! ## Where tokens begin and end -/

/-- A text begins with one of some marks, or is empty. -/
def BeginsIn (marks : List Char) (s : Bytes) : Prop :=
  ∀ b ∈ s.head?, b ∈ marks.map Char.toUInt8

theorem BeginsIn.nil (marks : List Char) : BeginsIn marks [] := by
  rintro b ⟨⟩

theorem BeginsIn.cons {marks : List Char} {c : Char} (hc : c ∈ marks) (s : Bytes) :
    BeginsIn marks (c.toUInt8 :: s) := by
  rintro b ⟨⟩
  exact List.mem_map_of_mem hc

theorem BeginsIn.mono {marks marks' : List Char} {s : Bytes} (h : BeginsIn marks s)
    (hsub : marks ⊆ marks') : BeginsIn marks' s :=
  fun b hb => List.map_subset _ hsub (h b hb)

/-- What is true of all marks is true of the first byte. -/
theorem BeginsIn.head {marks : List Char} {s : Bytes} (h : BeginsIn marks s) {P : UInt8 → Prop}
    (hP : ∀ b ∈ marks.map Char.toUInt8, P b) : ∀ b ∈ s.head?, P b :=
  fun b hb => hP b (h b hb)

/-- The first byte is none of the other marks. -/
theorem BeginsIn.ne {marks : List Char} {s : Bytes} (h : BeginsIn marks s) {c : Char}
    (hc : c.toUInt8 ∉ marks.map Char.toUInt8) : ∀ b ∈ s.head?, b ≠ c.toUInt8 :=
  h.head fun _ hb heq => hc (heq ▸ hb)

/-- Nothing is skipped before what is neither white space nor the start of a comment. -/
theorem Comment.skip_eq_self {s : Bytes}
    (h : ∀ b ∈ s.head?, Ascii.isFold b = false ∧ b ≠ opening) : skip s = s := by
  cases s with
  | nil => rw [skip]
  | cons b s => exact skip_cons (h b rfl).1 (h b rfl).2 s

/-- A gap begins with no byte of a class that has neither white space nor the start of a comment. -/
theorem Comment.IsGap.head_append {g rest : Bytes} (hg : IsGap g) {p : UInt8 → Bool}
    (hp : ∀ m ∈ [Ascii.sp, Ascii.tab, Ascii.cr, Ascii.lf, opening], p m = false)
    (hrest : ∀ b ∈ rest.head?, p b = false) : ∀ b ∈ (g ++ rest).head?, p b = false := by
  cases hg with
  | nil => exact hrest
  | @fold b s hb =>
    rintro _ ⟨⟩
    rw [← Bool.not_eq_true]
    intro hclass
    rw [Ascii.isFold_eq_false (fun m hm => hp m (List.mem_append_left [opening] hm)) hclass] at hb
    cases hb
  | comment =>
    rintro _ ⟨⟩
    exact hp opening (by decide)

namespace Reader

/-- A value is read from a text, with a gap before it or not, and nothing of what follows it. -/
def Reads {α : Type} (p : Reader α) (s : Bytes) (a : α) (rest : Bytes) : Prop :=
  ∀ x, Comment.skip x = s ++ rest → p x = some (a, rest)

theorem byte_of_head {c : Char} {s : Bytes} (h : ∀ b ∈ s.head?, b ≠ c.toUInt8) :
    byte c s = none := by
  cases s with
  | nil => rfl
  | cons b s => exact if_neg (h b rfl)

theorem run_of_head {p : UInt8 → Bool} {s : Bytes}
    (h : ∀ b ∈ (Comment.skip s).head?, p b = false) : run p s = none := by
  unfold run
  rw [List.span_eq_takeWhile_dropWhile]
  cases heq : Comment.skip s with
  | nil => rfl
  | cons b t =>
    rw [heq] at h
    rw [List.takeWhile_cons_of_neg (by simp [h b rfl])]

end Reader

namespace Word

/-- The marks that end a word. -/
def marks : List Char :=
  ['.', '@', ':', '<', '>', ',', ';']

/-- The marks that end a phrase. -/
def phraseMarks : List Char :=
  ['@', ':', '<', '>', ',', ';']

theorem phraseMarks_subset : phraseMarks ⊆ marks := by
  decide

theorem skip_of_beginsIn {s : Bytes} (h : BeginsIn marks s) : Comment.skip s = s :=
  Comment.skip_eq_self (h.head (by decide))

/-! ## One word -/

/-- The bytes that have a backslash before them in quotes. -/
def isEscaped (b : UInt8) : Bool :=
  b == quote || b == Comment.backslash || Ascii.isFold b

/-- A word as it stands in quotes. -/
def escaped : Bytes → Bytes
  | [] => []
  | b :: w => if isEscaped b then Comment.backslash :: b :: escaped w else b :: escaped w

/-- An atom is not empty and has no bytes of other tokens. -/
def IsAtom (w : Bytes) : Prop :=
  w ≠ [] ∧ ∀ b ∈ w, isAtomByte b = true

/-- A word is written as an atom. -/
def AtomForm (w s : Bytes) : Prop :=
  IsAtom w ∧ ∃ g, Comment.IsGap g ∧ s = w ++ g

/-- A word is written in quotes. -/
def QuotedForm (w s : Bytes) : Prop :=
  ∃ g, Comment.IsGap g ∧ s = quote :: (escaped w ++ quote :: g)

/-- A word is written as an atom or in quotes. -/
def Form (w s : Bytes) : Prop :=
  AtomForm w s ∨ QuotedForm w s

/-- A text begins with a word. -/
def Starts (s : Bytes) : Prop :=
  ∃ b t, s = b :: t ∧ (isAtomByte b = true ∨ b = quote)

/-- A word in quotes is read back. -/
theorem enclosed_escaped (w rest : Bytes) :
    enclosed quote (fun _ => false) (escaped w ++ quote :: rest) = some (w, rest) := by
  induction w with
  | nil => exact enclosed_close quote _ rest
  | cons b w ih =>
    rw [escaped]
    cases hb : isEscaped b with
    | true =>
      rw [if_pos rfl, List.cons_append, List.cons_append, enclosed_pair (by decide), ih,
        Option.map_some]
    | false =>
      simp only [isEscaped, Bool.or_eq_false_iff, beq_eq_false_iff_ne] at hb
      obtain ⟨⟨hquote, hbackslash⟩, hfold⟩ := hb
      rw [if_neg Bool.false_ne_true, List.cons_append, enclosed_byte hquote hbackslash hfold rfl, ih,
        Option.map_some]

/-- Text without marks is read up to the closing byte. -/
theorem enclosed_plain {close : UInt8} {barred : UInt8 → Bool} {w : Bytes}
    (hw : ∀ b ∈ w, b ≠ close ∧ b ≠ Comment.backslash ∧ Ascii.isFold b = false ∧ barred b = false)
    (rest : Bytes) : enclosed close barred (w ++ close :: rest) = some (w, rest) := by
  induction w with
  | nil => exact enclosed_close close barred rest
  | cons b w ih =>
    obtain ⟨hclose, hbackslash, hfold, hbarred⟩ := hw b List.mem_cons_self
    rw [List.cons_append, enclosed_byte hclose hbackslash hfold hbarred,
      ih fun c hc => hw c (List.mem_cons_of_mem b hc), Option.map_some]

/-- An atom begins with a byte of its own. -/
theorem IsAtom.exists_cons {w : Bytes} (hw : IsAtom w) :
    ∃ b t, w = b :: t ∧ isAtomByte b = true := by
  obtain ⟨b, t, rfl⟩ := List.exists_cons_of_ne_nil hw.1
  exact ⟨b, t, rfl, hw.2 b List.mem_cons_self⟩

/-- Atom bytes are no white space and belong to no other token. -/
theorem ne_of_isAtomByte {b : UInt8} (hb : isAtomByte b = true) :
    Ascii.isFold b = false ∧ b ≠ Comment.opening ∧ ∀ m ∈ marks.map Char.toUInt8, b ≠ m := by
  refine ⟨Ascii.isFold_eq_false (by decide) hb, ?_, ?_⟩
  · rintro rfl
    cases hb
  · rintro m hm rfl
    have hmarks : ∀ m ∈ marks.map Char.toUInt8, isAtomByte m = false := by decide
    rw [hmarks b hm] at hb
    cases hb

theorem exists_atomForm_iff {w : Bytes} : (∃ s, AtomForm w s) ↔ IsAtom w :=
  ⟨fun ⟨_, h⟩ => h.1, fun h => ⟨_, h, [], .nil, rfl⟩⟩

/-- Every word can be written in quotes. -/
theorem exists_quotedForm (w : Bytes) : ∃ s, QuotedForm w s :=
  ⟨_, [], .nil, rfl⟩

/-- A word begins with no white space, no comment and no mark. -/
theorem Starts.head {s : Bytes} (h : Starts s) : ∀ b ∈ s.head?,
    (Ascii.isFold b = false ∧ b ≠ Comment.opening) ∧ ∀ m ∈ marks.map Char.toUInt8, b ≠ m := by
  obtain ⟨b, t, rfl, hb⟩ := h
  rintro _ ⟨⟩
  rcases hb with hb | rfl
  · obtain ⟨hfold, hopening, hmarks⟩ := ne_of_isAtomByte hb
    exact ⟨⟨hfold, hopening⟩, hmarks⟩
  · decide

theorem Starts.skip_eq {s : Bytes} (h : Starts s) : Comment.skip s = s :=
  Comment.skip_eq_self fun b hb => (h.head b hb).1

theorem Starts.byte_eq_none {s : Bytes} (h : Starts s) {c : Char} (hc : c ∈ marks) :
    Reader.byte c s = none :=
  Reader.byte_of_head fun b hb => (h.head b hb).2 _ (List.mem_map_of_mem hc)

theorem Starts.append {s : Bytes} (h : Starts s) (rest : Bytes) : Starts (s ++ rest) := by
  obtain ⟨b, t, rfl, hb⟩ := h
  exact ⟨b, t ++ rest, rfl, hb⟩

theorem AtomForm.starts {w s : Bytes} (h : AtomForm w s) : Starts s := by
  obtain ⟨hw, g, _, rfl⟩ := h
  obtain ⟨b, t, rfl, hb⟩ := hw.exists_cons
  exact Starts.append ⟨b, t, rfl, .inl hb⟩ g

theorem QuotedForm.starts {w s : Bytes} (h : QuotedForm w s) : Starts s := by
  obtain ⟨g, _, rfl⟩ := h
  exact ⟨quote, _, rfl, .inr rfl⟩

theorem Form.starts {w s : Bytes} (h : Form w s) : Starts s :=
  h.elim AtomForm.starts QuotedForm.starts

/-- An atom is read back. -/
theorem atom_form {w s rest : Bytes} (h : AtomForm w s) (hrest : BeginsIn marks rest) :
    Reader.Reads atom s w rest := by
  obtain ⟨⟨hne, hw⟩, g, hg, rfl⟩ := h
  intro x hx
  rw [List.append_assoc] at hx
  have hhead : ∀ b ∈ rest.head?, isAtomByte b = false := hrest.head (by decide)
  have hend := hg.head_append (p := isAtomByte) (by decide) hhead
  rw [atom, Reader.run_written hx hne hw hend, Comment.skip_gap hg, skip_of_beginsIn hrest]

theorem quotedString_form {w s rest : Bytes} (h : QuotedForm w s)
    (hrest : Comment.skip rest = rest) : Reader.Reads quotedString s w rest := by
  obtain ⟨g, hg, rfl⟩ := h
  intro x hx
  rw [List.cons_append, List.append_assoc, List.cons_append] at hx
  rw [quotedString, hx]
  dsimp only
  rw [if_pos rfl, enclosed_escaped, Option.map_some, Comment.skip_gap hg, hrest]

/-- A word in quotes is read back, whatever follows its gap. -/
theorem word_quoted {w s rest : Bytes} (h : QuotedForm w s) (hrest : Comment.skip rest = rest) :
    Reader.Reads word s w rest := by
  intro x hx
  have hatom : atom x = none := by
    obtain ⟨g, _, rfl⟩ := h
    refine Reader.run_of_head ?_
    rw [hx]
    rintro _ ⟨⟩
    rfl
  rw [word, Reader.orElse, hatom]
  exact quotedString_form h hrest x hx

/-- A written word is read back up to a mark. -/
theorem word_form {w s rest : Bytes} (h : Form w s) (hrest : BeginsIn marks rest) :
    Reader.Reads word s w rest := by
  rcases h with h | h
  · intro x hx
    rw [word, Reader.orElse, atom_form h hrest x hx]
  · exact word_quoted h (skip_of_beginsIn hrest)

/-- No word begins with a mark. -/
theorem word_eq_none {x : Bytes} (h : BeginsIn marks (Comment.skip x)) : word x = none := by
  have hatom : atom x = none := Reader.run_of_head (h.head (by decide))
  have hquoted : quotedString x = none := by
    unfold quotedString
    cases heq : Comment.skip x with
    | nil => rfl
    | cons b t =>
      rw [heq] at h
      have hb : b ≠ quote := h.ne (c := '"') (by decide) b rfl
      exact if_neg hb
  rw [word, Reader.orElse, hatom, hquoted]

/-! ## Words with separators between them -/

/-- Values are written with one separator and a gap between them. -/
inductive Joined {α : Type} (c : Char) (F : α → Bytes → Prop) : List α → Bytes → Prop where
  | one {a : α} {s : Bytes} (h : F a s) : Joined c F [a] s
  | cons {a : α} {as : List α} {s g t : Bytes} (h : F a s) (hg : Comment.IsGap g)
      (ht : Joined c F as t) : Joined c F (a :: as) (s ++ c.toUInt8 :: (g ++ t))

theorem Joined.starts {α : Type} {c : Char} {F : α → Bytes → Prop} {as : List α} {s : Bytes}
    (h : Joined c F as s) (hF : ∀ {a s}, F a s → Starts s) : Starts s := by
  cases h with
  | one h => exact hF h
  | cons h => exact (hF h).append _

/-- Values can be written with separators between them if there are any and each can be written. -/
theorem exists_joined_iff {α : Type} {c : Char} {F : α → Bytes → Prop} {as : List α} :
    (∃ s, Joined c F as s) ↔ as ≠ [] ∧ ∀ a ∈ as, ∃ s, F a s := by
  constructor
  · rintro ⟨s, h⟩
    refine ⟨by cases h <;> exact List.cons_ne_nil _ _, ?_⟩
    induction h with
    | one h =>
      intro a ha
      rw [List.mem_singleton.mp ha]
      exact ⟨_, h⟩
    | cons h _ _ ih =>
      intro a ha
      rcases List.mem_cons.mp ha with rfl | ha
      · exact ⟨_, h⟩
      · exact ih a ha
  · rintro ⟨hne, h⟩
    induction as with
    | nil => exact absurd rfl hne
    | cons a as ih =>
      obtain ⟨s, hs⟩ := h a List.mem_cons_self
      cases as with
      | nil => exact ⟨s, .one hs⟩
      | cons b as =>
        obtain ⟨t, ht⟩ := ih (List.cons_ne_nil b as) fun x hx => h x (List.mem_cons_of_mem a hx)
        exact ⟨_, .cons hs .nil ht⟩

/-- A separator and a reader suit the way in which values are written: the values begin with a word
and are read up to certain marks, of which the separator is one. -/
structure Suits {α : Type} (c : Char) (F : α → Bytes → Prop) (ends : List Char)
    (sep : Reader Unit) (p : Reader α) : Prop where
  /-- The separator is one of the marks. -/
  mem : c ∈ ends
  /-- Values begin with a word. -/
  starts : ∀ {a : α} {s : Bytes}, F a s → Starts s
  /-- Values are read. -/
  reads : ∀ {a : α} {s rest : Bytes}, F a s → BeginsIn ends rest → Reader.Reads p s a rest
  /-- A separator is read before a word. -/
  separates : ∀ {g t : Bytes}, Comment.IsGap g → Starts t →
    ∃ x, sep (c.toUInt8 :: (g ++ t)) = some ((), x) ∧ Comment.skip x = t

namespace Suits

variable {α : Type} {c : Char} {F : α → Bytes → Prop} {ends : List Char}
  {sep : Reader Unit} {p : Reader α}

/-- A separator and the value after it are read. -/
theorem after_eq (hsuits : Suits c F ends sep p) {a : α} {s g rest : Bytes} (hs : F a s)
    (hg : Comment.IsGap g) (hrest : BeginsIn ends rest) :
    Reader.after sep p (c.toUInt8 :: (g ++ (s ++ rest))) = some (a, rest) := by
  obtain ⟨x, hsep, hx⟩ := hsuits.separates hg ((hsuits.starts hs).append rest)
  rw [Reader.after, hsep]
  exact hsuits.reads hs hrest x hx

theorem length_lt (c : Char) (g s rest : Bytes) :
    rest.length < (c.toUInt8 :: (g ++ (s ++ rest))).length := by
  simp only [List.length_cons, List.length_append]
  omega

/-- Values with a separator before each are read, and then what follows them. -/
theorem many_joined (hsuits : Suits c F ends sep p) {as : List α} {s g rest : Bytes}
    (h : Joined c F as s) (hg : Comment.IsGap g) (hrest : BeginsIn ends rest) :
    Reader.many (Reader.after sep p) (c.toUInt8 :: (g ++ (s ++ rest)))
      = (as ++ (Reader.many (Reader.after sep p) rest).1,
          (Reader.many (Reader.after sep p) rest).2) := by
  -- Every separator is the end of the value before it and the beginning of what is read next.
  induction h generalizing g with
  | one hs =>
    rw [Reader.many_of_eq_some (hsuits.after_eq hs hg hrest) (length_lt c g _ rest),
      List.cons_append, List.nil_append]
  | @cons a as s g' t hs hg' _ ih =>
    have hafter := hsuits.after_eq hs hg (BeginsIn.cons hsuits.mem (g' ++ (t ++ rest)))
    rw [List.append_assoc, List.cons_append, List.append_assoc,
      Reader.many_of_eq_some hafter (length_lt c g _ _), ih hg', List.cons_append]

/-- Values with separators between them are read, and then what follows them. -/
theorem sepBy1_joined (hsuits : Suits c F ends sep p) {as : List α} {s rest : Bytes}
    (h : Joined c F as s) (hrest : BeginsIn ends rest) {x : Bytes}
    (hx : Comment.skip x = s ++ rest) :
    Reader.sepBy1 sep p x
      = some (as ++ (Reader.many (Reader.after sep p) rest).1,
          (Reader.many (Reader.after sep p) rest).2) := by
  cases h with
  | one hs =>
    rw [Reader.sepBy1, hsuits.reads hs hrest x hx]
    rfl
  | @cons a as s g t hs hg ht =>
    rw [List.append_assoc, List.cons_append, List.append_assoc] at hx
    have hfirst := hsuits.reads hs (BeginsIn.cons hsuits.mem (g ++ (t ++ rest))) x hx
    rw [Reader.sepBy1, hfirst]
    dsimp only
    rw [hsuits.many_joined ht hg hrest]
    rfl

/-- Values are read to the end if no separator follows them. -/
theorem reads_joined (hsuits : Suits c F ends sep p) {as : List α} {s rest : Bytes}
    (h : Joined c F as s) (hrest : BeginsIn ends rest) (hsep : sep rest = none) :
    Reader.Reads (Reader.sepBy1 sep p) s as rest := by
  intro x hx
  have hafter : Reader.after sep p rest = none := by rw [Reader.after, hsep]
  rw [hsuits.sepBy1_joined h hrest hx, Reader.many_of_eq_none hafter, List.append_nil]

end Suits

/-- Dots separate words. -/
theorem suits_words : Suits '.' Form marks (Reader.byte '.') word where
  mem := by decide
  starts := Form.starts
  reads := word_form
  separates hg ht := ⟨_, Reader.byte_cons '.' _, by rw [Comment.skip_gap hg, ht.skip_eq]⟩

/-- Dots separate atoms. -/
theorem suits_atoms : Suits '.' AtomForm marks (Reader.byte '.') atom where
  mem := by decide
  starts := AtomForm.starts
  reads := atom_form
  separates hg ht := ⟨_, Reader.byte_cons '.' _, by rw [Comment.skip_gap hg, ht.skip_eq]⟩

/-! ## Phrases -/

/-- A display name is written as words in quotes. -/
inductive NameForm : List Bytes → Bytes → Prop where
  | one {w s : Bytes} (h : QuotedForm w s) : NameForm [w] s
  | cons {w s t : Bytes} {ws : List Bytes} (h : QuotedForm w s) (ht : NameForm ws t) :
      NameForm (w :: ws) (s ++ t)

theorem NameForm.starts {ws : List Bytes} {s : Bytes} (h : NameForm ws s) : Starts s := by
  cases h with
  | one h => exact h.starts
  | cons h => exact h.starts.append _

/-- A name is not empty. -/
theorem NameForm.ne_nil {ws : List Bytes} {s : Bytes} (h : NameForm ws s) : ws ≠ [] := by
  cases h <;> exact List.cons_ne_nil _ _

/-- Every name can be written. -/
theorem exists_nameForm_iff {ws : List Bytes} : (∃ s, NameForm ws s) ↔ ws ≠ [] := by
  constructor
  · rintro ⟨s, h⟩
    exact h.ne_nil
  · intro hne
    induction ws with
    | nil => exact absurd rfl hne
    | cons w ws ih =>
      obtain ⟨s, hs⟩ := exists_quotedForm w
      cases ws with
      | nil => exact ⟨s, .one hs⟩
      | cons w' ws =>
        obtain ⟨t, ht⟩ := ih (List.cons_ne_nil w' ws)
        exact ⟨_, .cons hs ht⟩

theorem dot_eq_none {s : Bytes} (h : ∀ b ∈ s.head?, b ≠ '.'.toUInt8) : dot s = none := by
  cases s with
  | nil => rfl
  | cons b s => exact if_neg (h b rfl)

theorem dot_cons (s : Bytes) : dot ('.'.toUInt8 :: s) = some (['.'.toUInt8], Comment.skip s) := by
  unfold dot
  exact if_pos rfl

/-- A phrase ends before some marks. -/
theorem many_of_beginsIn {rest : Bytes} (hrest : BeginsIn phraseMarks rest) :
    Reader.many (Reader.orElse word dot) rest = ([], rest) := by
  have hmarks := hrest.mono phraseMarks_subset
  have hword : word rest = none := word_eq_none (by rwa [skip_of_beginsIn hmarks])
  have hdot : dot rest = none := dot_eq_none (hrest.ne (by decide))
  refine Reader.many_of_eq_none ?_
  rw [Reader.orElse, hword, hdot]

/-- The words of a phrase are read one after another. -/
theorem many_of_word {w s rest : Bytes} (hs : Starts s) (h : Reader.Reads word s w rest) :
    Reader.many (Reader.orElse word dot) (s ++ rest)
      = (w :: (Reader.many (Reader.orElse word dot) rest).1,
          (Reader.many (Reader.orElse word dot) rest).2) := by
  have hlt : rest.length < (s ++ rest).length := by
    obtain ⟨b, t, rfl, _⟩ := hs
    simp only [List.cons_append, List.length_cons, List.length_append]
    omega
  refine Reader.many_of_eq_some ?_ hlt
  rw [Reader.orElse, h _ (hs.append rest).skip_eq]

/-- A dot of a phrase is a word of its own. -/
theorem many_of_dot {g t : Bytes} (hg : Comment.IsGap g) (ht : Starts t) :
    Reader.many (Reader.orElse word dot) ('.'.toUInt8 :: (g ++ t))
      = (['.'.toUInt8] :: (Reader.many (Reader.orElse word dot) t).1,
          (Reader.many (Reader.orElse word dot) t).2) := by
  have hmark : BeginsIn marks ('.'.toUInt8 :: (g ++ t)) := BeginsIn.cons (by decide) _
  have hword : word ('.'.toUInt8 :: (g ++ t)) = none :=
    word_eq_none (by rwa [skip_of_beginsIn hmark])
  have hlt : t.length < ('.'.toUInt8 :: (g ++ t)).length := by
    simp only [List.length_cons, List.length_append]
    omega
  refine Reader.many_of_eq_some ?_ hlt
  rw [Reader.orElse, hword]
  dsimp only
  rw [dot_cons, Comment.skip_gap hg, ht.skip_eq]

/-- A written name is read word for word. -/
theorem many_name {ws : List Bytes} {s rest : Bytes} (h : NameForm ws s)
    (hrest : BeginsIn phraseMarks rest) :
    Reader.many (Reader.orElse word dot) (s ++ rest) = (ws, rest) := by
  induction h with
  | one h =>
    have hend := skip_of_beginsIn (hrest.mono phraseMarks_subset)
    rw [many_of_word h.starts (word_quoted h hend), many_of_beginsIn hrest]
  | cons h ht ih =>
    have hend := (ht.starts.append rest).skip_eq
    rw [List.append_assoc, many_of_word h.starts (word_quoted h hend), ih]

/-- Words with dots between them are read as words and dots. -/
theorem many_dotted {ws : List Bytes} {s rest : Bytes} (h : Joined '.' Form ws s)
    (hrest : BeginsIn phraseMarks rest) :
    ∃ w ws', Reader.many (Reader.orElse word dot) (s ++ rest) = (w :: ws', rest) := by
  induction h with
  | @one w s h =>
    refine ⟨w, [], ?_⟩
    rw [many_of_word h.starts (word_form h (hrest.mono phraseMarks_subset)), many_of_beginsIn hrest]
  | @cons w ws s g t h hg ht ih =>
    obtain ⟨w', ws', ih⟩ := ih
    refine ⟨w, ['.'.toUInt8] :: w' :: ws', ?_⟩
    have hdot : BeginsIn marks ('.'.toUInt8 :: (g ++ (t ++ rest))) := BeginsIn.cons (by decide) _
    rw [List.append_assoc, List.cons_append, List.append_assoc,
      many_of_word h.starts (word_form h hdot),
      many_of_dot hg ((ht.starts Form.starts).append rest), ih]

/-- What is skipped before a word makes no difference. -/
theorem word_skip (x : Bytes) : word (Comment.skip x) = word x := by
  have hatom : atom (Comment.skip x) = atom x := by
    rw [atom, Reader.run, Reader.run, Comment.skip_skip]
  have hquoted : quotedString (Comment.skip x) = quotedString x := by
    rw [quotedString, quotedString, Comment.skip_skip]
  rw [word, Reader.orElse, Reader.orElse, hatom, hquoted]

/-- A phrase is all the words and dots from its first word on. -/
theorem phrase_of_many {x rest w : Bytes} {ws : List Bytes} (hx : Starts (Comment.skip x))
    (h : Reader.many (Reader.orElse word dot) (Comment.skip x) = (w :: ws, rest)) :
    phrase x = some (w :: ws, rest) := by
  have hdot : dot (Comment.skip x) = none :=
    dot_eq_none fun b hb => (hx.head b hb).2 _ (List.mem_map_of_mem (by decide))
  rw [phrase, ← word_skip]
  cases hword : word (Comment.skip x) with
  | none =>
    -- Neither a word nor a dot: then there are no words in all, but there is `w`.
    rw [Reader.many_of_eq_none (by rw [Reader.orElse, hword, hdot])] at h
    cases h
  | some r =>
    obtain ⟨w', rest'⟩ := r
    rw [Reader.many, Reader.orElse, hword] at h
    dsimp only at h ⊢
    split at h
    · cases h
      rfl
    · cases h

/-- A written name is read back as a phrase. -/
theorem phrase_name {ws : List Bytes} {s rest : Bytes} (h : NameForm ws s)
    (hrest : BeginsIn phraseMarks rest) : Reader.Reads phrase s ws rest := by
  intro x hx
  obtain ⟨w, ws', rfl⟩ := List.exists_cons_of_ne_nil h.ne_nil
  exact phrase_of_many (by rw [hx]; exact h.starts.append rest) (by rw [hx, many_name h hrest])

/-- A phrase can be read from words with dots between them, and ends where they end. -/
theorem phrase_dotted {ws : List Bytes} {s rest : Bytes} (h : Joined '.' Form ws s)
    (hrest : BeginsIn phraseMarks rest) {x : Bytes} (hx : Comment.skip x = s ++ rest) :
    ∃ ws', phrase x = some (ws', rest) := by
  obtain ⟨w, ws', hmany⟩ := many_dotted h hrest
  refine ⟨w :: ws', phrase_of_many ?_ (by rw [hx, hmany])⟩
  rw [hx]
  exact (h.starts Form.starts).append rest

/-- No phrase begins with a mark. -/
theorem phrase_eq_none {x : Bytes} (h : BeginsIn marks (Comment.skip x)) : phrase x = none := by
  rw [phrase, word_eq_none h]

end Word

end ImapMessage
