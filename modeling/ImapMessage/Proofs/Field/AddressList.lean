/-
# Written address lists

A list of mailboxes and groups that is written with any comments and white space between its tokens
is read back, and what follows it after a comma only adds to it.

Key constructions:
* `Address.SpecForm`, `Address.MailboxForm`, `Address.Form`: how addresses are written.
* `Address.mailboxReader_form`, `Address.groupReader_form`, `Address.reader_form`: one element.
* `Address.Written`, `Address.parseList_written`: whole lists.
* `Address.exists_written_iff`: which lists can be written.
-/
import ImapMessage.Proofs.Field.Tokens
import ImapMessage.Field.Address

namespace ImapMessage

namespace Address

/-! ## How addresses are written -/

/-- A byte that has no meaning of its own in a domain in brackets. -/
def IsLiteralByte (b : UInt8) : Prop :=
  b ≠ ']'.toUInt8 ∧ b ≠ Comment.backslash ∧ Ascii.isFold b = false ∧ (b == '['.toUInt8) = false

/-- A domain is written as atoms with dots between them, or in brackets. -/
inductive DomainForm : List Bytes → Bytes → Prop where
  | atoms {ds : List Bytes} {s : Bytes} (h : Word.Joined '.' Word.AtomForm ds s) : DomainForm ds s
  | literal {w g : Bytes} (hw : ∀ b ∈ w, IsLiteralByte b) (hg : Comment.IsGap g) :
      DomainForm ['['.toUInt8 :: w ++ [']'.toUInt8]] ('['.toUInt8 :: (w ++ ']'.toUInt8 :: g))

/-- The words before the at sign are written with dots between them.  There is no at sign if there
is no domain. -/
inductive SpecForm : AddrSpec → Bytes → Prop where
  | bare {l : List Bytes} {s : Bytes} (hl : Word.Joined '.' Word.Form l s) : SpecForm ⟨l, []⟩ s
  | full {l d : List Bytes} {s g t : Bytes} (hl : Word.Joined '.' Word.Form l s)
      (hg : Comment.IsGap g) (hd : DomainForm d t) : SpecForm ⟨l, d⟩ (s ++ '@'.toUInt8 :: (g ++ t))

/-- A mailbox with a name is written with angle brackets, and one without a name is written
without them. -/
inductive MailboxForm : Mailbox → Bytes → Prop where
  | bare {a : AddrSpec} {s : Bytes} (h : SpecForm a s) : MailboxForm ⟨[], a⟩ s
  | named {ws : List Bytes} {a : AddrSpec} {n g s g' : Bytes} (hn : Word.NameForm ws n)
      (hg : Comment.IsGap g) (h : SpecForm a s) (hg' : Comment.IsGap g') :
      MailboxForm ⟨ws, a⟩ (n ++ '<'.toUInt8 :: (g ++ (s ++ '>'.toUInt8 :: g')))

/-- The members of a group are written with commas between them, if there are any. -/
inductive MembersForm : List Mailbox → Bytes → Prop where
  | empty : MembersForm [] []
  | joined {ms : List Mailbox} {s : Bytes} (h : Word.Joined ',' MailboxForm ms s) : MembersForm ms s

/-- An address is written as a mailbox, or as a group with its name, a colon, its members and a
semicolon. -/
inductive Form : Address → Bytes → Prop where
  | mailbox {m : Mailbox} {s : Bytes} (h : MailboxForm m s) : Form (.mailbox m) s
  | group {ws : List Bytes} {ms : List Mailbox} {n g s g' : Bytes} (hn : Word.NameForm ws n)
      (hg : Comment.IsGap g) (hm : MembersForm ms s) (hg' : Comment.IsGap g') :
      Form (.group ws ms) (n ++ ':'.toUInt8 :: (g ++ (s ++ ';'.toUInt8 :: g')))

/-- A list is written with commas between the addresses.  All gaps may be empty. -/
inductive Written : List Address → Bytes → Prop where
  | intro {as : List Address} {g s : Bytes} (hg : Comment.IsGap g) (h : Word.Joined ',' Form as s) :
      Written as (g ++ s)

/-- The marks that end an address. -/
def marks : List Char :=
  ['>', ',', ';']

theorem SpecForm.starts {a : AddrSpec} {s : Bytes} (h : SpecForm a s) : Word.Starts s := by
  cases h with
  | bare hl => exact hl.starts Word.Form.starts
  | full hl => exact (hl.starts Word.Form.starts).append _

theorem MailboxForm.starts {m : Mailbox} {s : Bytes} (h : MailboxForm m s) : Word.Starts s := by
  cases h with
  | bare h => exact h.starts
  | named hn => exact hn.starts.append _

theorem Form.starts {a : Address} {s : Bytes} (h : Form a s) : Word.Starts s := by
  cases h with
  | mailbox h => exact h.starts
  | group hn => exact hn.starts.append _

/-! ## Where mail goes -/

/-- Nothing is skipped before a domain. -/
theorem DomainForm.skip_eq {d : List Bytes} {t : Bytes} (h : DomainForm d t) (rest : Bytes) :
    Comment.skip (t ++ rest) = t ++ rest := by
  cases h with
  | atoms h => exact ((h.starts Word.AtomForm.starts).append rest).skip_eq
  | literal => exact Comment.skip_cons (by decide) (by decide) _

/-- A written domain is read back. -/
theorem domain_form {d : List Bytes} {t rest : Bytes} (h : DomainForm d t)
    (hrest : BeginsIn Word.phraseMarks rest) : Reader.Reads domain t d rest := by
  have hmarks := hrest.mono Word.phraseMarks_subset
  intro x hx
  cases h with
  | atoms h =>
    have hdot : Reader.byte '.' rest = none := Reader.byte_of_head (hrest.ne (by decide))
    rw [domain, Reader.orElse, Word.suits_atoms.reads_joined h hmarks hdot x hx]
  | @literal w g hw hg =>
    rw [List.cons_append, List.append_assoc, List.cons_append] at hx
    -- Atoms are tried first, and no atom begins with a bracket.
    have hatom : Word.atom x = none := by
      refine Reader.run_of_head ?_
      rw [hx]
      rintro _ ⟨⟩
      rfl
    rw [domain, Reader.orElse, Reader.sepBy1, hatom]
    dsimp only
    rw [domainLiteral, hx]
    dsimp only
    rw [if_pos rfl, Word.enclosed_plain hw, Option.map_some, Option.map_some, Comment.skip_gap hg,
      Word.skip_of_beginsIn hmarks]

/-- Where mail goes is read back as it is written. -/
theorem addrSpec_form {a : AddrSpec} {s rest : Bytes} (h : SpecForm a s)
    (hrest : BeginsIn marks rest) : Reader.Reads addrSpec s a rest := by
  have hphrase : BeginsIn Word.phraseMarks rest := hrest.mono (by decide)
  have hmarks := hphrase.mono Word.phraseMarks_subset
  intro x hx
  cases h with
  | bare hl =>
    have hdot : Reader.byte '.' rest = none := Reader.byte_of_head (hrest.ne (by decide))
    have hat : Reader.byte '@' rest = none := Reader.byte_of_head (hrest.ne (by decide))
    rw [addrSpec, localPart, Word.suits_words.reads_joined hl hmarks hdot x hx]
    dsimp only
    rw [Reader.optional, Reader.after, hat]
    rfl
  | @full l d s g t hl hg hd =>
    rw [List.append_assoc, List.cons_append, List.append_assoc] at hx
    have hat : BeginsIn Word.marks ('@'.toUInt8 :: (g ++ (t ++ rest))) :=
      BeginsIn.cons (by decide) _
    have hdomain := domain_form hd hphrase (g ++ (t ++ rest))
      (by rw [Comment.skip_gap hg, hd.skip_eq])
    rw [addrSpec, localPart, Word.suits_words.reads_joined hl hat rfl x hx]
    dsimp only
    rw [Reader.optional, Reader.after, Reader.byte_cons]
    dsimp only
    rw [hdomain]
    rfl

/-- A phrase can be read before the at sign, and ends there. -/
theorem phrase_spec {a : AddrSpec} {s rest : Bytes} (h : SpecForm a s)
    (hrest : BeginsIn marks rest) {x : Bytes} (hx : Comment.skip x = s ++ rest) :
    ∃ ws rest', Word.phrase x = some (ws, rest') ∧ BeginsIn ['@', '>', ',', ';'] rest' := by
  cases h with
  | bare hl =>
    obtain ⟨ws, hphrase⟩ := Word.phrase_dotted hl (hrest.mono (by decide)) hx
    exact ⟨ws, rest, hphrase, hrest.mono (by decide)⟩
  | @full l d s g t hl hg hd =>
    rw [List.append_assoc, List.cons_append, List.append_assoc] at hx
    obtain ⟨ws, hphrase⟩ := Word.phrase_dotted hl (BeginsIn.cons (by decide) _) hx
    exact ⟨ws, _, hphrase, BeginsIn.cons (by decide) _⟩

/-! ## Mailboxes -/

/-- A source route begins with an at sign, and no word does. -/
theorem route_eq_none {x : Bytes} (hx : Word.Starts (Comment.skip x)) : route x = none := by
  have hhop : hop x = none := by
    rw [hop, Reader.after, hx.byte_eq_none (by decide)]
  rw [route, Reader.sepBy1, hhop]

theorem angle_eq_none {rest : Bytes} (hrest : BeginsIn ['@', '>', ',', ';'] rest) :
    angle rest = none := by
  have hskip := Word.skip_of_beginsIn (hrest.mono (by decide))
  have hbyte : Reader.byte '<' rest = none := Reader.byte_of_head (hrest.ne (by decide))
  rw [angle, hskip, hbyte]

/-- What is written in angle brackets is read back. -/
theorem angle_written {a : AddrSpec} {g s g' rest : Bytes} (hg : Comment.IsGap g)
    (h : SpecForm a s) (hg' : Comment.IsGap g') (hrest : BeginsIn marks rest) :
    angle ('<'.toUInt8 :: (g ++ (s ++ '>'.toUInt8 :: (g' ++ rest)))) = some (a, rest) := by
  have hskip : Comment.skip (g ++ (s ++ '>'.toUInt8 :: (g' ++ rest)))
      = s ++ '>'.toUInt8 :: (g' ++ rest) := by
    rw [Comment.skip_gap hg, (h.starts.append _).skip_eq]
  have hroute : route (g ++ (s ++ '>'.toUInt8 :: (g' ++ rest))) = none :=
    route_eq_none (by rw [hskip]; exact h.starts.append _)
  have hspec := addrSpec_form h (BeginsIn.cons (by decide) _) _ hskip
  rw [angle, Comment.skip_cons (by decide) (by decide), Reader.byte_cons]
  dsimp only
  rw [Reader.optional, hroute]
  dsimp only
  rw [hspec]
  dsimp only
  rw [Reader.byte_cons, Option.map_some, Comment.skip_gap hg',
    Word.skip_of_beginsIn (hrest.mono (by decide))]

/-- A written mailbox is read back. -/
theorem mailboxReader_form {m : Mailbox} {s rest : Bytes} (h : MailboxForm m s)
    (hrest : BeginsIn marks rest) : Reader.Reads mailboxReader s m rest := by
  intro x hx
  cases h with
  | bare h =>
    -- The words before the at sign can be read as a name, but no angle bracket follows them.
    obtain ⟨ws, rest', hphrase, hrest'⟩ := phrase_spec h hrest hx
    have hnamed : namedMailbox x = none := by
      rw [namedMailbox, Reader.optional, hphrase]
      dsimp only
      rw [angle_eq_none hrest', Option.map_none]
    rw [mailboxReader, Reader.orElse, hnamed]
    dsimp only
    rw [bareMailbox, addrSpec_form h hrest x hx, Option.map_some]
  | @named ws a n g s g' hn hg h hg' =>
    simp only [List.append_assoc, List.cons_append] at hx
    have hphrase := Word.phrase_name hn (BeginsIn.cons (by decide) _) x hx
    have hnamed : namedMailbox x = some (⟨ws, a⟩, rest) := by
      rw [namedMailbox, Reader.optional, hphrase]
      dsimp only
      rw [angle_written hg h hg' hrest, Option.map_some, Option.getD_some]
    rw [mailboxReader, Reader.orElse, hnamed]

/-- No mailbox begins with a semicolon. -/
theorem mailboxReader_eq_none {x : Bytes} (hx : BeginsIn [';'] (Comment.skip x)) :
    mailboxReader x = none := by
  have hmarks := hx.mono (by decide : [';'] ⊆ Word.marks)
  have hangle : angle x = none := by
    rw [angle, Reader.byte_of_head (hx.ne (by decide))]
  have hnamed : namedMailbox x = none := by
    rw [namedMailbox, Reader.optional, Word.phrase_eq_none hmarks]
    dsimp only
    rw [hangle, Option.map_none]
  have hspec : addrSpec x = none := by
    rw [addrSpec, localPart, Reader.sepBy1, Word.word_eq_none hmarks]
  rw [mailboxReader, Reader.orElse, hnamed]
  dsimp only
  rw [bareMailbox, hspec, Option.map_none]

/-! ## Commas -/

theorem commas_eq_none {x : Bytes} (hx : ∀ b ∈ (Comment.skip x).head?, b ≠ ','.toUInt8) :
    commas x = none := by
  rw [commas, comma, Reader.byte_of_head hx, Option.map_none, Option.map_none]

theorem commas_eq_none_of_starts {x : Bytes} (hx : Word.Starts (Comment.skip x)) :
    commas x = none :=
  commas_eq_none fun b hb => (hx.head b hb).2 _ (List.mem_map_of_mem (by decide))

/-- A comma is read up to the word after it. -/
theorem commas_cons {g t : Bytes} (hg : Comment.IsGap g) (ht : Word.Starts t) :
    commas (','.toUInt8 :: (g ++ t)) = some ((), t) := by
  have hcomma : comma (','.toUInt8 :: (g ++ t)) = some ((), t) := by
    rw [comma, Comment.skip_cons (by decide) (by decide), Reader.byte_cons, Option.map_some]
    dsimp only
    rw [Comment.skip_gap hg, ht.skip_eq]
  have hnext : comma t = none := by
    rw [comma, ht.skip_eq, ht.byte_eq_none (by decide), Option.map_none]
  rw [commas, hcomma, Option.map_some]
  dsimp only
  rw [Reader.many_of_eq_none hnext]

/-- Commas separate mailboxes. -/
theorem suits_mailboxes : Word.Suits ',' MailboxForm marks commas mailboxReader where
  mem := by decide
  starts := MailboxForm.starts
  reads := mailboxReader_form
  separates hg ht := ⟨_, commas_cons hg ht, ht.skip_eq⟩

/-- A list of values is read, and then what follows it. -/
theorem listOf_joined {α : Type} {F : α → Bytes → Prop} {p : Reader α}
    (hsuits : Word.Suits ',' F marks commas p) {as : List α} {s rest : Bytes}
    (h : Word.Joined ',' F as s) (hrest : BeginsIn marks rest) {x : Bytes}
    (hx : Comment.skip x = s ++ rest) :
    listOf p x = some (as ++ (Reader.many (Reader.after commas p) rest).1,
      (Reader.optional commas (Reader.many (Reader.after commas p) rest).2).2) := by
  have hstart : commas x = none :=
    commas_eq_none_of_starts (by rw [hx]; exact (h.starts hsuits.starts).append rest)
  rw [listOf, Reader.optional, hstart]
  dsimp only
  rw [hsuits.sepBy1_joined h hrest hx]

/-- A list of values is read back if no comma follows it. -/
theorem listOf_form {α : Type} {F : α → Bytes → Prop} {p : Reader α}
    (hsuits : Word.Suits ',' F marks commas p) {as : List α} {s rest : Bytes}
    (h : Word.Joined ',' F as s) (hrest : BeginsIn [';'] rest) :
    Reader.Reads (listOf p) s as rest := by
  intro x hx
  have hskip := Word.skip_of_beginsIn (hrest.mono (by decide))
  have hcommas : commas rest = none :=
    commas_eq_none (by rw [hskip]; exact hrest.ne (by decide))
  have hafter : Reader.after commas p rest = none := by rw [Reader.after, hcommas]
  rw [listOf_joined hsuits h (hrest.mono (by decide)) hx, Reader.many_of_eq_none hafter,
    List.append_nil]
  dsimp only
  rw [Reader.optional, hcommas]

/-! ## Groups -/

theorem MembersForm.skip_eq {ms : List Mailbox} {s rest : Bytes} (h : MembersForm ms s)
    (hrest : BeginsIn [';'] rest) : Comment.skip (s ++ rest) = s ++ rest := by
  cases h with
  | empty => exact Word.skip_of_beginsIn (hrest.mono (by decide))
  | joined h => exact ((h.starts MailboxForm.starts).append rest).skip_eq

/-- Written members are read up to the semicolon, also if there are none. -/
theorem members_form {ms : List Mailbox} {s rest : Bytes} (h : MembersForm ms s)
    (hrest : BeginsIn [';'] rest) {x : Bytes} (hx : Comment.skip x = s ++ rest) :
    ∃ o x', Reader.optional (listOf mailboxReader) x = (o, x') ∧ o.getD [] = ms ∧
      Comment.skip x' = rest := by
  cases h with
  | empty =>
    rw [List.nil_append] at hx
    have hcommas : commas x = none :=
      commas_eq_none (by rw [hx]; exact hrest.ne (by decide))
    have hnone : listOf mailboxReader x = none := by
      rw [listOf, Reader.optional, hcommas]
      dsimp only
      rw [Reader.sepBy1, mailboxReader_eq_none (by rwa [hx])]
    exact ⟨none, x, by rw [Reader.optional, hnone], rfl, hx⟩
  | joined h =>
    refine ⟨some ms, rest, ?_, rfl, Word.skip_of_beginsIn (hrest.mono (by decide))⟩
    rw [Reader.optional, listOf_form suits_mailboxes h hrest x hx]

/-- A written group is read back. -/
theorem groupReader_form {ws : List Bytes} {ms : List Mailbox} {n g s g' rest : Bytes}
    (hn : Word.NameForm ws n) (hg : Comment.IsGap g) (hm : MembersForm ms s)
    (hg' : Comment.IsGap g') (hrest : BeginsIn marks rest) :
    Reader.Reads groupReader (n ++ ':'.toUInt8 :: (g ++ (s ++ ';'.toUInt8 :: g'))) (.group ws ms)
      rest := by
  intro x hx
  simp only [List.append_assoc, List.cons_append] at hx
  have hsemicolon : BeginsIn [';'] (';'.toUInt8 :: (g' ++ rest)) := BeginsIn.cons (by decide) _
  have hmembers : Comment.skip (g ++ (s ++ ';'.toUInt8 :: (g' ++ rest)))
      = s ++ ';'.toUInt8 :: (g' ++ rest) := by
    rw [Comment.skip_gap hg, hm.skip_eq hsemicolon]
  obtain ⟨o, x', hoptional, hms, hx'⟩ := members_form hm hsemicolon hmembers
  rw [groupReader, Word.phrase_name hn (BeginsIn.cons (by decide) _) x hx]
  dsimp only
  rw [Reader.byte_cons]
  dsimp only
  rw [hoptional]
  dsimp only
  rw [hx', Reader.optional, Reader.byte_cons, hms]
  dsimp only
  rw [Comment.skip_gap hg', Word.skip_of_beginsIn (hrest.mono (by decide))]

/-- No mailbox is taken for a group: no colon follows what can be read as its name. -/
theorem groupReader_eq_none {m : Mailbox} {s rest : Bytes} (h : MailboxForm m s)
    (hrest : BeginsIn marks rest) {x : Bytes} (hx : Comment.skip x = s ++ rest) :
    groupReader x = none := by
  have hphrase : ∃ ws rest', Word.phrase x = some (ws, rest') ∧
      BeginsIn ['<', '@', '>', ',', ';'] rest' := by
    cases h with
    | bare h =>
      obtain ⟨ws, rest', hphrase, hrest'⟩ := phrase_spec h hrest hx
      exact ⟨ws, rest', hphrase, hrest'.mono (by decide)⟩
    | named hn =>
      simp only [List.append_assoc, List.cons_append] at hx
      exact ⟨_, _, Word.phrase_name hn (BeginsIn.cons (by decide) _) x hx,
        BeginsIn.cons (by decide) _⟩
  obtain ⟨ws, rest', hphrase, hrest'⟩ := hphrase
  rw [groupReader, hphrase]
  dsimp only
  rw [Reader.byte_of_head (hrest'.ne (by decide))]

/-! ## Lists -/

/-- A written address is read back. -/
theorem reader_form {a : Address} {s rest : Bytes} (h : Form a s) (hrest : BeginsIn marks rest) :
    Reader.Reads reader s a rest := by
  intro x hx
  cases h with
  | mailbox h =>
    rw [reader, Reader.orElse, groupReader_eq_none h hrest hx]
    dsimp only
    rw [mailboxReader_form h hrest x hx, Option.map_some]
  | group hn hg hm hg' =>
    rw [reader, Reader.orElse, groupReader_form hn hg hm hg' hrest x hx]

/-- Commas separate addresses. -/
theorem suits_addresses : Word.Suits ',' Form marks commas reader where
  mem := by decide
  starts := Form.starts
  reads := reader_form
  separates hg ht := ⟨_, commas_cons hg ht, ht.skip_eq⟩

/-- A written list is read with what can be read after it. -/
theorem parseList_append {as : List Address} {s rest : Bytes} (h : Written as s)
    (hrest : BeginsIn marks rest) :
    parseList (s ++ rest) = some (as ++ (Reader.many (Reader.after commas reader) rest).1) := by
  obtain ⟨hg, h⟩ := h
  have hskip := ((h.starts Form.starts).append rest).skip_eq
  rw [parseList, list, listOf_joined suits_addresses h hrest
    (by rw [List.append_assoc, Comment.skip_gap hg, hskip]), Option.map_some]

/-- A written list is read back. -/
theorem parseList_of_written {as : List Address} {s : Bytes} (h : Written as s) :
    parseList s = some as := by
  have hread := parseList_append h (BeginsIn.nil marks)
  have hend : Reader.after commas reader [] = none := by
    rw [Reader.after, commas_eq_none (by rw [Comment.skip]; rintro b ⟨⟩)]
  rwa [List.append_nil, Reader.many_of_eq_none hend, List.append_nil] at hread

/-- **A written list is read back, and a comma with anything after it only adds addresses to it.** -/
theorem parseList_written {as : List Address} {s : Bytes} (h : Written as s) :
    parseList s = some as ∧
      ∀ g : Bytes, ∃ more, parseList (s ++ (','.toUInt8 :: Ascii.sp :: g)) = some (as ++ more) :=
  ⟨parseList_of_written h, fun _ => ⟨_, parseList_append h (BeginsIn.cons (by decide) _)⟩⟩

/-- A mailbox with a name of two words, and a group of two mailboxes. -/
def sample : List Address :=
  [.mailbox ⟨[Utf8.encode "A \"B", Utf8.encode "C"], ⟨[Utf8.encode "a b"], [Utf8.encode "org"]⟩⟩,
    .group [Utf8.encode "G"]
      [⟨[], ⟨[Utf8.encode "d"], []⟩⟩,
        ⟨[Utf8.encode "F"], ⟨[Utf8.encode "f", Utf8.encode "g"], [Utf8.encode "[::1]"]⟩⟩]]

/-- A way to write them. -/
def sampleText : Bytes :=
  Utf8.encode "\"A\\ \\\"B\" (x(y)) \"C\" <\"a\\ b\"@org>,\r\n "
    ++ Utf8.encode "\"G\":d (z) , \"F\"<f.g@[::1]>;"

theorem written_sample : Written sample sampleText := by
  have hx : Comment.IsGap (Utf8.encode " (x(y)) ") :=
    .fold rfl (.comment (.byte (by decide) (by decide) (by decide)
      (.comment (.byte (by decide) (by decide) (by decide) .nil) .nil)) Comment.isGap_sp)
  have hz : Comment.IsGap (Utf8.encode " (z) ") :=
    .fold rfl (.comment (.byte (by decide) (by decide) (by decide) .nil) Comment.isGap_sp)
  have hfold : Comment.IsGap (Utf8.encode "\r\n ") := .fold rfl (.fold rfl Comment.isGap_sp)
  have hatom : ∀ {w g}, w ≠ [] → w.all Word.isAtomByte = true → Comment.IsGap g →
      Word.AtomForm w (w ++ g) :=
    fun hne hall hg => ⟨⟨hne, List.all_eq_true.mp hall⟩, _, hg, rfl⟩
  have hquoted : ∀ w {g}, Comment.IsGap g →
      Word.QuotedForm w (Word.quote :: (Word.escaped w ++ Word.quote :: g)) :=
    fun _ _ hg => ⟨_, hg, rfl⟩
  have hfirst : Form (.mailbox ⟨[Utf8.encode "A \"B", Utf8.encode "C"],
      ⟨[Utf8.encode "a b"], [Utf8.encode "org"]⟩⟩) _ :=
    .mailbox (.named (.cons (hquoted _ hx) (.one (hquoted _ Comment.isGap_sp))) .nil
      (.full (.one (.inr (hquoted _ .nil))) .nil
        (.atoms (.one (hatom (by decide) (by decide) .nil)))) .nil)
  have hbare : MailboxForm ⟨[], ⟨[Utf8.encode "d"], []⟩⟩ _ :=
    .bare (.bare (.one (.inl (hatom (by decide) (by decide) hz))))
  have hliteral : ∀ b ∈ Utf8.encode "::1", IsLiteralByte b := by
    unfold IsLiteralByte
    decide +kernel
  have hnamed : MailboxForm ⟨[Utf8.encode "F"],
      ⟨[Utf8.encode "f", Utf8.encode "g"], [Utf8.encode "[::1]"]⟩⟩ _ :=
    .named (.one (hquoted _ .nil)) .nil
      (.full (.cons (.inl (hatom (by decide) (by decide) .nil)) .nil
        (.one (.inl (hatom (by decide) (by decide) .nil)))) .nil (.literal hliteral .nil)) .nil
  have h : Written sample _ :=
    .intro .nil (.cons hfirst hfold (.one (.group (.one (hquoted _ .nil)) .nil
      (.joined (.cons hbare Comment.isGap_sp (.one hnamed))) .nil)))
  exact cast (congrArg (Written sample) (by decide +kernel)) h

/-- The sample is read back, also with a comma and a broken address after it. -/
theorem parseList_written_sample :
    Written sample sampleText ∧ parseList sampleText = some sample ∧
      ∃ more, parseList (sampleText ++ (','.toUInt8 :: Ascii.sp :: Utf8.encode "<<<"))
        = some (sample ++ more) :=
  ⟨written_sample, (parseList_written written_sample).1,
    (parseList_written written_sample).2 (Utf8.encode "<<<")⟩

/-- A text is a way to write one list at most. -/
theorem Written.unique {as as' : List Address} {s : Bytes} (h : Written as s)
    (h' : Written as' s) : as = as' :=
  Option.some.inj ((parseList_of_written h).symm.trans (parseList_of_written h'))

/-! ## Which lists can be written -/

/-- A domain consists of atoms, or of one text in brackets without special characters. -/
def IsDomain (d : List Bytes) : Prop :=
  (∀ w ∈ d, Word.IsAtom w) ∨
    ∃ w, (∀ b ∈ w, IsLiteralByte b) ∧ d = ['['.toUInt8 :: w ++ [']'.toUInt8]]

/-- Mail goes somewhere. -/
def IsSpec (a : AddrSpec) : Prop :=
  a.localPart ≠ [] ∧ IsDomain a.domain

/-- All mail goes somewhere, and groups have names. -/
def IsWritable : Address → Prop
  | .mailbox m => IsSpec m.spec
  | .group name members => name ≠ [] ∧ ∀ m ∈ members, IsSpec m.spec

theorem exists_specForm_iff {a : AddrSpec} : (∃ s, SpecForm a s) ↔ IsSpec a := by
  constructor
  · rintro ⟨s, h⟩
    cases h with
    | bare hl => exact ⟨(Word.exists_joined_iff.mp ⟨_, hl⟩).1, .inl (by simp)⟩
    | full hl _ hd =>
      refine ⟨(Word.exists_joined_iff.mp ⟨_, hl⟩).1, ?_⟩
      cases hd with
      | atoms h =>
        exact .inl fun w hw => Word.exists_atomForm_iff.mp ((Word.exists_joined_iff.mp ⟨_, h⟩).2 w hw)
      | literal hw => exact .inr ⟨_, hw, rfl⟩
  · obtain ⟨l, d⟩ := a
    rintro ⟨hl, hd⟩
    have hwords : ∀ w ∈ l, ∃ s, Word.Form w s := fun w _ =>
      (Word.exists_quotedForm w).imp fun _ => .inr
    obtain ⟨s, hs⟩ := Word.exists_joined_iff.mpr ⟨hl, hwords⟩
    by_cases hempty : d = []
    · subst hempty
      exact ⟨s, .bare hs⟩
    · have hdomain : ∃ t, DomainForm d t := by
        rcases hd with hatoms | ⟨w, hw, rfl⟩
        · obtain ⟨t, ht⟩ := Word.exists_joined_iff.mpr
            ⟨hempty, fun w hw => Word.exists_atomForm_iff.mpr (hatoms w hw)⟩
          exact ⟨t, .atoms ht⟩
        · exact ⟨_, .literal hw .nil⟩
      obtain ⟨t, ht⟩ := hdomain
      exact ⟨_, .full hs .nil ht⟩

theorem exists_mailboxForm_iff {m : Mailbox} : (∃ s, MailboxForm m s) ↔ IsSpec m.spec := by
  constructor
  · rintro ⟨s, h⟩
    cases h with
    | bare h => exact exists_specForm_iff.mp ⟨_, h⟩
    | named _ _ h _ => exact exists_specForm_iff.mp ⟨_, h⟩
  · obtain ⟨name, a⟩ := m
    intro h
    obtain ⟨s, hs⟩ := exists_specForm_iff.mpr h
    by_cases hname : name = []
    · subst hname
      exact ⟨s, .bare hs⟩
    · obtain ⟨n, hn⟩ := Word.exists_nameForm_iff.mpr hname
      exact ⟨_, .named hn .nil hs .nil⟩

theorem exists_form_iff {a : Address} : (∃ s, Form a s) ↔ IsWritable a := by
  constructor
  · rintro ⟨s, h⟩
    cases h with
    | mailbox h => exact exists_mailboxForm_iff.mp ⟨_, h⟩
    | group hn _ hm _ =>
      refine ⟨hn.ne_nil, fun m hmem => exists_mailboxForm_iff.mp ?_⟩
      cases hm with
      | empty => cases hmem
      | joined h => exact (Word.exists_joined_iff.mp ⟨_, h⟩).2 m hmem
  · intro h
    cases a with
    | mailbox m =>
      obtain ⟨s, hs⟩ := exists_mailboxForm_iff.mpr h
      exact ⟨s, .mailbox hs⟩
    | group name members =>
      obtain ⟨n, hn⟩ := Word.exists_nameForm_iff.mpr h.1
      have hmembers : ∃ s, MembersForm members s := by
        by_cases hempty : members = []
        · subst hempty
          exact ⟨[], .empty⟩
        · obtain ⟨s, hs⟩ := Word.exists_joined_iff.mpr
            ⟨hempty, fun m hm => exists_mailboxForm_iff.mpr (h.2 m hm)⟩
          exact ⟨s, .joined hs⟩
      obtain ⟨s, hs⟩ := hmembers
      exact ⟨_, .group hn .nil hs .nil⟩

/-- The lists that can be written are those of one address or more whose domains are domains and
whose groups have names. -/
theorem exists_written_iff {as : List Address} :
    (∃ s, Written as s) ↔ as ≠ [] ∧ ∀ a ∈ as, IsWritable a := by
  have hall : (∀ a ∈ as, ∃ s, Form a s) ↔ ∀ a ∈ as, IsWritable a :=
    forall₂_congr fun _ _ => exists_form_iff
  rw [← hall, ← Word.exists_joined_iff (c := ',')]
  exact ⟨fun ⟨_, _, h⟩ => ⟨_, h⟩, fun ⟨_, h⟩ => ⟨_, .intro .nil h⟩⟩

end Address

end ImapMessage
