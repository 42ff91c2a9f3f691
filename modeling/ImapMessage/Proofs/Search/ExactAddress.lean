/-
# Searching for exact addresses

For searching, a mailbox is written with its name in quotes and its address in angle brackets.  An
address in angle brackets, as a pattern, is therefore found in a list of mailboxes only where it
stands in the name or in the address of one of them; and in an address without brackets and at signs
of its own it is found only if it is the whole of it.

Nothing in a name is escaped, so that a name may contain what looks like an address.

Key constructions:
* `isDotAtom`: the parts of ordinary addresses.
* `CaseFold.Contains`, `Pattern.found_iff_contains`: patterns without white space.
* `SearchData.infix_join_mailboxText_iff`: what is found in a list of mailboxes.
* `AddrSpec.HasParts`, `AddrSpec.contains_exactQuery_iff`: what is found in an address.
* `Criteria.matchesContent_exactAddress`: searching for an exact address.
-/
import ImapMessage.Proofs.Field.AddressList
import ImapMessage.Proofs.Search.HeaderText
import ImapMessage.Proofs.Text.Utf8Canonical

namespace ImapMessage

/-! ## Letter case -/

namespace CaseFold

/-- A text contains another one in some letter case. -/
def Contains (text part : String) : Prop :=
  part.toList.map fold <:+: text.toList.map fold

instance (text part : String) : Decidable (Contains text part) :=
  inferInstanceAs (Decidable (_ <:+: _))

/-- Names that are the same up to ASCII case are the same in folded form. -/
theorem map_fold_eq_of_sameName {s t : String} (h : Ascii.sameName s t = true) :
    s.toList.map fold = t.toList.map fold := by
  have hlower : ∀ u : String, u.toList.map fold = (Ascii.lowerName u).toList.map fold := by
    intro u
    rw [Ascii.lowerName, String.toList_ofList, List.map_map]
    exact List.map_congr_left fun c _ => (fold_toLower c).symm
  rw [hlower s, hlower t, beq_iff_eq.mp h]

/-- For texts of ASCII there is no other letter case. -/
theorem sameName_iff {s t : String} (hs : ∀ c ∈ s.toList, c.toNat < 0x80)
    (ht : ∀ c ∈ t.toList, c.toNat < 0x80) :
    Ascii.sameName s t = true ↔ s.toList.map fold = t.toList.map fold := by
  refine ⟨map_fold_eq_of_sameName, fun h => ?_⟩
  have hlower : ∀ u : String, (∀ c ∈ u.toList, c.toNat < 0x80) →
      Ascii.lowerName u = String.ofList (u.toList.map fold) := by
    intro u hu
    rw [Ascii.lowerName]
    exact congrArg _ (List.map_congr_left fun c hc => (if_pos (hu c hc)).symm)
  rw [Ascii.sameName, hlower s hs, hlower t ht, h, beq_self_eq_true]

end CaseFold

/-! ## Patterns without white space -/

/-- A pattern without white space is found where it stands, in any letter case, if it is small
enough. -/
theorem Pattern.found_iff_contains [PatternLimit] {written : String} (hne : written.toList ≠ [])
    (hblank : ∀ c ∈ written.toList, Blank.isBlank c = false) (text : String) :
    found written text = true
      ↔ PatternLimit.admits written = true ∧ CaseFold.Contains text written := by
  have hblank' : ∀ c ∈ written.toList.map CaseFold.fold, Blank.isBlank c = false := by
    rw [List.forall_mem_map]
    intro c hc
    rw [CaseFold.isBlank_fold, hblank c hc]
  have hwords : Blank.words (written.toList.map CaseFold.fold)
      = [written.toList.map CaseFold.fold] := by
    rw [Blank.words_of_not_isBlank hblank', List.filter_cons_of_pos (by simpa using hne)]
    rfl
  rw [found_iff, hwords]
  refine and_congr_right fun _ => ⟨?_, fun h => ⟨_, h, .single _⟩⟩
  rintro ⟨part, hpart, hspaced⟩
  cases hspaced with
  | single => exact hpart
  | cons _ _ hchunks _ => exact absurd rfl hchunks

/-! ## Dot-atoms -/

/-- The characters of atoms, those beyond ASCII left out. -/
def isAtomChar (c : Char) : Bool :=
  c.toNat < 0x80 && Word.isAtomByte c.toUInt8

/-- Whether a text consists of atoms of ASCII with dots between them. -/
def isDotAtom (s : String) : Bool :=
  (s.toList.splitOn '.').all fun atom => !atom.isEmpty && atom.all isAtomChar

/-- The characters that stand between names and addresses. -/
def separators : List Char := ['"', ' ', ',']

/-- The characters that stand around the parts of an address. -/
def addressMarks : List Char := ['<', '>', '@']

/-- In a dot-atom there is nothing that has a meaning in a list of mailboxes. -/
theorem of_mem_dotAtom {s : String} (h : isDotAtom s = true) {c : Char} (hc : c ∈ s.toList) :
    c.toNat < 0x80 ∧ CaseFold.fold c ∉ separators ++ addressMarks ∧ Blank.isBlank c = false := by
  have hall : ∀ n < 0x80, (Char.ofNat n = '.' ∨ Word.isAtomByte (Char.ofNat n).toUInt8 = true) →
      CaseFold.fold (Char.ofNat n) ∉ separators ++ addressMarks
        ∧ Blank.isBlank (Char.ofNat n) = false := by
    decide +kernel
  have hchar : c.toNat < 0x80 ∧ (c = '.' ∨ Word.isAtomByte c.toUInt8 = true) := by
    have hsplit : ['.'].intercalate (s.toList.splitOn '.') = s.toList :=
      List.intercalate_splitOn '.'
    rw [← hsplit] at hc
    rcases mem_of_mem_intercalate hc with rfl | ⟨atom, hatom, hc⟩
    · exact ⟨by decide, .inl rfl⟩
    · obtain ⟨-, hatom'⟩ := Bool.and_eq_true_iff.mp (List.all_eq_true.mp h atom hatom)
      have hbyte := List.all_eq_true.mp hatom' c hc
      rw [isAtomChar, Bool.and_eq_true, decide_eq_true_iff] at hbyte
      exact ⟨hbyte.1, .inr hbyte.2⟩
  have hplain := hall c.toNat hchar.1
  rw [Char.ofNat_toNat] at hplain
  exact ⟨hchar.1, hplain hchar.2⟩

/-- An address in angle brackets, as a pattern. -/
def exactQuery (l d : String) : String :=
  "<" ++ l ++ "@" ++ d ++ ">"

theorem toList_exactQuery (l d : String) :
    (exactQuery l d).toList = '<' :: (l.toList ++ '@' :: d.toList ++ ['>']) := by
  simp [exactQuery]

theorem map_fold_exactQuery (l d : String) :
    (exactQuery l d).toList.map CaseFold.fold
      = '<' :: (l.toList.map CaseFold.fold ++ '@' :: d.toList.map CaseFold.fold ++ ['>']) := by
  have hmarks : CaseFold.fold '<' = '<' ∧ CaseFold.fold '@' = '@' ∧ CaseFold.fold '>' = '>' := by
    decide
  simp [toList_exactQuery, hmarks]

section

variable {l d : String} (hl : isDotAtom l = true) (hd : isDotAtom d = true)

include hl hd

theorem isBlank_of_mem_exactQuery :
    ∀ c ∈ (exactQuery l d).toList, Blank.isBlank c = false := by
  intro c hc
  rw [toList_exactQuery, List.mem_cons, List.mem_append, List.mem_append, List.mem_cons,
    List.mem_singleton] at hc
  rcases hc with rfl | (hc | rfl | hc) | rfl
  · rfl
  · exact (of_mem_dotAtom hl hc).2.2
  · rfl
  · exact (of_mem_dotAtom hd hc).2.2
  · rfl

/-- Nothing that stands between names and addresses stands in an address. -/
theorem not_mem_map_fold_exactQuery {s : Char} (hs : s ∈ separators) :
    s ∉ (exactQuery l d).toList.map CaseFold.fold := by
  have hpart : ∀ {t : String}, isDotAtom t = true → s ∉ t.toList.map CaseFold.fold := by
    intro t ht hmem
    obtain ⟨c, hc, rfl⟩ := List.mem_map.mp hmem
    exact (of_mem_dotAtom ht hc).2.1 (List.mem_append_left _ hs)
  have hmark : ∀ c ∈ addressMarks, s ≠ c := by
    have hall : ∀ s ∈ separators, (!addressMarks.contains s) = true :=
      List.all_eq_true.mp (by decide)
    have hnot : s ∉ addressMarks := by simpa using hall s hs
    rintro c hc rfl
    exact hnot hc
  rw [map_fold_exactQuery, List.mem_cons, List.mem_append, List.mem_append, List.mem_cons,
    List.mem_singleton]
  rintro (heq | (hmem | heq | hmem) | heq)
  · exact hmark _ (by decide) heq
  · exact hpart hl hmem
  · exact hmark _ (by decide) heq
  · exact hpart hd hmem
  · exact hmark _ (by decide) heq

end

/-! ## Lists of mailboxes -/

/-- An address without brackets around it. -/
def AddrSpec.written (a : AddrSpec) : String :=
  Display.dotted a.localPart ++ if a.domain.isEmpty then "" else "@" ++ Display.dotted a.domain

namespace SearchData

section

variable [FurtherCharsets] {q : List Char} (hq : ∀ s ∈ separators, s ∉ q) (hne : q ≠ [])

include hq hne

/-- What contains no quotes, spaces and commas is found before other text or in it, in the name of a
mailbox, or in its address. -/
theorem infix_mailboxText_append_iff (m : Mailbox) (rest : List Char) :
    q <:+: (mailboxText m).toList.map CaseFold.fold ++ rest
      ↔ (q <:+: (Display.phrase m.name).toList.map CaseFold.fold
          ∨ q <:+: ("<" ++ m.spec.written ++ ">").toList.map CaseFold.fold) ∨ q <:+: rest := by
  have hfold : CaseFold.fold '"' = '"' ∧ CaseFold.fold ' ' = ' ' ∧ CaseFold.fold ',' = ',' := by
    decide
  have hquote : '"' ∉ q := hq _ (by decide)
  have hspace : ' ' ∉ q := hq _ (by decide)
  have hcomma : ',' ∉ q := hq _ (by decide)
  -- The texts between two separators, some of them empty.
  have htext : (mailboxText m).toList.map CaseFold.fold ++ rest
      = [] ++ '"' :: ((Display.phrase m.name).toList.map CaseFold.fold
        ++ '"' :: ([] ++ ' ' :: (("<" ++ m.spec.written ++ ">").toList.map CaseFold.fold
          ++ ',' :: ([] ++ ' ' :: rest)))) := by
    simp [mailboxText, AddrSpec.written, hfold]
  rw [htext, infix_append_cons_iff hquote, infix_append_cons_iff hquote,
    infix_append_cons_iff hspace, infix_append_cons_iff hcomma, infix_append_cons_iff hspace,
    List.infix_nil]
  simp [hne, or_assoc]

/-- What contains no quotes, spaces and commas is found in a list of mailboxes where it stands in
the name or in the address of one of them. -/
theorem infix_join_mailboxText_iff (ms : List Mailbox) :
    q <:+: (String.join (ms.map mailboxText)).toList.map CaseFold.fold
      ↔ ∃ m ∈ ms, q <:+: (Display.phrase m.name).toList.map CaseFold.fold
          ∨ q <:+: ("<" ++ m.spec.written ++ ">").toList.map CaseFold.fold := by
  induction ms with
  | nil => simp [hne]
  | cons m ms ih =>
    rw [List.map_cons, String.join_cons, String.toList_append, List.map_append,
      infix_mailboxText_append_iff hq hne, ih, List.exists_mem_cons_iff]

end

end SearchData

/-! ## Single addresses -/

namespace AddrSpec

/-- The characters of the local part and of the domain. -/
def characters (a : AddrSpec) : List Char :=
  (Display.dotted a.localPart).toList ++ (Display.dotted a.domain).toList

/-- Whether all characters are of ASCII. -/
def isAscii (a : AddrSpec) : Bool :=
  a.characters.all fun c => c.toNat < 0x80

/-- Whether there are angle brackets or at signs in quotes, or in a domain in brackets. -/
def isMarked (a : AddrSpec) : Bool :=
  a.characters.any fun c => addressMarks.contains c

/-- The local part and the domain, without quotes, are the given ones up to ASCII case. -/
def HasParts (a : AddrSpec) (l d : String) : Prop :=
  a.domain ≠ [] ∧ Ascii.sameName (Display.dotted a.localPart) l = true
    ∧ Ascii.sameName (Display.dotted a.domain) d = true

instance (a : AddrSpec) (l d : String) : Decidable (a.HasParts l d) :=
  inferInstanceAs (Decidable (_ ∧ _))

theorem map_fold_written (a : AddrSpec) :
    a.written.toList.map CaseFold.fold
      = (Display.dotted a.localPart).toList.map CaseFold.fold
        ++ if a.domain = [] then [] else
          '@' :: (Display.dotted a.domain).toList.map CaseFold.fold := by
  have hat : CaseFold.fold '@' = '@' := by decide
  by_cases h : a.domain = [] <;> simp [written, h, hat]

theorem map_fold_bracketed (a : AddrSpec) :
    ("<" ++ a.written ++ ">").toList.map CaseFold.fold
      = '<' :: (a.written.toList.map CaseFold.fold ++ ['>']) := by
  have hmarks : CaseFold.fold '<' = '<' ∧ CaseFold.fold '>' = '>' := by decide
  simp [hmarks]

/-- An address with the given parts is found. -/
theorem HasParts.contains {a : AddrSpec} {l d : String} (h : a.HasParts l d) :
    CaseFold.Contains ("<" ++ a.written ++ ">") (exactQuery l d) := by
  obtain ⟨hdomain, hl, hd⟩ := h
  rw [CaseFold.Contains, map_fold_bracketed, map_fold_written, if_neg hdomain,
    CaseFold.map_fold_eq_of_sameName hl, CaseFold.map_fold_eq_of_sameName hd, map_fold_exactQuery]

section

variable {a : AddrSpec} (hascii : a.isAscii = true) (hmarked : a.isMarked = false)

include hascii

theorem lt_of_mem_characters {c : Char} (hc : c ∈ a.characters) : c.toNat < 0x80 :=
  of_decide_eq_true (List.all_eq_true.mp hascii c hc)

include hmarked

/-- Marks do not come from folding. -/
theorem not_mem_map_fold {x : Char} (hx : x ∈ addressMarks) :
    x ∉ (Display.dotted a.localPart).toList.map CaseFold.fold
      ∧ x ∉ (Display.dotted a.domain).toList.map CaseFold.fold := by
  have hall : ∀ n < 0x80, CaseFold.fold (Char.ofNat n) ∈ addressMarks →
      Char.ofNat n ∈ addressMarks := by
    decide +kernel
  have hchar : ∀ c ∈ a.characters, CaseFold.fold c ≠ x := by
    rintro c hc rfl
    have hmark := hall c.toNat (lt_of_mem_characters hascii hc)
    rw [Char.ofNat_toNat] at hmark
    have hnot := List.any_eq_false.mp hmarked c hc
    rw [List.contains_iff_mem] at hnot
    exact hnot (hmark hx)
  rw [List.mem_map, List.mem_map]
  exact ⟨fun ⟨c, hc, heq⟩ => hchar c (List.mem_append_left _ hc) heq,
    fun ⟨c, hc, heq⟩ => hchar c (List.mem_append_right _ hc) heq⟩

/-- In an address without marks of its own, an exact address is found if it is the whole of it. -/
theorem contains_exactQuery_iff {l d : String} (hl : isDotAtom l = true)
    (hd : isDotAtom d = true) :
    CaseFold.Contains ("<" ++ a.written ++ ">") (exactQuery l d) ↔ a.HasParts l d := by
  refine ⟨fun h => ?_, HasParts.contains⟩
  have hat := not_mem_map_fold hascii hmarked (x := '@') (by decide)
  have hwritten : ∀ x ∈ addressMarks, x ≠ '@' → x ∉ a.written.toList.map CaseFold.fold := by
    intro x hx hne
    obtain ⟨hlocal, hdomain⟩ := not_mem_map_fold hascii hmarked hx
    rw [map_fold_written, List.mem_append, not_or]
    refine ⟨hlocal, ?_⟩
    split
    · exact List.not_mem_nil
    · exact fun hmem => (List.mem_cons.mp hmem).elim hne hdomain
  rw [CaseFold.Contains, map_fold_bracketed, map_fold_exactQuery,
    bracketed_infix_iff (by decide) (hwritten '<' (by decide) (by decide))
      (hwritten '>' (by decide) (by decide)), map_fold_written] at h
  by_cases hdomain : a.domain = []
  · -- The at sign of the pattern would stand in the local part.
    rw [if_pos hdomain, List.append_nil] at h
    exact absurd (h ▸ List.mem_append_right _ List.mem_cons_self) hat.1
  · rw [if_neg hdomain] at h
    obtain ⟨hlocal, -, hdomain'⟩ := (List.append_cons_inj_of_notMem hat.1 hat.2).mp h.symm
    have hlocalAscii : ∀ c ∈ (Display.dotted a.localPart).toList, c.toNat < 0x80 :=
      fun c hc => lt_of_mem_characters hascii (List.mem_append_left _ hc)
    have hdomainAscii : ∀ c ∈ (Display.dotted a.domain).toList, c.toNat < 0x80 :=
      fun c hc => lt_of_mem_characters hascii (List.mem_append_right _ hc)
    refine ⟨hdomain, ?_, ?_⟩
    · rwa [CaseFold.sameName_iff hlocalAscii fun c hc => (of_mem_dotAtom hl hc).1]
    · rwa [CaseFold.sameName_iff hdomainAscii fun c hc => (of_mem_dotAtom hd hc).1]

end

end AddrSpec

/-! ## Searching -/

namespace Criteria

section

variable [FurtherCharsets] [PatternLimit]

/-- A criterion about the sender is met if its pattern is found among the senders. -/
theorem matchesContent_sentFrom (pattern : String) (limits : SearchLimits) (message : Entity) :
    matchesContent [.address .sentFrom pattern] limits message
      = Pattern.found pattern (SearchData.addressesText message.header "From") := by
  apply matchesContent_singleton
  rw [Criterion.evaluate]
  rfl

/-- An address in angle brackets that is small enough for a pattern finds the messages of a sender
who has it, up to ASCII case, and otherwise only those of a sender whose name contains it as it
stands, or whose address contains it and has angle brackets or at signs of its own.  One that is too
large finds nothing. -/
theorem matchesContent_exactAddress {l d : String} (hl : isDotAtom l = true)
    (hd : isDotAtom d = true) {message : Entity} {value : Bytes} {ms : List Mailbox}
    (hfrom : message.header.getAll "From" = [value])
    (hvalue : Address.parseList value = some (ms.map .mailbox))
    (hascii : ∀ m ∈ ms, m.spec.isAscii = true) (limits : SearchLimits) :
    matchesContent [.address .sentFrom (exactQuery l d)] limits message = true
      ↔ PatternLimit.admits (exactQuery l d) = true ∧ ∃ m ∈ ms, m.spec.HasParts l d
        ∨ CaseFold.Contains (Display.phrase m.name) (exactQuery l d)
        ∨ m.spec.isMarked = true
          ∧ CaseFold.Contains ("<" ++ m.spec.written ++ ">") (exactQuery l d) := by
  have htext : SearchData.addressesText message.header "From"
      = String.join (ms.map SearchData.mailboxText) := by
    rw [SearchData.addressesText, hfrom, List.map_singleton, SearchData.addressFieldText, hvalue]
    simp [SearchData.addressText, Function.comp_def]
  have hne : (exactQuery l d).toList ≠ [] := by
    rw [toList_exactQuery]
    exact List.cons_ne_nil _ _
  have hseparators : ∀ s ∈ separators, s ∉ (exactQuery l d).toList.map CaseFold.fold :=
    fun s hs => not_mem_map_fold_exactQuery hl hd hs
  have haddress : ∀ m ∈ ms, CaseFold.Contains ("<" ++ m.spec.written ++ ">") (exactQuery l d)
      ↔ m.spec.HasParts l d
        ∨ m.spec.isMarked = true
          ∧ CaseFold.Contains ("<" ++ m.spec.written ++ ">") (exactQuery l d) := by
    intro m hm
    cases hmarked : m.spec.isMarked with
    | true => exact ⟨fun h => .inr ⟨rfl, h⟩, fun h => h.elim AddrSpec.HasParts.contains And.right⟩
    | false =>
      rw [AddrSpec.contains_exactQuery_iff (hascii m hm) hmarked hl hd]
      simp
  rw [matchesContent_sentFrom, htext,
    Pattern.found_iff_contains hne (isBlank_of_mem_exactQuery hl hd), CaseFold.Contains,
    SearchData.infix_join_mailboxText_iff hseparators (by simpa using hne)]
  refine and_congr_right fun _ => ?_
  exact exists_congr fun m => and_congr_right fun hm =>
    (or_congr_right (haddress m hm)).trans or_left_comm

end

/-- Two senders, one with a name and one without. -/
def twoSenders : Bytes :=
  Utf8.encode "Foo Bar <foo@bar.com>, a.b@c.d"

/-- The mailboxes of `twoSenders`. -/
def twoMailboxes : List Mailbox :=
  [⟨[Utf8.encode "Foo", Utf8.encode "Bar"],
      ⟨[Utf8.encode "foo"], [Utf8.encode "bar", Utf8.encode "com"]⟩⟩,
    ⟨[], ⟨[Utf8.encode "a", Utf8.encode "b"], [Utf8.encode "c", Utf8.encode "d"]⟩⟩]

/-- A sender is found in another letter case, but not by a part of the address. -/
theorem matchesContent_exactAddress_two_senders :
    matchesContent [.address .sentFrom (exactQuery "A.B" "c.D")] {}
        (.ofHeader ⟨[⟨"From", twoSenders⟩]⟩ []) = true
      ∧ matchesContent [.address .sentFrom (exactQuery "oo" "bar.com")] {}
        (.ofHeader ⟨[⟨"From", twoSenders⟩]⟩ []) = false := by
  have hfrom : (Entity.ofHeader ⟨[⟨"From", twoSenders⟩]⟩ []).header.getAll "From"
      = [twoSenders] := by
    decide +kernel
  have hvalue : Address.parseList twoSenders = some (twoMailboxes.map .mailbox) := by
    decide +kernel
  have hascii : ∀ m ∈ twoMailboxes, m.spec.isAscii = true := by decide +kernel
  have hother := matchesContent_exactAddress (l := "A.B") (d := "c.D") (by decide +kernel)
    (by decide +kernel) hfrom hvalue hascii {}
  have hpart := matchesContent_exactAddress (l := "oo") (d := "bar.com") (by decide +kernel)
    (by decide +kernel) hfrom hvalue hascii {}
  exact ⟨hother.mpr (by decide +kernel), Bool.eq_false_iff.mpr (mt hpart.mp (by decide +kernel))⟩

/-- A message whose sender has an address for a name. -/
def addressAsName : Bytes :=
  Utf8.encode "From: \"<foo@bar.com>\" <x@y.z>\r\n\r\n"

/-- A message whose sender has no domain, but an at sign in quotes. -/
def quotedAddress : Bytes :=
  Utf8.encode "From: \"foo@bar.com\"\r\n\r\n"

/-- A local part of some letters. -/
def letters (n : Nat) : String :=
  String.ofList (List.replicate n 'a')

/-- A sender with such a local part. -/
def lettersSender (n : Nat) : Mailbox :=
  ⟨[], ⟨[Utf8.encode (letters n)], [Utf8.encode "b"]⟩⟩

/-- A message of this sender. -/
def lettersMessage (n : Nat) : Entity :=
  .ofHeader ⟨[⟨"From", Utf8.encode (letters n) ++ Utf8.encode "@b"⟩]⟩ []

section

variable {n : Nat}

theorem toList_letters (n : Nat) : (letters n).toList = List.replicate n 'a' :=
  String.toList_ofList

theorem isDotAtom_letters (hn : n ≠ 0) : isDotAtom (letters n) = true := by
  have hsplit : (List.replicate n 'a').splitOn '.' = [List.replicate n 'a'] :=
    List.splitOnP_eq_singleton fun c hc => by rw [List.eq_of_mem_replicate hc]; decide
  have hatom : isAtomChar 'a' = true := by decide
  simp [isDotAtom, toList_letters, hsplit, hn, hatom]

/-- The sender is read from the message. -/
theorem parseList_lettersMessage (hn : n ≠ 0) :
    ((lettersMessage n).header.getAll "From").map Address.parseList
      = [some [.mailbox (lettersSender n)]] := by
  have hatom : ∀ {w : Bytes}, w ≠ [] → (∀ b ∈ w, Word.isAtomByte b = true) → Word.AtomForm w w :=
    fun hne hall => ⟨⟨hne, hall⟩, [], .nil, (List.append_nil _).symm⟩
  have hletters : Utf8.encode (letters n) = List.replicate n 'a'.toUInt8 := by
    rw [Utf8.encode, toList_letters, List.flatMap_replicate]
    exact List.flatten_replicate_singleton
  have hspec : Address.SpecForm (lettersSender n).spec
      (Utf8.encode (letters n) ++ '@'.toUInt8 :: ([] ++ Utf8.encode "b")) := by
    refine .full (.one (.inl (hatom ?_ ?_))) .nil (.atoms (.one (hatom (by decide) (by decide))))
    · rw [hletters]
      simpa using hn
    · rw [hletters]
      intro b hb
      rw [List.eq_of_mem_replicate hb]
      decide
  have hwritten : Address.Written [.mailbox (lettersSender n)]
      ([] ++ (Utf8.encode (letters n) ++ Utf8.encode "@b")) :=
    .intro .nil (.one (.mailbox (.bare hspec)))
  have hfrom : (lettersMessage n).header.getAll "From"
      = [Utf8.encode (letters n) ++ Utf8.encode "@b"] := by
    simp [lettersMessage, Entity.ofHeader, Entity.contentOf, Entity.header, Entity.content,
      Header.getAll, Field.hasName, Ascii.sameName]
  rw [hfrom, List.map_singleton]
  exact congrArg (fun as => [as]) (Address.parseList_of_written hwritten)

theorem hasParts_lettersSender (n : Nat) : (lettersSender n).spec.HasParts (letters n) "b" := by
  have hlocal : Display.dotted [Utf8.encode (letters n)] = letters n := by
    rw [Display.dotted, List.intercalate_singleton, Utf8.decodeLossy_encode]
  have hdomain : Ascii.sameName (Display.dotted [Utf8.encode "b"]) "b" = true := by decide +kernel
  refine ⟨List.cons_ne_nil _ _, ?_, hdomain⟩
  rw [lettersSender, hlocal, Ascii.sameName, beq_self_eq_true]

/-- From some length on the address is too large for a pattern. -/
theorem matchesContent_letters [FurtherCharsets] (hn : 131072 ≤ n) (message : Entity) :
    matchesContent [.address .sentFrom (exactQuery (letters n) "b")] {} message = false := by
  have hsize : 80 * n < PatternLimit.compiledSize (exactQuery (letters n) "b").toList := by
    have hlength : (letters n).toList.length = n := by
      rw [toList_letters, List.length_replicate]
    rw [PatternLimit.compiledSize, toList_exactQuery]
    simp only [List.length_cons, List.length_append, hlength]
    omega
  have hadmits : PatternLimit.admits (exactQuery (letters n) "b") ≠ true := by
    intro h
    have := of_decide_eq_true h
    omega
  rw [matchesContent_sentFrom, Bool.eq_false_iff, ne_eq, Pattern.found_iff]
  exact fun h => hadmits h.1

end

/-- Senders who do not have an address may be found with it, and a sender who has it is not found if
it is too large. -/
theorem matchesContent_other_address :
    (isDotAtom "foo" = true ∧ isDotAtom "bar.com" = true
      ∧ ((Entity.parse {} addressAsName).header.getAll "From").map Address.parseList
        = [some [.mailbox ⟨[Utf8.encode "<foo@bar.com>"],
          ⟨[Utf8.encode "x"], [Utf8.encode "y", Utf8.encode "z"]⟩⟩]]
      ∧ ¬AddrSpec.HasParts ⟨[Utf8.encode "x"], [Utf8.encode "y", Utf8.encode "z"]⟩ "foo" "bar.com"
      ∧ matchesContent [.address .sentFrom (exactQuery "foo" "bar.com")] {}
        (Entity.parse {} addressAsName) = true
      ∧ ((Entity.parse {} quotedAddress).header.getAll "From").map Address.parseList
        = [some [.mailbox ⟨[], ⟨[Utf8.encode "foo@bar.com"], []⟩⟩]]
      ∧ ¬AddrSpec.HasParts ⟨[Utf8.encode "foo@bar.com"], []⟩ "foo" "bar.com"
      ∧ matchesContent [.address .sentFrom (exactQuery "foo" "bar.com")] {}
        (Entity.parse {} quotedAddress) = true)
      ∧ isDotAtom (letters 400000) = true ∧ isDotAtom "b" = true
      ∧ ((lettersMessage 400000).header.getAll "From").map Address.parseList
        = [some [.mailbox (lettersSender 400000)]]
      ∧ (lettersSender 400000).spec.HasParts (letters 400000) "b"
      ∧ matchesContent [.address .sentFrom (exactQuery (letters 400000) "b")] {}
        (lettersMessage 400000) = false :=
  ⟨by decide +kernel, isDotAtom_letters (by decide), by decide,
    parseList_lettersMessage (by decide), hasParts_lettersSender 400000,
    matchesContent_letters (by decide) _⟩

end Criteria

end ImapMessage
