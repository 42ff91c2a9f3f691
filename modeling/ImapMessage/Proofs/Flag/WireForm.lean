/-
# Flags as they are written

Flags are written into answers as they are, so nothing may stand in them that has a meaning there,
and what has been written is read again: by clients, and by searches for a keyword.  A flag that
has been read is written in a way that is safe and read as the same flag, and so are all flags that
come to be by storing such flags.

Key constructions:
* `Flag.IsWireAtom`: atoms.
* `Flag.parse_eq_ok_iff`: which texts are read as which flag.
* `Flag.IsWireSafe`: flags whose written form is safe.
* `StoreStep.of_mem_run`: where the flags come from.
* `Criteria.mayHold_keyword`: what a search for a written flag finds.
* `Flag.parse_text_and_search`: all of this together.
-/
import ImapMessage.Proofs.Flag.Runs
import ImapMessage.Proofs.Search.Laws
import ImapMessage.Proofs.Text.Ascii

namespace ImapMessage

namespace Flag

/-! ## Atoms -/

/-- Marks that have a meaning of their own: parentheses and the brace before a literal, the
wildcards of lists, the quotation mark, and the bracket at the end of a response code. -/
def delimiters : List Char :=
  ['(', ')', '{', '%', '*', '"', ']']

/-- An atom: one or more characters of ASCII, among which there are no control characters, spaces,
marks with a meaning of their own, and backslashes. -/
structure IsWireAtom (s : String) : Prop where
  /-- It is not empty. -/
  ne_empty : s ≠ ""
  /-- Its characters are printable and no spaces. -/
  printable : ∀ c ∈ s.toList, 32 < c.toNat ∧ c.toNat < 127
  /-- Its characters are no marks with a meaning of their own. -/
  not_delimiter : ∀ c ∈ s.toList, c ∉ delimiters
  /-- There is no backslash in it. -/
  not_backslash : '\\' ∉ s.toList

theorem isAtomChar_iff {c : Char} :
    isAtomChar c = true ↔ (32 < c.toNat ∧ c.toNat < 127) ∧ c ∉ delimiters ∧ c ≠ '\\' := by
  simp only [isAtomChar, delimiters, Bool.and_eq_true, decide_eq_true_eq, Bool.not_eq_true',
    List.contains_eq_mem, decide_eq_false_iff_not, List.mem_cons, List.not_mem_nil, or_false,
    not_or]
  tauto

theorem isAtom_iff (s : String) : isAtom s = true ↔ IsWireAtom s := by
  rw [isAtom, Bool.and_eq_true, Bool.not_eq_true', List.isEmpty_eq_false_iff, ne_eq,
    String.toList_eq_nil_iff, List.all_eq_true]
  constructor
  · rintro ⟨hne, hall⟩
    refine ⟨hne, fun c hc => (isAtomChar_iff.mp (hall c hc)).1,
      fun c hc => (isAtomChar_iff.mp (hall c hc)).2.1, fun hmem => ?_⟩
    exact (isAtomChar_iff.mp (hall _ hmem)).2.2 rfl
  · rintro ⟨hne, hprintable, hdelimiter, hbackslash⟩
    refine ⟨hne, fun c hc => isAtomChar_iff.mpr ⟨hprintable c hc, hdelimiter c hc, ?_⟩⟩
    rintro rfl
    exact hbackslash hc

/-! ## Reading -/

/-- The names of the system flags in lower case. -/
def systemNames : List String :=
  ["\\answered", "\\deleted", "\\draft", "\\flagged", "\\seen", "\\recent"]

theorem lowerName_text_system : system.map (fun f => Ascii.lowerName f.text) = systemNames := by
  decide

/-- A text names a system flag if it is the written form of one in any letter case. -/
theorem exists_system_iff (s : String) :
    (∃ f ∈ system, Ascii.sameName s f.text = true)
      ↔ ∃ name ∈ systemNames, Ascii.sameName s name = true := by
  rw [← lowerName_text_system]
  simp only [List.mem_map, exists_exists_and_eq_and, Ascii.sameName_comm s,
    Ascii.sameName_lowerName]

/-- The name of a system flag begins with a backslash. -/
theorem head?_of_sameName {s : String} {f : Flag} (hf : f ∈ system)
    (h : Ascii.sameName s f.text = true) : s.toList.head? = some '\\' := by
  have hsystem : ∀ f ∈ system, (Ascii.lowerName f.text).toList.head? = some '\\' := by decide
  have hlower := hsystem f hf
  rw [← (Ascii.sameName_iff s f.text).mp h, Ascii.lowerName, String.toList_ofList, List.head?_map,
    Option.map_eq_some_iff] at hlower
  obtain ⟨c, hc, hclower⟩ := hlower
  rw [hc, Ascii.eq_of_toLower_eq (by decide) hclower]

/-- A name is found in the table of system flags if and only if it is that of a system flag, since
no two of them have the same name. -/
theorem find?_system {s : String} {f : Flag} :
    (system.find? fun f => Ascii.sameName s f.text) = some f
      ↔ f ∈ system ∧ Ascii.sameName s f.text = true := by
  constructor
  · intro h
    have hname := List.find?_some h
    exact ⟨List.mem_of_find?_eq_some h, hname⟩
  · rintro ⟨hf, hname⟩
    have hsystem : ∀ f ∈ system,
        (system.find? fun g => Ascii.lowerName f.text == Ascii.lowerName g.text) = some f := by
      decide
    simp only [Ascii.sameName, (Ascii.sameName_iff s f.text).mp hname]
    exact hsystem f hf

/-- A system flag is read from its name in any letter case, and a keyword from an atom as it is. -/
theorem parse_eq_ok_iff {s : String} {f : Flag} :
    parse s = .ok f
      ↔ (f ∈ system ∧ Ascii.sameName s f.text = true) ∨ (f = .keyword s ∧ IsWireAtom s) := by
  rw [← find?_system, parse]
  cases hfind : system.find? fun f => Ascii.sameName s f.text with
  | some g =>
    obtain ⟨hg, hname⟩ := find?_system.mp hfind
    have hatom : ¬(f = .keyword s ∧ IsWireAtom s) := fun h =>
      h.2.not_backslash (List.mem_of_mem_head? (head?_of_sameName hg hname))
    rw [or_iff_left hatom, Except.ok.injEq, Option.some_inj]
  | none =>
    rw [or_iff_right (Option.some_ne_none f).symm, ← isAtom_iff]
    dsimp only
    split
    · -- There is a backslash in front, which no atom contains.
      rename_i hhead
      rw [isAtom_iff]
      refine iff_of_false nofun fun h => h.2.not_backslash ?_
      exact List.mem_of_mem_head? (beq_iff_eq.mp hhead)
    · split
      · rename_i hatom
        rw [Except.ok.injEq]
        exact ⟨fun h => ⟨h.symm, hatom⟩, fun h => h.1.symm⟩
      · rename_i hatom
        exact iff_of_false nofun fun h => hatom h.2

/-- What is a flag is a name of a system flag or an atom without a backslash in front. -/
theorem exists_parse_iff (s : String) :
    (∃ f, parse s = .ok f)
      ↔ (∃ name ∈ systemNames, Ascii.sameName s name = true)
        ∨ (IsWireAtom s ∧ s.toList.head? ≠ some '\\') := by
  rw [← exists_system_iff]
  simp only [parse_eq_ok_iff]
  constructor
  · rintro ⟨f, hf | ⟨-, hatom⟩⟩
    · exact .inl ⟨f, hf⟩
    · exact .inr ⟨hatom, fun h => hatom.not_backslash (List.mem_of_mem_head? h)⟩
  · rintro (⟨f, hf⟩ | ⟨hatom, -⟩)
    · exact ⟨f, .inl hf⟩
    · exact ⟨.keyword s, .inr ⟨rfl, hatom⟩⟩

/-! ## Writing -/

/-- The written form of a flag is safe: it is printable, without spaces and marks that have a
meaning of their own, and there is no backslash in it but in front of a system flag. -/
structure IsWireSafe (f : Flag) : Prop where
  /-- Its characters are printable and no spaces. -/
  printable : ∀ c ∈ f.text.toList, 32 < c.toNat ∧ c.toNat < 127
  /-- Its characters are no marks with a meaning of their own. -/
  not_delimiter : ∀ c ∈ f.text.toList, c ∉ delimiters
  /-- A backslash stands only in front of a system flag. -/
  backslash : ∀ i : Nat, f.text.toList[i]? = some '\\' → i = 0 ∧ f ∈ system

theorem isWireSafe_of_mem_system {f : Flag} (h : f ∈ system) : IsWireSafe f := by
  have hprintable : ∀ f ∈ system, ∀ c ∈ f.text.toList, 32 < c.toNat ∧ c.toNat < 127 := by decide
  have hdelimiter : ∀ f ∈ system, ∀ c ∈ f.text.toList, c ∉ delimiters := by decide
  have htail : ∀ f ∈ system, '\\' ∉ f.text.toList.tail := by decide
  refine ⟨hprintable f h, hdelimiter f h, fun i hi => ⟨?_, h⟩⟩
  cases i with
  | zero => rfl
  | succ i =>
    rw [← List.getElem?_tail] at hi
    exact absurd (List.mem_of_getElem? hi) (htail f h)

theorem isWireSafe_keyword {name : String} (h : IsWireAtom name) : IsWireSafe (.keyword name) :=
  ⟨h.printable, h.not_delimiter, fun _ hi => absurd (List.mem_of_getElem? hi) h.not_backslash⟩

section

variable {s t : String} {f g : Flag}

/-- A flag that has been read is written safely. -/
theorem isWireSafe_of_parse (h : parse s = .ok f) : IsWireSafe f := by
  rcases parse_eq_ok_iff.mp h with ⟨hf, -⟩ | ⟨rfl, hatom⟩
  · exact isWireSafe_of_mem_system hf
  · exact isWireSafe_keyword hatom

/-- A flag is written as it has been read, up to letter case. -/
theorem sameName_text_of_parse (h : parse s = .ok f) : Ascii.sameName f.text s = true := by
  rcases parse_eq_ok_iff.mp h with ⟨-, hname⟩ | ⟨rfl, -⟩
  · rwa [Ascii.sameName_comm]
  · exact Ascii.sameName_self s

/-- A keyword is written as it has been read. -/
theorem text_of_parse (h : parse s = .ok f) (hf : f ∉ system) : f.text = s := by
  rcases parse_eq_ok_iff.mp h with ⟨hsystem, -⟩ | ⟨rfl, -⟩
  · exact absurd hsystem hf
  · rfl

/-- What has been written is read as the same flag. -/
theorem parse_text_of_parse (h : parse s = .ok f) : parse f.text = .ok f := by
  rcases parse_eq_ok_iff.mp h with ⟨hf, -⟩ | ⟨rfl, hatom⟩
  · exact parse_eq_ok_iff.mpr (.inl ⟨hf, Ascii.sameName_self f.text⟩)
  · exact h

/-- Flags that have been read are the same if they are written alike. -/
theorem eq_of_text_eq (h : parse s = .ok f) (h' : parse t = .ok g) (htext : g.text = f.text) :
    g = f := by
  have hg := parse_text_of_parse h'
  rw [htext, parse_text_of_parse h] at hg
  exact (Except.ok.inj hg).symm

end

/-- A flag that can be read. -/
def IsReadable (f : Flag) : Prop :=
  ∃ s, parse s = .ok f

end Flag

/-! ## Storing -/

/-- A flag that is added is the only one that was not there before. -/
theorem StoreAction.of_mem_insertFlag {flags : List Flag} {f g : Flag}
    (h : f ∈ insertFlag flags g) : f ∈ flags ∨ f = g := by
  unfold insertFlag at h
  split at h
  · exact .inl h
  · rwa [List.mem_append, List.mem_singleton] at h

/-- After one command there are flags that were there before, and flags that it names. -/
theorem StoreAction.of_mem_apply {action : StoreAction} {flags operand : List Flag} {f : Flag}
    (h : f ∈ action.apply flags operand) : f ∈ flags ∨ f ∈ operand := by
  cases action with
  | set => exact .inr h
  | add =>
    unfold StoreAction.apply at h
    induction operand generalizing flags with
    | nil => exact .inl h
    | cons g operand ih =>
      rw [List.foldl_cons] at h
      rcases ih h with hmem | hmem
      · rcases of_mem_insertFlag hmem with hmem | rfl
        · exact .inl hmem
        · exact .inr List.mem_cons_self
      · exact .inr (List.mem_cons_of_mem g hmem)
  | remove => exact .inl (List.mem_of_mem_filter h)

/-- After a run there are flags that were there at its start, and flags that a command names. -/
theorem StoreStep.of_mem_run {flags : List Flag} {steps : List StoreStep} {f : Flag}
    (h : f ∈ run flags steps) : f ∈ flags ∨ ∃ step ∈ steps, f ∈ step.operand := by
  induction steps generalizing flags with
  | nil => exact .inl h
  | cons step steps ih =>
    rw [run_cons] at h
    rcases ih h with hmem | ⟨later, hlater, hmem⟩
    · exact (StoreAction.of_mem_apply hmem).imp_right fun hstep =>
        ⟨step, List.mem_cons_self, hstep⟩
    · exact .inr ⟨later, List.mem_cons_of_mem step hlater, hmem⟩

/-! ## Searching -/

/-- A search for a flag as it is written finds the messages that have it. -/
theorem Criteria.mayHold_keyword [PatternLimit] {d : SearchData} {flags : List Flag} {f : Flag}
    (hd : d.flags = some flags) (hf : Flag.parse f.text = .ok f) :
    mayHold [.keyword f.text] d = true ↔ f ∈ flags := by
  have hvalue : Criterion.evaluate d (.keyword f.text) = some (flags.contains f) := by
    rw [Criterion.evaluate, SearchData.hasKeyword, hd, hf]
    rfl
  rw [mayHold, evaluate_singleton, hvalue, Option.getD_some, List.contains_iff_mem]

/-! ## Main result -/

namespace Flag

/-- **Flags that have been read are written safely and read as themselves.**  A text is read as a
flag if and only if it is the name of a system flag in any letter case or an atom without a
backslash in front.  The flag is then written safely, as the text up to letter case and exactly so
if it is a keyword, and this is read as the same flag; so flags with the same written form are the
same.  Store commands that name such flags leave only such flags, and after any store commands a
search for the written form finds the message if and only if it has the flag. -/
theorem parse_text_and_search [FurtherCharsets] [PatternLimit] (s : String) :
    ((∃ f, parse s = .ok f)
      ↔ (∃ name ∈ systemNames, Ascii.sameName s name = true)
        ∨ (IsWireAtom s ∧ s.toList.head? ≠ some '\\'))
      ∧ ∀ f, parse s = .ok f →
        (IsWireSafe f ∧ Ascii.sameName f.text s = true ∧ (f ∉ system → f.text = s))
          ∧ parse f.text = .ok f
          ∧ (∀ t g, parse t = .ok g → g.text = f.text → g = f)
          ∧ ∀ flags steps, (∀ g ∈ flags, IsReadable g)
            → (∀ step ∈ steps, ∀ g ∈ step.operand, IsReadable g)
            → (∀ g ∈ StoreStep.run flags steps, IsReadable g)
              ∧ (Criteria.matchesFlags [.keyword f.text] (StoreStep.run flags steps) = true
                ↔ f ∈ StoreStep.run flags steps)
              ∧ ∀ message,
                Criteria.matchesMessage [.keyword f.text] (StoreStep.run flags steps) message = true
                  ↔ f ∈ StoreStep.run flags steps := by
  refine ⟨exists_parse_iff s, fun f hf => ?_⟩
  have hagain := parse_text_of_parse hf
  refine ⟨⟨isWireSafe_of_parse hf, sameName_text_of_parse hf, text_of_parse hf⟩, hagain,
    fun t g hg htext => eq_of_text_eq hf hg htext, fun flags steps hflags hsteps => ⟨?_, ?_, ?_⟩⟩
  · intro g hg
    rcases StoreStep.of_mem_run hg with hmem | ⟨step, hstep, hmem⟩
    · exact hflags g hmem
    · exact hsteps step hstep g hmem
  · exact Criteria.mayHold_keyword rfl hagain
  · exact fun message => Criteria.mayHold_keyword rfl hagain

/-- Two store commands: one adds flags, and one takes the first of them away again. -/
def sampleSteps : List StoreStep :=
  [⟨.add, [.seen, .keyword "$Junk"]⟩, ⟨.remove, [.seen]⟩]

/-- A keyword is found after it has been stored, in the letter case in which it was, and a system
flag is not found any more after it has been taken away, though its name was read in another letter
case. -/
theorem parse_text_and_search_sample :
    parse "\\sEEN" = .ok .seen ∧ parse "$Junk" = .ok (.keyword "$Junk")
      ∧ parse (text .seen) = .ok .seen
      ∧ StoreStep.run [.recent] sampleSteps = [.recent, .keyword "$Junk"]
      ∧ Criteria.matchesFlags [.keyword (text (.keyword "$Junk"))]
        (StoreStep.run [.recent] sampleSteps) = true
      ∧ ¬Criteria.matchesFlags [.keyword (text .seen)] (StoreStep.run [.recent] sampleSteps)
        = true := by
  have hseen : parse "\\sEEN" = .ok .seen := by decide
  have hjunk : parse "$Junk" = .ok (.keyword "$Junk") := by decide
  have hrun : StoreStep.run [.recent] sampleSteps = [.recent, .keyword "$Junk"] := by decide
  have hflags : ∀ g ∈ [recent], IsReadable g := fun g hg =>
    ⟨"\\Recent", List.mem_singleton.mp hg ▸ by decide⟩
  have hsteps : ∀ step ∈ sampleSteps, ∀ g ∈ step.operand, IsReadable g := by
    have hall : ∀ step ∈ sampleSteps, ∀ g ∈ step.operand, parse g.text = .ok g := by decide
    exact fun step hstep g hg => ⟨g.text, hall step hstep g hg⟩
  have hfound := ((parse_text_and_search "$Junk").2 _ hjunk).2.2.2 _ _ hflags hsteps
  have hlost := ((parse_text_and_search "\\sEEN").2 _ hseen).2.2.2 _ _ hflags hsteps
  refine ⟨hseen, hjunk, ((parse_text_and_search "\\sEEN").2 _ hseen).2.1, hrun, ?_, ?_⟩
  · exact hfound.2.1.mpr (by decide)
  · exact fun h => absurd (hlost.2.1.mp h) (by decide)

end Flag

end ImapMessage
