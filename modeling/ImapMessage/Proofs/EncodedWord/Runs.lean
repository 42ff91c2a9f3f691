/-
# Texts run by run

A text falls into runs of white space and words in turn.  Decoding it replaces every encoded word by
the text that it stands for, and drops the white space that has an encoded word on both sides; every
other run is left as it is.

Key constructions:
* `EncodedWord.AreRuns`: the runs of a text.
* `EncodedWord.shown`: what becomes of a run between its neighbours.
* `EncodedWord.decodeText_eq_shown`: a decoded text, run by run.
-/
import ImapMessage.Proofs.EncodedWord.Written

namespace ImapMessage

namespace EncodedWord

/-! ## The runs of a text -/

/-- The runs of a text: each is all white space or all not, and ends where white space begins or
ends. -/
inductive AreRuns : List Char → List (List Char) → Prop where
  | nil : AreRuns [] []
  | cons {space : Bool} {r t : List Char} {rs : List (List Char)} (hne : r ≠ [])
      (hr : ∀ c ∈ r, Ascii.isSpaceChar c = space)
      (ht : ∀ c ∈ t.head?, Ascii.isSpaceChar c = !space) (h : AreRuns t rs) :
      AreRuns (r ++ t) (r :: rs)

/-- Every text falls into runs. -/
theorem exists_areRuns (s : List Char) : ∃ rs, AreRuns s rs := by
  have hone : ∀ c : Char, ∀ c' ∈ [c], Ascii.isSpaceChar c' = Ascii.isSpaceChar c := by
    intro c c' hc'
    rw [List.mem_singleton.mp hc']
  induction s with
  | nil => exact ⟨[], .nil⟩
  | cons c s ih =>
    obtain ⟨rs, h⟩ := ih
    cases h with
    | nil => exact ⟨[[c]], .cons (t := []) (List.cons_ne_nil _ _) (hone c) (by simp) .nil⟩
    | @cons space r t rs hne hr ht h =>
      by_cases hc : Ascii.isSpaceChar c = space
      · -- The character goes on with the run.
        exact ⟨(c :: r) :: rs, .cons (List.cons_ne_nil _ _) (List.forall_mem_cons.mpr ⟨hc, hr⟩) ht h⟩
      · refine ⟨[c] :: r :: rs, .cons (List.cons_ne_nil _ _) (hone c) ?_ (.cons hne hr ht h)⟩
        intro c' hc'
        rw [head_run hne hr t c' hc', Bool.eq_not]
        exact Ne.symm hc

/-- A text falls into runs in one way, and this is found. -/
theorem areRuns_iff {s : List Char} {rs : List (List Char)} : AreRuns s rs ↔ rs = runs s := by
  have hunique : ∀ {rs}, AreRuns s rs → rs = runs s := by
    intro rs h
    induction h with
    | nil => rfl
    | cons hne hr ht _ ih => rw [runs_append hne hr ht, ih]
  refine ⟨hunique, ?_⟩
  rintro rfl
  obtain ⟨rs, h⟩ := exists_areRuns s
  exact hunique h ▸ h

/-- No run is left out. -/
theorem AreRuns.flatten {s : List Char} {rs : List (List Char)} (h : AreRuns s rs) :
    rs.flatten = s := by
  induction h with
  | nil => rfl
  | cons _ _ _ _ ih => rw [List.flatten_cons, ih]

/-! ## A run between its neighbours -/

section

variable [FurtherCharsets]

/-- Whether a run, if there is one, is an encoded word. -/
def isEncoded (r : Option (List Char)) : Bool :=
  (r.bind decode?).isSome

theorem isEncoded_some (w : List Char) : isEncoded (some w) = (decode? w).isSome := rfl

/-- What becomes of a run: white space is dropped between encoded words, and an encoded word is
replaced by the text that it stands for. -/
def shown (before after : Option (List Char)) (r : List Char) : List Char :=
  if r.all Ascii.isSpaceChar then
    if isEncoded before && isEncoded after then [] else r
  else ((decode? r).map String.toList).getD r

/-- The run before the one with a number; `first` stands before the first one. -/
def runBefore (first : Option (List Char)) (rs : List (List Char)) : Nat → Option (List Char)
  | 0 => first
  | i + 1 => rs[i]?

/-- What becomes of some runs after another one, or none. -/
def shownFrom (before : Option (List Char)) : List (List Char) → List Char
  | [] => []
  | r :: rs => shown before rs.head? r ++ shownFrom (some r) rs

theorem shownFrom_eq_mapIdx (before : Option (List Char)) (rs : List (List Char)) :
    shownFrom before rs
      = (rs.mapIdx fun i r => shown (runBefore before rs i) rs[i + 1]? r).flatten := by
  induction rs generalizing before with
  | nil => rfl
  | cons r rs ih =>
    have hbefore : ∀ i, runBefore before (r :: rs) (i + 1) = runBefore (some r) rs i := by
      intro i
      cases i <;> rfl
    rw [shownFrom, ih, List.mapIdx_cons, List.flatten_cons, List.head?_eq_getElem?]
    simp only [hbefore, List.getElem?_cons_succ]
    rfl

/-! ## Going through the runs -/

/-- Going on from a word: the white space that waits before it is shown unless the word is the second
of two encoded words, and then the word itself. -/
theorem joinFrom_word {w : List Char} (hne : w ≠ []) (hw : ∀ c ∈ w, Ascii.isSpaceChar c = false)
    (decoded : Bool) (space : List Char) (rest : List (List Char))
    (before after : Option (List Char)) :
    joinFrom decoded space (w :: rest)
      = (if decoded && isEncoded (some w) then [] else space) ++ shown before after w
        ++ joinFrom (isEncoded (some w)) [] rest := by
  rw [shown, if_neg (not_all_isSpaceChar hne hw), isEncoded_some]
  cases hdecode : decode? w with
  | some text =>
    rw [joinFrom_decoded hne hw hdecode, Option.isSome_some, Bool.and_true]
    rfl
  | none =>
    rw [joinFrom_undecoded hne hw hdecode, Option.isSome_none, Bool.and_false,
      if_neg Bool.false_ne_true]
    rfl

/-- Going through the runs shows each between its neighbours: before white space it is enough to know
whether the run before it is an encoded word, and before a word the white space that stands there
waits for it. -/
theorem joinFrom_eq_shownFrom {s : List Char} {rs : List (List Char)} (h : AreRuns s rs) :
    ((∀ c ∈ s.head?, Ascii.isSpaceChar c = true) →
        ∀ before, joinFrom (isEncoded before) [] rs = shownFrom before rs)
      ∧ ((∀ c ∈ s.head?, Ascii.isSpaceChar c = false) →
        ∀ decoded space before, joinFrom decoded space rs
          = (if decoded && isEncoded rs.head? then [] else space) ++ shownFrom before rs) := by
  induction h with
  | nil =>
    refine ⟨fun _ before => rfl, fun _ decoded space before => ?_⟩
    rw [joinFrom, shownFrom, List.append_nil, List.head?_nil, isEncoded, Option.bind_none,
      Option.isSome_none, Bool.and_false, if_neg Bool.false_ne_true]
  | @cons space r t rs hne hr ht _ ih =>
    obtain ⟨c, hhead⟩ : ∃ c, c ∈ (r ++ t).head? :=
      Option.isSome_iff_exists.mp (List.isSome_head?.mpr (List.append_ne_nil_of_left_ne_nil hne t))
    have hkind := head_run hne hr t c hhead
    cases space with
    | true =>
      refine ⟨fun _ before => ?_, fun hword => absurd (hword c hhead) (by simp [hkind])⟩
      rw [joinFrom_space hr, ih.2 ht _ r (some r), shownFrom, shown,
        if_pos (List.all_eq_true.mpr hr)]
    | false =>
      refine ⟨fun hspace => absurd (hspace c hhead) (by simp [hkind]), fun _ decoded space before => ?_⟩
      rw [joinFrom_word hne hr decoded space rs before rs.head?, ih.1 ht (some r), shownFrom,
        List.head?_cons, List.append_assoc]

/-- The decoded text of some runs. -/
theorem joinFrom_runs {s : List Char} {rs : List (List Char)} (h : AreRuns s rs) :
    joinFrom false [] rs = shownFrom none rs := by
  cases h with
  | nil => rfl
  | @cons space r t rs hne hr ht h =>
    have hhead := head_run hne hr t
    have hboth := joinFrom_eq_shownFrom (AreRuns.cons hne hr ht h)
    cases space with
    | true => exact hboth.1 hhead none
    | false => exact hboth.2 hhead false [] none

/-! ## Texts without encoded words -/

/-- An encoded word begins with an equals sign and a question mark. -/
theorem prefix_of_decode? {w : List Char} {text : String} (h : decode? w = some text) :
    ['=', '?'] <+: w := by
  rw [decode?, Option.bind_eq_bind, Option.bind_eq_some_iff] at h
  obtain ⟨fields, hfields, -⟩ := h
  unfold parse? at hfields
  split at hfields
  · exact List.prefix_append ['=', '?'] _
  · cases hfields

/-- Runs without encoded words are left as they are. -/
theorem shownFrom_of_forall {rs : List (List Char)} (h : ∀ r ∈ rs, decode? r = none)
    (before : Option (List Char)) : shownFrom before rs = rs.flatten := by
  induction rs generalizing before with
  | nil => rfl
  | cons r rs ih =>
    obtain ⟨hr, hrs⟩ := List.forall_mem_cons.mp h
    have hafter : isEncoded rs.head? = false := by
      rw [isEncoded, Option.isSome_eq_false_iff, Option.isNone_iff_eq_none, Option.bind_eq_none_iff]
      exact fun r' hr' => hrs r' (List.mem_of_mem_head? hr')
    have hshown : shown before rs.head? r = r := by
      rw [shown, hafter, Bool.and_false, if_neg Bool.false_ne_true, hr]
      exact ite_self r
    rw [shownFrom, hshown, ih hrs, List.flatten_cons]

/-- **Decoding a text changes its encoded words and the white space between them, and nothing
else.**  A text falls into runs of white space and words in one way.  The decoded text is, run by run,
the text that a word stands for if it is an encoded word, nothing for white space with an encoded word
on both sides, and otherwise the run itself.  So a text without an equals sign before a question mark
is left as it is. -/
theorem decodeText_eq_shown (text : String) :
    (∃! rs, AreRuns text.toList rs)
      ∧ (∀ rs, AreRuns text.toList rs → (decodeText text).toList
        = (rs.mapIdx fun i r => shown (runBefore none rs i) rs[i + 1]? r).flatten)
      ∧ (¬['=', '?'] <:+: text.toList → decodeText text = text) := by
  have hshown : ∀ rs, AreRuns text.toList rs → (decodeText text).toList = shownFrom none rs := by
    intro rs hrs
    rw [← joinFrom_runs hrs, areRuns_iff.mp hrs, decodeText, String.toList_ofList]
  refine ⟨⟨_, areRuns_iff.mpr rfl, fun _ => areRuns_iff.mp⟩, fun rs hrs => ?_, fun hfree => ?_⟩
  · rw [hshown rs hrs, shownFrom_eq_mapIdx]
  · obtain ⟨rs, hrs⟩ := exists_areRuns text.toList
    have hplain : ∀ r ∈ rs, decode? r = none := by
      intro r hr
      rw [← Option.not_isSome_iff_eq_none, Option.isSome_iff_exists]
      rintro ⟨text', hdecode⟩
      refine hfree ((prefix_of_decode? hdecode).isInfix.trans ?_)
      rw [← hrs.flatten]
      exact List.infix_of_mem_flatten hr
    rw [← String.toList_inj, hshown rs hrs, shownFrom_of_forall hplain, hrs.flatten]

end

/-- A text with white space of all kinds: around encoded words, between them, and between words that
are none, one of them in an unknown encoding and one in brackets. -/
def mixed : String :=
  " =?utf-8?q?a?=\t=?utf-8?b?w6k=?=  =?utf-8?x?a?= (=?) "

/-- The runs of `mixed`. -/
def mixedRuns : List (List Char) :=
  [[' '], "=?utf-8?q?a?=".toList, ['\t'], "=?utf-8?b?w6k=?=".toList, [' ', ' '],
    "=?utf-8?x?a?=".toList, [' '], "(=?)".toList, [' ']]

/-- Only the white space between two encoded words is dropped; and a text without an equals sign
before a question mark is left as it is. -/
theorem decodeText_eq_shown_mixed :
    AreRuns mixed.toList mixedRuns ∧ (decodeText mixed).toList = " aé  =?utf-8?x?a?= (=?) ".toList
      ∧ ¬['=', '?'] <:+: " a =  ?\t".toList ∧ decodeText " a =  ?\t" = " a =  ?\t" := by
  have hruns : AreRuns mixed.toList mixedRuns := areRuns_iff.mpr (by decide +kernel)
  have hshown : (mixedRuns.mapIdx fun i r =>
      shown (runBefore none mixedRuns i) mixedRuns[i + 1]? r).flatten
      = " aé  =?utf-8?x?a?= (=?) ".toList := by
    decide +kernel
  have hfree : ¬['=', '?'] <:+: " a =  ?\t".toList := by decide +kernel
  exact ⟨hruns, ((decodeText_eq_shown mixed).2.1 mixedRuns hruns).trans hshown, hfree,
    (decodeText_eq_shown " a =  ?\t").2.2 hfree⟩

end EncodedWord

end ImapMessage
