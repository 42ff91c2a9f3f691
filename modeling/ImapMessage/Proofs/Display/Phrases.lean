/-
# Display names as running text

A display name is put together word by word, and a value without further structure is taken apart
into words and white space.  Where nothing but single spaces stands between the words, both show the
same: encoded words are decoded, and the space between two of them is dropped.

Key constructions:
* `Display.IsShown`: words that are shown in both ways alike.
* `Display.phraseFrom_word`: what a word adds to a display name.
* `Display.phrase_eq_decodeText`: a display name as running text.
-/
import ImapMessage.Display
import ImapMessage.Proofs.EncodedWord.Runs

namespace ImapMessage

namespace Display

open EncodedWord (isEncoded joinFrom runs shown)

/-- Words with single spaces between them. -/
def joined (words : List String) : List Char :=
  [' '].intercalate (words.map String.toList)

theorem joined_singleton (word : String) : joined [word] = word.toList :=
  List.intercalate_singleton

theorem joined_cons_cons (word next : String) (words : List String) :
    joined (word :: next :: words) = word.toList ++ ([' '] ++ joined (next :: words)) := by
  rw [joined, List.map_cons, List.map_cons, List.intercalate_cons_cons, List.append_assoc]
  rfl

section

variable [FurtherCharsets] {word : String} {words : List String}

/-- A word without white space that shows something, and is no bare dot. -/
structure IsShown (word : String) : Prop where
  /-- It is not empty. -/
  ne_empty : word ≠ ""
  /-- There is no white space in it. -/
  not_space : ∀ c ∈ word.toList, Ascii.isSpaceChar c = false
  /-- It is not a dot, before which there is no space in a display name. -/
  ne_dot : word ≠ "."
  /-- If it is an encoded word, it stands for some text. -/
  decode_ne : EncodedWord.decode? word.toList ≠ some ""

theorem IsShown.toList_ne_nil (h : IsShown word) : word.toList ≠ [] := fun hnil =>
  h.ne_empty (String.toList_eq_nil_iff.mp hnil)

/-- What is joined begins with a word. -/
theorem head_joined (h : IsShown word) (words : List String) :
    ∀ c ∈ (joined (word :: words)).head?, Ascii.isSpaceChar c = false := by
  cases words with
  | nil =>
    rw [joined_singleton]
    exact fun c hc => h.not_space c (List.mem_of_mem_head? hc)
  | cons next words =>
    rw [joined_cons_cons]
    exact EncodedWord.head_run h.toList_ne_nil h.not_space _

/-- The runs of joined words are the words and the spaces between them. -/
theorem runs_joined_cons_cons {next : String} (hword : IsShown word) (hnext : IsShown next)
    (words : List String) :
    runs (joined (word :: next :: words))
      = word.toList :: [' '] :: runs (joined (next :: words)) := by
  have hspace : ∀ c ∈ [' '], Ascii.isSpaceChar c = true := by decide
  have hhead := EncodedWord.head_run (List.cons_ne_nil _ _) hspace (joined (next :: words))
  rw [joined_cons_cons, EncodedWord.runs_append hword.toList_ne_nil hword.not_space hhead,
    EncodedWord.runs_append (List.cons_ne_nil _ _) hspace (head_joined hnext words)]

/-- A word adds a space, unless it is the first word or the second of two encoded words, and then
what it shows. -/
theorem phraseFrom_word (h : IsShown word) (started decoded : Bool) (rest : List Bytes)
    (before after : Option (List Char)) :
    phraseFrom started decoded (Utf8.encode word :: rest)
      = (if decoded && isEncoded (some word.toList) then [] else if started then [' '] else [])
        ++ shown before after word.toList
        ++ phraseFrom true (isEncoded (some word.toList)) rest := by
  rw [phraseFrom, Utf8.decodeLossy_encode, shown,
    if_neg (EncodedWord.not_all_isSpaceChar h.toList_ne_nil h.not_space),
    EncodedWord.isEncoded_some]
  cases hdecode : EncodedWord.decode? word.toList with
  | some text =>
    have htext : text.toList.isEmpty = false := by
      rw [List.isEmpty_eq_false_iff, ne_eq, String.toList_eq_nil_iff]
      rintro rfl
      exact h.decode_ne hdecode
    dsimp only
    rw [htext]
    cases started <;> cases decoded <;> rfl
  | none =>
    have hdot : (word.toList != ['.']) = true := by
      rw [bne_iff_ne]
      intro hdot
      exact h.ne_dot (String.toList_inj.mp hdot)
    dsimp only
    rw [hdot, List.isEmpty_eq_false_iff.mpr h.toList_ne_nil]
    cases started <;> cases decoded <;> rfl

/-- Going on with a display name is going on with its words as running text, with a space before
them unless they are the first ones. -/
theorem phraseFrom_eq_joinFrom (h : ∀ w ∈ words, IsShown w) (hne : words ≠ [])
    (started decoded : Bool) :
    phraseFrom started decoded (words.map Utf8.encode)
      = joinFrom decoded (if started then [' '] else []) (runs (joined words)) := by
  induction words generalizing started decoded with
  | nil => exact absurd rfl hne
  | cons word words ih =>
    obtain ⟨hword, hwords⟩ := List.forall_mem_cons.mp h
    have hlist := hword.toList_ne_nil
    rw [List.map_cons, phraseFrom_word hword started decoded _ none none]
    cases words with
    | nil =>
      rw [joined_singleton, EncodedWord.runs_eq_singleton hlist hword.not_space,
        EncodedWord.joinFrom_word hlist hword.not_space decoded _ [] none none]
      rfl
    | cons next words =>
      have hspace : ∀ c ∈ [' '], Ascii.isSpaceChar c = true := by decide
      rw [runs_joined_cons_cons hword (hwords next List.mem_cons_self) words,
        EncodedWord.joinFrom_word hlist hword.not_space decoded _ _ none none,
        EncodedWord.joinFrom_space hspace, ih hwords (List.cons_ne_nil _ _)]
      rfl

/-- **A display name shows what its words show as running text.**  For words that show something,
are no bare dots and have no white space in them, the display name is the text in which they stand
with single spaces between them, with its encoded words decoded. -/
theorem phrase_eq_decodeText (words : List String) (h : ∀ w ∈ words, IsShown w) :
    phrase (words.map Utf8.encode) = EncodedWord.decodeText (" ".intercalate words) := by
  have htext : (" ".intercalate words).toList = joined words := String.toList_intercalate
  rw [phrase, EncodedWord.decodeText, htext]
  cases words with
  | nil => rfl
  | cons word words => rw [phraseFrom_eq_joinFrom h (List.cons_ne_nil _ _)]; rfl

end

/-- A name of five words: two encoded words with a plain one between them, another encoded word that
stands for a space, and a plain word at the end. -/
def sampleName : List String :=
  ["=?utf-8?q?J=C3=B6rg?=", "M", "=?utf-8?b?w7w=?=", "=?utf-8?q?_?=", "Q."]

/-- Of the spaces in `sampleName` the one between two encoded words is dropped, and the one that is
written in a word stays. -/
theorem phrase_eq_decodeText_sampleName :
    (∀ w ∈ sampleName, IsShown w) ∧ phrase (sampleName.map Utf8.encode) = "Jörg M ü  Q."
      ∧ phrase (sampleName.map Utf8.encode)
        = EncodedWord.decodeText "=?utf-8?q?J=C3=B6rg?= M =?utf-8?b?w7w=?= =?utf-8?q?_?= Q." := by
  have hshown : ∀ w ∈ sampleName, IsShown w := by
    have hall : ∀ w ∈ sampleName, w ≠ "" ∧ (∀ c ∈ w.toList, Ascii.isSpaceChar c = false) ∧ w ≠ "."
        ∧ EncodedWord.decode? w.toList ≠ some "" := by
      decide +kernel
    intro w hw
    obtain ⟨hne, hspace, hdot, hdecode⟩ := hall w hw
    exact ⟨hne, hspace, hdot, hdecode⟩
  exact ⟨hshown, by decide +kernel, phrase_eq_decodeText sampleName hshown⟩

end Display

end ImapMessage
