/-
# Encoded words as they are written

A text is written as an encoded word in UTF-8, in base64 or with escapes, and several texts as words
with white space between them.  Every word is read back as its text, and the words together as all
the texts one after another.

Key constructions:
* `EncodedWord.IsUtf8Label`, `EncodedWord.Quotes`: the fields of a word.
* `EncodedWord.Writes`: a text as an encoded word.
* `EncodedWord.decode?_writes`: a written word is read back.
* `EncodedWord.Separated`: words with white space between them.
* `EncodedWord.decodeText_separated`: written words are read back one after another.
-/
import ImapMessage.EncodedWord
import ImapMessage.Proofs.Text.Ascii
import ImapMessage.Proofs.Text.Base64Canonical
import ImapMessage.Proofs.Text.Utf8Canonical
import Mathlib.Data.List.Forall2
import Mathlib.Data.List.SplitBy

namespace ImapMessage

/-! ## Charsets -/

namespace Charset

section

variable [FurtherCharsets]

/-- A listed label without white space has its charset in any letter case. -/
theorem ofLabel?_of_lowerName {label name : String} (h : Ascii.lowerName label = name)
    (hname : (name.toList.all fun c => !Ascii.isSpaceChar c) = true) {charset : Charset}
    (hlisted : ofListed? name = some charset) : ofLabel? label = some charset := by
  have hlabel : ∀ c ∈ label.toList, ¬Ascii.isSpaceChar c = true := by
    intro c hc hspace
    have hlower : c.toLower = c := by
      simp only [Ascii.isSpaceChar, Bool.or_eq_true, beq_iff_eq] at hspace
      rcases hspace with (((rfl | rfl) | rfl) | rfl) | rfl <;> rfl
    have hmem : c.toLower ∈ name.toList := by
      rw [← h, Ascii.lowerName, String.toList_ofList]
      exact List.mem_map_of_mem hc
    have hnot := List.all_eq_true.mp hname c (hlower ▸ hmem)
    rw [hspace] at hnot
    cases hnot
  have hdrop : ∀ cs : List Char, (∀ c ∈ cs, ¬Ascii.isSpaceChar c = true) →
      cs.dropWhile Ascii.isSpaceChar = cs := by
    intro cs hcs
    cases cs with
    | nil => rfl
    | cons c cs => exact List.dropWhile_cons_of_neg (hcs c List.mem_cons_self)
  have htrim : trimLabel label = label := by
    rw [trimLabel, hdrop _ hlabel, hdrop _ fun c hc => hlabel c (List.mem_reverse.mp hc),
      List.reverse_reverse, String.ofList_toList]
  rw [ofLabel?, htrim, h, hlisted]
  rfl

/-- UTF-8 is read back unless the text begins with the byte order mark. -/
theorem decodeUnmarked_utf8 {s : String} (h : s.toList.head? ≠ some '\uFEFF') :
    Charset.utf8.decodeUnmarked (Utf8.encode s) = s := by
  have hmark : ¬Charset.utf8.mark.isPrefixOf (Utf8.encode s) = true := by
    rw [List.isPrefixOf_iff_prefix]
    rintro ⟨rest, hrest⟩
    obtain ⟨b, t, hb, hread⟩ := Utf8.next_encodeChar '\uFEFF' rest
    have hbytes : Utf8.encode s = b :: (t ++ rest) := by
      rw [← hrest, ← List.cons_append, ← hb]
      rfl
    have hscan := Utf8.scan_encode s
    rw [hbytes, Utf8.scan_cons, hread] at hscan
    refine h ?_
    cases hs : s.toList with
    | nil =>
      rw [hs] at hscan
      cases hscan
    | cons c cs =>
      rw [hs, List.map_cons, List.cons.injEq] at hscan
      exact hscan.1.symm
  rw [decodeUnmarked, if_neg hmark]
  exact Utf8.decodeLossy_encode s

end

end Charset

namespace EncodedWord

/-! ## The fields of a word -/

/-- Bytes that may stand in a field. -/
def isFieldByte (b : UInt8) : Bool :=
  33 ≤ b && b ≤ 126 && b != '?'.toUInt8

/-- The characters of ASCII bytes. -/
def charsOf (s : Bytes) : List Char :=
  s.map fun b => Char.ofNat b.toNat

theorem map_toUInt8_charsOf (s : Bytes) : (charsOf s).map Char.toUInt8 = s := by
  rw [charsOf, List.map_map]
  exact List.map_id'' Ascii.toUInt8_ofNat_toNat s

theorem all_isFieldChar_charsOf {s : Bytes} (h : ∀ b ∈ s, isFieldByte b = true) :
    (charsOf s).all isFieldChar = true := by
  have hall : ∀ n < 256, isFieldByte n.toUInt8 = true → isFieldChar (Char.ofNat n) = true := by
    decide +kernel
  rw [List.all_eq_true]
  intro c hc
  obtain ⟨b, hb, rfl⟩ := List.mem_map.mp hc
  refine hall b.toNat b.toNat_lt ?_
  rw [show b.toNat.toUInt8 = b from UInt8.ofNat_toNat]
  exact h b hb

theorem isFieldChar_iff {c : Char} :
    isFieldChar c = true ↔ (33 ≤ c.toNat ∧ c.toNat ≤ 126) ∧ c ≠ '?' := by
  simp only [isFieldChar, Bool.and_eq_true, decide_eq_true_eq, bne_iff_ne]

theorem ne_of_isFieldChar {c : Char} (h : isFieldChar c = true) : c ≠ '?' :=
  (isFieldChar_iff.mp h).2

/-- UTF-8 in any letter case, and perhaps a language after an asterisk. -/
def IsUtf8Label (charset : List Char) : Prop :=
  ∃ name language, Ascii.lowerName (String.ofList name) = "utf-8"
    ∧ (language = [] ∨ ∃ tag, (∀ c ∈ tag, c.isAlphanum = true) ∧ language = '*' :: tag)
    ∧ charset = name ++ language

/-- The characters of a label of UTF-8. -/
theorem of_toLower_mem {c : Char} (h : c.toLower ∈ "utf-8".toList) :
    isFieldChar c = true ∧ c ≠ '*' := by
  rcases Ascii.toLower_eq_self_or c with hc | ⟨hlow, hhigh⟩
  · rw [hc] at h
    have hall : ∀ c ∈ "utf-8".toList, (isFieldChar c && c != '*') = true :=
      List.all_eq_true.mp (by decide)
    rw [← bne_iff_ne, ← Bool.and_eq_true]
    exact hall c h
  · refine ⟨isFieldChar_iff.mpr ⟨by omega, ?_⟩, ?_⟩
    · rintro rfl
      exact absurd hlow (by decide)
    · rintro rfl
      exact absurd hlow (by decide)

theorem IsUtf8Label.isFieldChar {charset : List Char} (h : IsUtf8Label charset) :
    charset.all isFieldChar = true := by
  obtain ⟨name, language, hname, hlanguage, rfl⟩ := h
  rw [List.all_append, Bool.and_eq_true, List.all_eq_true, List.all_eq_true]
  constructor
  · intro c hc
    refine (of_toLower_mem ?_).1
    rw [← hname, Ascii.lowerName, String.toList_ofList, String.toList_ofList]
    exact List.mem_map_of_mem hc
  · rcases hlanguage with rfl | ⟨tag, htag, rfl⟩
    · exact List.forall_mem_nil _
    · refine List.forall_mem_cons.mpr ⟨by decide, fun c hc => ?_⟩
      have halnum := (Ascii.isAlphanum_iff c).mp (htag c hc)
      refine isFieldChar_iff.mpr ⟨by omega, ?_⟩
      rintro rfl
      exact absurd (htag _ hc) (by decide)

theorem IsUtf8Label.charset?_eq [FurtherCharsets] {charset : List Char} (h : IsUtf8Label charset) :
    charset? charset = some .utf8 := by
  obtain ⟨name, language, hname, hlanguage, rfl⟩ := h
  have hpos : ∀ c ∈ name, (c != '*') = true := by
    intro c hc
    refine bne_iff_ne.mpr (of_toLower_mem ?_).2
    rw [← hname, Ascii.lowerName, String.toList_ofList, String.toList_ofList]
    exact List.mem_map_of_mem hc
  have hend : language.takeWhile (· != '*') = [] := by
    rcases hlanguage with rfl | ⟨tag, -, rfl⟩
    · rfl
    · exact List.takeWhile_cons_of_neg (by decide)
  rw [charset?, List.takeWhile_append_of_pos hpos, hend, List.append_nil]
  exact Charset.ofLabel?_of_lowerName hname (by decide) (by decide +kernel)

/-! ## Bytes with escapes -/

/-- Bytes that may stand for themselves: printable ASCII without the space, the question mark, the
equals sign and the underscore. -/
def isLiteral (b : UInt8) : Bool :=
  isFieldByte b && b != '='.toUInt8 && b != '_'.toUInt8

/-- Bytes with escapes: a byte stands for itself, an underscore for a space, and an equals sign and
two hexadecimal digits for any byte. -/
inductive Quotes : Bytes → Bytes → Prop where
  | nil : Quotes [] []
  | literal {b : UInt8} {v s : Bytes} (hb : isLiteral b = true) (h : Quotes v s) :
      Quotes (b :: v) (b :: s)
  | space {v s : Bytes} (h : Quotes v s) : Quotes (Ascii.sp :: v) ('_'.toUInt8 :: s)
  | escape {b c d : UInt8} {v s : Bytes} (hcd : Ascii.IsHexPair b c d) (h : Quotes v s) :
      Quotes (b :: v) ('='.toUInt8 :: c :: d :: s)

theorem unquote_plain {b : UInt8} (hb : b ≠ '='.toUInt8) (s : Bytes) :
    unquote (b :: s) = plainByte b :: unquote s := by
  match s with
  | [] => rfl
  | [c] => rfl
  | c :: d :: rest => rw [unquote, if_neg hb]

theorem unquote_escape {b c d : UInt8} (h : Ascii.hexByte c d = some b) (s : Bytes) :
    unquote ('='.toUInt8 :: c :: d :: s) = b :: unquote s := by
  rw [unquote, if_pos rfl, h]

/-- Escapes are undone. -/
theorem Quotes.unquote_eq {v s : Bytes} (h : Quotes v s) : unquote s = v := by
  induction h with
  | nil => rfl
  | literal hb _ ih =>
    simp only [isLiteral, Bool.and_eq_true, bne_iff_ne] at hb
    rw [unquote_plain hb.1.2, plainByte, if_neg hb.2, ih]
  | space _ ih => rw [unquote_plain (by decide), plainByte, if_pos rfl, ih]
  | escape hcd _ ih => rw [unquote_escape (Ascii.hexByte_eq_some_iff.mpr hcd), ih]

theorem isFieldByte_hexDigit {upper : Bool} {n : Nat} (hn : n < 16) :
    isFieldByte (Ascii.hexDigit upper n) = true := by
  have hall : ∀ upper, ∀ n < 16, isFieldByte (Ascii.hexDigit upper n) = true := by decide
  exact hall upper n hn

theorem Quotes.isFieldByte {v s : Bytes} (h : Quotes v s) : ∀ b ∈ s, isFieldByte b = true := by
  induction h with
  | nil => exact List.forall_mem_nil _
  | literal hb _ ih =>
    rw [isLiteral, Bool.and_eq_true, Bool.and_eq_true] at hb
    exact List.forall_mem_cons.mpr ⟨hb.1.1, ih⟩
  | space _ ih => exact List.forall_mem_cons.mpr ⟨by decide, ih⟩
  | @escape b _ _ _ _ hcd _ ih =>
    obtain ⟨⟨_, rfl⟩, _, rfl⟩ := hcd
    have hb := b.toNat_lt
    exact List.forall_mem_cons.mpr ⟨by decide, List.forall_mem_cons.mpr
      ⟨isFieldByte_hexDigit (by omega), List.forall_mem_cons.mpr
        ⟨isFieldByte_hexDigit (by omega), ih⟩⟩⟩

theorem isFieldByte_of_writes {v s : Bytes} (h : Base64.Writes Base64.standard v s) :
    ∀ b ∈ s, isFieldByte b = true := by
  obtain ⟨n, -, rfl⟩ := h
  intro b hb
  rcases List.mem_append.mp hb with hb | hb
  · obtain ⟨m, hm, rfl⟩ := List.mem_map.mp hb
    have hdigit : ∀ m < 64, isFieldByte (Base64.standard.digit m) = true := by decide
    exact hdigit m (Base64.lt_of_mem_sextets v m hm)
  · rw [List.eq_of_mem_replicate hb]
    decide

/-! ## Words -/

/-- A word of the given fields. -/
def ofFields (f : Fields) : List Char :=
  ['=', '?'] ++ f.charset ++ ['?'] ++ f.encoding ++ ['?'] ++ f.content ++ ['?', '=']

/-- A word is divided into its fields. -/
theorem parse?_ofFields {f : Fields} (hcharset : f.charset.all isFieldChar = true)
    (hencoding : f.encoding.all isFieldChar = true) (hcontent : f.content.all isFieldChar = true) :
    parse? (ofFields f) = some f := by
  have hfree : ∀ cs : List Char, cs.all isFieldChar = true → '?' ∉ cs :=
    fun cs hcs hmem => ne_of_isFieldChar (List.all_eq_true.mp hcs _ hmem) rfl
  have hword : ofFields f
      = '=' :: '?' :: ['?'].intercalate [f.charset, f.encoding, f.content, ['=']] := by
    simp [ofFields, List.intercalate]
  have hsplit : (['?'].intercalate [f.charset, f.encoding, f.content, ['=']]).splitOn '?'
      = [f.charset, f.encoding, f.content, ['=']] := by
    refine List.splitOn_intercalate '?' ?_ (List.cons_ne_nil _ _)
    simp only [List.forall_mem_cons]
    exact ⟨hfree _ hcharset, hfree _ hencoding, hfree _ hcontent, by decide, List.forall_mem_nil _⟩
  rw [hword, parse?, hsplit]
  simp only [hcharset, hencoding, hcontent, Bool.and_self, if_true]

/-- Bytes are written in the encoding of a letter, which may be in either case. -/
inductive WritesContent (raw : Bytes) : Char → Bytes → Prop where
  | base64 {letter : Char} {content : Bytes} (hletter : letter = 'b' ∨ letter = 'B')
      (hcontent : Base64.Writes Base64.standard raw content) : WritesContent raw letter content
  | quoted {letter : Char} {content : Bytes} (hletter : letter = 'q' ∨ letter = 'Q')
      (hcontent : Quotes raw content) : WritesContent raw letter content

theorem WritesContent.isFieldChar {raw content : Bytes} {letter : Char}
    (h : WritesContent raw letter content) :
    [letter].all isFieldChar = true ∧ (charsOf content).all isFieldChar = true := by
  cases h with
  | base64 hletter hcontent =>
    refine ⟨?_, all_isFieldChar_charsOf (isFieldByte_of_writes hcontent)⟩
    rcases hletter with rfl | rfl <;> rfl
  | quoted hletter hcontent =>
    refine ⟨?_, all_isFieldChar_charsOf hcontent.isFieldByte⟩
    rcases hletter with rfl | rfl <;> rfl

/-- Written bytes are read back. -/
theorem WritesContent.bytes?_eq {raw content : Bytes} {letter : Char}
    (h : WritesContent raw letter content) : bytes? [letter] (charsOf content) = some raw := by
  have hraw := map_toUInt8_charsOf content
  cases h with
  | base64 hletter hcontent =>
    have hdecode := (Base64.decode_eq_some_iff_writes Base64.standard_isProper).mpr hcontent
    rcases hletter with rfl | rfl <;> simpa only [bytes?, hraw] using hdecode
  | quoted hletter hcontent =>
    have hunquote := hcontent.unquote_eq
    rcases hletter with rfl | rfl <;> simp only [bytes?, hraw, hunquote]

/-- A text is written as an encoded word in UTF-8. -/
def Writes (text : String) (word : List Char) : Prop :=
  ∃ charset letter content, IsUtf8Label charset ∧ WritesContent (Utf8.encode text) letter content
    ∧ word = ofFields ⟨charset, [letter], charsOf content⟩

/-- A written word is read back. -/
theorem decode?_writes [FurtherCharsets] {text : String} {word : List Char} (h : Writes text word)
    (hmark : text.toList.head? ≠ some '\uFEFF') : decode? word = some text := by
  obtain ⟨charset, letter, content, hcharset, hcontent, rfl⟩ := h
  have hparse := parse?_ofFields (f := ⟨charset, [letter], charsOf content⟩) hcharset.isFieldChar
    hcontent.isFieldChar.1 hcontent.isFieldChar.2
  rw [decode?, hparse]
  simp only [Option.bind_eq_bind, Option.bind_some, Option.pure_def, hcontent.bytes?_eq,
    hcharset.charset?_eq, Charset.decodeUnmarked_utf8 hmark]

/-- A written word is not empty, and there is no white space in it. -/
theorem Writes.isWord {text : String} {word : List Char} (h : Writes text word) :
    word ≠ [] ∧ ∀ c ∈ word, Ascii.isSpaceChar c = false := by
  have hchar : ∀ c, isFieldChar c = true ∨ c = '?' → Ascii.isSpaceChar c = false := by
    intro c hc
    rw [← Bool.not_eq_true]
    intro hspace
    simp only [Ascii.isSpaceChar, Bool.or_eq_true, beq_iff_eq] at hspace
    rcases hspace with (((rfl | rfl) | rfl) | rfl) | rfl <;> exact absurd hc (by decide)
  obtain ⟨charset, letter, content, hlabel, hwritten, rfl⟩ := h
  have hcharset := List.all_eq_true.mp hlabel.isFieldChar
  have hencoding := List.all_eq_true.mp hwritten.isFieldChar.1
  have hcontent := List.all_eq_true.mp hwritten.isFieldChar.2
  refine ⟨List.cons_ne_nil _ _, fun c hc => hchar c ?_⟩
  simp only [ofFields, List.mem_append, List.mem_cons, List.not_mem_nil, or_false] at hc hencoding
  rcases hc with ((((((rfl | rfl) | hc) | rfl) | hc) | rfl) | hc) | rfl | rfl
  · exact .inl (by decide)
  · exact .inr rfl
  · exact .inl (hcharset c hc)
  · exact .inr rfl
  · exact .inl (hencoding c hc)
  · exact .inr rfl
  · exact .inl (hcontent c hc)
  · exact .inr rfl
  · exact .inl (by decide)

/-! ## Runs -/

section

variable {b : Bool} {w t : List Char}

/-- Characters that are all white space or all not are one run. -/
theorem runs_eq_singleton (hne : w ≠ []) (hw : ∀ c ∈ w, Ascii.isSpaceChar c = b) :
    runs w = [w] := by
  apply List.splitBy_of_isChain hne
  rw [List.isChain_iff_getElem]
  intro i hi
  rw [hw _ (List.getElem_mem _), hw _ (List.getElem_mem _), beq_self_eq_true]

/-- What begins with a run begins like the run. -/
theorem head_run (hne : w ≠ []) (hw : ∀ c ∈ w, Ascii.isSpaceChar c = b) (t : List Char) :
    ∀ c ∈ (w ++ t).head?, Ascii.isSpaceChar c = b := by
  intro c hc
  rw [List.head?_append_of_ne_nil _ hne] at hc
  exact hw c (List.mem_of_mem_head? hc)

/-- A run ends where white space begins or ends. -/
theorem runs_append (hne : w ≠ []) (hw : ∀ c ∈ w, Ascii.isSpaceChar c = b)
    (ht : ∀ c ∈ t.head?, Ascii.isSpaceChar c = !b) : runs (w ++ t) = w :: runs t := by
  have hsplit : runs (w ++ t) = runs w ++ runs t := by
    apply List.splitBy_append
    intro c hc d hd
    rw [hw c (List.mem_of_getLast? hc), ht d hd]
    cases b <;> rfl
  rw [hsplit, runs_eq_singleton hne hw, List.singleton_append]

theorem not_all_isSpaceChar (hne : w ≠ []) (hw : ∀ c ∈ w, Ascii.isSpaceChar c = false) :
    ¬w.all Ascii.isSpaceChar = true := by
  obtain ⟨c, cs, rfl⟩ := List.exists_cons_of_ne_nil hne
  rw [List.all_cons, hw c List.mem_cons_self]
  exact Bool.false_ne_true

variable [FurtherCharsets]

theorem joinFrom_space (hw : ∀ c ∈ w, Ascii.isSpaceChar c = true) (decoded : Bool)
    (space : List Char) (rest : List (List Char)) :
    joinFrom decoded space (w :: rest) = joinFrom decoded w rest := by
  rw [joinFrom, if_pos (List.all_eq_true.mpr hw)]

theorem joinFrom_decoded (hne : w ≠ []) (hw : ∀ c ∈ w, Ascii.isSpaceChar c = false) {text : String}
    (hdecode : decode? w = some text) (decoded : Bool) (space : List Char)
    (rest : List (List Char)) : joinFrom decoded space (w :: rest)
      = (if decoded then [] else space) ++ text.toList ++ joinFrom true [] rest := by
  rw [joinFrom, if_neg (not_all_isSpaceChar hne hw), hdecode]

theorem joinFrom_undecoded (hne : w ≠ []) (hw : ∀ c ∈ w, Ascii.isSpaceChar c = false)
    (hdecode : decode? w = none) (decoded : Bool) (space : List Char) (rest : List (List Char)) :
    joinFrom decoded space (w :: rest) = space ++ w ++ joinFrom false [] rest := by
  rw [joinFrom, if_neg (not_all_isSpaceChar hne hw), hdecode]

end

/-! ## Words with white space between them -/

/-- Words with white space between them. -/
inductive Separated : List (List Char) → List Char → Prop where
  | one (word : List Char) : Separated [word] word
  | cons {word gap : List Char} {words : List (List Char)} {s : List Char} (hne : gap ≠ [])
      (hgap : ∀ c ∈ gap, Ascii.isSpaceChar c = true) (h : Separated words s) :
      Separated (word :: words) (word ++ (gap ++ s))

section

variable [FurtherCharsets]

/-- A word without white space is decoded. -/
structure Decodes (text : String) (word : List Char) : Prop where
  /-- It is not empty. -/
  ne_nil : word ≠ []
  /-- There is no white space in it. -/
  not_space : ∀ c ∈ word, Ascii.isSpaceChar c = false
  /-- It stands for the text. -/
  decode : decode? word = some text

/-- What is written in words begins with no white space. -/
theorem Separated.head {texts : List String} {words : List (List Char)} {s : List Char}
    (h : Separated words s) (hwords : List.Forall₂ Decodes texts words) :
    ∀ c ∈ s.head?, Ascii.isSpaceChar c = false := by
  intro c hc
  cases h with
  | one =>
    cases hwords with
    | cons hword => exact hword.not_space c (List.mem_of_mem_head? hc)
  | cons =>
    cases hwords with
    | cons hword => exact head_run hword.ne_nil hword.not_space _ c hc

/-- Only the texts of decoded words are left, without the white space between the words and that
before them if it stands behind another one. -/
theorem joinFrom_separated {texts : List String} {words : List (List Char)} {s : List Char}
    (hs : Separated words s) (hwords : List.Forall₂ Decodes texts words) {decoded : Bool}
    {space : List Char} (hspace : decoded = true ∨ space = []) :
    joinFrom decoded space (runs s) = texts.flatMap String.toList := by
  have hdropped : ∀ {decoded : Bool} {space : List Char}, decoded = true ∨ space = [] →
      (if decoded then [] else space) = [] := by
    rintro decoded space (rfl | rfl)
    · rfl
    · exact ite_self []
  induction hs generalizing texts decoded space with
  | one word =>
    cases hwords with
    | cons hword hnil =>
      cases hnil
      rw [runs_eq_singleton hword.ne_nil hword.not_space,
        joinFrom_decoded hword.ne_nil hword.not_space hword.decode, hdropped hspace]
      simp [joinFrom]
  | @cons word gap words s hne hgap hs ih =>
    cases hwords with
    | cons hword hwords =>
      rw [runs_append hword.ne_nil hword.not_space (head_run hne hgap s),
        runs_append hne hgap (hs.head hwords),
        joinFrom_decoded hword.ne_nil hword.not_space hword.decode, hdropped hspace,
        joinFrom_space hgap, ih hwords (.inl rfl), List.flatMap_cons, List.nil_append]

/-- Texts that are written as encoded words with white space between them are read back, each from
its word, and one after another from all of them. -/
theorem decodeText_separated {texts : List String} {words : List (List Char)} {s : List Char}
    (hwords : List.Forall₂ Writes texts words) (hs : Separated words s)
    (hmark : ∀ text ∈ texts, text.toList.head? ≠ some '\uFEFF') :
    words.map decode? = texts.map some ∧ decodeText (String.ofList s) = String.join texts := by
  have hdecodes : List.Forall₂ Decodes texts words :=
    ((List.forall₂_and_left _ _).mpr ⟨hmark, hwords⟩).imp fun text word ⟨htext, hword⟩ =>
      ⟨hword.isWord.1, hword.isWord.2, decode?_writes hword htext⟩
  constructor
  · rw [eq_comm, ← List.forall₂_eq_eq_eq, List.forall₂_map_left_iff, List.forall₂_map_right_iff]
    exact hdecodes.imp fun text word hword => hword.decode.symm
  · rw [← String.toList_inj, decodeText, String.toList_ofList, String.toList_ofList,
      joinFrom_separated hs hdecodes (.inr rfl), String.toList_join]

end

/-- Two words of a German phrase, with a language, a folded line between them, digits in both cases
and a space at the end of the first one. -/
theorem decodeText_separated_two_words :
    List.Forall₂ Writes ["Grüße ", "é"]
        ["=?UTF-8*de?q?Gr=C3=bC=c3=9fe_?=".toList, "=?utf-8?B?w6k=?=".toList]
      ∧ decodeText "=?UTF-8*de?q?Gr=C3=bC=c3=9fe_?=\r\n =?utf-8?B?w6k=?=" = "Grüße é" := by
  have hquotes : Quotes (Utf8.encode "Grüße ") (Utf8.encode "Gr=C3=bC=c3=9fe_") :=
    .literal rfl (.literal rfl (.escape ⟨⟨true, rfl⟩, true, rfl⟩ (.escape ⟨⟨false, rfl⟩, true, rfl⟩
      (.escape ⟨⟨false, rfl⟩, true, rfl⟩ (.escape ⟨⟨true, rfl⟩, false, rfl⟩
        (.literal rfl (.space .nil)))))))
  have hbase64 : Base64.Writes Base64.standard (Utf8.encode "é") (Utf8.encode "w6k=") :=
    ⟨1, by decide, by decide +kernel⟩
  have hwords : List.Forall₂ Writes ["Grüße ", "é"]
      ["=?UTF-8*de?q?Gr=C3=bC=c3=9fe_?=".toList, "=?utf-8?B?w6k=?=".toList] :=
    .cons ⟨"UTF-8*de".toList, 'q', _,
        ⟨"UTF-8".toList, "*de".toList, by decide,
          .inr ⟨"de".toList, List.all_eq_true.mp (by decide), rfl⟩, by decide⟩,
        .quoted (.inl rfl) hquotes, by decide +kernel⟩
      (.cons ⟨"utf-8".toList, 'B', _, ⟨"utf-8".toList, [], by decide, .inl rfl, by decide⟩,
        .base64 (.inr rfl) hbase64, by decide +kernel⟩ .nil)
  have hs : Separated ["=?UTF-8*de?q?Gr=C3=bC=c3=9fe_?=".toList, "=?utf-8?B?w6k=?=".toList]
      "=?UTF-8*de?q?Gr=C3=bC=c3=9fe_?=\r\n =?utf-8?B?w6k=?=".toList :=
    .cons (show "\r\n ".toList ≠ [] by decide) (List.all_eq_true.mp (by decide)) (.one _)
  exact ⟨hwords, (decodeText_separated hwords hs (by decide)).2⟩

end EncodedWord

end ImapMessage
