/-
# Content types and dispositions as they are written

A content type is written as two tokens with a slash between them, and a disposition as one token.
Parameters follow, each with a semicolon before its name and its value in quotes, and at last there
may be one more semicolon.  Gaps stand around all tokens.  What is written is read back with all but
the values in lower case.

Key constructions:
* `Parameter.TokenForm`, `Parameter.Form`, `Parameter.Forms`: how names and parameters are written.
* `Parameter.many_forms`: parameters are read back in order, up to the end.
* `Parameter.IsFirst`: which value is found under a name.
* `ContentType.Written`, `Disposition.Written`: how whole values are written.
-/
import ImapMessage.Proofs.Field.Tokens
import ImapMessage.Proofs.Text.Ascii
import ImapMessage.Proofs.Text.Utf8Canonical

namespace ImapMessage

namespace Parameter

/-! ## Tokens -/

/-- The marks that may follow a token. -/
def marks : List Char :=
  ['/', ';', '=']

/-- A name can be written as a token. -/
def IsToken (name : String) : Prop :=
  Utf8.encode name ≠ [] ∧ ∀ b ∈ Utf8.encode name, isTokenByte b = true

/-- A name is written as a token with gaps around it. -/
def TokenForm (name : String) (s : Bytes) : Prop :=
  IsToken name ∧ ∃ g g', Comment.IsGap g ∧ Comment.IsGap g' ∧ s = g ++ (Utf8.encode name ++ g')

theorem skip_of_beginsIn {s : Bytes} (h : BeginsIn marks s) : Comment.skip s = s :=
  Comment.skip_eq_self (h.head (by decide))

theorem lowered_encode (name : String) : lowered (Utf8.encode name) = Ascii.lowerName name := by
  rw [lowered, Utf8.decodeLossy_encode]

theorem exists_tokenForm_iff {name : String} : (∃ s, TokenForm name s) ↔ IsToken name :=
  ⟨fun ⟨_, h⟩ => h.1, fun h => ⟨_, h, [], [], .nil, .nil, rfl⟩⟩

/-- A token is read up to a mark, whatever gap has been skipped before it. -/
theorem token_form {name : String} {t rest x : Bytes} (h : TokenForm name t)
    (hrest : BeginsIn marks rest) (hx : Comment.skip x = Comment.skip (t ++ rest)) :
    token x = some (Utf8.encode name, rest) := by
  obtain ⟨⟨hne, hbytes⟩, g, g', hg, hg', rfl⟩ := h
  have hend : ∀ b ∈ (g' ++ rest).head?, isTokenByte b = false :=
    hg'.head_append (by decide) (hrest.head (by decide))
  rw [List.append_assoc, List.append_assoc, Comment.skip_gap hg, skip_token hne hbytes] at hx
  rw [token, Reader.run_written hx hne hbytes hend, Comment.skip_gap hg', skip_of_beginsIn hrest]

/-! ## Parameters -/

/-- A parameter with its name in lower case. -/
def lowerCased (p : Parameter) : Parameter :=
  ⟨Ascii.lowerName p.name, p.value⟩

/-- A parameter is written with a semicolon before its name and its value in quotes. -/
def Form (p : Parameter) (s : Bytes) : Prop :=
  ∃ t g q, TokenForm p.name t ∧ Comment.IsGap g ∧ Word.QuotedForm (Utf8.encode p.value) q ∧
    s = ';'.toUInt8 :: (t ++ '='.toUInt8 :: (g ++ q))

/-- Parameters are written one after another. -/
inductive Forms : List Parameter → Bytes → Prop where
  | nil : Forms [] []
  | cons {p : Parameter} {ps : List Parameter} {s t : Bytes} (h : Form p s) (ht : Forms ps t) :
      Forms (p :: ps) (s ++ t)

/-- Nothing is left at the end, or a semicolon and a gap. -/
def IsEnding (s : Bytes) : Prop :=
  s = [] ∨ ∃ g, Comment.IsGap g ∧ s = ';'.toUInt8 :: g

theorem IsEnding.beginsIn {s : Bytes} (h : IsEnding s) : BeginsIn marks s := by
  rcases h with rfl | ⟨g, _, rfl⟩
  · exact BeginsIn.nil marks
  · exact BeginsIn.cons (by decide) g

/-- Parameters begin with a semicolon, and so does what may follow them. -/
theorem Forms.beginsIn {ps : List Parameter} {s rest : Bytes} (h : Forms ps s)
    (hrest : BeginsIn marks rest) : BeginsIn marks (s ++ rest) := by
  cases h with
  | nil => exact hrest
  | cons h _ =>
    obtain ⟨t, g, q, _, _, _, rfl⟩ := h
    exact BeginsIn.cons (by decide) _

/-- Every parameter with a token for its name can be written. -/
theorem exists_form_iff {p : Parameter} : (∃ s, Form p s) ↔ IsToken p.name := by
  constructor
  · rintro ⟨s, t, g, q, ht, _⟩
    exact ht.1
  · intro hname
    obtain ⟨t, ht⟩ := exists_tokenForm_iff.mpr hname
    obtain ⟨q, hq⟩ := Word.exists_quotedForm (Utf8.encode p.value)
    exact ⟨_, t, [], q, ht, .nil, hq, rfl⟩

theorem exists_forms_iff {ps : List Parameter} :
    (∃ s, Forms ps s) ↔ ∀ p ∈ ps, IsToken p.name := by
  constructor
  · rintro ⟨s, h⟩
    induction h with
    | nil => exact List.forall_mem_nil _
    | cons h _ ih => exact List.forall_mem_cons.mpr ⟨exists_form_iff.mp ⟨_, h⟩, ih⟩
  · intro h
    induction ps with
    | nil => exact ⟨[], .nil⟩
    | cons p ps ih =>
      obtain ⟨hp, hps⟩ := List.forall_mem_cons.mp h
      obtain ⟨s, hs⟩ := exists_form_iff.mpr hp
      obtain ⟨t, ht⟩ := ih hps
      exact ⟨s ++ t, .cons hs ht⟩

/-- A written parameter is read back, with its name in lower case. -/
theorem reader_form {p : Parameter} {s rest : Bytes} (h : Form p s) (hrest : BeginsIn marks rest) :
    reader (s ++ rest) = some (p.lowerCased, rest) := by
  obtain ⟨t, g, q, ht, hg, hq, rfl⟩ := h
  have hname : token (Comment.skip (t ++ '='.toUInt8 :: (g ++ (q ++ rest))))
      = some (Utf8.encode p.name, '='.toUInt8 :: (g ++ (q ++ rest))) :=
    token_form ht (BeginsIn.cons (by decide) _) (Comment.skip_skip _)
  have hquoted : Word.quotedString (g ++ (q ++ rest)) = some (Utf8.encode p.value, rest) := by
    refine Word.quotedString_form hq (skip_of_beginsIn hrest) _ ?_
    rw [Comment.skip_gap hg, (hq.starts.append rest).skip_eq]
  have hvalue : Reader.orElse Word.quotedString bareValue (g ++ (q ++ rest))
      = some (Utf8.encode p.value, rest) := by
    rw [Reader.orElse, hquoted]
  simp only [List.cons_append, List.append_assoc]
  rw [reader]
  simp only [Reader.byte_cons, hname, hvalue, Option.bind_eq_bind, Option.bind_some, lowered_encode,
    Utf8.decodeLossy_encode]
  rfl

/-- No parameter is read at the end. -/
theorem reader_ending {s : Bytes} (h : IsEnding s) : reader s = none := by
  rcases h with rfl | ⟨g, hg, rfl⟩
  · rfl
  · have hskip : Comment.skip g = [] := by
      rw [← List.append_nil g, Comment.skip_gap hg, Comment.skip]
    have htoken : token (Comment.skip g) = none := by
      refine Reader.run_of_head ?_
      rw [Comment.skip_skip, hskip]
      rintro _ ⟨⟩
    rw [reader]
    simp only [Reader.byte_cons, htoken, Option.bind_eq_bind, Option.bind_some, Option.bind_none]

/-- Written parameters are all read back, in order. -/
theorem many_forms {ps : List Parameter} {s e : Bytes} (h : Forms ps s) (he : IsEnding e) :
    Reader.many reader (s ++ e) = (ps.map lowerCased, e) := by
  induction h with
  | nil => exact Reader.many_of_eq_none (reader_ending he)
  | @cons p ps s t hs ht ih =>
    -- A value ends where the next semicolon stands, be it of a parameter or of the end.
    have hread := reader_form hs (ht.beginsIn he.beginsIn)
    have hlt : (t ++ e).length < (s ++ (t ++ e)).length := by
      obtain ⟨t', g, q, _, _, _, rfl⟩ := hs
      simp only [List.cons_append, List.length_cons, List.length_append]
      omega
    rw [List.append_assoc, Reader.many_of_eq_some hread hlt, ih, List.map_cons]

/-! ## Values under a name -/

/-- A value is that of the first parameter with a name, in any letter case. -/
def IsFirst (ps : List Parameter) (name value : String) : Prop :=
  ∃ before p after, ps = before ++ p :: after ∧ Ascii.sameName p.name name = true ∧
    p.value = value ∧ ∀ q ∈ before, Ascii.sameName q.name name = false

theorem lookup_eq_some_iff {ps : List Parameter} {name value : String} :
    lookup ps name = some value ↔ IsFirst ps name value := by
  simp only [lookup, Option.map_eq_some_iff, List.find?_eq_some_iff_append, Bool.not_eq_true']
  constructor
  · rintro ⟨p, ⟨hp, before, after, rfl, hbefore⟩, rfl⟩
    exact ⟨before, p, after, rfl, hp, rfl, hbefore⟩
  · rintro ⟨before, p, after, rfl, hp, rfl, hbefore⟩
    exact ⟨p, ⟨hp, before, after, rfl, hbefore⟩, rfl⟩

/-- Parameters are found alike with their names in lower case. -/
theorem lookup_map_lowerCased (ps : List Parameter) (name : String) :
    lookup (ps.map lowerCased) name = lookup ps name := by
  have hsame : (fun p => Ascii.sameName p.name name) ∘ lowerCased
      = fun p => Ascii.sameName p.name name :=
    funext fun p => Ascii.sameName_lowerName p.name name
  rw [lookup, lookup, List.find?_map, hsame, Option.map_map]
  rfl

end Parameter

/-! ## Whole values -/

namespace ContentType

/-- A content type with all but the values of parameters in lower case. -/
def lowerCased (c : ContentType) : ContentType :=
  ⟨Ascii.lowerName c.type, Ascii.lowerName c.subtype, c.parameters.map Parameter.lowerCased⟩

/-- A content type is written with a slash between its tokens, and then its parameters. -/
def Written (c : ContentType) (s : Bytes) : Prop :=
  ∃ t t' ps e, Parameter.TokenForm c.type t ∧ Parameter.TokenForm c.subtype t' ∧
    Parameter.Forms c.parameters ps ∧ Parameter.IsEnding e ∧
    s = t ++ '/'.toUInt8 :: (t' ++ (ps ++ e))

/-- The tokens of a content type are all that keeps it from being written. -/
theorem exists_written_iff {c : ContentType} : (∃ s, Written c s) ↔
    Parameter.IsToken c.type ∧ Parameter.IsToken c.subtype ∧
      ∀ p ∈ c.parameters, Parameter.IsToken p.name := by
  rw [← Parameter.exists_tokenForm_iff, ← Parameter.exists_tokenForm_iff,
    ← Parameter.exists_forms_iff]
  constructor
  · rintro ⟨s, t, t', ps, e, ht, ht', hps, _⟩
    exact ⟨⟨t, ht⟩, ⟨t', ht'⟩, ps, hps⟩
  · rintro ⟨⟨t, ht⟩, ⟨t', ht'⟩, ps, hps⟩
    exact ⟨_, t, t', ps, [], ht, ht', hps, .inl rfl, rfl⟩

theorem parse_eq_lowerCased {c : ContentType} {s : Bytes} (h : Written c s) :
    parse s = some c.lowerCased := by
  obtain ⟨t, t', ps, e, ht, ht', hps, he, rfl⟩ := h
  have htype : Parameter.token (t ++ '/'.toUInt8 :: (t' ++ (ps ++ e)))
      = some (Utf8.encode c.type, '/'.toUInt8 :: (t' ++ (ps ++ e))) :=
    Parameter.token_form ht (BeginsIn.cons (by decide) _) rfl
  have hsubtype : Parameter.token (t' ++ (ps ++ e)) = some (Utf8.encode c.subtype, ps ++ e) :=
    Parameter.token_form ht' (hps.beginsIn he.beginsIn) rfl
  rw [parse, reader]
  simp only [htype, Reader.byte_cons, hsubtype, Parameter.many_forms hps he,
    Parameter.lowered_encode, Option.bind_eq_bind, Option.bind_some]
  rfl

end ContentType

namespace Disposition

/-- A disposition with all but the values of parameters in lower case. -/
def lowerCased (d : Disposition) : Disposition :=
  ⟨Ascii.lowerName d.kind, d.parameters.map Parameter.lowerCased⟩

/-- A disposition is written as a token, and then its parameters. -/
def Written (d : Disposition) (s : Bytes) : Prop :=
  ∃ t ps e, Parameter.TokenForm d.kind t ∧ Parameter.Forms d.parameters ps ∧
    Parameter.IsEnding e ∧ s = t ++ (ps ++ e)

/-- The tokens of a disposition are all that keeps it from being written. -/
theorem exists_written_iff {d : Disposition} : (∃ s, Written d s) ↔
    Parameter.IsToken d.kind ∧ ∀ p ∈ d.parameters, Parameter.IsToken p.name := by
  rw [← Parameter.exists_tokenForm_iff, ← Parameter.exists_forms_iff]
  constructor
  · rintro ⟨s, t, ps, e, ht, hps, _⟩
    exact ⟨⟨t, ht⟩, ps, hps⟩
  · rintro ⟨⟨t, ht⟩, ps, hps⟩
    exact ⟨_, t, ps, [], ht, hps, .inl rfl, rfl⟩

theorem parse_eq_lowerCased {d : Disposition} {s : Bytes} (h : Written d s) :
    parse s = some d.lowerCased := by
  obtain ⟨t, ps, e, ht, hps, he, rfl⟩ := h
  have hkind : Parameter.token (t ++ (ps ++ e)) = some (Utf8.encode d.kind, ps ++ e) :=
    Parameter.token_form ht (hps.beginsIn he.beginsIn) rfl
  rw [parse, reader]
  simp only [hkind, Parameter.many_forms hps he, Parameter.lowered_encode, Option.bind_eq_bind,
    Option.bind_some]
  rfl

end Disposition

namespace Parameter

/-- Content types and dispositions are read back with all but the values of their parameters in
lower case, and under each name the first value is found. -/
theorem parse_and_find_written :
    (∀ c s, ContentType.Written c s →
      ContentType.parse s = some c.lowerCased ∧ ∀ name value,
        c.lowerCased.parameter? name = some value ↔ IsFirst c.parameters name value) ∧
    (∀ d s, Disposition.Written d s →
      Disposition.parse s = some d.lowerCased ∧ ∀ name value,
        d.lowerCased.parameter? name = some value ↔ IsFirst d.parameters name value) := by
  have hfind : ∀ ps name value,
      lookup (ps.map lowerCased) name = some value ↔ IsFirst ps name value := by
    intro ps name value
    rw [lookup_map_lowerCased, lookup_eq_some_iff]
  constructor
  · intro c s h
    exact ⟨ContentType.parse_eq_lowerCased h, hfind c.parameters⟩
  · intro d s h
    exact ⟨Disposition.parse_eq_lowerCased h, hfind d.parameters⟩

/-- A content type with comments, a name that is written twice and a semicolon at the end, and a
disposition on two lines. -/
theorem parse_and_find_written_commented :
    (ContentType.Written ⟨"Text", "Plain", [⟨"NAME", "a\"é\\"⟩, ⟨"name", ""⟩]⟩
        (Utf8.encode " (x(x)) Text/ Plain;NAME= \"a\\\"é\\\\\" (x(x)) ;name=\"\"; ") ∧
      ContentType.parse
          (Utf8.encode " (x(x)) Text/ Plain;NAME= \"a\\\"é\\\\\" (x(x)) ;name=\"\"; ")
        = some ⟨"text", "plain", [⟨"name", "a\"é\\"⟩, ⟨"name", ""⟩]⟩ ∧
      ContentType.parameter? ⟨"text", "plain", [⟨"name", "a\"é\\"⟩, ⟨"name", ""⟩]⟩ "Name"
        = some "a\"é\\") ∧
    (Disposition.Written ⟨"Inline", [⟨"FileName", "a b"⟩]⟩
        (Utf8.encode "Inline;\r\n FileName=\"a\\ b\"") ∧
      Disposition.parse (Utf8.encode "Inline;\r\n FileName=\"a\\ b\"")
        = some ⟨"inline", [⟨"filename", "a b"⟩]⟩) := by
  have hfold : Comment.IsGap (Utf8.encode "\r\n ") := .fold rfl (.fold rfl Comment.isGap_sp)
  have hletter : ∀ s, Comment.IsContent s → Comment.IsContent ('x'.toUInt8 :: s) := fun s hs =>
    .byte (by decide) (by decide) (by decide) hs
  have hnested : Comment.IsGap (Utf8.encode " (x(x)) ") :=
    .fold rfl (.comment (hletter _ (.comment (hletter [] .nil) .nil)) Comment.isGap_sp)
  have htoken : ∀ {name g}, Utf8.encode name ≠ [] → (Utf8.encode name).all isTokenByte = true →
      Comment.IsGap g → TokenForm name (g ++ (Utf8.encode name ++ [])) :=
    fun hne hall hg => ⟨⟨hne, List.all_eq_true.mp hall⟩, _, [], hg, .nil, rfl⟩
  have hform : ∀ {name value t g g'}, TokenForm name t → Comment.IsGap g → Comment.IsGap g' →
      Form ⟨name, value⟩ (';'.toUInt8 :: (t ++ '='.toUInt8 :: (g ++
        Word.quote :: (Word.escaped (Utf8.encode value) ++ Word.quote :: g')))) :=
    fun ht hg hg' => ⟨_, _, _, ht, hg, ⟨_, hg', rfl⟩, rfl⟩
  have htype : ContentType.Written ⟨"Text", "Plain", [⟨"NAME", "a\"é\\"⟩, ⟨"name", ""⟩]⟩
      (Utf8.encode " (x(x)) Text/ Plain;NAME= \"a\\\"é\\\\\" (x(x)) ;name=\"\"; ") := by
    exact cast (congrArg (ContentType.Written _) (by decide +kernel)) (⟨_, _, _, _,
      htoken (by decide +kernel) (by decide +kernel) hnested,
      htoken (by decide +kernel) (by decide +kernel) Comment.isGap_sp,
      .cons (hform (htoken (by decide +kernel) (by decide +kernel) .nil) Comment.isGap_sp hnested)
        (.cons (hform (htoken (by decide +kernel) (by decide +kernel) .nil) .nil .nil) .nil),
      .inr ⟨_, Comment.isGap_sp, rfl⟩, rfl⟩ : ContentType.Written _ _)
  have hkind : Disposition.Written ⟨"Inline", [⟨"FileName", "a b"⟩]⟩
      (Utf8.encode "Inline;\r\n FileName=\"a\\ b\"") := by
    exact cast (congrArg (Disposition.Written _) (by decide +kernel)) (⟨_, _, _,
      htoken (by decide +kernel) (by decide +kernel) .nil,
      .cons (hform (htoken (by decide +kernel) (by decide +kernel) hfold) .nil .nil) .nil,
      .inl rfl, rfl⟩ : Disposition.Written _ _)
  obtain ⟨hparse, hfind⟩ := parse_and_find_written.1 _ _ htype
  obtain ⟨hparse', _⟩ := parse_and_find_written.2 _ _ hkind
  have hname := (hfind "Name" "a\"é\\").mpr ⟨[], _, _, rfl, by decide +kernel, rfl, nofun⟩
  exact ⟨⟨htype, hparse.trans (by decide +kernel), Eq.trans (by decide +kernel) hname⟩,
    hkind, hparse'.trans (by decide +kernel)⟩

end Parameter

end ImapMessage
