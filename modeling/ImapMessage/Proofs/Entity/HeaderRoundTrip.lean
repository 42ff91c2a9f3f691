/-
# Headers are read as they are written

A header is written field by field, and reading finds the same fields again, whatever body
follows.  Every header that has been read is such that it can be written.  A message that is
written from its tree is therefore read as the same tree.

Key constructions:
* `Field.IsWellFormed`, `Header.IsWellFormed`: fields and headers that can be written.
* `Field.ofRaw?_raw`, `Field.isWellFormed_of_ofRaw?`: one field, written and read.
* `HeaderBlock.read_write`: a written header and a body are read back.
* `HeaderBlock.isWellFormed_read`: what has been read can be written.
* `Entity.parse_written`: a whole message, written and read.
-/
import ImapMessage.Proofs.Entity.Folding
import ImapMessage.Proofs.Entity.Pruning
import ImapMessage.Proofs.Text.Utf8Canonical
import ImapMessage.Proofs.Text.Words
import ImapMessage.Section

namespace ImapMessage

/-! ## Fields -/

namespace Field

/-- A field that can be written: its name is a trimmed text without colons and ASCII white space,
and its value is folded and begins with neither a space nor a tab. -/
structure IsWellFormed (f : Field) : Prop where
  name_ne : f.name ≠ ""
  name_trimmed : Blank.trim f.name = f.name
  name_plain : ∀ c ∈ f.name.toList, c ≠ ':' ∧ Ascii.isSpaceChar c = false
  value_start : HeaderBlock.isContinuation f.value = false
  value_folded : HeaderBlock.IsFolded f.value

/-- Names without colons and ASCII white space, character by character. -/
theorem plain_of_all {name : String}
    (h : (name.toList.all fun c => c != ':' && !Ascii.isSpaceChar c) = true) :
    ∀ c ∈ name.toList, c ≠ ':' ∧ Ascii.isSpaceChar c = false := by
  intro c hc
  have hc := List.all_eq_true.mp h c hc
  rw [Bool.and_eq_true, bne_iff_ne, Bool.not_eq_true'] at hc
  exact hc

/-- A field without the line ending after it. -/
def raw (f : Field) : Bytes :=
  Utf8.encode f.name ++ ':'.toUInt8 :: Ascii.sp :: f.value

theorem write_eq (f : Field) : f.write = f.raw ++ Ascii.crlf := by
  simp [write, raw]

/-- A trimmed name without ASCII white space is read back. -/
theorem nameOf?_encode {name : String} (hne : name ≠ "") (htrim : Blank.trim name = name)
    (hplain : ∀ c ∈ name.toList, Ascii.isSpaceChar c = false) :
    nameOf? (Utf8.encode name) = some name := by
  have htrim' : Blank.trimChars name.toList = name.toList := by
    have := congrArg String.toList htrim
    rwa [Blank.trim, String.toList_ofList] at this
  have hne' : name.toList ≠ [] := fun hnil => hne (String.toList_eq_nil_iff.mp hnil)
  have hany : name.toList.any Ascii.isSpaceChar = false :=
    List.any_eq_false.mpr fun c hc => by simp [hplain c hc]
  have hempty : name.toList.isEmpty = false := List.isEmpty_eq_false_iff.mpr hne'
  rw [nameOf?, Utf8.decode?_eq_some_iff.mpr rfl]
  simp only [htrim', hany, hempty, Bool.or_self, Bool.false_eq_true, if_false, String.ofList_toList]

/-- A name that has been read is trimmed and contains no ASCII white space, and its characters of
ASCII are among the bytes. -/
theorem of_nameOf? {raw : Bytes} {name : String} (h : nameOf? raw = some name) :
    name ≠ "" ∧ Blank.trim name = name ∧ (∀ c ∈ name.toList, Ascii.isSpaceChar c = false)
      ∧ ∀ c ∈ name.toList, c.toNat < 0x80 → c.toUInt8 ∈ raw := by
  unfold nameOf? at h
  split at h
  · cases h
  · rename_i s hs
    dsimp only at h
    split_ifs at h with hbad
    rw [Bool.or_eq_true, not_or, List.isEmpty_iff, Bool.not_eq_true, List.any_eq_false] at hbad
    obtain ⟨hne, hany⟩ := hbad
    cases h
    rw [Utf8.decode?_eq_some_iff] at hs
    refine ⟨fun hnil => hne ?_, ?_, ?_, ?_⟩
    · rw [← String.toList_ofList (l := Blank.trimChars s.toList), hnil]
      rfl
    · rw [Blank.trim, String.toList_ofList, Blank.trimChars_trimChars]
    · intro c hc
      rw [String.toList_ofList] at hc
      simpa using hany c hc
    · intro c hc hascii
      rw [String.toList_ofList] at hc
      rw [hs, Utf8.toUInt8_mem_encode_iff hascii]
      exact Blank.mem_of_mem_trimChars hc

/-- A text that begins with neither a space nor a tab has none to be dropped. -/
theorem dropWhile_of_not_isContinuation {s : Bytes} (h : HeaderBlock.isContinuation s = false) :
    (s.dropWhile fun b => b == Ascii.sp || b == Ascii.tab) = s := by
  cases s with
  | nil => rfl
  | cons b s =>
    rw [HeaderBlock.isContinuation] at h
    rw [List.dropWhile_cons_of_neg (by simp [h])]

theorem isContinuation_dropWhile (s : Bytes) :
    HeaderBlock.isContinuation (s.dropWhile fun b => b == Ascii.sp || b == Ascii.tab) = false := by
  induction s with
  | nil => rfl
  | cons b s ih =>
    rw [List.dropWhile_cons]
    split
    · exact ih
    · rename_i hb
      exact Bool.not_eq_true _ ▸ hb

section

variable {f : Field}

/-- An excluded character of ASCII is no byte of a name. -/
theorem IsWellFormed.not_mem_encode (h : f.IsWellFormed) {c : Char} (hascii : c.toNat < 0x80)
    (hc : c = ':' ∨ Ascii.isSpaceChar c = true) : c.toUInt8 ∉ Utf8.encode f.name := by
  rw [Utf8.toUInt8_mem_encode_iff hascii]
  intro hmem
  obtain ⟨hcolon, hspace⟩ := h.name_plain c hmem
  rcases hc with hc | hc
  · exact hcolon hc
  · rw [hc] at hspace
    cases hspace

/-- A name begins with no white space. -/
theorem IsWellFormed.exists_cons_encode (h : f.IsWellFormed) :
    ∃ b bs, Utf8.encode f.name = b :: bs ∧ b ≠ Ascii.cr
      ∧ (b == Ascii.sp || b == Ascii.tab) = false := by
  cases hname : Utf8.encode f.name with
  | nil =>
    have hread : Utf8.decode? [] = some f.name := Utf8.decode?_eq_some_iff.mpr hname.symm
    have hempty : Utf8.decode? [] = some "" := Utf8.decode?_eq_some_iff.mpr rfl
    exact absurd (Option.some_inj.mp (hread.symm.trans hempty)) h.name_ne
  | cons b bs =>
    have hne : ∀ c : Char, c.toNat < 0x80 → Ascii.isSpaceChar c = true → b ≠ c.toUInt8 := by
      rintro c hascii hspace rfl
      exact h.not_mem_encode hascii (.inr hspace) (hname ▸ List.mem_cons_self)
    refine ⟨b, bs, rfl, hne '\r' (by decide) rfl, ?_⟩
    rw [Bool.or_eq_false_iff, beq_eq_false_iff_ne, beq_eq_false_iff_ne]
    exact ⟨hne ' ' (by decide) rfl, hne '\t' (by decide) rfl⟩

/-- A well-formed field is read back. -/
theorem ofRaw?_raw (h : f.IsWellFormed) : ofRaw? f.raw = some f := by
  have hcolon : ':'.toUInt8 ∉ Utf8.encode f.name := h.not_mem_encode (by decide) (.inl rfl)
  have hbefore : ∀ b ∈ Utf8.encode f.name, (b != ':'.toUInt8) = true := by
    intro b hb
    rw [bne_iff_ne]
    rintro rfl
    exact hcolon hb
  have hname : nameOf? (Utf8.encode f.name) = some f.name :=
    nameOf?_encode h.name_ne h.name_trimmed fun c hc => (h.name_plain c hc).2
  have htake : f.raw.takeWhile (· != ':'.toUInt8) = Utf8.encode f.name := by
    rw [raw, List.takeWhile_append_of_pos hbefore, List.takeWhile_cons_of_neg (by decide),
      List.append_nil]
  have hdrop : f.raw.dropWhile (· != ':'.toUInt8) = ':'.toUInt8 :: Ascii.sp :: f.value := by
    rw [raw, List.dropWhile_append_of_pos hbefore, List.dropWhile_cons_of_neg (by decide)]
  unfold ofRaw?
  rw [hdrop]
  dsimp only
  rw [htake, hname, Option.map_some, List.dropWhile_cons_of_pos (by decide),
    dropWhile_of_not_isContinuation h.value_start]

/-- A field that has been read from folded bytes is well-formed. -/
theorem isWellFormed_of_ofRaw? {raw : Bytes} (hraw : HeaderBlock.IsFolded raw)
    (h : ofRaw? raw = some f) : f.IsWellFormed := by
  unfold ofRaw? at h
  split at h
  · cases h
  · rename_i colon value hvalue
    obtain ⟨name, hname, rfl⟩ := Option.map_eq_some_iff.mp h
    obtain ⟨hne, htrim, hplain, hmem⟩ := of_nameOf? hname
    have hcolon : colon = ':'.toUInt8 := by
      have := List.head?_dropWhile_not (· != ':'.toUInt8) raw
      rw [hvalue] at this
      simpa using this
    refine ⟨hne, htrim, ?_, isContinuation_dropWhile value, ?_⟩
    · intro c hc
      refine ⟨?_, hplain c hc⟩
      rintro rfl
      have := List.mem_takeWhile_imp (hmem ':' hc (by decide))
      simp at this
    · -- What stands before the value ends in a colon, a space or a tab.
      have hsplit := List.takeWhile_append_dropWhile (p := (· != ':'.toUInt8)) (l := raw)
      rw [hvalue, ← List.takeWhile_append_dropWhile
        (p := fun b => b == Ascii.sp || b == Ascii.tab) (l := value)] at hsplit
      rw [← hsplit, ← List.cons_append, ← List.append_assoc] at hraw
      apply hraw.of_append
      rw [List.getLast?_append_cons]
      intro hcr
      rcases List.mem_cons.mp (List.mem_of_getLast? hcr) with heq | hmem
      · rw [hcolon] at heq
        exact absurd heq (by decide)
      · have := List.mem_takeWhile_imp hmem
        exact absurd this (by decide)

/-- A written field is a group of lines. -/
theorem IsWellFormed.exists_group (h : f.IsWellFormed) :
    ∃ group, HeaderBlock.IsGroup group
      ∧ Line.lines f.write = group.map (· ++ Ascii.crlf)
      ∧ Ascii.crlf.intercalate group = f.raw := by
  have hlf : Ascii.lf ∉ Utf8.encode f.name ++ [':'.toUInt8, Ascii.sp] := by
    rw [List.mem_append, not_or]
    exact ⟨h.not_mem_encode (c := '\n') (by decide) (.inr rfl), by decide⟩
  have hfolded : HeaderBlock.IsFolded f.raw := by
    have := h.value_folded.append hlf
    rwa [List.append_assoc] at this
  obtain ⟨b, bs, hb, hcr, hcont⟩ := h.exists_cons_encode
  obtain ⟨first, rest, hlines, htext, hrest⟩ := HeaderBlock.exists_lines_of_isFolded hfolded
  have hraw : f.raw = b :: (bs ++ ':'.toUInt8 :: Ascii.sp :: f.value) := by
    rw [raw, hb, List.cons_append]
  refine ⟨first :: rest, ⟨first, rest, rfl, ?_, ?_, hrest⟩, ?_, htext⟩
  · rintro rfl
    -- Without a name before it the first line would be a line ending.
    rw [hraw] at htext
    cases rest with
    | nil =>
      rw [List.intercalate_singleton] at htext
      cases htext
    | cons second rest =>
      rw [List.intercalate_cons_cons, Ascii.crlf] at htext
      exact hcr (List.cons.inj htext).1.symm
  · rw [← HeaderBlock.isContinuation_intercalate first rest, htext, hraw]
    exact hcont
  · rw [write_eq, hlines]

end

end Field

/-! ## Headers -/

/-- A header that can be written. -/
def Header.IsWellFormed (h : Header) : Prop :=
  ∀ f ∈ h.fields, f.IsWellFormed

namespace HeaderBlock

/-- The lines of a written header and what follows it. -/
theorem lines_write (fields : List Field) (t : Bytes) :
    Line.lines (fields.flatMap Field.write ++ t)
      = (fields.flatMap fun f => Line.lines f.write) ++ Line.lines t := by
  induction fields with
  | nil => rfl
  | cons f fields ih =>
    rw [List.flatMap_cons, List.flatMap_cons, List.append_assoc, Field.write_eq,
      Line.lines_written_append, ih, List.append_assoc]

/-- The lines of a written header are those of groups, one for each field. -/
theorem exists_groups {fields : List Field} (h : ∀ f ∈ fields, f.IsWellFormed) :
    ∃ gs : List (List Bytes), (∀ group ∈ gs, IsGroup group)
      ∧ (fields.flatMap fun f => Line.lines f.write) = gs.flatten.map (· ++ Ascii.crlf)
      ∧ (gs.map fun group => Ascii.crlf.intercalate group) = fields.map Field.raw := by
  induction fields with
  | nil => exact ⟨[], by simp, rfl, rfl⟩
  | cons f fields ih =>
    obtain ⟨group, hgroup, hlines, hraw⟩ := (h f List.mem_cons_self).exists_group
    obtain ⟨gs, hgs, hlines', hraws⟩ := ih fun f' hf' => h f' (List.mem_cons_of_mem f hf')
    refine ⟨group :: gs, ?_, ?_, ?_⟩
    · intro g hg
      rcases List.mem_cons.mp hg with rfl | hg
      · exact hgroup
      · exact hgs g hg
    · rw [List.flatMap_cons, hlines, hlines', List.flatten_cons, List.map_append]
    · rw [List.map_cons, hraw, hraws, List.map_cons]

/-- Lines that are not empty, up to an empty one, are the header. -/
theorem read_of_lines {message body : Bytes} {texts : List Bytes} (hne : ∀ w ∈ texts, w ≠ [])
    (h : Line.lines message = texts.map (· ++ Ascii.crlf) ++ Ascii.crlf :: Line.lines body) :
    read message = ⟨⟨(rawFields texts).filterMap Field.ofRaw?⟩, body,
      (orphans texts).length
        + ((rawFields texts).length - ((rawFields texts).filterMap Field.ofRaw?).length)⟩ := by
  have htexts : ∀ line ∈ texts.map (· ++ Ascii.crlf), (!(Line.text line).isEmpty) = true := by
    intro line hline
    obtain ⟨w, hw, rfl⟩ := List.mem_map.mp hline
    rw [Line.text_written]
    simp [hne w hw]
  have hempty : ¬(!(Line.text Ascii.crlf).isEmpty) = true := by decide
  have hheader : ((Line.lines message).takeWhile fun line => !(Line.text line).isEmpty)
      = texts.map (· ++ Ascii.crlf) := by
    rw [h, List.takeWhile_append_of_pos htexts, List.takeWhile_cons, if_neg hempty,
      List.append_nil]
  have hrest : ((Line.lines message).dropWhile fun line => !(Line.text line).isEmpty)
      = Ascii.crlf :: Line.lines body := by
    rw [h, List.dropWhile_append_of_pos htexts, List.dropWhile_cons, if_neg hempty]
  have htext : (texts.map (· ++ Ascii.crlf)).map Line.text = texts := by
    rw [List.map_map]
    exact (List.map_congr_left fun w _ => Line.text_written w).trans (List.map_id texts)
  rw [read]
  simp only [hheader, hrest, htext, List.tail_cons, Line.flatten_lines]

/-- A written header, an empty line and a body are read back. -/
theorem read_write {h : Header} (hwf : h.IsWellFormed) (body : Bytes) :
    read (h.write ++ Ascii.crlf ++ body) = ⟨h, body, 0⟩ := by
  obtain ⟨gs, hgs, hlines, hraws⟩ := exists_groups hwf
  have hempty : Line.lines (Ascii.crlf ++ body) = Ascii.crlf :: Line.lines body :=
    Line.lines_written (w := []) (by simp) body
  have hmessage : Line.lines (h.write ++ Ascii.crlf ++ body)
      = gs.flatten.map (· ++ Ascii.crlf) ++ Ascii.crlf :: Line.lines body := by
    rw [List.append_assoc, Header.write, lines_write, hlines, hempty]
  have hfields : (h.fields.map Field.raw).filterMap Field.ofRaw? = h.fields := by
    rw [List.filterMap_map]
    exact (List.filterMap_congr fun f hf => Field.ofRaw?_raw (hwf f hf)).trans List.filterMap_some
  have hne : ∀ w ∈ gs.flatten, w ≠ [] := by
    intro w hw
    obtain ⟨group, hgroup, hw⟩ := List.mem_flatten.mp hw
    exact (hgs group hgroup).ne_nil hw
  rw [read_of_lines hne hmessage, rawFields_flatten hgs, hraws, hfields, orphans_flatten hgs,
    List.length_map]
  simp

/-- A header that has been read can be written. -/
theorem isWellFormed_read (message : Bytes) : (read message).header.IsWellFormed := by
  intro f hf
  obtain ⟨raw, hraw, hread⟩ := List.mem_filterMap.mp hf
  refine Field.isWellFormed_of_ofRaw? (isFolded_of_mem_rawFields ?_ hraw) hread
  intro w hw
  obtain ⟨line, hline, rfl⟩ := List.mem_map.mp hw
  exact Line.lf_not_mem_text ((List.takeWhile_prefix _).subset hline)

end HeaderBlock

/-! ## Messages -/

namespace Entity

/-- The whole of a message is its header, an empty line and its body. -/
theorem fetch_entire (omits : Bool) (e : Entity) :
    Section.fetch { omits := omits } e
      = .ok (Section.answer (e.header.write ++ Ascii.crlf ++ e.body)) := by
  have hheader := Section.headerBytes_of_nil (s := { omits := omits }) rfl e.header
  rw [Section.fetch, locate]
  simp only [Except.map, Section.bytesOf, Section.portionBytes, hheader]
  rfl

/-- Messages with the same header and body are read as the same tree. -/
theorem parse_congr {raw raw' : Bytes} (hheader : (HeaderBlock.read raw).header
    = (HeaderBlock.read raw').header) (hbody : (HeaderBlock.read raw).body
    = (HeaderBlock.read raw').body) (limits : Limits) : parse limits raw = parse limits raw' := by
  have hcontent : contentRead .plain raw = contentRead .plain raw' := by
    rw [contentRead, contentRead, contentFrom, contentFrom, hheader, hbody]
  rw [parse_eq_keepFirst, parse_eq_keepFirst, parseFully, parseFully, hcontent]

/-- What is fetched of a whole message is read as the same tree. -/
theorem parse_written (limits : Limits) (raw : Bytes) :
    parse limits ((parse limits raw).header.write ++ Ascii.crlf ++ (parse limits raw).body)
      = parse limits raw := by
  have hread : HeaderBlock.read
      ((parse limits raw).header.write ++ Ascii.crlf ++ (parse limits raw).body)
        = ⟨(HeaderBlock.read raw).header, (HeaderBlock.read raw).body, 0⟩ := by
    rw [header, body, content_parse]
    exact HeaderBlock.read_write (HeaderBlock.isWellFormed_read raw) _
  exact parse_congr (by rw [hread]) (by rw [hread]) limits

/-- A whole message that is fetched and read again under the same limits is the same tree, and the
next time the same bytes are fetched.  Conversely, every header that can be written is read back,
with the body that follows it. -/
theorem parse_fetch_entire :
    (∀ (limits : Limits) (raw : Bytes) (omits : Bool), ∃ fetched,
      Section.fetch { omits := omits } (parse limits raw) = .ok fetched
        ∧ parse limits fetched.data = parse limits raw
        ∧ Section.fetch { omits := omits } (parse limits fetched.data) = .ok fetched)
      ∧ ∀ (h : Header) (body : Bytes), h.IsWellFormed →
        HeaderBlock.read (h.write ++ Ascii.crlf ++ body) = ⟨h, body, 0⟩ := by
  refine ⟨fun limits raw omits => ?_, fun h body hwf => HeaderBlock.read_write hwf body⟩
  have hparse := parse_written limits raw
  have hfetch := fetch_entire omits (parse limits raw)
  refine ⟨_, hfetch, hparse, ?_⟩
  rw [Section.answer, hparse, hfetch]
  rfl

/-- A header with a field whose value goes on in a second line, and one whose value is empty. -/
def foldedHeader : Header :=
  ⟨[⟨"Subject", Utf8.encode "one" ++ Ascii.crlf ++ Utf8.encode " two"⟩, ⟨"X", []⟩]⟩

/-- A folded value and an empty one are read back. -/
theorem parse_fetch_entire_folded :
    foldedHeader.IsWellFormed
      ∧ HeaderBlock.read (foldedHeader.write ++ Ascii.crlf ++ [0]) = ⟨foldedHeader, [0], 0⟩ := by
  have hvalue : HeaderBlock.IsFolded (Utf8.encode "one" ++ Ascii.crlf ++ Utf8.encode " two") :=
    HeaderBlock.isFolded_fold (by decide) rfl (HeaderBlock.isFolded_of_not_mem (by decide))
  have hwf : foldedHeader.IsWellFormed := by
    intro f hf
    rcases List.mem_pair.mp hf with rfl | rfl
    · exact ⟨by decide, by decide, Field.plain_of_all (by decide), rfl, hvalue⟩
    · exact ⟨by decide, by decide, Field.plain_of_all (by decide), rfl,
        HeaderBlock.isFolded_of_not_mem (by decide)⟩
  exact ⟨hwf, parse_fetch_entire.2 foldedHeader [0] hwf⟩

end Entity

end ImapMessage
