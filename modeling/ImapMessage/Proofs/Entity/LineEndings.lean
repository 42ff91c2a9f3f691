/-
# Line endings

Messages are also found with a line feed alone at the end of each line.  If they contain no carriage
return, they are read like the message with a carriage return before each line feed: the tree has
the same form, headers and content types are the same, and the bodies differ in their line endings
alone.

Key constructions:
* `Line.toCrlf`: bytes with a carriage return before each line feed.
* `HeaderBlock.read_toCrlf`: header and body.
* `Multipart.parts_toCrlf`: the parts of a body.
* `Entity.mapBodies`: a tree with other bodies.
* `Entity.parse_toCrlf`: whole messages.
-/
import ImapMessage.Proofs.Entity.Delimited
import ImapMessage.Proofs.Entity.Folding
import ImapMessage.Proofs.Entity.Pruning
import ImapMessage.Proofs.Field.LineBreaks

namespace ImapMessage

/-! ## Lines -/

namespace Line

/-- Bytes with a carriage return before each line feed. -/
def toCrlf (s : Bytes) : Bytes :=
  s.flatMap fun b => if b = Ascii.lf then Ascii.crlf else [b]

theorem toCrlf_append (s t : Bytes) : toCrlf (s ++ t) = toCrlf s ++ toCrlf t :=
  List.flatMap_append

theorem toCrlf_of_not_mem {w : Bytes} (h : Ascii.lf ∉ w) : toCrlf w = w := by
  induction w with
  | nil => rfl
  | cons b w ih =>
    rw [List.mem_cons, not_or] at h
    rw [toCrlf, List.flatMap_cons, if_neg fun hb => h.1 hb.symm, ← toCrlf, ih h.2,
      List.singleton_append]

theorem toCrlf_append_lf (s : Bytes) : toCrlf (s ++ [Ascii.lf]) = toCrlf s ++ Ascii.crlf :=
  toCrlf_append s [Ascii.lf]

theorem toCrlf_flatten (lines : List Bytes) :
    toCrlf lines.flatten = (lines.map toCrlf).flatten := by
  induction lines with
  | nil => rfl
  | cons line lines ih =>
    rw [List.flatten_cons, toCrlf_append, ih, List.map_cons, List.flatten_cons]

/-- The lines stay the same but for their endings. -/
theorem lines_toCrlf (s : Bytes) : lines (toCrlf s) = (lines s).map toCrlf := by
  induction s using lineInduction with
  | line w hw =>
    rw [toCrlf_of_not_mem hw]
    by_cases hne : w = []
    · rw [hne]
      rfl
    · rw [lines_eq_singleton hne fun hmem => hw (List.dropLast_subset w hmem), List.map_singleton,
        toCrlf_of_not_mem hw]
  | append w rest hw ih =>
    have hline : toCrlf (w ++ [Ascii.lf]) = w ++ Ascii.crlf := by
      rw [toCrlf_append_lf, toCrlf_of_not_mem hw]
    rw [lines_append_lf hw, List.map_cons, hline, List.append_cons, toCrlf_append, hline,
      lines_written hw, ih]

/-- The text of a line without carriage returns does not depend on its ending. -/
theorem text_toCrlf {s line : Bytes} (h : line ∈ lines s) (hcr : Ascii.cr ∉ line) :
    text (toCrlf line) = text line := by
  obtain ⟨w, hw, rfl | rfl⟩ := exists_of_mem_lines h
  · rw [toCrlf_of_not_mem hw]
  · have hcr' : Ascii.cr ∉ w := fun hmem => hcr (List.mem_append_left _ hmem)
    rw [toCrlf_append_lf, toCrlf_of_not_mem hw, text_written, text, without_concat,
      without_of_not_mem hcr']

theorem withoutBreak_toCrlf {s : Bytes} (hcr : Ascii.cr ∉ s) :
    withoutBreak (toCrlf s) = toCrlf (withoutBreak s) := by
  rcases List.eq_nil_or_concat s with rfl | ⟨t, b, rfl⟩
  · rfl
  · rw [List.concat_eq_append] at hcr ⊢
    by_cases hb : b = Ascii.lf
    · subst hb
      have hcr' : Ascii.cr ∉ t := fun hmem => hcr (List.mem_append_left _ hmem)
      rw [toCrlf_append_lf, withoutBreak_written, withoutBreak, if_pos List.getLast?_concat,
        List.dropLast_concat, without_of_not_mem hcr']
    · have hlast : ∀ u : Bytes, withoutBreak (u ++ [b]) = u ++ [b] := by
        intro u
        rw [withoutBreak, List.getLast?_concat, if_neg fun heq => hb (Option.some_inj.mp heq)]
      have hsame : toCrlf [b] = [b] :=
        toCrlf_of_not_mem fun hmem => hb (List.mem_singleton.mp hmem).symm
      rw [hlast, toCrlf_append, hsame, hlast]

end Line

/-- A change of elements that a condition does not see changes nothing of where it holds. -/
theorem takeWhile_dropWhile_map {α : Type} {p : α → Bool} {f : α → α} {l : List α}
    (h : ∀ x ∈ l, p (f x) = p x) :
    (l.map f).takeWhile p = (l.takeWhile p).map f
      ∧ (l.map f).dropWhile p = (l.dropWhile p).map f := by
  induction l with
  | nil => exact ⟨rfl, rfl⟩
  | cons x l ih =>
    obtain ⟨htake, hdrop⟩ := ih fun y hy => h y (List.mem_cons_of_mem x hy)
    have hx := h x List.mem_cons_self
    cases hp : p x with
    | true =>
      rw [List.map_cons, List.takeWhile_cons_of_pos (hx.trans hp), List.takeWhile_cons_of_pos hp,
        List.dropWhile_cons_of_pos (hx.trans hp), List.dropWhile_cons_of_pos hp, htake]
      exact ⟨rfl, hdrop⟩
    | false =>
      have hp' := ne_true_of_eq_false hp
      rw [List.map_cons, List.takeWhile_cons_of_neg (hx ▸ hp'), List.takeWhile_cons_of_neg hp',
        List.dropWhile_cons_of_neg (hx ▸ hp'), List.dropWhile_cons_of_neg hp']
      exact ⟨rfl, rfl⟩

/-! ## Headers -/

/-- A value is the end of the raw line that it has been read from. -/
theorem Field.value_suffix_of_ofRaw? {raw : Bytes} {f : Field} (h : ofRaw? raw = some f) :
    f.value <:+ raw := by
  unfold ofRaw? at h
  split at h
  · cases h
  · rename_i b value hvalue
    obtain ⟨name, -, rfl⟩ := Option.map_eq_some_iff.mp h
    exact (List.dropWhile_suffix _).trans
      ((List.suffix_cons b value).trans (hvalue ▸ List.dropWhile_suffix _))

namespace HeaderBlock

/-- Line endings do not change the header. -/
theorem read_toCrlf {raw : Bytes} (hcr : Ascii.cr ∉ raw) :
    read (Line.toCrlf raw) = { read raw with body := Line.toCrlf (read raw).body } := by
  have htext : ∀ line ∈ Line.lines raw, Line.text (Line.toCrlf line) = Line.text line := by
    intro line hline
    exact Line.text_toCrlf hline fun hmem => hcr (Line.mem_of_mem_lines hline hmem)
  obtain ⟨hheader, hrest⟩ := takeWhile_dropWhile_map (p := fun line => !(Line.text line).isEmpty)
    (f := Line.toCrlf) (l := Line.lines raw) fun line hline => by rw [htext line hline]
  have htexts : (((Line.lines raw).takeWhile fun line => !(Line.text line).isEmpty).map
        Line.toCrlf).map Line.text
      = ((Line.lines raw).takeWhile fun line => !(Line.text line).isEmpty).map Line.text := by
    rw [List.map_map]
    exact List.map_congr_left fun line hline =>
      htext line ((List.takeWhile_prefix _).subset hline)
  simp only [read, Line.lines_toCrlf, hheader, htexts, hrest, Line.toCrlf_flatten, List.map_tail]

/-- Values that have been read have whole line breaks, if there are no carriage returns in the
message. -/
theorem isPaired_of_mem_read {raw : Bytes} (hcr : Ascii.cr ∉ raw) {f : Field}
    (hf : f ∈ (read raw).header.fields) : Line.IsPaired f.value := by
  obtain ⟨field, hfield, hread⟩ := List.mem_filterMap.mp hf
  obtain ⟨group, hgroup, rfl⟩ := List.mem_map.mp hfield
  have hpaired : Line.IsPaired (Ascii.crlf.intercalate group) := by
    refine (Line.isPaired_intercalate fun w hw => ?_).1
    obtain ⟨line, hline, rfl⟩ := List.mem_map.mp (mem_of_mem_groups hgroup hw)
    have hline' : line ∈ Line.lines raw := (List.takeWhile_prefix _).subset hline
    refine ⟨fun hmem => hcr (Line.mem_of_mem_lines hline' ?_), Line.lf_not_mem_text hline'⟩
    exact (Line.text_isPrefix line).subset hmem
  exact hpaired.of_suffix (Field.value_suffix_of_ofRaw? hread)

end HeaderBlock

/-! ## Parts -/

namespace Multipart

/-- In a line without carriage returns there is no boundary with one, nor before a line ending. -/
theorem delimiter?_of_cr_mem {boundary w : Bytes} (hboundary : Line.IsUnbroken boundary)
    (hmem : Ascii.cr ∈ boundary) (hcr : Ascii.cr ∉ w) :
    delimiter? boundary w = none ∧ delimiter? boundary (w ++ Ascii.crlf) = none := by
  obtain ⟨u, v, rfl⟩ := hboundary.exists_of_cr_mem hmem
  unfold delimiter?
  rw [Option.bind_eq_none_iff, Option.bind_eq_none_iff]
  refine ⟨fun rest h => absurd ?_ hcr, fun rest h => ?_⟩
  · rw [isPrefixOf?_eq_some_iff.mp h]
    simp
  · -- The only carriage return of the line stands before a line feed.
    have heq : w ++ Ascii.cr :: [Ascii.lf]
        = (hyphens ++ u) ++ Ascii.cr :: (Ascii.sp :: (v ++ rest)) := by
      refine (isPrefixOf?_eq_some_iff.mp h).trans ?_
      simp
    obtain ⟨-, -, hrest⟩ := (List.append_cons_inj_of_notMem hcr (by decide)).mp heq
    cases hrest

/-- A boundary that cannot reach over the end of a line is found in the same way with both line
endings. -/
theorem delimiter?_toCrlf {boundary : Bytes} (hboundary : Line.IsUnbroken boundary)
    {s line : Bytes} (h : line ∈ Line.lines s) (hcr : Ascii.cr ∉ line) :
    delimiter? boundary (Line.toCrlf line) = delimiter? boundary line := by
  obtain ⟨w, hw, rfl | rfl⟩ := Line.exists_of_mem_lines h
  · rw [Line.toCrlf_of_not_mem hw]
  · have hcr' : Ascii.cr ∉ w := fun hmem => hcr (List.mem_append_left _ hmem)
    rw [Line.toCrlf_append_lf, Line.toCrlf_of_not_mem hw,
      delimiter?_append_cons (e := []) rfl hboundary.lf_not_mem]
    by_cases hmem : Ascii.cr ∈ boundary
    · obtain ⟨hnone, hnone'⟩ := delimiter?_of_cr_mem hboundary hmem hcr'
      rw [hnone, hnone']
    · exact delimiter?_append_cons rfl hmem w

section

variable {boundary : Bytes} {lines : List Bytes}
  (h : ∀ line ∈ lines, delimiter? boundary (Line.toCrlf line) = delimiter? boundary line)

include h

theorem takeWhile_dropWhile_toCrlf :
    (lines.map Line.toCrlf).takeWhile (isInner boundary)
        = (lines.takeWhile (isInner boundary)).map Line.toCrlf
      ∧ (lines.map Line.toCrlf).dropWhile (isInner boundary)
        = (lines.dropWhile (isInner boundary)).map Line.toCrlf :=
  takeWhile_dropWhile_map fun line hline => by rw [isInner, h line hline, isInner]

theorem partsAfter_toCrlf (hcr : ∀ line ∈ lines, Ascii.cr ∉ line) :
    partsAfter boundary (lines.map Line.toCrlf)
      = (partsAfter boundary lines).map Line.toCrlf := by
  fun_induction partsAfter boundary lines with
  | case1 lines inner hnone =>
    obtain ⟨hinner, hrest⟩ := takeWhile_dropWhile_toCrlf h
    rw [hnone] at hrest
    rw [partsAfter_of_eq_nil hrest, hinner, ← Line.toCrlf_flatten]
    rfl
  | case2 lines inner line rest hsome ih =>
    obtain ⟨hinner, hrest⟩ := takeWhile_dropWhile_toCrlf h
    rw [hsome] at hrest
    have hsuffix : line :: rest <:+ lines := hsome ▸ List.dropWhile_suffix _
    have hinner' : Ascii.cr ∉ inner := by
      intro hmem
      obtain ⟨line', hline', hmem⟩ := List.mem_flatten.mp hmem
      exact hcr line' ((List.takeWhile_prefix _).subset hline') hmem
    have ih' := ih (fun l hl => h l (hsuffix.subset (List.mem_cons_of_mem line hl)))
      fun l hl => hcr l (hsuffix.subset (List.mem_cons_of_mem line hl))
    rw [partsAfter_of_eq_cons hrest, hinner, ← Line.toCrlf_flatten,
      Line.withoutBreak_toCrlf hinner', h line (hsuffix.subset List.mem_cons_self), ih']
    split <;> rfl

end

/-- The parts of a body stay the same but for their line endings. -/
theorem parts_toCrlf {boundary body : Bytes} (hboundary : Line.IsUnbroken boundary)
    (hcr : Ascii.cr ∉ body) :
    parts boundary (Line.toCrlf body) = (parts boundary body).map Line.toCrlf := by
  have hcr' : ∀ line ∈ Line.lines body, Ascii.cr ∉ line :=
    fun line hline hmem => hcr (Line.mem_of_mem_lines hline hmem)
  have hdelimiter : ∀ line ∈ Line.lines body,
      delimiter? boundary (Line.toCrlf line) = delimiter? boundary line :=
    fun line hline => delimiter?_toCrlf hboundary hline (hcr' line hline)
  unfold parts
  rw [Line.lines_toCrlf, (takeWhile_dropWhile_toCrlf hdelimiter).2]
  cases hlines : (Line.lines body).dropWhile (isInner boundary) with
  | nil => rfl
  | cons line rest =>
    have hsuffix : line :: rest <:+ Line.lines body := hlines ▸ List.dropWhile_suffix _
    rw [List.map_cons]
    dsimp only
    rw [hdelimiter line (hsuffix.subset List.mem_cons_self),
      partsAfter_toCrlf
        (fun l hl => hdelimiter l (hsuffix.subset (List.mem_cons_of_mem line hl)))
        fun l hl => hcr' l (hsuffix.subset (List.mem_cons_of_mem line hl))]
    split <;> rfl

end Multipart

/-! ## Trees -/

/-- Header and content type with another body. -/
def Content.mapBody (f : Bytes → Bytes) (c : Content) : Content :=
  { c with body := f c.body }

namespace Entity

mutual

/-- A tree with other bodies. -/
def mapBodies (f : Bytes → Bytes) : Entity → Entity
  | .leaf c => .leaf (c.mapBody f)
  | .multipart c parts => .multipart (c.mapBody f) (mapBodiesAll f parts)

/-- Trees with other bodies. -/
def mapBodiesAll (f : Bytes → Bytes) : List Entity → List Entity
  | [] => []
  | e :: es => mapBodies f e :: mapBodiesAll f es

end

section

variable (f : Bytes → Bytes)

theorem mapBodiesAll_eq_map (es : List Entity) : mapBodiesAll f es = es.map (mapBodies f) := by
  induction es with
  | nil => rfl
  | cons e es ih => rw [mapBodiesAll, ih, List.map_cons]

theorem content_mapBodies (e : Entity) : (e.mapBodies f).content = e.content.mapBody f := by
  cases e <;> rfl

theorem mapBodies_ofParts (c : Content) (parts : List Entity) :
    (ofParts c parts).mapBodies f = ofParts (c.mapBody f) (parts.map (mapBodies f)) := by
  cases parts with
  | nil => rfl
  | cons e es =>
    rw [← mapBodiesAll_eq_map]
    rfl

/-- Other bodies do not change what is cut off. -/
theorem cutBelow_mapBodies (levels : Nat) (e : Entity) :
    cutBelow levels (e.mapBodies f) = (cutBelow levels e).mapBodies f := by
  induction levels generalizing e with
  | zero =>
    rw [cutBelow, content_mapBodies]
    rfl
  | succ levels ih =>
    cases e with
    | leaf c => rfl
    | multipart c parts =>
      rw [mapBodies, cutBelow, cutBelow, mapBodies, mapBodiesAll_eq_map, mapBodiesAll_eq_map,
        List.map_map, List.map_map]
      exact congrArg _ (List.map_congr_left fun part _ => ih part)

theorem descendants_mapBodies (e : Entity) : (e.mapBodies f).descendants = e.descendants := by
  induction e using inductionOn with
  | leaf c => rfl
  | multipart c parts ih =>
    rw [mapBodies, descendants, descendants, mapBodiesAll_eq_map]
    clear c
    induction parts with
    | nil => rfl
    | cons e es ihes =>
      rw [List.map_cons, countAll, countAll, ih e List.mem_cons_self,
        ihes fun part hpart => ih part (List.mem_cons_of_mem e hpart)]

theorem keepFirst_mapBodies (n : Nat) (e : Entity) :
    keepFirst n (e.mapBodies f) = (keepFirst n e).mapBodies f := by
  induction e using inductionOn generalizing n with
  | leaf c => rfl
  | multipart c parts ih =>
    have hparts : keepFirstAll n (parts.map (mapBodies f))
        = (keepFirstAll n parts).map (mapBodies f) := by
      induction parts generalizing n with
      | nil => rw [List.map_nil, keepFirstAll, List.map_nil]
      | cons e es ihes =>
        cases n with
        | zero => rw [List.map_cons, keepFirstAll, keepFirstAll, List.map_nil]
        | succ n =>
          rw [List.map_cons, keepFirstAll, keepFirstAll, List.map_cons, descendants_mapBodies,
            ih e List.mem_cons_self,
            ihes (fun part hpart => ih part (List.mem_cons_of_mem e hpart))]
    rw [mapBodies, mapBodiesAll_eq_map, keepFirst, hparts, keepFirst, mapBodies_ofParts]

end

/-! ## Messages -/

/-- A boundary that a message without carriage returns gives cannot reach over the end of a
line. -/
theorem isUnbroken_of_contentRead {assumed : ContentType} (hassumed : boundary? assumed = none)
    {raw boundary : Bytes} (hcr : Ascii.cr ∉ raw)
    (h : boundary? (contentRead assumed raw).contentType = some boundary) :
    Line.IsUnbroken boundary := by
  change boundary? ((HeaderBlock.read raw).header.contentType?.getD assumed) = some boundary at h
  cases htype : (HeaderBlock.read raw).header.contentType? with
  | none =>
    rw [htype, Option.getD_none, hassumed] at h
    cases h
  | some c =>
    rw [htype, Option.getD_some] at h
    obtain ⟨value, hget, hparse⟩ := Option.bind_eq_some_iff.mp htype
    obtain ⟨field, hfield, rfl⟩ := Option.map_eq_some_iff.mp hget
    have hpaired := HeaderBlock.isPaired_of_mem_read hcr (List.mem_of_find?_eq_some hfield)
    exact ContentType.isUnbroken_of_boundary hpaired hparse h

theorem boundary?_partDefault (c : ContentType) : boundary? (partDefault c) = none := by
  unfold partDefault
  split <;> decide +kernel

theorem contentRead_toCrlf (assumed : ContentType) {raw : Bytes} (hcr : Ascii.cr ∉ raw) :
    contentRead assumed (Line.toCrlf raw) = (contentRead assumed raw).mapBody Line.toCrlf := by
  rw [contentRead, HeaderBlock.read_toCrlf hcr]
  rfl

/-- The whole tree of a message without carriage returns stays the same but for the line endings in
its bodies. -/
theorem wholeTree_toCrlf {c : Content} (hcr : Ascii.cr ∉ c.body)
    (hboundary : ∀ boundary, boundary? c.contentType = some boundary →
      Line.IsUnbroken boundary) :
    wholeTree (c.mapBody Line.toCrlf) = (wholeTree c).mapBodies Line.toCrlf := by
  induction c using wholeTree.induct with
  | case1 c ih =>
    have hparts : rawParts (c.mapBody Line.toCrlf) = (rawParts c).map Line.toCrlf := by
      unfold rawParts Content.mapBody
      dsimp only
      split
      · rfl
      · rename_i boundary h
        exact Multipart.parts_toCrlf (hboundary boundary h) hcr
    rw [wholeTree_eq, hparts, wholeTree_eq c, mapBodies_ofParts, List.map_map, List.map_map]
    refine congrArg _ (List.map_congr_left fun raw hraw => ?_)
    -- A part is made up of bytes of the body, and its header gives its boundary.
    obtain ⟨boundary, -, hpart⟩ := exists_boundary_of_mem_rawParts hraw
    have hcr' : Ascii.cr ∉ raw :=
      fun hmem => hcr ((Multipart.sublist_of_mem_parts hpart).subset hmem)
    have hbody : Ascii.cr ∉ (contentRead (partDefault c.contentType) raw).body :=
      fun hmem => hcr' ((HeaderBlock.body_read_suffix raw).subset hmem)
    have hassumed := boundary?_partDefault c.contentType
    exact (congrArg wholeTree (contentRead_toCrlf _ hcr')).trans
      (ih ⟨raw, hraw⟩ hbody fun boundary => isUnbroken_of_contentRead hassumed hcr')

/-- Line endings do not change how a message without carriage returns is read: with a carriage
return before each line feed its tree has the same form, with the same headers and content types,
and each body is the former one with a carriage return before each line feed. -/
theorem parse_toCrlf (limits : Limits) {raw : Bytes} (hcr : Ascii.cr ∉ raw) :
    parse limits (Line.toCrlf raw) = (parse limits raw).mapBodies Line.toCrlf := by
  have hbody : Ascii.cr ∉ (contentRead .plain raw).body :=
    fun hmem => hcr ((HeaderBlock.body_read_suffix raw).subset hmem)
  have hplain : boundary? .plain = none := by decide +kernel
  rw [parse_eq_keepFirst, parse_eq_keepFirst, parseFully, parseFully, contentRead_toCrlf _ hcr,
    wholeTree_toCrlf hbody fun boundary => isUnbroken_of_contentRead hplain hcr,
    cutBelow_mapBodies, keepFirst_mapBodies]

/-- A message with a folded field and a part of two lines. -/
def foldedParts : Bytes :=
  Utf8.encode "Content-Type: multipart/mixed;\n boundary=a\n\n--a\n\nx\ny\n--a--\n"

/-- The part of `foldedParts` is found with both line endings. -/
theorem parse_toCrlf_folded :
    Ascii.cr ∉ foldedParts
      ∧ parse {} (Line.toCrlf foldedParts) = (parse {} foldedParts).mapBodies Line.toCrlf
      ∧ (parse {} foldedParts).parts?.map (List.map body) = some [Utf8.encode "x\ny"]
      ∧ (parse {} (Line.toCrlf foldedParts)).parts?.map (List.map body)
        = some [Utf8.encode "x\r\ny"] := by
  have hcr : Ascii.cr ∉ foldedParts := by decide +kernel
  exact ⟨hcr, parse_toCrlf {} hcr, by decide +kernel, by decide +kernel⟩

end Entity

end ImapMessage
