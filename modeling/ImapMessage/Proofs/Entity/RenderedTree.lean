/-
# Rendered trees of messages

A tree of texts is rendered as a message: each text under a header for plain text, and the parts of
each inner node between the delimiter lines of its boundary.  Every delimiter line on the way
down a tree is seen by the splitting at all levels above it, and taken for a part of the text there.
Reading therefore finds the same tree again, and in its leaves the same bytes.

Key constructions:
* `TextTree`, `TextTree.render`: trees of texts and the messages that they are rendered as.
* `TextTree.entity`: the tree that a rendered message stands for.
* `TextTree.IsRenderable`: trees in which no text is taken for a delimiter line.
* `TextTree.isFree_render`: a rendered part has no delimiter lines of the boundaries around it.
* `TextTree.parseFully_render`: a rendered tree is read back.
-/
import ImapMessage.Proofs.Entity.Boundary

namespace ImapMessage

/-! ## Lines that are no delimiter lines -/

namespace Multipart

/-- A delimiter line begins with a hyphen. -/
theorem isInner_of_head? {line : Bytes} (h : line.head? ≠ some '-'.toUInt8) (boundary : Bytes) :
    isInner boundary line = true := by
  have hnone : (hyphens ++ boundary).isPrefixOf? line = none := by
    rw [Option.eq_none_iff_forall_ne_some]
    intro after heq
    rw [isPrefixOf?_eq_some_iff] at heq
    exact h (heq ▸ rfl)
  rw [isInner, delimiter?, hnone]
  rfl

/-- What begins with a letter or a digit does not complete a delimiter line. -/
theorem delimiterOfRest_alnum {b : UInt8} (hb : Ascii.isAlnum b = true) (rest : Bytes) :
    delimiterOfRest (b :: rest) = none := by
  have hhyphen : ('-'.toUInt8 == b) = false := by
    rw [beq_eq_false_iff_ne]
    rintro rfl
    cases hb
  have hfold : Ascii.isFold b = false := Ascii.isFold_eq_false (by decide +kernel) hb
  simp [delimiterOfRest, hyphens, List.isPrefixOf?, hhyphen, hfold]

/-- A delimiter line of one alphanumeric boundary is none of another one, not even where the one
begins with the other. -/
theorem isInner_of_ne {boundary boundary' : Bytes}
    (halnum : ∀ b ∈ boundary, Ascii.isAlnum b = true)
    (halnum' : ∀ b ∈ boundary', Ascii.isAlnum b = true) (hne : boundary ≠ boundary') {tail : Bytes}
    (htail : ∀ b ∈ tail.head?, Ascii.isAlnum b = false) :
    isInner boundary (hyphens ++ boundary' ++ tail) = true := by
  by_cases hprefix : boundary <+: boundary' ++ tail
  · obtain ⟨rest, hrest⟩ := hprefix
    rcases List.append_eq_append_iff.mp hrest with ⟨more, rfl, hmore⟩ | ⟨more, rfl, hmore⟩
    · -- The line goes on with the rest of `boundary'`.
      cases more with
      | nil => exact absurd (List.append_nil boundary).symm hne
      | cons b more =>
        have hb : Ascii.isAlnum b = true := halnum' b (List.mem_append_right _ List.mem_cons_self)
        have hline : (hyphens ++ boundary).isPrefixOf? (hyphens ++ (boundary ++ b :: more) ++ tail)
            = some (b :: (more ++ tail)) := by
          rw [isPrefixOf?_eq_some_iff]
          simp
        rw [isInner, delimiter?, hline, Option.bind_some, delimiterOfRest_alnum hb]
        rfl
    · -- The rest of `boundary` would begin what follows `boundary'`.
      cases more with
      | nil => exact absurd (List.append_nil boundary') hne
      | cons b more =>
        have hb : Ascii.isAlnum b = true := halnum b (List.mem_append_right _ List.mem_cons_self)
        rw [htail b (by rw [hmore]; rfl)] at hb
        cases hb
  · rw [List.append_assoc]
    exact isInner_of_not_prefix hprefix

/-- A line that is no delimiter line and an empty one, before bytes without delimiter lines. -/
theorem IsFree.message {boundary line body : Bytes} (hlf : Ascii.lf ∉ line)
    (hline : line.head? ≠ some '-'.toUInt8) (hne : line ≠ []) (h : IsFree boundary body) :
    IsFree boundary (line ++ Ascii.crlf ++ Ascii.crlf ++ body) := by
  intro l hl
  rw [List.append_assoc (line ++ Ascii.crlf), Line.lines_written hlf] at hl
  have hempty : Line.lines (Ascii.crlf ++ body) = Ascii.crlf :: Line.lines body :=
    Line.lines_written (w := []) (by simp) body
  rw [hempty] at hl
  rcases List.mem_cons.mp hl with rfl | hl
  · obtain ⟨b, bs, rfl⟩ := List.exists_cons_of_ne_nil hne
    exact isInner_of_head? (by simpa using hline) boundary
  · rcases List.mem_cons.mp hl with rfl | hl
    · exact isInner_of_head? (by decide) boundary
    · exact h l hl

end Multipart

/-! ## Trees of texts -/

/-- A tree of texts. -/
inductive TextTree where
  /-- A text. -/
  | leaf (body : Bytes)
  /-- Parts with a boundary between them. -/
  | node (boundary : Bytes) (parts : List TextTree)

namespace TextTree

/-- The header of a plain text. -/
def plainHeader : Header :=
  .ofContentType (Utf8.encode "text/plain")

/-- The header of parts with a boundary, without quotes around it. -/
def mixedHeader (boundary : Bytes) : Header :=
  .ofContentType (Utf8.encode "multipart/mixed; boundary=" ++ boundary)

mutual

/-- The message that a tree is rendered as. -/
def render : TextTree → Bytes
  | .leaf body => plainHeader.write ++ Ascii.crlf ++ body
  | .node boundary parts =>
    (mixedHeader boundary).write ++ Ascii.crlf ++ Multipart.join boundary (renderAll parts)

/-- The messages that some trees are rendered as. -/
def renderAll : List TextTree → List Bytes
  | [] => []
  | t :: ts => render t :: renderAll ts

end

mutual

/-- The tree that a rendered message stands for: the same tree, each text as the body of a leaf
under its header. -/
def entity : TextTree → Entity
  | .leaf body => .ofHeader plainHeader body
  | .node boundary parts =>
    .withParts (mixedHeader boundary) (Multipart.join boundary (renderAll parts)) (entities parts)

/-- The trees that some rendered messages stand for. -/
def entities : List TextTree → List Entity
  | [] => []
  | t :: ts => entity t :: entities ts

end

theorem renderAll_eq_map (ts : List TextTree) : renderAll ts = ts.map render := by
  induction ts with
  | nil => rfl
  | cons t ts ih => rw [renderAll, ih, List.map_cons]

theorem entities_eq_map (ts : List TextTree) : entities ts = ts.map entity := by
  induction ts with
  | nil => rfl
  | cons t ts ih => rw [entities, ih, List.map_cons]

/-- A tree that can be rendered below some boundaries: no line of a text is a delimiter line of a
boundary above it, and each boundary is a word that does not stand above it already. -/
inductive IsRenderable : List Bytes → TextTree → Prop where
  | leaf {above : List Bytes} {body : Bytes}
      (hfree : ∀ boundary ∈ above, Multipart.IsFree boundary body) :
      IsRenderable above (.leaf body)
  | node {above : List Bytes} {boundary : Bytes} {parts : List TextTree}
      (hne : boundary ≠ []) (halnum : ∀ b ∈ boundary, Ascii.isAlnum b = true)
      (hnew : boundary ∉ above) (hparts : parts ≠ [])
      (h : ∀ part ∈ parts, IsRenderable (boundary :: above) part) :
      IsRenderable above (.node boundary parts)

/-! ## Headers of rendered trees -/

theorem isWellFormed_plainHeader : plainHeader.IsWellFormed :=
  Header.isWellFormed_ofContentType rfl (by decide)

theorem contentType?_plainHeader : plainHeader.contentType? = some ⟨"text", "plain", []⟩ := by
  rw [plainHeader, Header.contentType?_ofContentType]
  decide +kernel

/-- A plain text has no parts. -/
theorem boundary?_plainHeader (body : Bytes) :
    Entity.boundary? (Entity.contentOf plainHeader body).contentType = none := by
  have htype : ¬(⟨"text", "plain", []⟩ : ContentType).isType "multipart" = true := by
    decide +kernel
  rw [Entity.contentOf, contentType?_plainHeader, Option.getD_some, Entity.boundary?, if_neg htype]

section

variable {boundary : Bytes} (halnum : ∀ b ∈ boundary, Ascii.isAlnum b = true)

include halnum

/-- A mark or white space is not in a boundary. -/
theorem not_mem_of_isAlnum {b : UInt8} (hb : Ascii.isAlnum b = false) : b ∉ boundary := by
  intro hmem
  rw [halnum b hmem] at hb
  cases hb

theorem isWellFormed_mixedHeader : (mixedHeader boundary).IsWellFormed := by
  apply Header.isWellFormed_ofContentType rfl
  rw [List.mem_append, not_or]
  exact ⟨by decide, not_mem_of_isAlnum halnum rfl⟩

theorem contentType?_mixedHeader (hne : boundary ≠ []) :
    (mixedHeader boundary).contentType? = some (.mixed (Utf8.decodeLossy boundary)) := by
  have hall : ∀ n < 256, Ascii.isAlnum n.toUInt8 = true →
      Parameter.isBareByte n.toUInt8 = true := by decide +kernel
  have hbare : ∀ b ∈ boundary, Parameter.isBareByte b = true := by
    intro b hb
    have hb' := hall b.toNat b.toNat_lt
    rw [toUInt8_eq_of_eq rfl] at hb'
    exact hb' (halnum b hb)
  rw [mixedHeader, Header.contentType?_ofContentType,
    ContentType.parse_mixed (Parameter.value_bare hne hbare)]

theorem contentType_mixedHeader (hne : boundary ≠ []) (body : Bytes) :
    (Entity.contentOf (mixedHeader boundary) body).contentType
      = .mixed (Utf8.decodeLossy boundary) := by
  rw [Entity.contentOf, contentType?_mixedHeader halnum hne, Option.getD_some]

/-- The body is divided at the boundary. -/
theorem rawParts_mixedHeader (hne : boundary ≠ []) (body : Bytes) :
    Entity.rawParts (Entity.contentOf (mixedHeader boundary) body)
      = Multipart.parts boundary body := by
  have hall : ∀ n < 256, Ascii.isAlnum n.toUInt8 = true → n < 0x80 := by decide +kernel
  have hascii : ∀ b ∈ boundary, b.toNat < 0x80 := by
    intro b hb
    have hb' := hall b.toNat b.toNat_lt
    rw [toUInt8_eq_of_eq rfl] at hb'
    exact hb' (halnum b hb)
  rw [Entity.rawParts, contentType_mixedHeader halnum hne, ContentType.boundary?_mixed,
    Utf8.encode_decodeLossy_of_ascii hascii]
  rfl

end

/-! ## Rendered parts -/

/-- The lines of a header with nothing but a content type, and of what follows it. -/
theorem isFree_ofContentType {boundary value body : Bytes} (hlf : Ascii.lf ∉ value)
    (h : Multipart.IsFree boundary body) :
    Multipart.IsFree boundary ((Header.ofContentType value).write ++ Ascii.crlf ++ body) := by
  have hwrite : (Header.ofContentType value).write
      = Utf8.encode "Content-Type: " ++ value ++ Ascii.crlf := by
    have hname : Utf8.encode "Content-Type: "
        = Utf8.encode "Content-Type" ++ [':'.toUInt8, Ascii.sp] := by decide +kernel
    rw [hname]
    simp [Header.write, Header.ofContentType, Field.write]
  have hline : Ascii.lf ∉ Utf8.encode "Content-Type: " ++ value := by
    rw [List.mem_append, not_or]
    exact ⟨by decide, hlf⟩
  have hhead : Utf8.encode "Content-Type: " = 'C'.toUInt8 :: Utf8.encode "ontent-Type: " := by
    decide +kernel
  have hstart : (Utf8.encode "Content-Type: " ++ value).head? ≠ some '-'.toUInt8 := by
    rw [hhead, List.cons_append, List.head?_cons]
    decide
  have hne : Utf8.encode "Content-Type: " ++ value ≠ [] := by
    rw [hhead]
    exact List.cons_ne_nil _ _
  rw [hwrite]
  exact h.message hline hstart hne

/-- Joined parts have no delimiter lines of another boundary if the parts have none. -/
theorem isFree_join {boundary boundary' : Bytes}
    (halnum : ∀ b ∈ boundary, Ascii.isAlnum b = true)
    (halnum' : ∀ b ∈ boundary', Ascii.isAlnum b = true) (hne : boundary ≠ boundary')
    {parts : List Bytes} (hparts : ∀ part ∈ parts, Multipart.IsFree boundary part) :
    Multipart.IsFree boundary (Multipart.join boundary' parts) := by
  have hlf : Ascii.lf ∉ boundary' := not_mem_of_isAlnum halnum' rfl
  have hcr : Ascii.cr ∉ boundary := not_mem_of_isAlnum halnum rfl
  induction parts with
  | nil =>
    intro line hline
    rw [Multipart.lines_join_nil hlf, List.mem_singleton] at hline
    subst hline
    exact Multipart.isInner_of_ne halnum halnum' hne (by rintro b ⟨⟩; rfl)
  | cons part parts ih =>
    have hrest := ih fun p hp => hparts p (List.mem_cons_of_mem part hp)
    intro line hline
    rw [Multipart.lines_join_cons hlf, List.mem_cons, List.mem_append] at hline
    rcases hline with rfl | hline | hline
    · exact Multipart.isInner_of_ne halnum halnum' hne (by rintro b ⟨⟩; rfl)
    · exact (hparts part List.mem_cons_self).written hcr line hline
    · exact hrest line hline

/-- A rendered part has no delimiter lines of the boundaries above it. -/
theorem isFree_render {above : List Bytes} {t : TextTree} (h : IsRenderable above t)
    (habove : ∀ boundary ∈ above, ∀ b ∈ boundary, Ascii.isAlnum b = true) :
    ∀ boundary ∈ above, Multipart.IsFree boundary (render t) := by
  induction h with
  | leaf hfree =>
    intro boundary hboundary
    exact isFree_ofContentType (by decide) (hfree boundary hboundary)
  | @node above inner parts hne halnum hnew hparts h ih =>
    intro boundary hboundary
    have habove' : ∀ boundary ∈ inner :: above, ∀ b ∈ boundary, Ascii.isAlnum b = true := by
      intro boundary' hboundary'
      rcases List.mem_cons.mp hboundary' with rfl | hboundary'
      · exact halnum
      · exact habove boundary' hboundary'
    have hlf : Ascii.lf ∉ Utf8.encode "multipart/mixed; boundary=" ++ inner := by
      rw [List.mem_append, not_or]
      exact ⟨by decide, not_mem_of_isAlnum halnum rfl⟩
    have hdistinct : boundary ≠ inner := by
      rintro rfl
      exact hnew hboundary
    rw [render, renderAll_eq_map]
    apply isFree_ofContentType hlf
    apply isFree_join (habove boundary hboundary) halnum hdistinct
    intro part hpart
    obtain ⟨t, ht, rfl⟩ := List.mem_map.mp hpart
    exact ih t ht habove' boundary (List.mem_cons_of_mem inner hboundary)

/-! ## Reading rendered trees -/

/-- Without limits a rendered tree is read back. -/
theorem parseFully_render {above : List Bytes} {t : TextTree} (h : IsRenderable above t)
    (habove : ∀ boundary ∈ above, ∀ b ∈ boundary, Ascii.isAlnum b = true) :
    Entity.parseFully (render t) = entity t := by
  induction h with
  | @leaf _ body hfree =>
    rw [render, entity, Entity.parseFully, Entity.contentRead_written isWellFormed_plainHeader,
      Entity.wholeTree_of_no_boundary (boundary?_plainHeader body), Entity.ofHeader]
  | @node above inner parts hne halnum hnew hparts h ih =>
    have habove' : ∀ boundary ∈ inner :: above, ∀ b ∈ boundary, Ascii.isAlnum b = true := by
      intro boundary' hboundary'
      rcases List.mem_cons.mp hboundary' with rfl | hboundary'
      · exact halnum
      · exact habove boundary' hboundary'
    -- Each part is free of delimiter lines of `inner`, so splitting finds it.
    have hfree : ∀ part ∈ parts.map render, Multipart.IsFree inner part := by
      intro part hpart
      obtain ⟨t, ht, rfl⟩ := List.mem_map.mp hpart
      exact isFree_render (h t ht) habove' inner List.mem_cons_self
    have hsplit : Multipart.parts inner (Multipart.join inner (parts.map render))
        = parts.map render :=
      Multipart.parts_join (not_mem_of_isAlnum halnum rfl) (not_mem_of_isAlnum halnum rfl)
        (by simpa using hparts) hfree
    have hread : (parts.map render).map Entity.parseFully = parts.map entity := by
      rw [List.map_map]
      exact List.map_congr_left fun t ht => ih t ht habove'
    rw [render, entity, renderAll_eq_map, entities_eq_map, Entity.parseFully,
      Entity.contentRead_written (isWellFormed_mixedHeader halnum), Entity.wholeTree_eq,
      rawParts_mixedHeader halnum hne, hsplit, contentType_mixedHeader halnum hne,
      ContentType.partDefault_mixed]
    change Entity.ofParts _ ((parts.map render).map Entity.parseFully) = _
    rw [hread, Entity.ofParts_of_ne_nil _ (by simpa using hparts), Entity.withParts]

/-- A tree of texts that is rendered as a message is read back under limits that leave room for it:
the same tree, and in each leaf the same bytes. -/
theorem parse_render {t : TextTree} (h : IsRenderable [] t) {limits : Limits}
    (hdepth : Entity.NestsWithin limits.maxRecursion (entity t))
    (hsize : (entity t).descendants ≤ limits.maxParts) :
    Entity.parse limits (render t) = entity t := by
  have hread : Entity.parseFully (render t) = entity t := parseFully_render h (by simp)
  rw [← hread] at hdepth hsize
  rw [Entity.parse_eq_parseFully hdepth hsize, hread]

/-- A text that looks like delimiter lines, before another one that is empty, below two boundaries
of which the one begins with the other. -/
def nestedTree : TextTree :=
  .node (Utf8.encode "b1")
    [.node (Utf8.encode "b10") [.leaf (Utf8.encode "--b\r\n--b100--\r"), .leaf []],
      .leaf (Utf8.encode "--b10\n")]

/-- Nested parts with similar boundaries are read back. -/
theorem parse_render_nested :
    IsRenderable [] nestedTree
      ∧ Entity.NestsWithin 2 (entity nestedTree)
      ∧ (entity nestedTree).descendants = 4
      ∧ Entity.parse ⟨2, 4⟩ (render nestedTree) = entity nestedTree := by
  have hword : ∀ b ∈ Utf8.encode "b1", Ascii.isAlnum b = true := List.all_eq_true.mp (by decide)
  have hword' : ∀ b ∈ Utf8.encode "b10", Ascii.isAlnum b = true := List.all_eq_true.mp (by decide)
  have hinner : IsRenderable [Utf8.encode "b1"]
      (.node (Utf8.encode "b10") [.leaf (Utf8.encode "--b\r\n--b100--\r"), .leaf []]) := by
    refine .node (by decide) hword' (by decide) (by simp) ?_
    intro part hpart
    rcases List.mem_pair.mp hpart with rfl | rfl
    · refine .leaf fun boundary hboundary => ?_
      rcases List.mem_pair.mp hboundary with rfl | rfl
      · exact Multipart.isFree_of_all (by decide +kernel)
      · exact Multipart.isFree_of_all (by decide +kernel)
    · exact .leaf fun boundary _ => Multipart.isFree_of_all rfl
  have hrenderable : IsRenderable [] nestedTree := by
    refine .node (by decide) hword (by simp) (by simp) ?_
    intro part hpart
    rcases List.mem_pair.mp hpart with rfl | rfl
    · exact hinner
    · refine .leaf fun boundary hboundary => ?_
      rw [List.mem_singleton.mp hboundary]
      exact Multipart.isFree_of_all (by decide +kernel)
  have hdepths : ((Entity.outline 0 (entity nestedTree)).all fun x => x.1 ≤ 2) = true := by
    decide +kernel
  have hdepth : Entity.NestsWithin 2 (entity nestedTree) := by
    intro x hx
    simpa using List.all_eq_true.mp hdepths x hx
  exact ⟨hrenderable, hdepth, rfl, parse_render hrenderable hdepth (Nat.le_refl 4)⟩

end TextTree

end ImapMessage
