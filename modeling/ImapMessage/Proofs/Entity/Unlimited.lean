/-
# Reading without limits

Every part of a body is shorter than the body, since it does not contain the delimiter line
before it.  Reading therefore ends without any limit on depth or on the number of parts.

Key constructions:
* `Multipart.sublist_of_mem_parts`, `Multipart.length_lt_of_mem_parts`: parts are made up of bytes
  of the body, and are shorter than it.
* `Entity.wholeTree`, `Entity.parseFully`: the whole tree of a content, and of a message.
-/
import ImapMessage.Entity.Parse
import ImapMessage.Proofs.Entity.Lines
import Mathlib.Data.List.Infix

namespace ImapMessage

/-- The body of a message is the end of the message. -/
theorem HeaderBlock.body_read_suffix (raw : Bytes) : (HeaderBlock.read raw).body <:+ raw := by
  have hsuffix : ((Line.lines raw).dropWhile fun line => !(Line.text line).isEmpty).tail
      <:+ Line.lines raw :=
    (List.tail_suffix _).trans (List.dropWhile_suffix _)
  have hbody := hsuffix.flatten
  rwa [Line.flatten_lines] at hbody

/-! ## Parts -/

namespace Multipart

open scoped List

/-- Parts are made up of bytes of the lines that they are found in, in their order. -/
theorem sublist_of_mem_partsAfter (boundary : Bytes) (lines : List Bytes) :
    ∀ part ∈ partsAfter boundary lines, part <+ lines.flatten := by
  have hinner : ∀ lines : List Bytes,
      (lines.takeWhile (isInner boundary)).flatten <+ lines.flatten :=
    fun lines => (List.takeWhile_prefix _).flatten.sublist
  intro part hpart
  fun_induction partsAfter boundary lines with
  | case1 lines inner hnone =>
    rw [List.mem_singleton.mp hpart]
    exact hinner lines
  | case2 lines inner line rest hsome ih =>
    have hsuffix : line :: rest <:+ lines := hsome ▸ List.dropWhile_suffix _
    rcases List.mem_cons.mp hpart with rfl | hpart
    · exact (Line.withoutBreak_isPrefix inner).sublist.trans (hinner lines)
    · split at hpart
      · cases hpart
      · have hrest : rest <:+ lines := (List.suffix_cons line rest).trans hsuffix
        exact (ih hpart).trans hrest.flatten.sublist

/-- Parts are found after a delimiter line. -/
theorem exists_delimiter_of_mem_parts {boundary body part : Bytes}
    (h : part ∈ parts boundary body) :
    ∃ line rest, line :: rest <:+ Line.lines body ∧ part <+ rest.flatten := by
  unfold parts at h
  split at h
  · cases h
  · rename_i line rest hlines
    split at h
    · cases h
    · exact ⟨line, rest, hlines ▸ List.dropWhile_suffix _,
        sublist_of_mem_partsAfter boundary rest part h⟩

/-- Parts are made up of bytes of the body. -/
theorem sublist_of_mem_parts {boundary body part : Bytes} (h : part ∈ parts boundary body) :
    part <+ body := by
  obtain ⟨line, rest, hsuffix, hpart⟩ := exists_delimiter_of_mem_parts h
  have hrest := ((List.suffix_cons line rest).trans hsuffix).flatten
  rw [Line.flatten_lines] at hrest
  exact hpart.trans hrest.sublist

/-- A part is shorter than the body: the delimiter line before it belongs to no part. -/
theorem length_lt_of_mem_parts {boundary body part : Bytes} (h : part ∈ parts boundary body) :
    part.length < body.length := by
  obtain ⟨line, rest, hsuffix, hpart⟩ := exists_delimiter_of_mem_parts h
  have hline : 0 < line.length :=
    Line.length_pos_of_mem_lines (hsuffix.subset List.mem_cons_self)
  have hbody := hsuffix.flatten.length_le
  rw [List.flatten_cons, List.length_append, Line.flatten_lines] at hbody
  have := hpart.length_le
  omega

end Multipart

/-! ## Whole trees -/

namespace Entity

/-- Header, content type and body of a message; if it says nothing about itself, its content type
is `assumed`. -/
def contentRead (assumed : ContentType) (raw : Bytes) : Content :=
  contentFrom assumed (HeaderBlock.read raw)

/-- The raw parts of a body; none if it is not a sequence of parts. -/
def rawParts (c : Content) : List Bytes :=
  match boundary? c.contentType with
  | none => []
  | some boundary => Multipart.parts boundary c.body

theorem exists_boundary_of_mem_rawParts {c : Content} {part : Bytes} (h : part ∈ rawParts c) :
    ∃ boundary, boundary? c.contentType = some boundary
      ∧ part ∈ Multipart.parts boundary c.body := by
  unfold rawParts at h
  split at h
  · cases h
  · rename_i boundary hboundary
    exact ⟨boundary, hboundary, h⟩

theorem length_lt_of_mem_rawParts {c : Content} {part : Bytes} (h : part ∈ rawParts c) :
    part.length < c.body.length := by
  obtain ⟨boundary, -, hpart⟩ := exists_boundary_of_mem_rawParts h
  exact Multipart.length_lt_of_mem_parts hpart

/-- The whole tree below a content: its parts, and theirs in the same way, whatever their depth
and their number. -/
def wholeTree (c : Content) : Entity :=
  ofParts c ((rawParts c).attach.map fun part =>
    wholeTree (contentRead (partDefault c.contentType) part.1))
termination_by c.body.length
decreasing_by
  exact (HeaderBlock.body_read_suffix part.1).length_le.trans_lt (length_lt_of_mem_rawParts part.2)

theorem wholeTree_eq (c : Content) :
    wholeTree c = ofParts c ((rawParts c).map fun raw =>
      wholeTree (contentRead (partDefault c.contentType) raw)) := by
  rw [wholeTree]
  simp only [List.map_attach_eq_pmap, List.pmap_eq_map]

/-- Without a boundary there is nothing below an entity. -/
theorem wholeTree_of_no_boundary {c : Content} (h : boundary? c.contentType = none) :
    wholeTree c = .leaf c := by
  rw [wholeTree_eq, rawParts, h]
  rfl

/-- Everything in a message. -/
def parseFully (raw : Bytes) : Entity :=
  wholeTree (contentRead .plain raw)

end Entity

end ImapMessage
