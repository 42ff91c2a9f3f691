/-
# Which boundaries delimit parts

A boundary reaches the body by way of a quoted parameter, in which a run of white space is read as
one space, and is then compared with the body byte by byte.  A boundary in quotes therefore delimits
parts if and only if no two spaces are adjacent in it.

Key constructions:
* `Multipart.IsBoundary`: the boundaries that the message format allows.
* `Entity.delimitedMessage`: a message of parts with a boundary in quotes.
* `Entity.rawParts_delimited`: the parts of its body, after the boundary has been read.
* `Entity.parse_delimitedMessage`, `Entity.parse_delimitedMessage_of_adjacent`: boundaries that
  delimit parts, and those that do not.
-/
import ImapMessage.Proofs.Entity.Delimited
import ImapMessage.Proofs.Entity.HeaderRoundTrip
import ImapMessage.Proofs.Field.Quoted

namespace ImapMessage

/-! ## Boundaries -/

namespace Multipart

/-- The bytes of boundaries: letters, digits, spaces and some marks. -/
def isBoundaryByte (b : UInt8) : Bool :=
  Ascii.isAlnum b ||
  Ascii.oneOf [' ', '\'', '(', ')', '+', '_', ',', '-', '.', '/', ':', '=', '?'] b

/-- A boundary that the message format allows. -/
structure IsBoundary (boundary : Bytes) : Prop where
  ne_nil : boundary ≠ []
  length_le : boundary.length ≤ 70
  bytes : ∀ b ∈ boundary, isBoundaryByte b = true
  last : boundary.getLast? ≠ some Ascii.sp

/-- What no byte of a boundary is. -/
theorem of_isBoundaryByte {b : UInt8} (h : isBoundaryByte b = true) :
    (b ≠ Word.quote ∧ b ≠ Comment.backslash) ∧ (b ≠ Ascii.cr ∧ b ≠ Ascii.lf)
      ∧ (Ascii.isFold b = true → b = Ascii.sp) ∧ b.toNat < 0x80 := by
  have hall : ∀ n < 256, isBoundaryByte n.toUInt8 = true →
      (n.toUInt8 ≠ Word.quote ∧ n.toUInt8 ≠ Comment.backslash)
        ∧ (n.toUInt8 ≠ Ascii.cr ∧ n.toUInt8 ≠ Ascii.lf)
        ∧ (Ascii.isFold n.toUInt8 = true → n.toUInt8 = Ascii.sp) ∧ n.toUInt8.toNat < 0x80 := by
    decide +kernel
  have hb := hall b.toNat b.toNat_lt
  rw [toUInt8_eq_of_eq rfl] at hb
  exact hb h

namespace IsBoundary

variable {boundary : Bytes} (h : IsBoundary boundary)

include h

theorem cr_not_mem : Ascii.cr ∉ boundary :=
  fun hmem => (of_isBoundaryByte (h.bytes _ hmem)).2.1.1 rfl

theorem lf_not_mem : Ascii.lf ∉ boundary :=
  fun hmem => (of_isBoundaryByte (h.bytes _ hmem)).2.1.2 rfl

theorem hasOnlySpaces : Word.HasOnlySpaces boundary :=
  fun b hb => (of_isBoundaryByte (h.bytes b hb)).2.2.1

/-- A boundary in quotes is read with one space for each run of them. -/
theorem encode_collapse :
    Utf8.encode (Utf8.decodeLossy (Word.collapse boundary)) = Word.collapse boundary := by
  apply Utf8.encode_decodeLossy_of_ascii
  intro b hb
  rcases Word.mem_collapse hb with rfl | hb
  · decide
  · exact (of_isBoundaryByte (h.bytes b hb)).2.2.2

end IsBoundary

/-- A line that does not begin with the boundary is no delimiter line. -/
theorem isInner_of_not_prefix {boundary rest : Bytes} (h : ¬boundary <+: rest) :
    isInner boundary (hyphens ++ rest) = true := by
  have hnone : (hyphens ++ boundary).isPrefixOf? (hyphens ++ rest) = none := by
    rw [Option.eq_none_iff_forall_ne_some]
    intro after heq
    rw [isPrefixOf?_eq_some_iff, List.append_assoc, List.append_cancel_left_eq] at heq
    exact h ⟨after, heq.symm⟩
  rw [isInner, delimiter?, hnone]
  rfl

end Multipart

/-! ## The content type of joined parts -/

namespace ContentType

/-- The content type of mixed parts with a boundary. -/
def mixed (boundary : String) : ContentType :=
  ⟨"multipart", "mixed", [⟨"boundary", boundary⟩]⟩

theorem boundary?_mixed (boundary : String) :
    Entity.boundary? (mixed boundary) = some (Utf8.encode boundary) := by
  have htype : (mixed boundary).isType "multipart" = true := Ascii.sameName_self _
  have hparameter : (mixed boundary).parameter? "boundary" = some boundary := by
    simp [parameter?, Parameter.lookup, mixed, Ascii.sameName_self]
  rw [Entity.boundary?, if_pos htype, hparameter, Option.map_some]

theorem partDefault_mixed (boundary : String) : Entity.partDefault (mixed boundary) = plain := by
  have hsubtype : ¬(mixed boundary).isSubtype "digest" = true := by
    change ¬Ascii.sameName "mixed" "digest" = true
    decide
  rw [Entity.partDefault, if_neg hsubtype]

/-- A content type of mixed parts has what is read after the equals sign as its boundary. -/
theorem parse_mixed {s value : Bytes}
    (h : Reader.orElse Word.quotedString Parameter.bareValue s = some (value, [])) :
    parse (Utf8.encode "multipart/mixed; boundary=" ++ s)
      = some (mixed (Utf8.decodeLossy value)) := by
  have hname : Utf8.encode "multipart/mixed; boundary="
      = Utf8.encode "multipart" ++ '/'.toUInt8 :: (Utf8.encode "mixed"
        ++ ';'.toUInt8 :: Ascii.sp :: (Utf8.encode "boundary" ++ ['='.toUInt8])) := by
    decide +kernel
  have hvalue : Utf8.encode "multipart/mixed; boundary=" ++ s
      = Utf8.encode "multipart" ++ '/'.toUInt8 :: (Utf8.encode "mixed"
        ++ ';'.toUInt8 :: Ascii.sp :: (Utf8.encode "boundary" ++ '='.toUInt8 :: s)) := by
    rw [hname]
    simp
  have htype := Parameter.token_written (w := Utf8.encode "multipart") (b := '/'.toUInt8)
    (by decide) (List.all_eq_true.mp (by decide)) (by decide) (by decide) (by decide)
  have hsubtype := Parameter.token_written (w := Utf8.encode "mixed") (b := ';'.toUInt8)
    (by decide) (List.all_eq_true.mp (by decide)) (by decide) (by decide) (by decide)
  have hboundary : ∀ b ∈ Utf8.encode "boundary", Parameter.isTokenByte b = true :=
    List.all_eq_true.mp (by decide)
  have hend : Reader.many Parameter.reader [] = ([], []) := Reader.many_of_eq_none rfl
  have hparameters := Reader.many_of_eq_some (Parameter.reader_written (by decide) hboundary h)
    (by simp)
  rw [hend] at hparameters
  have hlowered : Parameter.lowered (Utf8.encode "multipart") = "multipart"
      ∧ Parameter.lowered (Utf8.encode "mixed") = "mixed"
      ∧ Parameter.lowered (Utf8.encode "boundary") = "boundary" := by
    decide +kernel
  rw [parse, hvalue, reader]
  simp only [htype, hsubtype, Reader.byte_cons, hparameters, hlowered, Option.bind_eq_bind,
    Option.bind_some]
  rfl

/-- The value of a content type with a boundary in quotes. -/
def boundaryValue (boundary : Bytes) : Bytes :=
  Utf8.encode "multipart/mixed; boundary=" ++ Word.quote :: (boundary ++ [Word.quote])

/-- A boundary in quotes is read with one space for each run of white space. -/
theorem parse_boundaryValue {boundary : Bytes}
    (h : ∀ b ∈ boundary, b ≠ Word.quote ∧ b ≠ Comment.backslash) :
    parse (boundaryValue boundary)
      = some (mixed (Utf8.decodeLossy (Word.collapse boundary))) := by
  have hvalue := Parameter.value_quoted h []
  rw [Comment.skip] at hvalue
  exact parse_mixed hvalue

end ContentType

/-! ## Headers with nothing but a content type -/

namespace Header

/-- A header with nothing but a content type. -/
def ofContentType (value : Bytes) : Header :=
  ⟨[⟨"Content-Type", value⟩]⟩

/-- A content type on one line can be written. -/
theorem isWellFormed_ofContentType {value : Bytes}
    (hstart : HeaderBlock.isContinuation value = false) (hlf : Ascii.lf ∉ value) :
    (ofContentType value).IsWellFormed := by
  have hplain : ∀ c ∈ "Content-Type".toList, c ≠ ':' ∧ Ascii.isSpaceChar c = false :=
    Field.plain_of_all (by decide)
  have htrim : Blank.trim "Content-Type" = "Content-Type" := by decide
  have hne : "Content-Type" ≠ "" := by decide
  intro f hf
  rw [List.mem_singleton.mp hf]
  exact ⟨hne, htrim, hplain, hstart, HeaderBlock.isFolded_of_not_mem hlf⟩

theorem contentType?_ofContentType (value : Bytes) :
    (ofContentType value).contentType? = ContentType.parse value := by
  have hvalue : (ofContentType value).get? "Content-Type" = some value := by
    simp [get?, ofContentType, Field.hasName, Ascii.sameName_self]
  rw [contentType?, hvalue, Option.bind_some]

end Header

/-- Header and body of a written message. -/
theorem Entity.contentRead_written {h : Header} (hwf : h.IsWellFormed) (body : Bytes) :
    contentRead .plain (h.write ++ Ascii.crlf ++ body) = contentOf h body := by
  rw [contentRead, HeaderBlock.read_write hwf]
  rfl

/-! ## Messages of joined parts -/

namespace Entity

/-- The header of a message of parts with a boundary in quotes. -/
def delimitedHeader (boundary : Bytes) : Header :=
  ⟨[⟨"Content-Type", ContentType.boundaryValue boundary⟩]⟩

/-- A message of parts with a boundary in quotes. -/
def delimitedMessage (boundary : Bytes) (parts : List Bytes) : Bytes :=
  (delimitedHeader boundary).write ++ Ascii.crlf ++ Multipart.join boundary parts

section

variable {boundary : Bytes} (h : Multipart.IsBoundary boundary)

include h

theorem isWellFormed_delimitedHeader : (delimitedHeader boundary).IsWellFormed := by
  have hlf : Ascii.lf ∉ ContentType.boundaryValue boundary := by
    rw [ContentType.boundaryValue, List.mem_append, List.mem_cons, List.mem_append, not_or, not_or,
      not_or]
    exact ⟨by decide, by decide, h.lf_not_mem, by decide⟩
  exact Header.isWellFormed_ofContentType rfl hlf

/-- What the header says. -/
theorem contentType?_delimitedHeader :
    (delimitedHeader boundary).contentType?
      = some (.mixed (Utf8.decodeLossy (Word.collapse boundary))) := by
  have hplain : ∀ b ∈ boundary, b ≠ Word.quote ∧ b ≠ Comment.backslash :=
    fun b hb => (Multipart.of_isBoundaryByte (h.bytes b hb)).1
  exact (Header.contentType?_ofContentType _).trans (ContentType.parse_boundaryValue hplain)

/-- Header and body of the message. -/
theorem contentRead_delimited (parts : List Bytes) :
    contentRead .plain (delimitedMessage boundary parts)
      = contentOf (delimitedHeader boundary) (Multipart.join boundary parts) :=
  contentRead_written (isWellFormed_delimitedHeader h) _

theorem contentType_delimited (body : Bytes) :
    (contentOf (delimitedHeader boundary) body).contentType
      = .mixed (Utf8.decodeLossy (Word.collapse boundary)) := by
  rw [contentOf, contentType?_delimitedHeader h, Option.getD_some]

/-- The body is divided at the boundary with one space for each run of them. -/
theorem rawParts_delimited (body : Bytes) :
    rawParts (contentOf (delimitedHeader boundary) body)
      = Multipart.parts (Word.collapse boundary) body := by
  rw [rawParts, contentType_delimited h, ContentType.boundary?_mixed, h.encode_collapse]
  rfl

end

/-- With a boundary in quotes in which no two spaces are adjacent, a message is read part by
part. -/
theorem parse_delimitedMessage {boundary : Bytes} (h : Multipart.IsBoundary boundary)
    (hadjacent : ¬[Ascii.sp, Ascii.sp] <:+: boundary) {parts : List Bytes} (hne : parts ≠ [])
    (hparts : ∀ part ∈ parts, Multipart.IsFree boundary part) {levels maxParts : Nat}
    (hcount : countAll (parts.map (parse ⟨levels, maxParts⟩)) ≤ maxParts) :
    parse ⟨levels + 1, maxParts⟩ (delimitedMessage boundary parts)
      = withParts (delimitedHeader boundary) (Multipart.join boundary parts)
        (parts.map (parse ⟨levels, maxParts⟩)) := by
  have hraw : rawParts (contentOf (delimitedHeader boundary) (Multipart.join boundary parts))
      = parts := by
    rw [rawParts_delimited h, Word.collapse_eq_self h.hasOnlySpaces hadjacent,
      Multipart.parts_join h.lf_not_mem h.cr_not_mem hne hparts]
  have hdefault : partDefault
      (contentOf (delimitedHeader boundary) (Multipart.join boundary parts)).contentType
        = .plain := by
    rw [contentType_delimited h, ContentType.partDefault_mixed]
  have hread := parse_of_rawParts (contentRead_delimited h parts) hdefault (by rwa [hraw])
  rw [hread, hraw, ofParts_of_ne_nil _ (by simpa using hne)]
  rfl

/-- With two adjacent spaces in a boundary in quotes, the delimiter lines of a message are none. -/
theorem parse_delimitedMessage_of_adjacent {boundary : Bytes} (h : Multipart.IsBoundary boundary)
    (hadjacent : [Ascii.sp, Ascii.sp] <:+: boundary) (limits : Limits) :
    parse limits (delimitedMessage boundary [[]])
      = ofHeader (delimitedHeader boundary) (Multipart.join boundary [[]]) := by
  have hnot := Word.not_prefix_of_adjacent h.hasOnlySpaces h.last hadjacent
  have hinner : ∀ line ∈ Line.lines (Multipart.join boundary [[]]),
      Multipart.isInner (Word.collapse boundary) line = true := by
    have hempty : Line.lines ([] ++ Ascii.crlf) = [Ascii.crlf] := by decide
    rw [Multipart.lines_join_cons h.lf_not_mem, Multipart.lines_join_nil h.lf_not_mem, hempty,
      List.append_assoc, List.append_assoc]
    simp only [List.cons_append, List.nil_append, List.mem_cons, List.not_mem_nil, or_false]
    rintro line (rfl | rfl | rfl)
    · exact Multipart.isInner_of_not_prefix (hnot Ascii.crlf)
    · rfl
    · exact Multipart.isInner_of_not_prefix (hnot Multipart.hyphens)
  have hraw : rawParts (contentOf (delimitedHeader boundary) (Multipart.join boundary [[]]))
      = [] := by
    rw [rawParts_delimited h, Multipart.parts, List.dropWhile_eq_nil_iff.mpr hinner]
  exact parse_of_rawParts_eq_nil (contentRead_delimited h [[]]) hraw limits

/-- A boundary in quotes delimits parts if and only if no two spaces are adjacent in it: then every
message of at most 1000 parts in all, none of which contains a delimiter line, is read part by part.
The parts are read with one level less than the message, which makes no difference if they do not
nest too deep. -/
theorem parse_delimitedMessage_iff {boundary : Bytes} (h : Multipart.IsBoundary boundary) :
    ((∀ parts : List Bytes, parts ≠ [] → (∀ part ∈ parts, Multipart.IsFree boundary part) →
        countAll (parts.map (parse ⟨19, 1000⟩)) ≤ 1000 →
        parse {} (delimitedMessage boundary parts)
          = withParts (delimitedHeader boundary) (Multipart.join boundary parts)
            (parts.map (parse ⟨19, 1000⟩)))
        ↔ ¬[Ascii.sp, Ascii.sp] <:+: boundary)
      ∧ ∀ part, NestsWithin 19 (parseFully part) → parse ⟨19, 1000⟩ part = parse {} part := by
  refine ⟨⟨fun hall hadjacent => ?_, fun hadjacent parts hne hparts hcount => ?_⟩,
    fun part => parse_of_nestsWithin⟩
  · have hfree : ∀ part ∈ ([[]] : List Bytes), Multipart.IsFree boundary part := by
      intro part hpart
      rw [List.mem_singleton.mp hpart]
      exact Multipart.isFree_of_all rfl
    have hread := hall [[]] (List.cons_ne_nil _ _) hfree (by decide +kernel)
    rw [parse_delimitedMessage_of_adjacent h hadjacent] at hread
    cases hread
  · exact parse_delimitedMessage h hadjacent hne hparts hcount

/-- A part without a header. -/
def shortPart : Bytes :=
  Utf8.encode "\r\nhi"

/-- A boundary with one space delimits two parts. -/
theorem parse_delimitedMessage_one_space :
    Multipart.IsBoundary (Utf8.encode "a b")
      ∧ parse {} (delimitedMessage (Utf8.encode "a b") [shortPart, []])
        = withParts (delimitedHeader (Utf8.encode "a b"))
          (Multipart.join (Utf8.encode "a b") [shortPart, []])
          [parse {} shortPart, parse {} []] := by
  have h : Multipart.IsBoundary (Utf8.encode "a b") :=
    ⟨by decide, by decide, List.all_eq_true.mp (by decide), by decide⟩
  obtain ⟨hiff, hlimits⟩ := parse_delimitedMessage_iff h
  have hnests : ∀ part, (parseWith ⟨19, 1000⟩ part).2.warnings = [] →
      NestsWithin 19 (parseFully part) := by
    intro part hquiet
    rw [← parse_of_no_warnings hquiet]
    exact nestsWithin_parse ⟨19, 1000⟩ part
  have hshort := hlimits shortPart (hnests shortPart (by decide +kernel))
  have hempty := hlimits [] (hnests [] (by decide +kernel))
  rw [← hshort, ← hempty]
  have hfree : ∀ part ∈ [shortPart, []], Multipart.IsFree (Utf8.encode "a b") part := by
    intro part hpart
    rcases List.mem_pair.mp hpart with rfl | rfl
    · exact Multipart.isFree_of_all (by decide +kernel)
    · exact Multipart.isFree_of_all (by decide +kernel)
  exact ⟨h, hiff.mpr (by decide) [shortPart, []] (by decide) hfree (by decide +kernel)⟩

/-- A boundary with two adjacent spaces delimits nothing, though the part contains no delimiter
line. -/
theorem not_delimited_two_spaces :
    Multipart.IsBoundary (Utf8.encode "a  b") ∧ Multipart.IsFree (Utf8.encode "a  b") shortPart
      ∧ delimitedMessage (Utf8.encode "a  b") [shortPart] = Utf8.encode
        "Content-Type: multipart/mixed; boundary=\"a  b\"\r\n\r\n--a  b\r\n\r\nhi\r\n--a  b--"
      ∧ (parse {} (delimitedMessage (Utf8.encode "a  b") [shortPart])).isMultipart = false := by
  have h : Multipart.IsBoundary (Utf8.encode "a  b") :=
    ⟨by decide, by decide, List.all_eq_true.mp (by decide), by decide⟩
  exact ⟨h, Multipart.isFree_of_all (by decide +kernel), by decide +kernel, by decide +kernel⟩

end Entity

end ImapMessage
