/-
# Reading a message

A message is read into a tree: header and body, and if the content type says that the body is
a sequence of parts, each part in the same way.  Two limits keep the tree small: how deep
parts may nest, and how many parts there may be in all.  What lies beyond them stays unread,
with a warning.

Key constructions:
* `Limits`: the two limits.
* `Warning`, `Progress`: what happens on the way.
* `Entity.parseEntity`: an entity, given how its parts are read.
* `Entity.parseAt`: an entity at a depth, with what has happened before and after it.
* `Entity.parse`: the tree of a message.
-/
import ImapMessage.Entity
import ImapMessage.Entity.HeaderBlock
import ImapMessage.Entity.Multipart

namespace ImapMessage

/-- How much of a message is read. -/
structure Limits where
  /-- How deep entities with parts may nest. -/
  maxRecursion : Nat := 20
  /-- How many parts there may be in all. -/
  maxParts : Nat := 1000
  deriving DecidableEq, Repr

/-- Why something stays unread. -/
inductive Warning where
  /-- Parts nest deeper than the limit. -/
  | tooDeep (limit : Nat)
  /-- There are more parts than the limit. -/
  | tooMany (limit : Nat)
  deriving DecidableEq, Repr

/-- A warning in words. -/
def Warning.text : Warning → String
  | .tooDeep limit => s!"Multipart nested more than {limit} levels deep, treating as a leaf"
  | .tooMany limit => s!"Message has more than {limit} parts, ignoring the rest"

/-- What has happened while reading. -/
structure Progress where
  /-- How many parts have been begun. -/
  parts : Nat := 0
  /-- The warnings in order. -/
  warnings : List Warning := []
  /-- How many header lines have been skipped. -/
  skipped : Nat := 0
  deriving DecidableEq, Repr

namespace Progress

/-- One more warning. -/
def warn (p : Progress) (w : Warning) : Progress :=
  { p with warnings := p.warnings ++ [w] }

/-- One more part. -/
def begin (p : Progress) : Progress :=
  { p with parts := p.parts + 1 }

/-- More skipped header lines. -/
def skip (p : Progress) (n : Nat) : Progress :=
  { p with skipped := p.skipped + n }

@[simp] theorem parts_warn (p : Progress) (w : Warning) : (p.warn w).parts = p.parts := rfl

@[simp] theorem parts_begin (p : Progress) : p.begin.parts = p.parts + 1 := rfl

@[simp] theorem parts_skip (p : Progress) (n : Nat) : (p.skip n).parts = p.parts := rfl

@[simp] theorem warnings_warn (p : Progress) (w : Warning) :
    (p.warn w).warnings = p.warnings ++ [w] := rfl

@[simp] theorem warnings_begin (p : Progress) : p.begin.warnings = p.warnings := rfl

@[simp] theorem warnings_skip (p : Progress) (n : Nat) : (p.skip n).warnings = p.warnings := rfl

end Progress

namespace Entity

/-- The boundary between the parts of a body, if the body is a sequence of parts. -/
def boundary? (c : ContentType) : Option Bytes :=
  if c.isType "multipart" then (c.parameter? "boundary").map Utf8.encode else none

/-- What is assumed about a part that says nothing about itself. -/
def partDefault (c : ContentType) : ContentType :=
  if c.isSubtype "digest" then .message else .plain

/-- Read parts one by one, as long as the limit allows. -/
def parseParts (limits : Limits) (parse : Bytes → Progress → Entity × Progress) :
    List Bytes → Progress → List Entity × Progress
  | [], progress => ([], progress)
  | raw :: rest, progress =>
    if limits.maxParts ≤ progress.parts then
      ([], progress.warn (.tooMany limits.maxParts))
    else
      let (entity, progress) := parse raw progress.begin
      let (entities, progress) := parseParts limits parse rest progress
      (entity :: entities, progress)

/-- An entity whose body is a sequence of parts, or a leaf if there are none. -/
def ofParts (content : Content) (parts : List Entity) : Entity :=
  if parts.isEmpty then .leaf content else .multipart content parts

/-- Header, content type and body of an entity; if it says nothing about itself, its content type
is `assumed`. -/
def contentFrom (assumed : ContentType) (block : HeaderBlock) : Content :=
  ⟨block.header, block.header.contentType?.getD assumed, block.body⟩

/-- How the parts of an entity are read, after what is assumed about them. -/
abbrev PartReader := ContentType → Bytes → Progress → Entity × Progress

/-- Read an entity whose parts are read by `reader?`; without a reader they would nest too
deep. -/
def parseEntity (limits : Limits) (reader? : Option PartReader) (assumed : ContentType)
    (raw : Bytes) (progress : Progress) : Entity × Progress :=
  let block := HeaderBlock.read raw
  let progress := progress.skip block.skipped
  let content := contentFrom assumed block
  match boundary? content.contentType, reader? with
  | none, _ => (.leaf content, progress)
  | some _, none => (.leaf content, progress.warn (.tooDeep limits.maxRecursion))
  | some boundary, some reader =>
    let (parts, progress) :=
      parseParts limits (reader (partDefault content.contentType))
        (Multipart.parts boundary content.body) progress
    (ofParts content parts, progress)

/-- Read an entity below which parts may nest `levels` deep. -/
def parseAt (limits : Limits) : (levels : Nat) → PartReader
  | 0 => parseEntity limits none
  | levels + 1 => parseEntity limits (some (parseAt limits levels))

theorem parseAt_zero (limits : Limits) : parseAt limits 0 = parseEntity limits none := rfl

theorem parseAt_succ (limits : Limits) (levels : Nat) :
    parseAt limits (levels + 1) = parseEntity limits (some (parseAt limits levels)) := rfl

/-- Read a message, and tell what has happened on the way. -/
def parseWith (limits : Limits) (raw : Bytes) : Entity × Progress :=
  parseAt limits limits.maxRecursion .plain raw {}

/-- The tree of a message. -/
def parse (limits : Limits) (raw : Bytes) : Entity :=
  (parseWith limits raw).1

end Entity

end ImapMessage
