/-
# The structure of a message

What a client is told about the tree of a message without its contents.

Key constructions:
* `BodyStructure`: what is told about an entity and its parts.
* `BodyStructure.ofEntity`: the structure of an entity.
-/
import ImapMessage.Display
import ImapMessage.Entity

namespace ImapMessage

/-- What is told about an entity only on request. -/
structure BodyExtension where
  /-- The disposition, or empty. -/
  disposition : String
  /-- The parameters of the disposition. -/
  dispositionParameters : List Parameter
  /-- The language, or empty. -/
  language : String
  /-- The location, or empty. -/
  location : String
  deriving DecidableEq, Repr

/-- What is told about an entity apart from its parts. -/
structure BodySummary where
  /-- The content type. -/
  contentType : ContentType
  /-- The identification, or empty. -/
  id : String
  /-- The description, or empty. -/
  description : String
  /-- The transfer encoding, or empty. -/
  encoding : String
  /-- The length of the body. -/
  octets : Nat
  /-- The number of line feeds in the body. -/
  lines : Nat
  /-- What is told only on request. -/
  extension? : Option BodyExtension
  deriving DecidableEq, Repr

/-- What is told about an entity and its parts. -/
inductive BodyStructure where
  /-- An entity and its parts. -/
  | node (summary : BodySummary) (children : List BodyStructure)

namespace BodyStructure

/-- The first value of a name without the white space around it, or empty. -/
def plainValue (h : Header) (name : String) : String :=
  ((h.get? name).map Display.trimmed).getD ""

/-- What is told about an entity only on request. -/
def extensionOf (h : Header) : BodyExtension :=
  { disposition := (h.disposition?.map Disposition.kind).getD ""
    dispositionParameters := (h.disposition?.map Disposition.parameters).getD []
    language := plainValue h "Content-Language"
    location := plainValue h "Content-Location" }

variable [FurtherCharsets]

/-- What is told about an entity apart from its parts. -/
def summaryOf (extended : Bool) (c : Content) : BodySummary :=
  { contentType := c.contentType
    id := plainValue c.header "Content-ID"
    description := ((c.header.get? "Content-Description").map Display.unstructured).getD ""
    encoding := plainValue c.header "Content-Transfer-Encoding"
    octets := c.body.length
    lines := c.body.count Ascii.lf
    extension? := if extended then some (extensionOf c.header) else none }

mutual

/-- The structure of an entity. -/
def ofEntity (extended : Bool) : Entity → BodyStructure
  | .leaf c => .node (summaryOf extended c) []
  | .multipart c parts => .node (summaryOf extended c) (ofEntities extended parts)

/-- The structures of some entities. -/
def ofEntities (extended : Bool) : List Entity → List BodyStructure
  | [] => []
  | e :: es => ofEntity extended e :: ofEntities extended es

end

/-- The structures of some entities are those of each. -/
theorem ofEntities_eq_map (extended : Bool) (es : List Entity) :
    ofEntities extended es = es.map (ofEntity extended) := by
  induction es with
  | nil => rfl
  | cons e es ih => rw [ofEntities, ih, List.map_cons]

/-- What is told about the entity itself. -/
def summary : BodyStructure → BodySummary
  | .node s _ => s

/-- What is told about its parts. -/
def children : BodyStructure → List BodyStructure
  | .node _ cs => cs

end BodyStructure

end ImapMessage
