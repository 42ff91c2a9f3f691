/-
# Messages and their parts

A message is an entity: a header, a body, and, if the body is a sequence of parts, an entity
for each of them.

Key constructions:
* `Content`, `Entity`: what every entity has, and the tree.
* `Entity.ofHeader`, `Entity.withParts`: entities made from a header.
* `Entity.locate`: the entity at a path of part numbers.
* `Entity.beq`: whether two trees are the same.
-/
import ImapMessage.Error
import ImapMessage.Header

namespace ImapMessage

/-- What every entity has. -/
structure Content where
  /-- The header. -/
  header : Header
  /-- What the header says about the body, or what is assumed. -/
  contentType : ContentType
  /-- The raw body; of an entity with parts, it still holds everything around them. -/
  body : Bytes
  deriving DecidableEq, Repr

/-- A message or a part of one. -/
inductive Entity where
  /-- An entity without parts. -/
  | leaf (content : Content)
  /-- An entity whose body is a sequence of parts. -/
  | multipart (content : Content) (parts : List Entity)

namespace Entity

/-- Trees are built from leaves, part by part. -/
@[elab_as_elim]
theorem inductionOn {motive : Entity → Prop} (e : Entity) (leaf : ∀ c, motive (.leaf c))
    (multipart : ∀ c parts, (∀ part ∈ parts, motive part) → motive (.multipart c parts)) :
    motive e :=
  match e with
  | .leaf c => leaf c
  | .multipart c parts => multipart c parts fun part _ => inductionOn part leaf multipart

/-- Header, content type and body. -/
def content : Entity → Content
  | .leaf c => c
  | .multipart c _ => c

/-- The header. -/
def header (e : Entity) : Header := e.content.header

/-- The content type. -/
def contentType (e : Entity) : ContentType := e.content.contentType

/-- The raw body. -/
def body (e : Entity) : Bytes := e.content.body

/-- The parts, if the body is a sequence of parts. -/
def parts? : Entity → Option (List Entity)
  | .leaf _ => none
  | .multipart _ parts => some parts

/-- Whether the body is a sequence of parts. -/
def isMultipart (e : Entity) : Bool := e.parts?.isSome

/-- Header and body with the content type that the header gives, or plain text. -/
def contentOf (header : Header) (body : Bytes) : Content :=
  ⟨header, header.contentType?.getD ContentType.plain, body⟩

/-- An entity without parts. -/
def ofHeader (header : Header) (body : Bytes) : Entity :=
  .leaf (contentOf header body)

/-- An entity with the given parts. -/
def withParts (header : Header) (body : Bytes) (parts : List Entity) : Entity :=
  .multipart (contentOf header body) parts

instance : Inhabited Entity := ⟨ofHeader Header.empty []⟩

/-- The part with a number, which counts from 1. -/
def part? (e : Entity) (number : Nat) : Option Entity :=
  match e.parts?, number with
  | some parts, n + 1 => parts[n]?
  | _, _ => none

/-- The entity at a path of part numbers. -/
def locate (e : Entity) : List Nat → Except Error Entity
  | [] => .ok e
  | number :: path =>
    match e.part? number with
    | some part => part.locate path
    | none => .error .noSuchPart

mutual

/-- Whether two trees are the same. -/
def beq : Entity → Entity → Bool
  | .leaf a, .leaf b => a == b
  | .multipart a as, .multipart b bs => a == b && beqAll as bs
  | _, _ => false

/-- Whether two lists of trees are the same. -/
def beqAll : List Entity → List Entity → Bool
  | [], [] => true
  | a :: as, b :: bs => beq a b && beqAll as bs
  | _, _ => false

end

instance : BEq Entity := ⟨beq⟩

end Entity

end ImapMessage
