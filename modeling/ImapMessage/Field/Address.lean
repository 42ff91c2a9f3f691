/-
# Addresses

The values of address headers: mailboxes, with or without a display name, and named
groups of them.  The words of an address are kept as they were written, quoting apart, and
apart from each other.  Old and careless forms are read too: empty list elements, source
routes, mailboxes without a domain, groups that are not closed.

Key constructions:
* `AddrSpec`, `Mailbox`, `Address`: the parts of an address list.
* `Address.list`: the reader of address lists.
* `Address.parseList`: the addresses at the start of a value.
-/
import ImapMessage.Field.Word

namespace ImapMessage

/-- Where mail goes. -/
structure AddrSpec where
  /-- The words of the part before the at sign, which dots divide. -/
  localPart : List Bytes
  /-- The atoms of the domain, which dots divide, or one domain in brackets; empty if there is no
  at sign. -/
  domain : List Bytes
  deriving DecidableEq, Repr

/-- One recipient or sender. -/
structure Mailbox where
  /-- The words of the display name; empty if there is none. -/
  name : List Bytes
  /-- Where its mail goes. -/
  spec : AddrSpec
  deriving DecidableEq, Repr

/-- An element of an address list. -/
inductive Address where
  /-- A single mailbox. -/
  | mailbox (m : Mailbox)
  /-- A named group of mailboxes. -/
  | group (name : List Bytes) (members : List Mailbox)
  deriving DecidableEq, Repr

namespace Address

/-- The mailboxes that an address stands for. -/
def mailboxes : Address → List Mailbox
  | .mailbox m => [m]
  | .group _ members => members

/-- The part before the at sign. -/
def localPart : Reader (List Bytes) :=
  Reader.sepBy1 (Reader.byte '.') Word.word

/-- A domain in brackets, which stay with it. -/
def domainLiteral : Reader Bytes := fun s =>
  match Comment.skip s with
  | [] => none
  | b :: rest =>
    if b = '['.toUInt8 then
      (Word.enclosed ']'.toUInt8 (fun c => c == '['.toUInt8) rest).map fun (w, r) =>
        ('['.toUInt8 :: w ++ [']'.toUInt8], Comment.skip r)
    else none

/-- A domain: atoms with dots between them, or one domain in brackets. -/
def domain : Reader (List Bytes) :=
  Reader.orElse (Reader.sepBy1 (Reader.byte '.') Word.atom) fun s =>
    (domainLiteral s).map fun (d, r) => ([d], r)

/-- Where mail goes; the domain may be missing. -/
def addrSpec : Reader AddrSpec := fun s =>
  match localPart s with
  | none => none
  | some (l, rest) =>
    let (d, rest') := Reader.optional (Reader.after (Reader.byte '@') domain) rest
    some (⟨l, d.getD []⟩, rest')

/-- One comma with the comments and white space around it. -/
def comma : Reader Unit := fun s =>
  (Reader.byte ',' (Comment.skip s)).map fun (_, r) => ((), Comment.skip r)

/-- The commas between two list elements; more than one enclose empty elements. -/
def commas : Reader Unit := fun s =>
  (comma s).map fun (_, r) => ((), (Reader.many comma r).2)

/-- One step of a source route. -/
def hop : Reader (List Bytes) := fun s =>
  Reader.after (Reader.byte '@') domain (Comment.skip s)

/-- A source route, which has no meaning any more. -/
def route : Reader Unit := fun s =>
  match Reader.sepBy1 commas hop s with
  | none => none
  | some (_, rest) => Reader.byte ':' rest

/-- Where mail goes, in angle brackets. -/
def angle : Reader AddrSpec := fun s =>
  match Reader.byte '<' (Comment.skip s) with
  | none => none
  | some (_, rest) =>
    match addrSpec (Reader.optional route rest).2 with
    | none => none
    | some (a, rest') => (Reader.byte '>' rest').map fun (_, r) => (a, Comment.skip r)

/-- A mailbox with angle brackets, after a display name or not. -/
def namedMailbox : Reader Mailbox := fun s =>
  let (name, rest) := Reader.optional Word.phrase s
  (angle rest).map fun (a, r) => (⟨name.getD [], a⟩, r)

/-- A mailbox without angle brackets. -/
def bareMailbox : Reader Mailbox := fun s =>
  (addrSpec s).map fun (a, r) => (⟨[], a⟩, r)

/-- A mailbox. -/
def mailboxReader : Reader Mailbox :=
  Reader.orElse namedMailbox bareMailbox

/-- One element or more, with commas between them and perhaps around them. -/
def listOf {α : Type} (p : Reader α) : Reader (List α) := fun s =>
  match Reader.sepBy1 commas p (Reader.optional commas s).2 with
  | none => none
  | some (as, rest) => some (as, (Reader.optional commas rest).2)

/-- A group: a display name, a colon, members and a semicolon, which may be missing. -/
def groupReader : Reader Address := fun s =>
  match Word.phrase s with
  | none => none
  | some (name, rest) =>
    match Reader.byte ':' rest with
    | none => none
    | some (_, rest) =>
      let (members, rest) := Reader.optional (listOf mailboxReader) rest
      let (_, rest) := Reader.optional (Reader.byte ';') (Comment.skip rest)
      some (.group name (members.getD []), Comment.skip rest)

/-- An address.  A group comes first, since its name could be read as a mailbox. -/
def reader : Reader Address :=
  Reader.orElse groupReader fun s => (mailboxReader s).map fun (m, r) => (.mailbox m, r)

/-- An address list. -/
def list : Reader (List Address) :=
  listOf reader

/-- The addresses at the start of a value; what follows them is ignored.  There is no result if
there is no address. -/
def parseList (value : Bytes) : Option (List Address) :=
  (list value).map Prod.fst

end Address

end ImapMessage
