/-
# Message flags

The flags of a message: six system flags, written with a leading backslash, and keywords,
which are atoms.  System flags are read in any letter case and printed in one; keywords
keep their case.

Key constructions:
* `Flag`, `Flag.text`: a flag and its written form.
* `Flag.parse`: the flag of a written form.
* `Flag.toDatum`, `Flag.ofDatum?`: a flag as a value of a self-describing format.
-/
import ImapMessage.Datum
import ImapMessage.Error
import ImapMessage.Text.Bytes

namespace ImapMessage

/-- A message flag. -/
inductive Flag where
  | answered
  | deleted
  | draft
  | flagged
  | seen
  /-- Reported beside the other flags, though clients never store it. -/
  | recent
  /-- A flag that clients have made up. -/
  | keyword (name : String)
  deriving DecidableEq, Repr

namespace Flag

/-- The system flags. -/
def system : List Flag :=
  [answered, deleted, draft, flagged, seen, recent]

/-- The written form. -/
def text : Flag → String
  | .answered => "\\Answered"
  | .deleted => "\\Deleted"
  | .draft => "\\Draft"
  | .flagged => "\\Flagged"
  | .seen => "\\Seen"
  | .recent => "\\Recent"
  | .keyword name => name

/-- Flags in order, as they are shown in a line. -/
def listText (flags : List Flag) : String :=
  "[" ++ ", ".intercalate (flags.map text) ++ "]"

/-- The characters of atoms: printable ASCII without space, parentheses and the marks that
have a meaning of their own in commands. -/
def isAtomChar (c : Char) : Bool :=
  32 < c.toNat && c.toNat < 127 && !(['(', ')', '{', '*', '%', '\\', '"', ']'].contains c)

/-- Whether a text is an atom. -/
def isAtom (s : String) : Bool :=
  !s.toList.isEmpty && s.toList.all isAtomChar

/-- The flag of a written form. -/
def parse (s : String) : Except Error Flag :=
  match system.find? fun f => Ascii.sameName s f.text with
  | some f => .ok f
  | none =>
    if s.toList.head? == some '\\' then .error .nonexistentFlag
    else if isAtom s then .ok (.keyword s)
    else .error .unsafeName

/-- The name of the case of a flag in self-describing formats. -/
def caseName : Flag → String
  | .answered => "Answered"
  | .deleted => "Deleted"
  | .draft => "Draft"
  | .flagged => "Flagged"
  | .seen => "Seen"
  | .recent => "Recent"
  | .keyword _ => "Keyword"

/-- A flag as a value of a self-describing format. -/
def toDatum : Flag → Datum
  | .keyword name => .record [("Keyword", .text name)]
  | f => .text f.caseName

/-- The flag that a value of a self-describing format stands for.  Keywords are taken as they
are. -/
def ofDatum? (d : Datum) : Option Flag :=
  match d with
  | .record [("Keyword", .text name)] => some (.keyword name)
  | _ => d.bare?.bind fun name => system.find? fun f => f.caseName == name

theorem ofDatum?_toDatum (f : Flag) : ofDatum? f.toDatum = some f := by
  cases f <;> rfl

end Flag

end ImapMessage
