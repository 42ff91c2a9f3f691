/-
# Search criteria

What a client searches for: a list of criteria, all of which a message has to meet.  A criterion
may itself be the negation of criteria, or the choice between two lists of them.

Key constructions:
* `Criterion`, `Criteria`: the tree.
* `SearchPart`: the parts of a message that criteria are about.
* `Criteria.needs`: whether criteria are about a part.
-/
import ImapMessage.Calendar

namespace ImapMessage

/-- The address fields of a header. -/
inductive AddressField where
  | bcc
  | cc
  | sentFrom
  | sentTo
  deriving DecidableEq, Repr

/-- Tests of system flags. -/
inductive FlagTest where
  | answered
  | deleted
  | draft
  | flagged
  | seen
  | recent
  /-- Recent and not seen. -/
  | new
  /-- Not recent. -/
  | old
  | unanswered
  | undeleted
  | undraft
  | unflagged
  | unseen
  deriving DecidableEq, Repr

/-- One condition on a message. -/
inductive Criterion where
  /-- Sent before a day. -/
  | before (day : CalendarDate)
  /-- Sent after the start of a day. -/
  | since (day : CalendarDate)
  /-- Sent on a day. -/
  | on (day : CalendarDate)
  /-- An address field contains a pattern. -/
  | address (field : AddressField) (pattern : String)
  /-- The subject contains a pattern. -/
  | subject (pattern : String)
  /-- The text of the body contains a pattern. -/
  | body (pattern : String)
  /-- A line of the header or the text of the body contains a pattern. -/
  | text (pattern : String)
  /-- A header field is there and contains a pattern. -/
  | header (name pattern : String)
  /-- The body is larger than so many bytes. -/
  | larger (size : Nat)
  /-- The body is smaller than so many bytes. -/
  | smaller (size : Nat)
  /-- A system flag is set or not. -/
  | flag (test : FlagTest)
  /-- A flag is set. -/
  | keyword (name : String)
  /-- A flag is not set. -/
  | unkeyword (name : String)
  /-- Some criteria are not all met. -/
  | negation (criteria : List Criterion)
  /-- The criteria of at least one of two lists are all met. -/
  | either (left right : List Criterion)

/-- Conditions that a message has to meet all together. -/
abbrev Criteria := List Criterion

/-- The parts of a message that criteria are about. -/
inductive SearchPart where
  | headerMap
  | sentFrom
  | cc
  | bcc
  | sentTo
  | date
  | subject
  | content
  | size
  deriving DecidableEq, Repr

/-- All parts. -/
def SearchPart.all : List SearchPart :=
  [headerMap, sentFrom, cc, bcc, sentTo, date, subject, content, size]

/-- The part that holds an address field. -/
def AddressField.part : AddressField → SearchPart
  | .bcc => .bcc
  | .cc => .cc
  | .sentFrom => .sentFrom
  | .sentTo => .sentTo

mutual

/-- Whether a criterion is about a part. -/
def Criterion.needs (p : SearchPart) : Criterion → Bool
  | .before _ | .since _ | .on _ => p == .date
  | .address field _ => p == field.part
  | .subject _ => p == .subject
  | .body _ => p == .content
  | .text _ => p == .headerMap || p == .content
  | .header _ _ => p == .headerMap
  | .larger _ | .smaller _ => p == .size
  | .flag _ | .keyword _ | .unkeyword _ => false
  | .negation criteria => Criteria.needs p criteria
  | .either left right => Criteria.needs p left || Criteria.needs p right

/-- Whether criteria are about a part. -/
def Criteria.needs (p : SearchPart) : List Criterion → Bool
  | [] => false
  | c :: cs => c.needs p || Criteria.needs p cs

end

/-- Whether criteria are about the message at all, and not only about its flags. -/
def Criteria.needsMessage (cs : Criteria) : Bool :=
  SearchPart.all.any fun p => Criteria.needs p cs

end ImapMessage
