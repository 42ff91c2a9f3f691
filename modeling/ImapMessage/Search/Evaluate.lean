/-
# Searching

Whether a message meets criteria, in three-valued logic: a criterion about data that have not
been loaded is unknown, and so is a combination that the known criteria do not settle.  In this
way the same evaluation serves whoever knows only the flags of a message, only the message, or
both.

Key constructions:
* `Criteria.evaluate`: the truth value of criteria on what is known.
* `Criteria.matchesFlags`, `Criteria.matchesContent`, `Criteria.matchesMessage`: whether what is
  known leaves a message among the matches.
-/
import ImapMessage.Search.Data
import ImapMessage.Search.Kleene
import ImapMessage.Search.Pattern

namespace ImapMessage

variable [FurtherCharsets] [PatternLimit]

namespace SearchData

/-- An address field. -/
def addressField (d : SearchData) : AddressField → Option String
  | .bcc => d.bcc
  | .cc => d.cc
  | .sentFrom => d.sentFrom
  | .sentTo => d.sentTo

/-- Whether a flag is set. -/
def hasFlag (d : SearchData) (f : Flag) : Option Bool :=
  d.flags.map fun flags => flags.contains f

/-- Whether the flag of a written form is set.  What is no flag is not set. -/
def hasKeyword (d : SearchData) (name : String) : Option Bool :=
  d.flags.map fun flags =>
    match Flag.parse name with
    | .ok f => flags.contains f
    | .error _ => false

/-- Whether a pattern is found in a line of the header. -/
def foundInHeader (d : SearchData) (pattern : String) : Option Bool :=
  d.headers.map fun lines =>
    match Pattern.ofString? pattern with
    | some p => lines.any fun (name, value) => p.occursIn (name ++ ": " ++ value)
    | none => false

/-- Whether a pattern is found in the fields of a name. -/
def foundInField (d : SearchData) (name pattern : String) : Option Bool :=
  d.headers.map fun lines =>
    match lines.lookup (Ascii.lowerName name) with
    | some value => Pattern.found pattern value
    | none => false

/-- Whether a test of a system flag succeeds. -/
def testFlag (d : SearchData) : FlagTest → Option Bool
  | .answered => d.hasFlag .answered
  | .deleted => d.hasFlag .deleted
  | .draft => d.hasFlag .draft
  | .flagged => d.hasFlag .flagged
  | .seen => d.hasFlag .seen
  | .recent => d.hasFlag .recent
  | .new => Kleene.and (d.hasFlag .recent) (Kleene.not (d.hasFlag .seen))
  | .old => Kleene.not (d.hasFlag .recent)
  | .unanswered => Kleene.not (d.hasFlag .answered)
  | .undeleted => Kleene.not (d.hasFlag .deleted)
  | .undraft => Kleene.not (d.hasFlag .draft)
  | .unflagged => Kleene.not (d.hasFlag .flagged)
  | .unseen => Kleene.not (d.hasFlag .seen)

end SearchData

mutual

/-- The truth value of a criterion on what is known.  Dates are told by the clock of the sender's
zone. -/
def Criterion.evaluate (d : SearchData) : Criterion → Option Bool
  | .before day => d.date.map fun t => t.date.isBefore day
  | .since day => d.date.map fun t => t.isAfterStartOf day
  | .on day => d.date.map fun t => t.date == day
  | .address field pattern => Pattern.foundIn pattern (d.addressField field)
  | .subject pattern => Pattern.foundIn pattern d.subject
  | .body pattern => Pattern.foundIn pattern d.content
  | .text pattern => Kleene.or (d.foundInHeader pattern) (Pattern.foundIn pattern d.content)
  | .header name pattern => d.foundInField name pattern
  | .larger size => d.size.map fun n => size < n
  | .smaller size => d.size.map fun n => n < size
  | .flag test => d.testFlag test
  | .keyword name => d.hasKeyword name
  | .unkeyword name => Kleene.not (d.hasKeyword name)
  | .negation criteria => Kleene.not (Criteria.evaluate d criteria)
  | .either left right => Kleene.or (Criteria.evaluate d left) (Criteria.evaluate d right)

/-- The truth value of criteria, all together, on what is known. -/
def Criteria.evaluate (d : SearchData) : List Criterion → Option Bool
  | [] => some true
  | c :: cs => Kleene.and (c.evaluate d) (Criteria.evaluate d cs)

end

namespace Criteria

/-- Whether criteria are met, or may be met for all that is known. -/
def mayHold (cs : Criteria) (d : SearchData) : Bool :=
  (evaluate d cs).getD true

/-- Whether a message with the given flags may meet the criteria. -/
def matchesFlags (cs : Criteria) (flags : List Flag) : Bool :=
  cs.mayHold (SearchData.loadFlags {} flags)

/-- Whether a message of which the flags are unknown may meet the criteria. -/
def matchesContent (cs : Criteria) (limits : SearchLimits) (message : Entity) : Bool :=
  cs.mayHold (SearchData.loadMessage {} (fun p => needs p cs) limits message)

/-- Whether a message with the given flags meets the criteria. -/
def matchesMessage (cs : Criteria) (flags : List Flag) (message : Entity) : Bool :=
  cs.mayHold
    (SearchData.loadMessage (SearchData.loadFlags {} flags) (fun p => needs p cs) {} message)

end Criteria

end ImapMessage
