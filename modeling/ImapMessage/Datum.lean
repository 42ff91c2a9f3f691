/-
# Self-describing data

The values that configuration and interchange formats carry: texts, numbers, lists and
records.  A record keeps its fields in the order in which they were written, and a name
may occur more than once; each reader decides what that means.

Key constructions:
* `Datum`: such a value.
* `Datum.variant?`: a value read as one case of an enumeration.
* `Datum.bare?`: a value read as a case without content.
-/

namespace ImapMessage

/-- A value of a self-describing format. -/
inductive Datum where
  /-- The absence of a value. -/
  | nothing
  /-- A truth value. -/
  | boolean (b : Bool)
  /-- A whole number. -/
  | integer (n : Int)
  /-- A number with a fractional part or an exponent, whose value nothing here needs. -/
  | real
  /-- A text. -/
  | text (s : String)
  /-- A date or a time of day, whose value nothing here needs. -/
  | instant
  /-- A list of values. -/
  | list (items : List Datum)
  /-- Named fields in order. -/
  | record (fields : List (String × Datum))
  deriving Inhabited

namespace Datum

/-- A case of an enumeration: its name alone, or a record whose only field has the name of the
case and holds its content. -/
def variant? : Datum → Option (String × Datum)
  | .text name => some (name, .nothing)
  | .record [(name, content)] => some (name, content)
  | _ => none

/-- A case of an enumeration that has no content. -/
def bare? (d : Datum) : Option String :=
  match variant? d with
  | some (name, .nothing) => some name
  | _ => none

end Datum

end ImapMessage
