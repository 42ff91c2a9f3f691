/-
# Configuration

The limits within which messages are read and searched, and the document in which they are
written down.  What the document does not say keeps its default, and what it says beyond that
is ignored.

Key constructions:
* `Config`: the limits.
* `Config.ofDatum?`, `Config.ofToml`: the limits of a document.
* `Config.toToml`: a document with given limits.
-/
import ImapMessage.Entity.Parse
import ImapMessage.Search.Data
import ImapMessage.Toml.Document

namespace ImapMessage

/-- The limits within which messages are read and searched. -/
structure Config where
  /-- How much of a message is read. -/
  parse : Limits := {}
  /-- How much of a message is searched. -/
  search : SearchLimits := {}
  deriving DecidableEq, Repr

namespace Config

/-- The value of a field of which there may be one at most. -/
def single (fields : List (String × Datum)) (name : String) : Option (Option Datum) :=
  match fields.filter fun f => f.1 == name with
  | [] => some none
  | [f] => some (some f.2)
  | _ => none

/-- The values of the fields of a section.  The section is a record with those fields, which may be
missing, or a list of their values in order, which may end early.  A date has no such field. -/
def fields (names : List String) : Datum → Option (List (Option Datum))
  | .record fs => names.mapM (single fs)
  | .list ds =>
    if ds.length ≤ names.length then
      some (ds.map some ++ List.replicate (names.length - ds.length) none)
    else none
  | .instant => some (names.map fun _ => none)
  | _ => none

/-- A whole number below a bound, or the default. -/
def limit (bound default : Nat) : Option Datum → Option Nat
  | none => some default
  | some (.integer n) => if 0 ≤ n ∧ n < bound then some n.toNat else none
  | some _ => none

/-- The limits of reading. -/
def limits? : Option Datum → Option Limits
  | none => some {}
  | some d => do
    match ← fields ["max_recursion", "max_parts"] d with
    | [recursion, parts] =>
      let defaults : Limits := {}
      return ⟨← limit UInt32.size defaults.maxRecursion recursion,
        ← limit UInt32.size defaults.maxParts parts⟩
    | _ => none

/-- The limits of searching. -/
def searchLimits? : Option Datum → Option SearchLimits
  | none => some {}
  | some d => do
    match ← fields ["content_read_limit"] d with
    | [content] =>
      let defaults : SearchLimits := {}
      return ⟨← limit UInt64.size defaults.contentReadLimit content⟩
    | _ => none

/-- The limits of a document. -/
def ofDatum? (d : Datum) : Option Config := do
  match ← fields ["parse", "search"] d with
  | [parse, search] => return ⟨← limits? parse, ← searchLimits? search⟩
  | _ => none

/-- The limits of the text of a document. -/
def ofToml (document : String) : Except Error Config :=
  match (Toml.parse document).bind ofDatum? with
  | some c => .ok c
  | none => .error .config

/-- The text of a document with given limits. -/
def toToml (c : Config) : String :=
  "[parse]\nmax_recursion = " ++ toString c.parse.maxRecursion ++
    "\nmax_parts = " ++ toString c.parse.maxParts ++
    "\n\n[search]\ncontent_read_limit = " ++ toString c.search.contentReadLimit ++ "\n"

end Config

end ImapMessage
