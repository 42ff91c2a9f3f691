/-
# Configuration documents

A document is a list of lines: headers, which name a table or one more element of an array of
tables, and entries, which belong to the header before them.  A table is named by one header at
most; keys within a table are checked only by those who use them.

Key constructions:
* `Toml.Item`, `Toml.items`: the lines of a document.
* `Toml.Table`, `Toml.Table.define`: the tables that headers name.
* `Toml.parse`: a document as one record.
-/
import ImapMessage.Toml.Value

namespace ImapMessage

namespace Toml

/-- A line that is not empty. -/
inductive Item where
  /-- A header. -/
  | header (path : List String) (array : Bool)
  /-- An entry. -/
  | entry (path : List String) (value : Datum)

/-- A header, after the opening bracket. -/
def header (cs : List Char) : Option (Item × List Char) := do
  let (array, cs) :=
    match cs with
    | '[' :: rest => (true, rest)
    | _ => (false, cs)
  let (path, cs) ← dottedKey (skipSpaces cs)
  let (_, cs) ← mark ']' cs
  let (_, cs) ← if array then mark ']' cs else some ((), cs)
  return (.header path array, ← endOfLine cs)

/-- An entry. -/
def entry (cs : List Char) : Option (Item × List Char) := do
  let (path, cs) ← dottedKey cs
  let (_, cs) ← mark '=' cs
  let (d, cs) ← value (cs.length + 1) (skipSpaces cs)
  return (.entry path d, ← endOfLine cs)

/-- The lines of a document that are not empty; `fuel` is more than the length of the text. -/
def items : (fuel : Nat) → List Char → Option (List Item)
  | 0, _ => none
  | fuel + 1, cs => do
    match ← skipBreaks cs with
    | [] => some []
    | '[' :: rest =>
      let (item, rest) ← header rest
      return item :: (← items fuel rest)
    | cs =>
      let (item, rest) ← entry cs
      return item :: (← items fuel rest)

/-! ## Tables -/

/-- What headers have named. -/
inductive Table where
  /-- A table, or one that is there only because a header names a table in it. -/
  | table (named : Bool) (entries : List (String × Entry)) (inner : List (String × Table))
  /-- An array of tables. -/
  | array (elements : List Table)

/-- A table that a header has just named. -/
def Table.fresh : Table := .table true [] []

/-- Change the first table of a name. -/
def replaceTable (k : String) (t : Table) : List (String × Table) → List (String × Table)
  | [] => []
  | (k', t') :: rest => if k' = k then (k', t) :: rest else (k', t') :: replaceTable k t rest

/-- Change the table under a path of names, which is made if it is not there. -/
def Table.modify (change : Option Table → Option Table) : List String → Table → Option Table
  | _, .array _ => none
  | [], t => change (some t)
  | [k], .table named entries inner =>
    match inner.lookup k with
    | none => (change none).map fun t => .table named entries (inner ++ [(k, t)])
    | some t => (change (some t)).map fun t => .table named entries (replaceTable k t inner)
  | k :: ks, .table named entries inner =>
    match inner.lookup k with
    | none =>
      (modify change ks (.table false [] [])).map fun t => .table named entries (inner ++ [(k, t)])
    | some (.table n e i) =>
      (modify change ks (.table n e i)).map fun t =>
        .table named entries (replaceTable k t inner)
    | some (.array elements) =>
      match elements.getLast? with
      | none => none
      | some last =>
        (modify change ks last).map fun t =>
          .table named entries (replaceTable k (.array (elements.dropLast ++ [t])) inner)

/-- What a header does with what it names: a table must not have been named before, and an array
gets one more element. -/
def Table.define (array : Bool) : Option Table → Option Table
  | none => some (if array then .array [.fresh] else .fresh)
  | some (.table false entries inner) => if array then none else some (.table true entries inner)
  | some (.table true _ _) => none
  | some (.array elements) => if array then some (.array (elements ++ [.fresh])) else none

/-- Add an entry to a table, or to the last table of an array. -/
def Table.add (path : List String) (d : Datum) : Option Table → Option Table
  | some (.table named entries inner) =>
    (insertEntry d path entries).map fun entries => .table named entries inner
  | some (.array elements) =>
    match elements.getLast? with
    | some (.table named entries inner) =>
      (insertEntry d path entries).map fun entries =>
        .array (elements.dropLast ++ [.table named entries inner])
    | _ => none
  | none => none

/-- Put the lines of a document together; `path` is the last header. -/
def assemble : List Item → List String → Table → Option Table
  | [], _, t => some t
  | .header path array :: rest, _, t =>
    (t.modify (Table.define array) path).bind (assemble rest path)
  | .entry ks d :: rest, path, t =>
    (t.modify (Table.add ks d) path).bind (assemble rest path)

mutual

/-- A table as a value. -/
def Table.datum : Table → Datum
  | .table _ entries inner => .record (fieldData entries ++ tableData inner)
  | .array elements => .list (elementData elements)

/-- Tables with names as values. -/
def tableData : List (String × Table) → List (String × Datum)
  | [] => []
  | (k, t) :: rest => (k, t.datum) :: tableData rest

/-- The tables of an array as values. -/
def elementData : List Table → List Datum
  | [] => []
  | t :: rest => t.datum :: elementData rest

end

/-- A text in which all line endings are line feeds. -/
def unixLines : List Char → List Char
  | [] => []
  | '\r' :: '\n' :: rest => '\n' :: unixLines rest
  | c :: rest => c :: unixLines rest

/-- A text without a byte order mark. -/
def unmarked : List Char → List Char
  | '\uFEFF' :: rest => rest
  | cs => cs

/-- A document as one record. -/
def parse (document : String) : Option Datum :=
  let cs := unixLines (unmarked document.toList)
  ((items (cs.length + 1) cs).bind fun is => assemble is [] .fresh).map Table.datum

end Toml

end ImapMessage
