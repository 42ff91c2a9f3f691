/-
# Values of configuration documents

Texts, numbers, truth values, dates, arrays and inline tables.  A table is a list of entries;
keys with dots add to tables that other such keys have begun, and to no others.  Otherwise the
same key may occur more than once.

Key constructions:
* `Toml.Entry`, `Toml.insertEntry`: the entries of a table.
* `Toml.value`: the reader of values.
-/
import ImapMessage.Toml.Number

namespace ImapMessage

namespace Toml

/-- What belongs to a key. -/
inductive Entry where
  /-- A value. -/
  | value (d : Datum)
  /-- A table that keys with dots have begun. -/
  | dotted (fields : List (String × Entry))

mutual

/-- An entry as a value. -/
def Entry.datum : Entry → Datum
  | .value d => d
  | .dotted fields => .record (fieldData fields)

/-- Entries as values. -/
def fieldData : List (String × Entry) → List (String × Datum)
  | [] => []
  | (k, e) :: rest => (k, e.datum) :: fieldData rest

end

/-- Change the first entry of a key. -/
def replaceFirst (k : String) (e : Entry) : List (String × Entry) → List (String × Entry)
  | [] => []
  | (k', e') :: rest => if k' = k then (k', e) :: rest else (k', e') :: replaceFirst k e rest

/-- Add a value under keys with dots between them. -/
def insertEntry (d : Datum) : List String → List (String × Entry) → Option (List (String × Entry))
  | [], _ => none
  | [k], fields => some (fields ++ [(k, .value d)])
  | k :: ks, fields =>
    match fields.lookup k with
    | some (.dotted inner) =>
      (insertEntry d ks inner).map fun i => replaceFirst k (.dotted i) fields
    | some (.value _) => none
    | none => (insertEntry d ks []).map fun i => fields ++ [(k, .dotted i)]

mutual

/-- A value; `fuel` is at least the length of the text. -/
def value : (fuel : Nat) → Scan Datum
  | 0, _ => none
  | fuel + 1, cs =>
    match cs with
    | '"' :: rest => (quotedText '"' rest).map fun (t, r) => (.text (String.ofList t.1), r)
    | '\'' :: rest => (quotedText '\'' rest).map fun (t, r) => (.text (String.ofList t.1), r)
    | '[' :: rest => (arrayItems fuel rest).map fun (ds, r) => (.list ds, r)
    | '{' :: rest =>
      match skipSpaces rest with
      | '}' :: rest => some (.record [], rest)
      | rest => (tableEntries fuel [] rest).map fun (es, r) => (.record (fieldData es), r)
    | '+' :: rest => do
      let (w, rest) ← bare rest
      number w rest
    | _ => do
      let (w, rest) ← bare cs
      bareValue w rest

/-- The values of an array, after the opening bracket or a comma. -/
def arrayItems : (fuel : Nat) → Scan (List Datum)
  | 0, _ => none
  | fuel + 1, cs => do
    match ← skipBreaks cs with
    | ']' :: rest => some ([], rest)
    | cs =>
      let (d, cs) ← value fuel cs
      match ← skipBreaks cs with
      | ']' :: rest => some ([d], rest)
      | ',' :: rest =>
        let (ds, rest) ← arrayItems fuel rest
        some (d :: ds, rest)
      | _ => none

/-- The entries of an inline table after those that are known. -/
def tableEntries : (fuel : Nat) → List (String × Entry) → Scan (List (String × Entry))
  | 0, _, _ => none
  | fuel + 1, known, cs => do
    let (ks, cs) ← dottedKey cs
    let (_, cs) ← mark '=' cs
    let (d, cs) ← value fuel (skipSpaces cs)
    let known ← insertEntry d ks known
    match skipSpaces cs with
    | '}' :: rest => some (known, rest)
    | ',' :: rest => tableEntries fuel known (skipSpaces rest)
    | _ => none

end

end Toml

end ImapMessage
