/-
# Tokens of configuration documents

The lexical part of TOML: white space, comments, keys and quoted texts.  Line endings are
line feeds here; a carriage return before one has been dropped.

Key constructions:
* `Toml.Scan`: what takes something from the start of a text.
* `Toml.endOfLine`, `Toml.skipBreaks`: what may stand between other tokens.
* `Toml.quotedText`: texts in quotes, on one line or on several.
* `Toml.dottedKey`: keys.
-/

namespace ImapMessage

namespace Toml

/-- What takes a value from the start of a text, or refuses. -/
abbrev Scan (α : Type) := List Char → Option (α × List Char)

/-- Blank characters within a line. -/
def isSpace (c : Char) : Bool :=
  c == ' ' || c == '\t'

/-- A text without the blank characters at its start. -/
def skipSpaces (cs : List Char) : List Char :=
  cs.dropWhile isSpace

/-- Characters that may stand in comments. -/
def isCommentChar (c : Char) : Bool :=
  c == '\t' || 32 ≤ c.toNat

/-- Characters that may stand in quoted texts. -/
def isTextChar (c : Char) : Bool :=
  c == '\t' || (32 ≤ c.toNat && c.toNat != 127)

/-- Characters that may stand in keys without quotes, and in numbers and dates. -/
def isBareChar (c : Char) : Bool :=
  c.isAlphanum || c == '-' || c == '_'

/-- What follows a given character. -/
def mark (c : Char) : Scan Unit
  | [] => none
  | d :: rest => if c = d then some ((), rest) else none

/-- What follows a line ending, or the end. -/
def lineEnd : List Char → Option (List Char)
  | [] => some []
  | c :: rest => if c = '\n' then some rest else none

/-- What follows the rest of a line, on which only a comment may stand. -/
def endOfLine (cs : List Char) : Option (List Char) :=
  match skipSpaces cs with
  | '#' :: rest => lineEnd (rest.dropWhile isCommentChar)
  | rest => lineEnd rest

/-- What follows blank characters, line endings and comments. -/
def skipBreaks (cs : List Char) : Option (List Char) :=
  match _h : skipSpaces cs with
  | '\n' :: rest => skipBreaks rest
  | '#' :: rest =>
    match _h' : rest.dropWhile isCommentChar with
    | [] => some []
    | c :: rest' => if c = '\n' then skipBreaks rest' else none
  | rest => some rest
termination_by cs.length
decreasing_by
  · have h := (List.dropWhile_suffix isSpace (l := cs)).length_le
    rw [show cs.dropWhile isSpace = _ from _h] at h
    simp only [List.length_cons] at h
    omega
  · have h := (List.dropWhile_suffix isSpace (l := cs)).length_le
    have h' := (List.dropWhile_suffix isCommentChar (l := rest)).length_le
    rw [show cs.dropWhile isSpace = _ from _h] at h
    rw [_h'] at h'
    simp only [List.length_cons] at h h'
    omega

/-! ## Quoted texts -/

/-- The value of a hexadecimal digit. -/
def hexValue (c : Char) : Option Nat :=
  if c.isDigit then some (c.toNat - 48)
  else if 'a' ≤ c && c ≤ 'f' then some (c.toNat - 87)
  else if 'A' ≤ c && c ≤ 'F' then some (c.toNat - 55)
  else none

/-- A character by its code point in so many hexadecimal digits. -/
def codePoint (digits : Nat) (cs : List Char) : Option (Char × List Char) := do
  let ds := cs.take digits
  if ds.length = digits then
    let n := (← ds.mapM hexValue).foldl (fun n d => 16 * n + d) 0
    if n.isValidChar then some (Char.ofNat n, cs.drop digits) else none
  else none

/-- The character of an escape, after the backslash. -/
def escape : Scan Char
  | '"' :: rest => some ('"', rest)
  | '\\' :: rest => some ('\\', rest)
  | 'b' :: rest => some ('\x08', rest)
  | 'f' :: rest => some ('\x0c', rest)
  | 'n' :: rest => some ('\n', rest)
  | 'r' :: rest => some ('\r', rest)
  | 't' :: rest => some ('\t', rest)
  | 'u' :: rest => codePoint 4 rest
  | 'U' :: rest => codePoint 8 rest
  | _ => none

/-- What follows an escaped line ending and the blank characters and line endings after it. -/
def joinLines (cs : List Char) : Option (List Char) :=
  match skipSpaces cs with
  | '\n' :: rest => some (rest.dropWhile fun c => isSpace c || c == '\n')
  | [] => some []
  | _ => none

/-- A text on one line, up to the closing quote; `fuel` is at least its length.  Escapes count
only in double quotes. -/
def lineText (quote : Char) : (fuel : Nat) → Scan (List Char)
  | 0, _ => none
  | _ + 1, [] => none
  | fuel + 1, c :: rest =>
    if c = quote then some ([], rest)
    else if c = '\\' ∧ quote = '"' then do
      let (d, rest) ← escape rest
      let (text, rest) ← lineText quote fuel rest
      return (d :: text, rest)
    else if isTextChar c then do
      let (text, rest) ← lineText quote fuel rest
      return (c :: text, rest)
    else none

/-- Quotes at the end of a text on several lines: up to two belong to the text. -/
def extraQuotes (quote : Char) (cs : List Char) : List Char × List Char :=
  let extra := (cs.take 2).takeWhile (· == quote)
  (extra, cs.drop extra.length)

/-- A text on several lines, up to three closing quotes; `fuel` is at least its length. -/
def blockText (quote : Char) : (fuel : Nat) → Scan (List Char)
  | 0, _ => none
  | _ + 1, [] => none
  | fuel + 1, c :: rest =>
    if (List.replicate 3 quote).isPrefixOf (c :: rest) then
      some (extraQuotes quote (rest.drop 2))
    else if c = '\\' ∧ quote = '"' ∧ (rest.head?.any fun d => isSpace d || d == '\n') then do
      blockText quote fuel (← joinLines rest)
    else if c = '\\' ∧ quote = '"' then do
      let (d, rest) ← escape rest
      let (text, rest) ← blockText quote fuel rest
      return (d :: text, rest)
    else if c = '\n' ∨ isTextChar c then do
      let (text, rest) ← blockText quote fuel rest
      return (c :: text, rest)
    else none

/-- A text without the line ending at its start. -/
def dropLineEnd : List Char → List Char
  | '\n' :: rest => rest
  | cs => cs

/-- A text in quotes, after the first quote, and whether it may stand on several lines. -/
def quotedText (quote : Char) (cs : List Char) : Option ((List Char × Bool) × List Char) :=
  if [quote, quote].isPrefixOf cs then
    (blockText quote (cs.length + 1) (dropLineEnd (cs.drop 2))).map fun (t, r) => ((t, true), r)
  else (lineText quote (cs.length + 1) cs).map fun (t, r) => ((t, false), r)

/-! ## Keys -/

/-- A run of characters of keys without quotes. -/
def bare (cs : List Char) : Option (List Char × List Char) :=
  match cs.span isBareChar with
  | ([], _) => none
  | (w, rest) => some (w, rest)

/-- A key in quotes, after the first quote, on one line. -/
def quotedKey (quote : Char) (cs : List Char) : Option (String × List Char) :=
  match quotedText quote cs with
  | some ((text, false), rest) => some (String.ofList text, rest)
  | _ => none

/-- A key. -/
def key : Scan String
  | '"' :: rest => quotedKey '"' rest
  | '\'' :: rest => quotedKey '\'' rest
  | cs => (bare cs).map fun (w, rest) => (String.ofList w, rest)

/-- Keys with dots between them, after the first key; `fuel` is at least their number. -/
def moreKeys : (fuel : Nat) → Scan (List String)
  | 0, _ => none
  | fuel + 1, cs =>
    match skipSpaces cs with
    | '.' :: rest => do
      let (k, rest) ← key (skipSpaces rest)
      let (ks, rest) ← moreKeys fuel rest
      return (k :: ks, rest)
    | rest => some ([], rest)

/-- Keys with dots between them, and the blank characters after them. -/
def dottedKey : Scan (List String) := fun cs => do
  let (k, rest) ← key cs
  let (ks, rest) ← moreKeys (rest.length + 1) rest
  return (k :: ks, rest)

end Toml

end ImapMessage
