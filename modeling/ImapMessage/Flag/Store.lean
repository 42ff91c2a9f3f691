/-
# Changing the flags of a message

The store command replaces the flags of a message, adds to them or takes from them, and
may ask for silence about the outcome.

Key constructions:
* `StoreAction.apply`: the flags after a change.
* `StoreItem.parse`: the action and the wish for silence that an item name stands for.
-/
import ImapMessage.Flag

namespace ImapMessage

/-- What a store command does with the flags it names. -/
inductive StoreAction where
  /-- They replace the present ones. -/
  | set
  /-- They are added to the present ones. -/
  | add
  /-- They are taken from the present ones. -/
  | remove
  deriving DecidableEq, Repr

namespace StoreAction

/-- Add one flag at the end, unless it is there. -/
def insertFlag (flags : List Flag) (f : Flag) : List Flag :=
  if flags.contains f then flags else flags ++ [f]

/-- The flags after a change.  The flags that stay keep their order, and added flags follow in
the order in which they are named. -/
def apply (action : StoreAction) (current operand : List Flag) : List Flag :=
  match action with
  | .set => operand
  | .add => operand.foldl insertFlag current
  | .remove => current.filter fun f => !operand.contains f

/-- The name of an action in self-describing formats. -/
def caseName : StoreAction → String
  | .set => "Set"
  | .add => "Add"
  | .remove => "Remove"

/-- The action that a value of a self-describing format stands for. -/
def ofDatum? (d : Datum) : Option StoreAction :=
  d.bare?.bind fun name => [set, add, remove].find? fun a => a.caseName == name

end StoreAction

/-- The item name of a store command. -/
structure StoreItem where
  /-- What to do. -/
  action : StoreAction
  /-- Whether the client wants no report of the flags afterwards. -/
  silent : Bool
  deriving DecidableEq, Repr

namespace StoreItem

/-- The end of an item name that asks for silence. -/
def silentMark : String := ".silent"

/-- An item name without the mark that asks for silence, and whether it was there. -/
def splitSilent (s : String) : String × Bool :=
  let cs := s.toList
  let n := cs.length - silentMark.length
  if Ascii.sameName (String.ofList (cs.drop n)) silentMark then (String.ofList (cs.take n), true)
  else (s, false)

/-- The item of an item name: `FLAGS`, `+FLAGS` or `-FLAGS`, perhaps with `.SILENT` after it,
in any letter case. -/
def parse (s : String) : Except Error StoreItem :=
  let (base, silent) := splitSilent s
  if Ascii.sameName base "flags" then .ok ⟨.set, silent⟩
  else if Ascii.sameName base "+flags" then .ok ⟨.add, silent⟩
  else if Ascii.sameName base "-flags" then .ok ⟨.remove, silent⟩
  else .error .unknownStoreItem

end StoreItem

end ImapMessage
