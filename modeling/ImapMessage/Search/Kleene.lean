/-
# Truth with an unknown

Truth values of which some are unknown, `none`, with the strong Kleene connectives: a result is
known as soon as the known operands settle it.

Key constructions:
* `Kleene.and`, `Kleene.or`, `Kleene.not`: the connectives.
-/

namespace ImapMessage

namespace Kleene

/-- Conjunction. -/
def and : Option Bool → Option Bool → Option Bool
  | some false, _ => some false
  | _, some false => some false
  | some true, some true => some true
  | _, _ => none

/-- Disjunction. -/
def or : Option Bool → Option Bool → Option Bool
  | some true, _ => some true
  | _, some true => some true
  | some false, some false => some false
  | _, _ => none

/-- Negation. -/
def not : Option Bool → Option Bool
  | some b => some !b
  | none => none

theorem not_not (a : Option Bool) : not (not a) = a := by
  rcases a with _ | _ | _ <;> rfl

theorem and_comm (a b : Option Bool) : and a b = and b a := by
  rcases a with _ | _ | _ <;> rcases b with _ | _ | _ <;> rfl

theorem and_assoc (a b c : Option Bool) : and (and a b) c = and a (and b c) := by
  rcases a with _ | _ | _ <;> rcases b with _ | _ | _ <;> rcases c with _ | _ | _ <;> rfl

/-- A disjunction fails if and only if both operands do. -/
theorem or_eq_not_and (a b : Option Bool) : or a b = not (and (not a) (not b)) := by
  rcases a with _ | _ | _ <;> rcases b with _ | _ | _ <;> rfl

/-- A conjunction holds if and only if both operands do. -/
theorem and_eq_true_iff (a b : Option Bool) :
    and a b = some true ↔ a = some true ∧ b = some true := by
  rcases a with _ | _ | _ <;> rcases b with _ | _ | _ <;> decide

/-- A conjunction fails as soon as one operand does. -/
theorem and_eq_false_iff (a b : Option Bool) :
    and a b = some false ↔ a = some false ∨ b = some false := by
  rcases a with _ | _ | _ <;> rcases b with _ | _ | _ <;> decide

/-- A negation is known exactly if its operand is. -/
theorem not_eq_some_iff (a : Option Bool) (v : Bool) : not a = some v ↔ a = some !v := by
  rcases a with _ | _ | _ <;> cases v <;> decide

end Kleene

end ImapMessage
