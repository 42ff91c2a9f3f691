/-
# Interleavings

Two lists are dealt out of a third one if each element of that goes to one of them and they keep its
order: the orders in which the commands of two clients may arrive are of this kind, and so are the
fields of a header that are asked for and those that are not.

Key constructions:
* `Interleaving`: the third list consists of the elements of the first two.
* `Interleaving.filter`: the elements with a property, and those without it.
-/
import Mathlib.Data.List.Basic

namespace ImapMessage

/-- The third list consists of the elements of the first two, each in their own order. -/
inductive Interleaving {α : Type} : List α → List α → List α → Prop where
  | nil : Interleaving [] [] []
  | left (x : α) {xs ys zs : List α} (h : Interleaving xs ys zs) :
      Interleaving (x :: xs) ys (x :: zs)
  | right (y : α) {xs ys zs : List α} (h : Interleaving xs ys zs) :
      Interleaving xs (y :: ys) (y :: zs)

namespace Interleaving

variable {α : Type} {xs ys zs : List α}

/-- A list with nothing besides. -/
theorem alone (xs : List α) : Interleaving xs [] xs := by
  induction xs with
  | nil => exact nil
  | cons x _ ih => exact left x ih

theorem symm (h : Interleaving xs ys zs) : Interleaving ys xs zs := by
  induction h with
  | nil => exact nil
  | left x _ ih => exact right x ih
  | right y _ ih => exact left y ih

theorem mem_iff (h : Interleaving xs ys zs) (x : α) : x ∈ zs ↔ x ∈ xs ∨ x ∈ ys := by
  induction h with
  | nil => simp
  | left y _ ih => rw [List.mem_cons, List.mem_cons, ih, or_assoc]
  | right y _ ih => rw [List.mem_cons, List.mem_cons, ih, or_left_comm]

/-- The elements with a property and those without it. -/
theorem filter (p : α → Bool) (xs : List α) :
    Interleaving (xs.filter p) (xs.filter fun x => !p x) xs := by
  induction xs with
  | nil => exact nil
  | cons x xs ih =>
    cases hx : p x with
    | true =>
      rw [List.filter_cons_of_pos hx, List.filter_cons_of_neg (by simp [hx])]
      exact left x ih
    | false =>
      rw [List.filter_cons_of_neg (by simp [hx]), List.filter_cons_of_pos (by simp [hx])]
      exact right x ih

/-- What is written of the elements of both lists is as long as what is written of the third. -/
theorem length_flatMap {β : Type} (h : Interleaving xs ys zs) (f : α → List β) :
    (xs.flatMap f).length + (ys.flatMap f).length = (zs.flatMap f).length := by
  induction h with
  | nil => rfl
  | left x _ ih =>
    rw [List.flatMap_cons, List.flatMap_cons, List.length_append, List.length_append, ← ih,
      Nat.add_assoc]
  | right y _ ih =>
    rw [List.flatMap_cons, List.flatMap_cons, List.length_append, List.length_append, ← ih,
      Nat.add_left_comm]

end Interleaving

end ImapMessage
