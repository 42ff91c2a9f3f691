/-
# Laws of search criteria

Negation and choice obey the laws of Kleene's logic on every state of knowledge, also where truth
values are unknown; and the tests of missing flags are the negations of the tests of present ones.
Criteria with the same truth value may replace each other anywhere in a tree.

Key constructions:
* `FlagTest.opposites`: the tests that deny each other.
* `CriteriaContext`: a tree with a place in it that other criteria fill.
* `CriteriaContext.evaluate_fill_congr`: a tree depends on what fills its place by the truth value.
* `Criteria.evaluate_laws`: the laws.
-/
import ImapMessage.Search.Evaluate

namespace ImapMessage

/-! ## Truth values -/

namespace Kleene

theorem and_true (a : Option Bool) : and a (some true) = a := by
  rcases a with _ | _ | _ <;> rfl

theorem true_and (a : Option Bool) : and (some true) a = a := by
  rw [and_comm, and_true]

theorem or_self (a : Option Bool) : or a a = a := by
  rcases a with _ | _ | _ <;> rfl

end Kleene

/-- The tests of system flags that are met when another test is not. -/
def FlagTest.opposites : List (FlagTest × FlagTest) :=
  [(.unanswered, .answered), (.undeleted, .deleted), (.undraft, .draft), (.unflagged, .flagged),
    (.unseen, .seen), (.old, .recent)]

theorem SearchData.testFlag_opposite (d : SearchData) {test test' : FlagTest}
    (h : (test, test') ∈ FlagTest.opposites) : d.testFlag test = Kleene.not (d.testFlag test') := by
  simp only [FlagTest.opposites, List.mem_cons, Prod.mk.injEq, List.not_mem_nil, or_false] at h
  rcases h with ⟨rfl, rfl⟩ | ⟨rfl, rfl⟩ | ⟨rfl, rfl⟩ | ⟨rfl, rfl⟩ | ⟨rfl, rfl⟩ | ⟨rfl, rfl⟩ <;> rfl

namespace Criteria

variable [PatternLimit] (d : SearchData)

/-! ## Criteria together -/

/-- A criterion alone. -/
theorem evaluate_singleton (c : Criterion) : evaluate d [c] = c.evaluate d :=
  Kleene.and_true _

theorem evaluate_append (cs cs' : Criteria) :
    evaluate d (cs ++ cs') = Kleene.and (evaluate d cs) (evaluate d cs') := by
  induction cs with
  | nil => exact (Kleene.true_and _).symm
  | cons c cs ih => rw [List.cons_append, evaluate, evaluate, ih, Kleene.and_assoc]

theorem evaluate_negation (cs : Criteria) :
    evaluate d [.negation cs] = Kleene.not (evaluate d cs) := by
  rw [evaluate_singleton, Criterion.evaluate]

theorem evaluate_either (left right : Criteria) :
    evaluate d [.either left right] = Kleene.or (evaluate d left) (evaluate d right) := by
  rw [evaluate_singleton, Criterion.evaluate]

end Criteria

/-! ## Replacing criteria -/

/-- Criteria with a place among them, at any depth, which other criteria are to fill. -/
inductive CriteriaContext where
  /-- The place is among the conditions of the tree itself. -/
  | here (before after : Criteria)
  /-- The place is in a negation. -/
  | negation (before : Criteria) (inner : CriteriaContext) (after : Criteria)
  /-- The place is on the left side of a choice. -/
  | left (before : Criteria) (inner : CriteriaContext) (other after : Criteria)
  /-- The place is on the right side of a choice. -/
  | right (before other : Criteria) (inner : CriteriaContext) (after : Criteria)

namespace CriteriaContext

/-- The tree with criteria in the place. -/
def fill (cs : Criteria) : CriteriaContext → Criteria
  | .here before after => before ++ (cs ++ after)
  | .negation before inner after => before ++ ([.negation (inner.fill cs)] ++ after)
  | .left before inner other after => before ++ ([.either (inner.fill cs) other] ++ after)
  | .right before other inner after => before ++ ([.either other (inner.fill cs)] ++ after)

/-- Criteria that have the same truth value may replace each other anywhere in a tree. -/
theorem evaluate_fill_congr [PatternLimit] {d : SearchData} {cs cs' : Criteria}
    (h : Criteria.evaluate d cs = Criteria.evaluate d cs') (context : CriteriaContext) :
    Criteria.evaluate d (context.fill cs) = Criteria.evaluate d (context.fill cs') := by
  induction context with
  | here before after => simp only [fill, Criteria.evaluate_append, h]
  | negation before inner after ih =>
    simp only [fill, Criteria.evaluate_append, Criteria.evaluate_negation, ih]
  | left before inner other after ih =>
    simp only [fill, Criteria.evaluate_append, Criteria.evaluate_either, ih]
  | right before other inner after ih =>
    simp only [fill, Criteria.evaluate_append, Criteria.evaluate_either, ih]

end CriteriaContext

namespace Criteria

/-! ## The laws -/

/-- **Negation and choice obey the Kleene laws, whatever is known.**  Two negations cancel; a choice
is the negation of both negations; a test of a missing flag is the negation of that of the flag, and
likewise for keywords; a new message is recent and not seen; and criteria with the same truth value
may replace each other anywhere in a tree. -/
theorem evaluate_laws [PatternLimit] (d : SearchData) (a b : Criteria) :
    evaluate d [.negation [.negation a]] = evaluate d a
      ∧ evaluate d [.either a b]
        = evaluate d [.negation [.negation a, .either [.negation b] [.negation b]]]
      ∧ (∀ test test', (test, test') ∈ FlagTest.opposites →
        evaluate d [.flag test] = evaluate d [.negation [.flag test']])
      ∧ evaluate d [.flag .new] = evaluate d [.flag .recent, .flag .unseen]
      ∧ (∀ name, evaluate d [.unkeyword name] = evaluate d [.negation [.keyword name]])
      ∧ (evaluate d a = evaluate d b → ∀ context : CriteriaContext,
        evaluate d (context.fill a) = evaluate d (context.fill b)) := by
  refine ⟨?_, ?_, fun test test' h => ?_, ?_, fun name => ?_, CriteriaContext.evaluate_fill_congr⟩
  · rw [evaluate_negation, evaluate_negation, Kleene.not_not]
  · rw [evaluate_either, evaluate_negation, evaluate, evaluate_either, evaluate_negation,
      Criterion.evaluate, Kleene.or_self, ← Kleene.or_eq_not_and]
  · rw [evaluate_negation, evaluate_singleton, evaluate_singleton, Criterion.evaluate,
      Criterion.evaluate, d.testFlag_opposite h]
  · rw [evaluate_singleton, evaluate, evaluate_singleton]
    rfl
  · rw [evaluate_negation, evaluate_singleton, evaluate_singleton, Criterion.evaluate,
      Criterion.evaluate]

/-- The denial of being answered and, besides, large, a draft, or what fills the place. -/
def unlessAnswered : CriteriaContext :=
  .negation [.flag .answered] (.right [] [.larger 9] (.left [] (.here [] []) [.flag .draft] []) []) []

/-- Two ways to say that a message has not been seen replace each other in a tree that stays unknown
as long as the size is. -/
theorem evaluate_laws_not_seen :
    (.unseen, .seen) ∈ FlagTest.opposites
      ∧ evaluate { flags := some [.seen, .answered] } [.flag .unseen]
        = evaluate { flags := some [.seen, .answered] } [.negation [.flag .seen]]
      ∧ evaluate { flags := some [.seen, .answered] } (unlessAnswered.fill [.flag .unseen])
        = evaluate { flags := some [.seen, .answered] } (unlessAnswered.fill [.negation [.flag .seen]])
      ∧ evaluate { flags := some [.seen, .answered] } (unlessAnswered.fill [.flag .unseen]) = none := by
  have hmem : (.unseen, .seen) ∈ FlagTest.opposites := by decide
  obtain ⟨-, -, hopposites, -, -, hreplace⟩ := evaluate_laws { flags := some [.seen, .answered] }
    [.flag .unseen] [.negation [.flag .seen]]
  have hsame := hopposites _ _ hmem
  exact ⟨hmem, hsame, hreplace hsame unlessAnswered, by decide⟩

end Criteria

end ImapMessage
