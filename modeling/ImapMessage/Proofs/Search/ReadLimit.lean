/-
# The limit of a search

The text parts of a message are read up to a limit.  Only conditions on the text of the bodies are
about what is read, so other criteria give the same answer with every limit; and limits that are not
reached give the same answer to all criteria.

Key constructions:
* `Criterion.StandsIn`: the conditions of a tree, at any depth.
* `Criteria.needs_content_iff`: criteria are about the content if a condition on the text of the
  bodies is among them.
* `Criteria.matchesContent_limits`: searches that do not depend on the limit.
-/
import ImapMessage.Proofs.Search.Loading
import ImapMessage.Proofs.Search.TextLeaves

namespace ImapMessage

/-! ## Conditions on the text of the bodies -/

namespace Criterion

/-- A condition stands in a tree of criteria, at any depth. -/
inductive StandsIn (c : Criterion) : Criteria → Prop where
  | here {cs : Criteria} (h : c ∈ cs) : StandsIn c cs
  | negation {inner cs : Criteria} (h : .negation inner ∈ cs) (hc : StandsIn c inner) :
      StandsIn c cs
  | left {left right cs : Criteria} (h : .either left right ∈ cs) (hc : StandsIn c left) :
      StandsIn c cs
  | right {left right cs : Criteria} (h : .either left right ∈ cs) (hc : StandsIn c right) :
      StandsIn c cs

/-- The conditions on the text of the bodies. -/
inductive ReadsBodies : Criterion → Prop where
  | body (pattern : String) : ReadsBodies (.body pattern)
  | text (pattern : String) : ReadsBodies (.text pattern)

theorem StandsIn.mono {c : Criterion} {cs cs' : Criteria} (h : c.StandsIn cs) (hsub : cs ⊆ cs') :
    c.StandsIn cs' := by
  cases h with
  | here h => exact .here (hsub h)
  | negation h hc => exact .negation (hsub h) hc
  | left h hc => exact .left (hsub h) hc
  | right h hc => exact .right (hsub h) hc

theorem ReadsBodies.needs_content {c : Criterion} (h : c.ReadsBodies) :
    c.needs .content = true := by
  cases h with
  | body pattern => rfl
  | text pattern => rfl

end Criterion

/-- Criteria are about all that one of them is about. -/
theorem Criteria.needs_of_mem {p : SearchPart} {c : Criterion} {cs : Criteria} (hc : c ∈ cs)
    (h : c.needs p = true) : needs p cs = true := by
  induction cs with
  | nil => cases hc
  | cons c' cs ih =>
    rw [needs, Bool.or_eq_true]
    rcases List.mem_cons.mp hc with rfl | hc
    · exact .inl h
    · exact .inr (ih hc)

mutual

/-- A criterion is about the content only if it is, or contains, a condition on the text of the
bodies. -/
theorem Criterion.exists_readsBodies_of_needs :
    ∀ c : Criterion, c.needs .content = true →
      ∃ c' : Criterion, c'.StandsIn [c] ∧ c'.ReadsBodies
  | .body pattern, _ => ⟨_, .here (List.mem_singleton.mpr rfl), .body pattern⟩
  | .text pattern, _ => ⟨_, .here (List.mem_singleton.mpr rfl), .text pattern⟩
  | .address field _, h => by cases field <;> cases h
  | .negation criteria, h => by
    obtain ⟨c, hc, hread⟩ := Criteria.exists_readsBodies_of_needs criteria h
    exact ⟨c, .negation (List.mem_singleton.mpr rfl) hc, hread⟩
  | .either left right, h => by
    rcases Bool.or_eq_true_iff.mp h with h | h
    · obtain ⟨c, hc, hread⟩ := Criteria.exists_readsBodies_of_needs left h
      exact ⟨c, .left (List.mem_singleton.mpr rfl) hc, hread⟩
    · obtain ⟨c, hc, hread⟩ := Criteria.exists_readsBodies_of_needs right h
      exact ⟨c, .right (List.mem_singleton.mpr rfl) hc, hread⟩

/-- Criteria are about the content only if a condition on the text of the bodies stands among
them. -/
theorem Criteria.exists_readsBodies_of_needs :
    ∀ cs : Criteria, Criteria.needs .content cs = true →
      ∃ c : Criterion, c.StandsIn cs ∧ c.ReadsBodies
  | [], h => by cases h
  | c :: cs, h => by
    rcases Bool.or_eq_true_iff.mp h with h | h
    · obtain ⟨c', hc, hread⟩ := Criterion.exists_readsBodies_of_needs c h
      exact ⟨c', hc.mono (List.cons_subset.mpr ⟨List.mem_cons_self, List.nil_subset _⟩), hread⟩
    · obtain ⟨c', hc, hread⟩ := Criteria.exists_readsBodies_of_needs cs h
      exact ⟨c', hc.mono (List.subset_cons_self c cs), hread⟩

end

namespace Criteria

/-- Criteria are about the content if a condition on the text of the bodies stands among them, at
any depth. -/
theorem needs_content_iff (cs : Criteria) :
    needs .content cs = true ↔ ∃ c : Criterion, c.StandsIn cs ∧ c.ReadsBodies := by
  constructor
  · exact exists_readsBodies_of_needs cs
  · rintro ⟨c, hc, hread⟩
    induction hc with
    | here h => exact needs_of_mem h hread.needs_content
    | negation h _ ih => exact needs_of_mem h ih
    | left h _ ih => exact needs_of_mem h (Bool.or_eq_true_iff.mpr (.inl ih))
    | right h _ ih => exact needs_of_mem h (Bool.or_eq_true_iff.mpr (.inr ih))

end Criteria

/-! ## Two limits -/

namespace Criteria

/-- **The limit matters only to conditions on the text of the bodies, and only when it is reached.**
If no such condition stands in the tree, at any depth, or if both limits exceed the size of all text
parts, the truth value is the same with both limits, whatever is known and loaded besides; and so a
message matches with one of them if it does with the other. -/
theorem matchesContent_limits [FurtherCharsets] [PatternLimit] (cs : Criteria)
    (limits limits' : SearchLimits) (message : Entity)
    (h : (∀ c : Criterion, c.StandsIn cs → ¬ c.ReadsBodies)
      ∨ message.textSize < limits.contentReadLimit
        ∧ message.textSize < limits'.contentReadLimit) :
    (∀ (d : SearchData) (loaded : SearchPart → Bool),
        evaluate (d.loadMessage loaded limits message) cs
          = evaluate (d.loadMessage loaded limits' message) cs)
      ∧ cs.matchesContent limits message = cs.matchesContent limits' message := by
  have hread : needs .content cs = true →
      SearchData.contentText limits.contentReadLimit message
        = SearchData.contentText limits'.contentReadLimit message := by
    intro hneeds
    rcases h with hnone | ⟨hlimit, hlimit'⟩
    · obtain ⟨c, hc, hbodies⟩ := (needs_content_iff cs).mp hneeds
      exact absurd hbodies (hnone c hc)
    · rw [SearchData.contentText_of_lt hlimit, SearchData.contentText_of_lt hlimit']
  have hevaluate : ∀ (d : SearchData) (loaded : SearchPart → Bool),
      evaluate (d.loadMessage loaded limits message) cs
        = evaluate (d.loadMessage loaded limits' message) cs :=
    fun d loaded => cs.evaluate_loadMessage_congr d (fun _ _ => rfl) hread
  refine ⟨hevaluate, ?_⟩
  rw [matchesContent, matchesContent, mayHold, mayHold, hevaluate]

/-- A message with a note of two bytes and an empty one. -/
def twoNotes : Entity :=
  .withParts .empty [] [.ofHeader .empty (Utf8.encode "ab"), .ofHeader .empty []]

/-- A search that denies something of the subject is the same in one byte and in three; and so is
one that denies a text in three bytes and in nine, since the notes have only two. -/
theorem matchesContent_limits_two_notes :
    (∀ c : Criterion, c.StandsIn [.negation [.subject "a"]] → ¬ c.ReadsBodies)
      ∧ matchesContent [.negation [.subject "a"]] ⟨1⟩ twoNotes
        = matchesContent [.negation [.subject "a"]] ⟨3⟩ twoNotes
      ∧ twoNotes.textSize = 2
      ∧ matchesContent [.negation [.text "b"]] ⟨3⟩ twoNotes
        = matchesContent [.negation [.text "b"]] ⟨9⟩ twoNotes := by
  have hnone : ∀ c : Criterion, c.StandsIn [.negation [.subject "a"]] → ¬ c.ReadsBodies := by
    intro c hc hread
    exact absurd ((needs_content_iff _).mpr ⟨c, hc, hread⟩) (by decide)
  have hsize : twoNotes.textSize = 2 := by decide +kernel
  have hexceed : twoNotes.textSize < 3 ∧ twoNotes.textSize < 9 := by
    rw [hsize]
    decide
  exact ⟨hnone, (matchesContent_limits _ ⟨1⟩ ⟨3⟩ twoNotes (.inl hnone)).2, hsize,
    (matchesContent_limits _ ⟨3⟩ ⟨9⟩ twoNotes (.inr hexceed)).2⟩

-- With a limit of just the size the empty note is not read, and so its NUL is missing.
example : matchesContent [.body "\x00\x00"] ⟨2⟩ twoNotes = false
    ∧ matchesContent [.body "\x00\x00"] ⟨3⟩ twoNotes = true := by
  decide +kernel

end Criteria

end ImapMessage
