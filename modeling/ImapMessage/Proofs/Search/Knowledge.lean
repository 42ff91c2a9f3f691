/-
# Searching with more knowledge

Whoever knows more of a message comes to the same answers: a truth value that is known from
some data stays the same when more data are loaded.  A search that looks only at the flags, or
only at the message, therefore never loses a match.

Key constructions:
* `Kleene.Le`: the order of knowledge on truth values.
* `SearchData.Below`, `SearchData.BelowOn`: the order of knowledge on data, and on some parts.
* `Criteria.evaluate_le`: evaluation is monotone in the parts that criteria are about.
-/
import ImapMessage.Search.Evaluate

namespace ImapMessage

/-! ## The order of knowledge -/

namespace Kleene

/-- What is known stays the same. -/
def Le {α : Type} (a b : Option α) : Prop :=
  ∀ v, a = some v → b = some v

theorem le_refl {α : Type} (a : Option α) : Le a a :=
  fun _ h => h

theorem le_antisymm {α : Type} {a b : Option α} (h : Le a b) (h' : Le b a) : a = b := by
  cases a with
  | some v => exact (h v rfl).symm
  | none =>
    cases b with
    | some v => exact h' v rfl
    | none => rfl

/-- Nothing is below everything. -/
theorem none_le {α : Type} (a : Option α) : Le none a := by
  intro v h
  cases h

/-- What is computed from one piece of knowledge grows with it. -/
theorem map_le {α β : Type} {a b : Option α} (f : α → β) (h : Le a b) :
    Le (a.map f) (b.map f) := by
  intro v hv
  obtain ⟨x, hx, rfl⟩ := Option.map_eq_some_iff.mp hv
  rw [h x hx]
  rfl

theorem not_le {a b : Option Bool} (h : Le a b) : Le (not a) (not b) := by
  intro v hv
  rw [not_eq_some_iff] at hv ⊢
  exact h _ hv

theorem and_le {a a' b b' : Option Bool} (ha : Le a a') (hb : Le b b') :
    Le (and a b) (and a' b') := by
  intro v hv
  cases v with
  | true =>
    rw [and_eq_true_iff] at hv ⊢
    exact ⟨ha _ hv.1, hb _ hv.2⟩
  | false =>
    rw [and_eq_false_iff] at hv ⊢
    rcases hv with hv | hv
    · exact Or.inl (ha _ hv)
    · exact Or.inr (hb _ hv)

theorem or_le {a a' b b' : Option Bool} (ha : Le a a') (hb : Le b b') :
    Le (or a b) (or a' b') := by
  rw [or_eq_not_and, or_eq_not_and]
  exact not_le (and_le (not_le ha) (not_le hb))

end Kleene

namespace SearchData

/-- Everything that is known in `d` is known in `d'`, with the same value. -/
structure Below (d d' : SearchData) : Prop where
  flags : Kleene.Le d.flags d'.flags
  headers : Kleene.Le d.headers d'.headers
  sentFrom : Kleene.Le d.sentFrom d'.sentFrom
  cc : Kleene.Le d.cc d'.cc
  bcc : Kleene.Le d.bcc d'.bcc
  sentTo : Kleene.Le d.sentTo d'.sentTo
  date : Kleene.Le d.date d'.date
  subject : Kleene.Le d.subject d'.subject
  size : Kleene.Le d.size d'.size
  content : Kleene.Le d.content d'.content

/-- What is known of the flags and of the wanted parts in `d` is known in `d'`, with the same
value. -/
structure BelowOn (wanted : SearchPart → Bool) (d d' : SearchData) : Prop where
  flags : Kleene.Le d.flags d'.flags
  headers : wanted .headerMap = true → Kleene.Le d.headers d'.headers
  sentFrom : wanted .sentFrom = true → Kleene.Le d.sentFrom d'.sentFrom
  cc : wanted .cc = true → Kleene.Le d.cc d'.cc
  bcc : wanted .bcc = true → Kleene.Le d.bcc d'.bcc
  sentTo : wanted .sentTo = true → Kleene.Le d.sentTo d'.sentTo
  date : wanted .date = true → Kleene.Le d.date d'.date
  subject : wanted .subject = true → Kleene.Le d.subject d'.subject
  size : wanted .size = true → Kleene.Le d.size d'.size
  content : wanted .content = true → Kleene.Le d.content d'.content

variable {d d' : SearchData} {wanted : SearchPart → Bool}

/-- More knowledge is more knowledge of some parts. -/
theorem Below.belowOn (h : d.Below d') (wanted : SearchPart → Bool) : BelowOn wanted d d' where
  flags := h.flags
  headers := fun _ => h.headers
  sentFrom := fun _ => h.sentFrom
  cc := fun _ => h.cc
  bcc := fun _ => h.bcc
  sentTo := fun _ => h.sentTo
  date := fun _ => h.date
  subject := fun _ => h.subject
  size := fun _ => h.size
  content := fun _ => h.content

theorem BelowOn.addressField (h : BelowOn wanted d d') (f : AddressField)
    (hf : wanted f.part = true) : Kleene.Le (d.addressField f) (d'.addressField f) := by
  cases f with
  | bcc => exact h.bcc hf
  | cc => exact h.cc hf
  | sentFrom => exact h.sentFrom hf
  | sentTo => exact h.sentTo hf

theorem BelowOn.hasFlag (h : BelowOn wanted d d') (f : Flag) :
    Kleene.Le (d.hasFlag f) (d'.hasFlag f) :=
  Kleene.map_le _ h.flags

theorem BelowOn.testFlag (h : BelowOn wanted d d') (test : FlagTest) :
    Kleene.Le (d.testFlag test) (d'.testFlag test) := by
  cases test with
  | answered | deleted | draft | flagged | seen | recent => exact h.hasFlag _
  | new => exact Kleene.and_le (h.hasFlag _) (Kleene.not_le (h.hasFlag _))
  | old | unanswered | undeleted | undraft | unflagged | unseen =>
    exact Kleene.not_le (h.hasFlag _)

theorem le_replaceIf {α : Type} (wanted : Bool) (new : Unit → α) {old old' : Option α}
    (h : Kleene.Le old old') : Kleene.Le (replaceIf wanted new old) (replaceIf wanted new old') := by
  cases wanted with
  | true => exact Kleene.le_refl _
  | false => exact h

/-- Loading the same parts of a message on top of more knowledge gives more knowledge. -/
theorem Below.loadMessage [FurtherCharsets] (h : d.Below d') (wanted : SearchPart → Bool)
    (limits : SearchLimits) (message : Entity) :
    (d.loadMessage wanted limits message).Below (d'.loadMessage wanted limits message) := by
  unfold SearchData.loadMessage
  constructor <;> dsimp only
  · exact h.flags
  · exact le_replaceIf _ _ h.headers
  · exact le_replaceIf _ _ h.sentFrom
  · exact le_replaceIf _ _ h.cc
  · exact le_replaceIf _ _ h.bcc
  · exact le_replaceIf _ _ h.sentTo
  · exact le_replaceIf _ _ h.date
  · exact le_replaceIf _ _ h.subject
  · exact le_replaceIf _ _ h.size
  · exact le_replaceIf _ _ h.content

/-- No knowledge is below any other. -/
theorem empty_below (d : SearchData) : Below {} d where
  flags := Kleene.none_le _
  headers := Kleene.none_le _
  sentFrom := Kleene.none_le _
  cc := Kleene.none_le _
  bcc := Kleene.none_le _
  sentTo := Kleene.none_le _
  date := Kleene.none_le _
  subject := Kleene.none_le _
  size := Kleene.none_le _
  content := Kleene.none_le _

/-- A message tells more than its flags alone. -/
theorem loadFlags_below_loadMessage [FurtherCharsets] (flags : List Flag)
    (wanted : SearchPart → Bool) (limits : SearchLimits) (message : Entity) :
    (loadFlags {} flags).Below (loadMessage (loadFlags {} flags) wanted limits message) where
  flags := Kleene.le_refl _
  headers := Kleene.none_le _
  sentFrom := Kleene.none_le _
  cc := Kleene.none_le _
  bcc := Kleene.none_le _
  sentTo := Kleene.none_le _
  date := Kleene.none_le _
  subject := Kleene.none_le _
  size := Kleene.none_le _
  content := Kleene.none_le _

end SearchData

/-! ## Evaluation -/

section Evaluation

variable {d d' : SearchData} {wanted : SearchPart → Bool}

mutual

/-- The truth value of a criterion grows with what is known of the parts that it is about. -/
theorem Criterion.evaluate_le [PatternLimit] (h : d.BelowOn wanted d') :
    ∀ c : Criterion, (∀ p, c.needs p = true → wanted p = true) →
      Kleene.Le (c.evaluate d) (c.evaluate d')
  | .before _, hc | .since _, hc | .on _, hc => Kleene.map_le _ (h.date (hc .date rfl))
  | .address field _, hc =>
    Kleene.map_le _ (h.addressField field (hc field.part (beq_self_eq_true _)))
  | .subject _, hc => Kleene.map_le _ (h.subject (hc .subject rfl))
  | .body _, hc => Kleene.map_le _ (h.content (hc .content rfl))
  | .text _, hc => by
    have hheaders := h.headers (hc .headerMap rfl)
    have hcontent := h.content (hc .content rfl)
    exact Kleene.or_le (Kleene.map_le _ hheaders) (Kleene.map_le _ hcontent)
  | .header _ _, hc => Kleene.map_le _ (h.headers (hc .headerMap rfl))
  | .larger _, hc | .smaller _, hc => Kleene.map_le _ (h.size (hc .size rfl))
  | .flag test, _ => h.testFlag test
  | .keyword _, _ => Kleene.map_le _ h.flags
  | .unkeyword _, _ => Kleene.not_le (Kleene.map_le _ h.flags)
  | .negation criteria, hc => Kleene.not_le (Criteria.evaluate_le h criteria hc)
  | .either left right, hc => by
    -- what a side is about, the choice is about
    have hleft : ∀ p, Criteria.needs p left = true → wanted p = true :=
      fun p hp => hc p (Bool.or_eq_true_iff.mpr (Or.inl hp))
    have hright : ∀ p, Criteria.needs p right = true → wanted p = true :=
      fun p hp => hc p (Bool.or_eq_true_iff.mpr (Or.inr hp))
    exact Kleene.or_le (Criteria.evaluate_le h left hleft) (Criteria.evaluate_le h right hright)

/-- The truth value of criteria grows with what is known of the parts that they are about. -/
theorem Criteria.evaluate_le [PatternLimit] (h : d.BelowOn wanted d') :
    ∀ cs : Criteria, (∀ p, Criteria.needs p cs = true → wanted p = true) →
      Kleene.Le (Criteria.evaluate d cs) (Criteria.evaluate d' cs)
  | [], _ => Kleene.le_refl _
  | c :: cs, hcs => by
    have hfirst : ∀ p, c.needs p = true → wanted p = true :=
      fun p hp => hcs p (Bool.or_eq_true_iff.mpr (Or.inl hp))
    have hrest : ∀ p, Criteria.needs p cs = true → wanted p = true :=
      fun p hp => hcs p (Bool.or_eq_true_iff.mpr (Or.inr hp))
    exact Kleene.and_le (Criterion.evaluate_le h c hfirst) (Criteria.evaluate_le h cs hrest)

end

namespace Criteria

/-- The truth value of criteria grows with all that is known. -/
theorem evaluate_le_of_below [PatternLimit] (cs : Criteria) (h : d.Below d') :
    Kleene.Le (evaluate d cs) (evaluate d' cs) :=
  evaluate_le (h.belowOn fun _ => true) cs fun _ _ => rfl

/-- What is met for all that is known with more knowledge may be met with less. -/
theorem mayHold_of_below [PatternLimit] (cs : Criteria) (h : d.Below d')
    (hd' : cs.mayHold d' = true) : cs.mayHold d = true := by
  unfold mayHold at hd' ⊢
  -- Only a known `false` rules a message out, and that would stay with more knowledge.
  cases hd : evaluate d cs with
  | none => rfl
  | some b => rwa [evaluate_le_of_below cs h b hd] at hd'

/-- **Searching is monotone in what is known.**  A known truth value stays the same when more is
known; so a message that meets criteria with its flags is found by its flags alone and by its
content alone. -/
theorem evaluate_monotone [FurtherCharsets] [PatternLimit] (cs : Criteria) :
    (∀ d d' : SearchData, d.Below d' → ∀ b, evaluate d cs = some b → evaluate d' cs = some b)
      ∧ ∀ (flags : List Flag) (message : Entity), cs.matchesMessage flags message = true →
          cs.matchesFlags flags = true ∧ cs.matchesContent {} message = true := by
  refine ⟨fun d d' h => evaluate_le_of_below cs h, ?_⟩
  intro flags message h
  refine ⟨?_, ?_⟩
  · exact mayHold_of_below cs (SearchData.loadFlags_below_loadMessage flags _ _ message) h
  · exact mayHold_of_below cs ((SearchData.empty_below _).loadMessage _ _ message) h

/-- A negation over flags and content, known from the flags alone; an empty message with those
flags is found in every way. -/
theorem evaluate_monotone_negation :
    SearchData.Below { flags := some [.seen] } { flags := some [.seen], size := some 7 }
      ∧ evaluate { flags := some [.seen] } [.negation [.flag .flagged, .larger 9]] = some true
      ∧ evaluate { flags := some [.seen], size := some 7 } [.negation [.flag .flagged, .larger 9]]
        = some true
      ∧ matchesMessage [.negation [.flag .flagged, .larger 9]] [.seen] default = true
      ∧ matchesFlags [.negation [.flag .flagged, .larger 9]] [.seen] = true
      ∧ matchesContent [.negation [.flag .flagged, .larger 9]] {} default = true := by
  have hbelow :
      SearchData.Below { flags := some [.seen] } { flags := some [.seen], size := some 7 } :=
    { SearchData.empty_below _ with flags := Kleene.le_refl _ }
  have hknown :
      evaluate { flags := some [.seen] } [.negation [.flag .flagged, .larger 9]] = some true := by
    decide
  have hmatches :
      matchesMessage [.negation [.flag .flagged, .larger 9]] [.seen] default = true := by
    decide
  obtain ⟨hflags, hcontent⟩ := (evaluate_monotone _).2 _ _ hmatches
  exact ⟨hbelow, hknown, (evaluate_monotone _).1 _ _ hbelow true hknown, hmatches, hflags, hcontent⟩

end Criteria

end Evaluation

end ImapMessage
