/-
# Store commands of two clients

Two clients add and take away flags of the same message at the same time, and no flag is named by
both.  Each of them then finds its flags as if it had been alone, in whatever order the commands
arrive, and so does a search that looks at the flags.

Key constructions:
* `StoreAction.filter_apply_of_pos`, `StoreAction.filter_apply_of_neg`: what one command does to the
  flags of interest.
* `StoreStep.names`: the flags that some commands name.
* `StoreStep.filter_run_interleaving`: what the commands of two clients do to the flags of one.
* `Criteria.matchesFlags_congr`: a search sees which flags there are, and nothing else of them.
-/
import ImapMessage.Proofs.Flag.Runs
import ImapMessage.Proofs.Text.Interleaving
import ImapMessage.Search.Evaluate
import Mathlib.Data.List.Perm.Basic

namespace ImapMessage

/-! ## Flags of interest

What a command does to the flags with some property can be told from these flags alone. -/

namespace StoreAction

section

variable {p : Flag → Bool} {f : Flag}

theorem filter_insertFlag_of_pos (hf : p f = true) (flags : List Flag) :
    (insertFlag flags f).filter p = insertFlag (flags.filter p) f := by
  have hmem : f ∈ flags.filter p ↔ f ∈ flags := by
    rw [List.mem_filter, and_iff_left hf]
  simp only [insertFlag, List.contains_iff_mem, hmem]
  split
  · rfl
  · rw [List.filter_append, List.filter_cons_of_pos hf, List.filter_nil]

theorem filter_insertFlag_of_neg (hf : p f = false) (flags : List Flag) :
    (insertFlag flags f).filter p = flags.filter p := by
  unfold insertFlag
  split
  · rfl
  · rw [List.filter_append, List.filter_cons_of_neg (by simp [hf]), List.filter_nil,
      List.append_nil]

end

section

variable {p : Flag → Bool} {action : StoreAction} {operand : List Flag}

/-- A command that names flags of interest only does the same to them as if there were no others. -/
theorem filter_apply_of_pos (h : ∀ f ∈ operand, p f = true) (flags : List Flag) :
    (action.apply flags operand).filter p = action.apply (flags.filter p) operand := by
  cases action with
  | set => exact List.filter_eq_self.mpr h
  | add =>
    simp only [apply]
    induction operand generalizing flags with
    | nil => rfl
    | cons f operand ih =>
      rw [List.foldl_cons, List.foldl_cons, ih fun g hg => h g (List.mem_cons_of_mem f hg),
        filter_insertFlag_of_pos (h f List.mem_cons_self)]
  | remove =>
    simp only [apply, List.filter_filter]
    exact List.filter_congr fun f _ => Bool.and_comm _ _

/-- A command that adds or takes away other flags leaves those of interest as they are. -/
theorem filter_apply_of_neg (haction : action ≠ .set) (h : ∀ f ∈ operand, p f = false)
    (flags : List Flag) : (action.apply flags operand).filter p = flags.filter p := by
  cases action with
  | set => exact absurd rfl haction
  | add =>
    simp only [apply]
    induction operand generalizing flags with
    | nil => rfl
    | cons f operand ih =>
      rw [List.foldl_cons, ih fun g hg => h g (List.mem_cons_of_mem f hg),
        filter_insertFlag_of_neg (h f List.mem_cons_self)]
  | remove =>
    simp only [apply, List.filter_filter]
    apply List.filter_congr
    intro f _
    -- A flag of interest is not named.
    cases hp : p f with
    | false => rfl
    | true =>
      rw [Bool.true_and, Bool.not_eq_true', ← Bool.not_eq_true, List.contains_iff_mem]
      intro hf
      rw [h f hf] at hp
      cases hp

end

end StoreAction

namespace StoreStep

/-- Whether some commands name a flag. -/
def names (steps : List StoreStep) (f : Flag) : Bool :=
  steps.any fun step => step.operand.contains f

theorem names_iff (steps : List StoreStep) (f : Flag) :
    names steps f = true ↔ ∃ step ∈ steps, f ∈ step.operand := by
  simp [names]

/-- All commands add flags or take them away. -/
def AreEdits (steps : List StoreStep) : Prop :=
  ∀ step ∈ steps, step.action ≠ .set

/-- No flag is named by both clients. -/
def AreDisjoint (xs ys : List StoreStep) : Prop :=
  ∀ f, names xs f = true → names ys f = false

theorem AreDisjoint.symm {xs ys : List StoreStep} (h : AreDisjoint xs ys) : AreDisjoint ys xs := by
  intro f hy
  rw [← Bool.not_eq_true]
  intro hx
  rw [h f hx] at hy
  cases hy

section

variable {p : Flag → Bool} {xs ys zs : List StoreStep}

/-- Two clients, of whom one names flags of interest only and the other adds and takes away other
flags: the flags of interest are those that the first one alone leaves. -/
theorem filter_run_interleaving (h : Interleaving xs ys zs)
    (hxs : ∀ step ∈ xs, ∀ f ∈ step.operand, p f = true)
    (hys : ∀ step ∈ ys, step.action ≠ .set ∧ ∀ f ∈ step.operand, p f = false)
    (flags : List Flag) : (run flags zs).filter p = run (flags.filter p) xs := by
  induction h generalizing flags with
  | nil => rfl
  | left step _ ih =>
    rw [run_cons, run_cons, ih (fun x hx => hxs x (List.mem_cons_of_mem step hx)) hys, apply,
      StoreAction.filter_apply_of_pos (hxs step List.mem_cons_self)]
    rfl
  | right step _ ih =>
    obtain ⟨haction, hoperand⟩ := hys step List.mem_cons_self
    rw [run_cons, ih hxs fun y hy => hys y (List.mem_cons_of_mem step hy), apply,
      StoreAction.filter_apply_of_neg haction hoperand]

/-- The flags that no command names stay as they are. -/
theorem filter_run_of_neg
    (hxs : ∀ step ∈ xs, step.action ≠ .set ∧ ∀ f ∈ step.operand, p f = false)
    (flags : List Flag) : (run flags xs).filter p = flags.filter p :=
  filter_run_interleaving (Interleaving.alone xs).symm (by simp) hxs flags

/-- What a client names is named by one of its commands. -/
theorem names_of_mem (steps : List StoreStep) :
    ∀ step ∈ steps, ∀ f ∈ step.operand, names steps f = true :=
  fun step hstep f hf => (names_iff steps f).mpr ⟨step, hstep, hf⟩

/-- Edits that name no flag of a client. -/
theorem AreEdits.of_disjoint (hys : AreEdits ys) (hdisjoint : AreDisjoint xs ys) :
    ∀ step ∈ ys, step.action ≠ .set ∧ ∀ f ∈ step.operand, names xs f = false :=
  fun step hstep => ⟨hys step hstep, fun f hf => hdisjoint.symm f (names_of_mem ys step hstep f hf)⟩

/-- A client finds its flags as if it had been alone. -/
theorem filter_run_names (hys : AreEdits ys) (hdisjoint : AreDisjoint xs ys)
    (h : Interleaving xs ys zs) (flags : List Flag) :
    (run flags zs).filter (names xs) = (run flags xs).filter (names xs) := by
  rw [filter_run_interleaving h (names_of_mem xs) (hys.of_disjoint hdisjoint),
    filter_run_interleaving (Interleaving.alone xs) (names_of_mem xs) (by simp)]

/-- The flags that neither client names stay as they are. -/
theorem filter_run_not_names (hxs : AreEdits xs) (hys : AreEdits ys) (h : Interleaving xs ys zs)
    (flags : List Flag) :
    (run flags zs).filter (fun f => !names xs f && !names ys f)
      = flags.filter fun f => !names xs f && !names ys f := by
  apply filter_run_of_neg
  intro step hstep
  rcases (h.mem_iff step).mp hstep with hx | hy
  · exact ⟨hxs step hx, fun f hf => by simp [names_of_mem xs step hx f hf]⟩
  · exact ⟨hys step hy, fun f hf => by simp [names_of_mem ys step hy f hf]⟩

/-- In whatever order the commands arrive, the same flags are there in the end, each as often. -/
theorem run_perm_of_interleaving {zs' : List StoreStep} (hxs : AreEdits xs) (hys : AreEdits ys)
    (hdisjoint : AreDisjoint xs ys) (h : Interleaving xs ys zs) (h' : Interleaving xs ys zs')
    (flags : List Flag) : (run flags zs').Perm (run flags zs) := by
  have hcount : ∀ (q : Flag → Bool) (f : Flag), q f = true →
      (run flags zs').filter q = (run flags zs).filter q →
      (run flags zs').count f = (run flags zs).count f := by
    intro q f hf heq
    rw [← List.count_filter hf, heq, List.count_filter hf]
  rw [List.perm_iff_count]
  intro f
  by_cases hx : names xs f = true
  · apply hcount (names xs) f hx
    rw [filter_run_names hys hdisjoint h', filter_run_names hys hdisjoint h]
  · by_cases hy : names ys f = true
    · apply hcount (names ys) f hy
      rw [filter_run_names hxs hdisjoint.symm h'.symm, filter_run_names hxs hdisjoint.symm h.symm]
    · apply hcount (fun f => !names xs f && !names ys f) f (by simp [hx, hy])
      rw [filter_run_not_names hxs hys h', filter_run_not_names hxs hys h]

end

end StoreStep

/-! ## Searching by flags -/

section

variable {flags flags' : List Flag}

theorem Flag.contains_congr (h : ∀ f, f ∈ flags ↔ f ∈ flags') (f : Flag) :
    flags.contains f = flags'.contains f := by
  rw [Bool.eq_iff_iff, List.contains_iff_mem, List.contains_iff_mem, h f]

namespace SearchData

theorem hasFlag_congr (h : ∀ f, f ∈ flags ↔ f ∈ flags') (d : SearchData) (f : Flag) :
    (d.loadFlags flags).hasFlag f = (d.loadFlags flags').hasFlag f :=
  congrArg some (Flag.contains_congr h f)

theorem hasKeyword_congr (h : ∀ f, f ∈ flags ↔ f ∈ flags') (d : SearchData) (name : String) :
    (d.loadFlags flags).hasKeyword name = (d.loadFlags flags').hasKeyword name := by
  simp only [hasKeyword, loadFlags, Option.map_some, Flag.contains_congr h]

theorem testFlag_congr (h : ∀ f, f ∈ flags ↔ f ∈ flags') (d : SearchData) (test : FlagTest) :
    (d.loadFlags flags).testFlag test = (d.loadFlags flags').testFlag test := by
  cases test <;> simp only [testFlag, hasFlag_congr h d]

end SearchData

mutual

/-- A criterion sees which flags there are, and nothing else of them. -/
theorem Criterion.evaluate_congr [PatternLimit] (h : ∀ f, f ∈ flags ↔ f ∈ flags') (d : SearchData) :
    ∀ c : Criterion, c.evaluate (d.loadFlags flags) = c.evaluate (d.loadFlags flags')
  | .before _ | .since _ | .on _ | .subject _ | .body _ | .text _ | .header _ _ | .larger _
  | .smaller _ => rfl
  | .address field _ => by cases field <;> rfl
  | .flag test => SearchData.testFlag_congr h d test
  | .keyword name => SearchData.hasKeyword_congr h d name
  | .unkeyword name => congrArg Kleene.not (SearchData.hasKeyword_congr h d name)
  | .negation criteria => congrArg Kleene.not (Criteria.evaluate_congr h d criteria)
  | .either left right =>
    congrArg₂ Kleene.or (Criteria.evaluate_congr h d left) (Criteria.evaluate_congr h d right)

/-- Criteria see which flags there are, and nothing else of them. -/
theorem Criteria.evaluate_congr [PatternLimit] (h : ∀ f, f ∈ flags ↔ f ∈ flags') (d : SearchData) :
    ∀ cs : Criteria,
      Criteria.evaluate (d.loadFlags flags) cs = Criteria.evaluate (d.loadFlags flags') cs
  | [] => rfl
  | c :: cs =>
    congrArg₂ Kleene.and (Criterion.evaluate_congr h d c) (Criteria.evaluate_congr h d cs)

end

/-- A search by flags finds the same messages with the same flags, in whatever order they are and
however often each occurs. -/
theorem Criteria.matchesFlags_congr [PatternLimit] (h : ∀ f, f ∈ flags ↔ f ∈ flags')
    (cs : Criteria) : cs.matchesFlags flags = cs.matchesFlags flags' := by
  rw [matchesFlags, matchesFlags, mayHold, mayHold, evaluate_congr h]

end

/-! ## Two clients -/

namespace StoreStep

/-- **Store commands of two clients that name different flags commute.**  In whatever order the
commands arrive, the flags of each client are, in order, what its commands alone leave of them, and
the flags that neither names are as before.  All orders leave the same flags, each as often, so a
search by flags answers the same. -/
theorem run_interleaving [PatternLimit] (flags : List Flag) {xs ys zs : List StoreStep}
    (hxs : AreEdits xs) (hys : AreEdits ys) (hdisjoint : AreDisjoint xs ys)
    (h : Interleaving xs ys zs) :
    (run flags zs).filter (names xs) = (run flags xs).filter (names xs)
      ∧ (run flags zs).filter (names ys) = (run flags ys).filter (names ys)
      ∧ (run flags zs).filter (fun f => !names xs f && !names ys f)
        = (flags.filter fun f => !names xs f && !names ys f)
      ∧ ∀ zs', Interleaving xs ys zs' → (run flags zs').Perm (run flags zs)
        ∧ ∀ cs : Criteria, cs.matchesFlags (run flags zs') = cs.matchesFlags (run flags zs) := by
  refine ⟨filter_run_names hys hdisjoint h flags, filter_run_names hxs hdisjoint.symm h.symm flags,
    filter_run_not_names hxs hys h flags, fun zs' h' => ?_⟩
  have hperm := run_perm_of_interleaving hxs hys hdisjoint h h' flags
  exact ⟨hperm, Criteria.matchesFlags_congr fun f => hperm.mem_iff⟩

/-- A client that works on one keyword and a system flag. -/
def firstClient : List StoreStep :=
  [⟨.add, [.keyword "a", .flagged, .keyword "a"]⟩, ⟨.remove, [.keyword "a"]⟩]

/-- A client that works on another keyword and another system flag. -/
def secondClient : List StoreStep :=
  [⟨.remove, [.keyword "b"]⟩, ⟨.add, [.seen, .keyword "b"]⟩]

/-- Two orders of the commands of two clients leave the same flags, in different order; what neither
client names is still there twice, and a search finds the message either way. -/
theorem run_interleaving_two_orders :
    AreEdits firstClient ∧ AreEdits secondClient ∧ AreDisjoint firstClient secondClient
      ∧ Interleaving firstClient secondClient (firstClient ++ secondClient)
      ∧ Interleaving firstClient secondClient (secondClient ++ firstClient)
      ∧ run [.draft, .keyword "b", .draft] (firstClient ++ secondClient)
        = [.draft, .draft, .flagged, .seen, .keyword "b"]
      ∧ run [.draft, .keyword "b", .draft] (secondClient ++ firstClient)
        = [.draft, .draft, .seen, .keyword "b", .flagged]
      ∧ (run [.draft, .keyword "b", .draft] (secondClient ++ firstClient)).filter
          (names secondClient)
        = (run [.draft, .keyword "b", .draft] secondClient).filter (names secondClient)
      ∧ (run [.draft, .keyword "b", .draft] (secondClient ++ firstClient)).Perm
        (run [.draft, .keyword "b", .draft] (firstClient ++ secondClient))
      ∧ Criteria.matchesFlags [.flag .seen, .unkeyword "a"]
          (run [.draft, .keyword "b", .draft] (secondClient ++ firstClient))
        = Criteria.matchesFlags [.flag .seen, .unkeyword "a"]
          (run [.draft, .keyword "b", .draft] (firstClient ++ secondClient)) := by
  have hfirst : AreEdits firstClient := by
    unfold AreEdits firstClient
    decide
  have hsecond : AreEdits secondClient := by
    unfold AreEdits secondClient
    decide
  have hdisjoint : AreDisjoint firstClient secondClient := by
    intro f hf
    obtain ⟨step, hstep, hmem⟩ := (names_iff firstClient f).mp hf
    have hnamed : ∀ step ∈ firstClient, ∀ f ∈ step.operand, names secondClient f = false := by
      decide
    exact hnamed step hstep f hmem
  have hone : Interleaving firstClient secondClient (firstClient ++ secondClient) :=
    .left _ (.left _ (.right _ (.right _ .nil)))
  have htwo : Interleaving firstClient secondClient (secondClient ++ firstClient) :=
    .right _ (.right _ (.left _ (.left _ .nil)))
  obtain ⟨-, -, -, horders⟩ := run_interleaving [.draft, .keyword "b", .draft] hfirst hsecond
    hdisjoint hone
  obtain ⟨-, hown, -⟩ := run_interleaving [.draft, .keyword "b", .draft] hfirst hsecond hdisjoint
    htwo
  obtain ⟨hperm, hsearch⟩ := horders _ htwo
  exact ⟨hfirst, hsecond, hdisjoint, hone, htwo, by decide, by decide, hown, hperm, hsearch _⟩

end StoreStep

end ImapMessage
