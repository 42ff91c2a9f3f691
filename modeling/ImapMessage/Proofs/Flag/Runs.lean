/-
# Runs of store commands

The flags of a message after several store commands, one after another.  Adding and taking away
never makes a flag occur twice that did not; replacing does exactly if the command names a flag
twice.

Key constructions:
* `StoreStep`, `StoreStep.run`: one command, and the flags after several of them.
* `StoreAction.nodup_apply`: what one command keeps.
* `StoreStep.nodup_run`: what a run keeps.
-/
import ImapMessage.Flag.Store
import Mathlib.Data.List.Infix
import Mathlib.Data.List.Nodup

namespace ImapMessage

/-- One store command: what it does, and with which flags. -/
structure StoreStep where
  /-- What to do. -/
  action : StoreAction
  /-- The flags that the command names. -/
  operand : List Flag
  deriving DecidableEq, Repr

namespace StoreStep

/-- The flags after a command. -/
def apply (step : StoreStep) (flags : List Flag) : List Flag :=
  step.action.apply flags step.operand

/-- The flags after some commands, one after another. -/
def run (flags : List Flag) (steps : List StoreStep) : List Flag :=
  steps.foldl (fun flags step => step.apply flags) flags

@[simp] theorem run_nil (flags : List Flag) : run flags [] = flags := rfl

@[simp] theorem run_cons (flags : List Flag) (step : StoreStep) (steps : List StoreStep) :
    run flags (step :: steps) = run (step.apply flags) steps := rfl

theorem run_concat (flags : List Flag) (steps : List StoreStep) (step : StoreStep) :
    run flags (steps ++ [step]) = step.apply (run flags steps) := by
  rw [run, List.foldl_concat]
  rfl

end StoreStep

/-! ## Flags that occur once -/

namespace StoreAction

/-- A flag is added only where it does not occur yet. -/
theorem nodup_insertFlag {flags : List Flag} (h : flags.Nodup) (f : Flag) :
    (insertFlag flags f).Nodup := by
  unfold insertFlag
  split
  · exact h
  · rename_i hf
    rw [List.contains_iff_mem] at hf
    rw [List.nodup_append]
    refine ⟨h, List.nodup_singleton f, ?_⟩
    rintro g hg g' hg' rfl
    rw [List.mem_singleton] at hg'
    exact hf (hg' ▸ hg)

/-- One command leaves no flag twice, unless it replaces the flags by some that it names twice. -/
theorem nodup_apply {action : StoreAction} {flags operand : List Flag} (h : flags.Nodup)
    (hset : action = .set → operand.Nodup) : (action.apply flags operand).Nodup := by
  cases action with
  | set => exact hset rfl
  | add =>
    -- Each addition meets the flags that are there and those named before it.
    exact List.foldlRecOn operand insertFlag h fun flags hflags f _ => nodup_insertFlag hflags f
  | remove => exact h.filter _

end StoreAction

namespace StoreStep

/-- A run leaves no flag twice, unless a command replaces the flags by some that it names twice. -/
theorem nodup_run {flags : List Flag} {steps : List StoreStep} (h : flags.Nodup)
    (hset : ∀ step ∈ steps, step.action = .set → step.operand.Nodup) :
    (run flags steps).Nodup := by
  induction steps generalizing flags with
  | nil => exact h
  | cons step steps ih =>
    rw [run_cons]
    apply ih
    · exact StoreAction.nodup_apply h (hset step List.mem_cons_self)
    · exact fun later hlater => hset later (List.mem_cons_of_mem step hlater)

/-- No flag occurs twice at any time in a run if and only if none does at its start and no command
replaces the flags by some that it names twice. -/
theorem nodup_along_run_iff (flags : List Flag) (steps : List StoreStep) :
    (∀ done, done <+: steps → (run flags done).Nodup)
      ↔ flags.Nodup ∧ ∀ step ∈ steps, step.action = .set → step.operand.Nodup := by
  constructor
  · intro hrun
    refine ⟨hrun [] List.nil_prefix, fun step hstep hset => ?_⟩
    -- After `step` the flags are those that it names.
    obtain ⟨before, after, rfl⟩ := List.append_of_mem hstep
    have hdone := hrun (before ++ [step]) ⟨after, by simp⟩
    rwa [run_concat, apply, hset] at hdone
  · rintro ⟨hflags, hset⟩ done hdone
    exact nodup_run hflags fun step hstep => hset step (hdone.subset hstep)

/-- Replacing the flags by one that is named twice leaves it twice. -/
theorem not_nodup_set_twice :
    ([] : List Flag).Nodup ∧ run [] [⟨.set, [.keyword "a", .keyword "a"]⟩]
        = [.keyword "a", .keyword "a"]
      ∧ ¬(run [] [⟨.set, [.keyword "a", .keyword "a"]⟩]).Nodup := by
  decide

end StoreStep

end ImapMessage
