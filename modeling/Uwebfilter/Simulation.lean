import Mathlib.Data.List.Forall2
import Uwebfilter.MachineRun

/-!
# Simulation of computations that may fail

A computation refines another one when it returns what that one returns, up
to a relation, and fails as it fails.  It may also give up for a reason the
other one does not have.  Refinement is kept by sequencing and by runs.
-/

namespace Simulation

variable {Halt Fault α β γ δ : Type}

/-- The outcome of a computation beside that of the one it refines. -/
inductive Refines (givesUp : Halt → Prop) (fails : Fault → Halt) (related : α → β → Prop) :
    Except Halt α → Except Fault β → Prop
  | returned {value : α} {other : β} (same : related value other) :
      Refines givesUp fails related (.ok value) (.ok other)
  | failed (fault : Fault) : Refines givesUp fails related (.error (fails fault)) (.error fault)
  | gaveUp {halt : Halt} (allowed : givesUp halt) (other : Except Fault β) :
      Refines givesUp fails related (.error halt) other

variable {givesUp : Halt → Prop} {fails : Fault → Halt}

namespace Refines

/-- Sequencing: what follows refines what follows, from related values. -/
theorem bind {related : α → β → Prop} {finish : γ → δ → Prop} {first : Except Halt α}
    {second : Except Fault β} {firstNext : α → Except Halt γ} {secondNext : β → Except Fault δ}
    (refines : Refines givesUp fails related first second)
    (next : ∀ value other, related value other →
      Refines givesUp fails finish (firstNext value) (secondNext other)) :
    Refines givesUp fails finish (first >>= firstNext) (second >>= secondNext) := by
  cases refines with
  | returned same => exact next _ _ same
  | failed fault => exact .failed fault
  | gaveUp allowed => exact .gaveUp allowed _

theorem map {related : α → β → Prop} {finish : γ → δ → Prop} {first : Except Halt α}
    {second : Except Fault β} {firstNext : α → γ} {secondNext : β → δ}
    (refines : Refines givesUp fails related first second)
    (next : ∀ value other, related value other → finish (firstNext value) (secondNext other)) :
    Refines givesUp fails finish (first.map firstNext) (second.map secondNext) := by
  cases refines with
  | returned same => exact .returned (next _ _ same)
  | failed fault => exact .failed fault
  | gaveUp allowed => exact .gaveUp allowed _

end Refines

section Runs

variable {State Other Input Reads Output : Type}
variable {step : State → Input → Except Halt (State × Output)}
variable {otherStep : Other → Reads → Except Fault (Other × Output)}

theorem exists_forall₂ {completes : Input → Reads → Prop}
    (total : ∀ input, ∃ reads, completes input reads) (inputs : List Input) :
    ∃ completed, List.Forall₂ completes inputs completed := by
  induction inputs with
  | nil => exact ⟨[], .nil⟩
  | cons input inputs ih =>
      obtain ⟨reads, complete⟩ := total input
      obtain ⟨completed, all⟩ := ih
      exact ⟨reads :: completed, .cons complete all⟩

/-- A run of refining steps refines a run, for inputs that complete its
own.  Which these are may depend on the states on the way. -/
theorem Refines.run (related : State → Other → Prop) (completes : Input → Reads → Prop)
    {Allowed : Input → Prop} (total : ∀ input, ∃ reads, completes input reads)
    (refines : ∀ state other input, related state other → Allowed input →
      ∃ reads, completes input reads ∧
        Refines givesUp fails (fun first second => related first.1 second.1 ∧
          first.2 = second.2) (step state input) (otherStep other reads))
    {inputs : List Input} (allowed : ∀ input ∈ inputs, Allowed input) {start : State}
    {otherStart : Other} (initial : related start otherStart) :
    ∃ completed, List.Forall₂ completes inputs completed ∧
      Refines givesUp fails (fun first second => related first.1 second.1 ∧
        first.2 = second.2) (MachineRun.run step start inputs)
        (MachineRun.run otherStep otherStart completed) := by
  induction inputs generalizing start otherStart with
  | nil => exact ⟨[], .nil, .returned ⟨initial, rfl⟩⟩
  | cons input inputs ih =>
      rw [List.forall_mem_cons] at allowed
      obtain ⟨reads, complete, first⟩ := refines start otherStart input initial allowed.1
      obtain ⟨some, all⟩ := exists_forall₂ total inputs
      simp only [MachineRun.run]
      generalize step start input = outcome at first ⊢
      generalize stepped : otherStep otherStart reads = otherOutcome at first
      cases first with
      | returned same =>
          obtain ⟨completed, later, refines⟩ := ih allowed.2 same.1
          refine ⟨reads :: completed, .cons complete later, ?_⟩
          simp only [MachineRun.run, stepped]
          exact refines.bind fun value other ends => .returned ⟨ends.1, by rw [same.2, ends.2]⟩
      | failed fault =>
          refine ⟨reads :: some, .cons complete all, ?_⟩
          simp only [MachineRun.run, stepped]
          exact .failed fault
      | gaveUp permitted => exact ⟨reads :: some, .cons complete all, .gaveUp permitted _⟩

end Runs

end Simulation
