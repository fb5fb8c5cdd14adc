import Mathlib.Data.List.Basic
import Mathlib.Data.List.Induction
import Mathlib.Data.List.Infix

/-!
# Runs of input-driven machines

A machine takes one input at a time, moves to its next state and emits one
output.  `after` and `outputs` run a machine whose steps always return;
`run` runs one whose steps may fail.  The invariant rules see the inputs
handled so far, so an invariant may speak about the history.
-/

namespace MachineRun

section Inputs

variable {Input : Type} {condition : List Input → Input → Prop}

/-- Every input meets a condition on the inputs before it. -/
def EveryInput (condition : List Input → Input → Prop) (inputs : List Input) : Prop :=
  ∀ earlier input, earlier ++ [input] <+: inputs → condition earlier input

theorem everyInput_nil : EveryInput condition [] := by
  intro earlier input prior
  simp at prior

theorem everyInput_snoc {inputs : List Input} {input : Input} :
    EveryInput condition (inputs ++ [input]) ↔
      EveryInput condition inputs ∧ condition inputs input := by
  constructor
  · intro every
    exact ⟨fun earlier other prior => every earlier other (prior.trans (List.prefix_append _ _)),
      every inputs input List.prefix_rfl⟩
  · rintro ⟨every, last⟩ earlier other prior
    rcases List.prefix_concat_iff.mp prior with equal | inside
    · obtain ⟨rfl, rfl⟩ : earlier = inputs ∧ other = input := by
        simpa using List.append_inj' equal rfl
      exact last
    · exact every earlier other inside

end Inputs

section Total

variable {State Input Output : Type}
variable (step : State → Input → State × Output) (start : State)

def after (inputs : List Input) : State :=
  inputs.foldl (fun state input => (step state input).1) start

def outputs (start : State) : List Input → List Output
  | [] => []
  | input :: inputs => (step start input).2 :: outputs (step start input).1 inputs

@[simp] theorem after_nil : after step start [] = start := rfl

@[simp] theorem after_append (first second : List Input) :
    after step start (first ++ second) = after step (after step start first) second := by
  simp [after]

@[simp] theorem after_cons (input : Input) (inputs : List Input) :
    after step start (input :: inputs) = after step (step start input).1 inputs := rfl

@[simp] theorem outputs_append (first second : List Input) :
    outputs step start (first ++ second) =
      outputs step start first ++ outputs step (after step start first) second := by
  induction first generalizing start with
  | nil => rfl
  | cons input first ih =>
      simp only [List.cons_append, outputs, after_cons, ih]

@[simp] theorem outputs_length (inputs : List Input) :
    (outputs step start inputs).length = inputs.length := by
  induction inputs generalizing start with
  | nil => rfl
  | cons input inputs ih => simp [outputs, ih]

@[simp] theorem outputs_singleton (input : Input) :
    outputs step start [input] = [(step start input).2] := rfl

/-- Every step of a run satisfies a condition on the state before it and its
input. -/
def EveryStep (condition : State → Input → Prop) (inputs : List Input) : Prop :=
  EveryInput (fun earlier input => condition (after step start earlier) input) inputs

theorem everyStep_nil (condition : State → Input → Prop) :
    EveryStep step start condition [] :=
  everyInput_nil

theorem everyStep_snoc {condition : State → Input → Prop} {inputs : List Input}
    {input : Input} :
    EveryStep step start condition (inputs ++ [input]) ↔
      EveryStep step start condition inputs ∧ condition (after step start inputs) input :=
  everyInput_snoc

theorem everyStep_singleton {condition : State → Input → Prop} {input : Input}
    (only : condition start input) : EveryStep step start condition [input] := by
  rw [← List.nil_append [input], everyStep_snoc]
  exact ⟨everyStep_nil step start condition, only⟩

theorem EveryStep.of_prefix {condition : State → Input → Prop} {earlier inputs : List Input}
    (every : EveryStep step start condition inputs) (prior : earlier <+: inputs) :
    EveryStep step start condition earlier :=
  fun before input within => every before input (within.trans prior)

/-- What holds at first, and after a step exactly where the step meets a
condition, holds throughout a run exactly where every step meets it. -/
theorem throughout_iff {Holds : List Input → Prop} {condition : State → Input → Prop}
    (initial : Holds [])
    (snoc_iff : ∀ inputs input, Holds inputs → EveryStep step start condition inputs →
      (Holds (inputs ++ [input]) ↔ condition (after step start inputs) input))
    (inputs : List Input) :
    (∀ earlier, earlier <+: inputs → Holds earlier) ↔ EveryStep step start condition inputs := by
  induction inputs using List.reverseRecOn with
  | nil =>
      apply iff_of_true
      · intro earlier prior
        rwa [List.prefix_nil.mp prior]
      · exact everyStep_nil step start condition
  | append_singleton inputs input ih =>
      rw [everyStep_snoc, ← ih]
      constructor
      · intro throughout
        have before : ∀ earlier, earlier <+: inputs → Holds earlier := fun earlier prior =>
          throughout earlier (prior.trans (List.prefix_append _ _))
        have last := throughout _ List.prefix_rfl
        exact ⟨before, (snoc_iff inputs input (before _ List.prefix_rfl) (ih.mp before)).mp last⟩
      · rintro ⟨before, meets⟩ earlier prior
        rcases List.prefix_concat_iff.mp prior with rfl | within
        · exact (snoc_iff inputs input (before _ List.prefix_rfl) (ih.mp before)).mpr meets
        · exact before earlier within

/-- Induction over a run: what every step preserves holds after every run. -/
theorem invariant (Inv : List Input → List Output → State → Prop)
    (initial : Inv [] [] start)
    (preserved : ∀ inputs input,
      Inv inputs (outputs step start inputs) (after step start inputs) →
        Inv (inputs ++ [input])
          (outputs step start inputs ++ [(step (after step start inputs) input).2])
          (step (after step start inputs) input).1)
    (inputs : List Input) :
    Inv inputs (outputs step start inputs) (after step start inputs) := by
  induction inputs using List.reverseRecOn with
  | nil => exact initial
  | append_singleton inputs input ih => simpa using preserved inputs input ih

end Total

section Fallible

variable {State Input Output Error : Type}
variable (step : State → Input → Except Error (State × Output)) (start : State)

def run (start : State) : List Input → Except Error (State × List Output)
  | [] => .ok (start, [])
  | input :: inputs => do
      let (state, output) ← step start input
      let (reached, rest) ← run state inputs
      .ok (reached, output :: rest)

theorem run_append (first second : List Input) :
    run step start (first ++ second) = (do
      let (middle, early) ← run step start first
      let (reached, late) ← run step middle second
      .ok (reached, early ++ late)) := by
  induction first generalizing start with
  | nil =>
      cases result : run step start second <;>
        simp [run, result, bind, Except.bind]
  | cons input first ih =>
      cases result : step start input with
      | error fault => simp [run, result, bind, Except.bind]
      | ok next =>
          cases earlier : run step next.1 first with
          | error fault => simp [run, result, ih, earlier, bind, Except.bind]
          | ok middle =>
              cases later : run step middle.1 second <;>
                simp [run, result, ih, earlier, later, bind, Except.bind]

theorem run_snoc {inputs : List Input} {input : Input} {middle reached : State}
    {early : List Output} {output : Output}
    (earlier : run step start inputs = .ok (middle, early))
    (last : step middle input = .ok (reached, output)) :
    run step start (inputs ++ [input]) = .ok (reached, early ++ [output]) := by
  rw [run_append, earlier]
  simp [run, last, bind, Except.bind]

theorem step_of_run_snoc {inputs : List Input} {input : Input} {middle reached : State}
    {early produced : List Output}
    (earlier : run step start inputs = .ok (middle, early))
    (whole : run step start (inputs ++ [input]) = .ok (reached, produced)) :
    ∃ output, step middle input = .ok (reached, output) := by
  rw [run_append, earlier] at whole
  cases last : step middle input with
  | error fault => simp [run, last, bind, Except.bind] at whole
  | ok next =>
      refine ⟨next.2, ?_⟩
      simp only [run, last, bind, Except.bind, Except.ok.injEq, Prod.mk.injEq] at whole
      rw [← whole.1]

/-- Every step of a run satisfies a condition on the state before it and its
input. -/
def EveryRunStep (condition : State → Input → Prop) (inputs : List Input) : Prop :=
  EveryInput (fun earlier input =>
    ∀ state produced, run step start earlier = .ok (state, produced) → condition state input) inputs

theorem everyRunStep_nil (condition : State → Input → Prop) :
    EveryRunStep step start condition [] :=
  everyInput_nil

theorem everyRunStep_snoc {condition : State → Input → Prop} {inputs : List Input}
    {input : Input} :
    EveryRunStep step start condition (inputs ++ [input]) ↔
      EveryRunStep step start condition inputs ∧
        ∀ state produced, run step start inputs = .ok (state, produced) →
          condition state input :=
  everyInput_snoc

/-- A run whose steps meet a condition under which a step returns and keeps the
invariant never fails, and the invariant holds of the inputs handled and the
state reached. -/
theorem run_invariant_of_steps (Inv : List Input → State → Prop)
    (condition : State → Input → Prop) (initial : Inv [] start)
    (preserved : ∀ inputs state input, Inv inputs state → condition state input →
      ∃ next output, step state input = .ok (next, output) ∧ Inv (inputs ++ [input]) next)
    (inputs : List Input) (every : EveryRunStep step start condition inputs) :
    ∃ reached produced, run step start inputs = .ok (reached, produced) ∧ Inv inputs reached := by
  induction inputs using List.reverseRecOn with
  | nil => exact ⟨start, [], rfl, initial⟩
  | append_singleton inputs input ih =>
      rw [everyRunStep_snoc] at every
      obtain ⟨middle, early, earlier, held⟩ := ih every.1
      obtain ⟨reached, output, last, holds⟩ :=
        preserved inputs middle input held (every.2 middle early earlier)
      exact ⟨reached, early ++ [output], run_snoc step start earlier last, holds⟩

/-- The same where the condition is on the inputs alone. -/
theorem run_invariant (Inv : List Input → State → Prop) (Allowed : Input → Prop)
    (initial : Inv [] start)
    (preserved : ∀ inputs state input, Inv inputs state → Allowed input →
      ∃ next output, step state input = .ok (next, output) ∧ Inv (inputs ++ [input]) next)
    (inputs : List Input) (allowed : ∀ input ∈ inputs, Allowed input) :
    ∃ reached produced, run step start inputs = .ok (reached, produced) ∧ Inv inputs reached := by
  apply run_invariant_of_steps step start Inv (fun _ input => Allowed input) initial preserved
  intro earlier input prior _ _ _
  exact allowed input (prior.subset (by simp))

/-- A machine whose steps always return, run as one whose steps may fail. -/
theorem run_total (total : State → Input → State × Output) (inputs : List Input) :
    run (fun state input => (.ok (total state input) : Except Error _)) start inputs =
      .ok (after total start inputs, outputs total start inputs) := by
  induction inputs generalizing start with
  | nil => rfl
  | cons input inputs ih => simp [run, ih, outputs, bind, Except.bind]

end Fallible

/-! ## Answers -/

section Answers

variable {Input Output : Type} {Right : List Input → Input → Output → Prop}

/-- Every output is right about its input and the inputs before it. -/
def EachAnswer (Right : List Input → Input → Output → Prop) (inputs : List Input)
    (outputs : List Output) : Prop :=
  outputs.length = inputs.length ∧
    ∀ index input output, inputs[index]? = some input → outputs[index]? = some output →
      Right (inputs.take index) input output

theorem eachAnswer_nil : EachAnswer Right [] [] := by
  refine ⟨rfl, ?_⟩
  intro index input output asked
  simp at asked

theorem EachAnswer.snoc {inputs : List Input} {outputs : List Output}
    (each : EachAnswer Right inputs outputs) {input : Input} {output : Output}
    (last : Right inputs input output) :
    EachAnswer Right (inputs ++ [input]) (outputs ++ [output]) := by
  obtain ⟨same, right⟩ := each
  refine ⟨by simp [same], ?_⟩
  intro index other reply asked answered
  rcases Nat.lt_trichotomy index inputs.length with inside | rfl | outside
  · rw [List.getElem?_append_left inside] at asked
    rw [List.getElem?_append_left (by omega)] at answered
    rw [List.take_append_of_le_length (by omega)]
    exact right index other reply asked answered
  · rw [List.getElem?_concat_length, Option.some.injEq] at asked
    rw [← same, List.getElem?_concat_length, Option.some.injEq] at answered
    rw [← asked, ← answered, List.take_append_of_le_length (Nat.le_refl _), List.take_length]
    exact last
  · rw [List.getElem?_eq_none (by simp; omega)] at asked
    cases asked

end Answers

end MachineRun
