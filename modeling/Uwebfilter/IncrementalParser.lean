import Mathlib.Data.List.Basic
import Mathlib.Data.List.Infix

/-!
# Parsers that are fed in chunks

A tokener reads symbol by symbol.  A value it completes, or a syntax error, ends
the parse of a chunk and the rest of the chunk is dropped; the next chunk is
parsed from where the tokener has been left.  What the last chunk of an input
gives depends on how the input is cut exactly where a parse ends too early.
-/

namespace IncrementalParser

variable {Symbol Value : Type}

/-- What a tokener does with a symbol.  A completed value may be none. -/
inductive Step (State Value : Type)
  | continues (next : State)
  | completes (value : Option Value)
  | breaks (next : State)

/-- A tokener with no value of one symbol. -/
structure Tokener (Symbol Value : Type) where
  State : Type
  start : State
  feed : State → Symbol → Step State Value
  single : ∀ symbol value, feed start symbol ≠ .completes (some value)

namespace Tokener

variable (tokener : Tokener Symbol Value)

/-- Parse one chunk. -/
def parse : tokener.State → List Symbol → tokener.State × Option Value
  | state, [] => (state, none)
  | state, symbol :: rest =>
      match tokener.feed state symbol with
      | .continues next => parse next rest
      | .completes value => (tokener.start, value)
      | .breaks next => (next, none)

/-- Where a parse ends before it runs out of symbols: its value, the state it
leaves, and the symbols behind. -/
def stop : tokener.State → List Symbol → Option (Option Value × tokener.State × List Symbol)
  | _, [] => none
  | state, symbol :: rest =>
      match tokener.feed state symbol with
      | .continues next => stop next rest
      | .completes value => some (value, tokener.start, rest)
      | .breaks next => some (none, next, rest)

/-- The value of the last of some chunks. -/
def lastValue : tokener.State → Option Value → List (List Symbol) → Option Value
  | _, value, [] => value
  | state, _, chunk :: chunks =>
      lastValue (tokener.parse state chunk).1 (tokener.parse state chunk).2 chunks

/-- The parse of an input, or of what is left behind one, completes a value. -/
inductive Answers : tokener.State → List Symbol → Prop
  | now {state next : tokener.State} {symbols rest : List Symbol} {value : Value}
      (stops : tokener.stop state symbols = some (some value, next, rest)) :
      Answers state symbols
  | later {state next : tokener.State} {symbols rest left : List Symbol} {value : Option Value}
      (stops : tokener.stop state symbols = some (value, next, rest)) (behind : left <:+ rest)
      (answers : Answers next left) : Answers state symbols

/-! ## Where a parse stops -/

variable {tokener} {state next : tokener.State} {symbols rest : List Symbol}
variable {value : Option Value}

theorem parse_of_stop (stops : tokener.stop state symbols = some (value, next, rest)) :
    tokener.parse state symbols = (next, value) := by
  induction symbols generalizing state with
  | nil => cases stops
  | cons symbol symbols ih =>
      rw [stop] at stops
      rw [parse]
      cases fed : tokener.feed state symbol with
      | continues after =>
          rw [fed] at stops
          exact ih stops
      | completes found =>
          rw [fed] at stops
          cases stops
          rfl
      | breaks after =>
          rw [fed] at stops
          cases stops
          rfl

/-- A parse that does not stop goes on with what follows. -/
theorem stop_append_of_none (goes : tokener.stop state symbols = none) :
    (tokener.parse state symbols).2 = none ∧
      ∀ more, tokener.stop state (symbols ++ more) =
        tokener.stop (tokener.parse state symbols).1 more := by
  induction symbols generalizing state with
  | nil => exact ⟨rfl, fun more => rfl⟩
  | cons symbol symbols ih =>
      rw [stop] at goes
      simp only [List.cons_append, parse, stop]
      cases fed : tokener.feed state symbol with
      | continues after =>
          rw [fed] at goes
          exact ih goes
      | completes found =>
          rw [fed] at goes
          cases goes
      | breaks after =>
          rw [fed] at goes
          cases goes

/-- A parse that stops has read some symbols, and stops there whatever follows. -/
theorem exists_of_stop (stops : tokener.stop state symbols = some (value, next, rest)) :
    ∃ front, front ≠ [] ∧ symbols = front ++ rest ∧
      ∀ more, tokener.stop state (front ++ more) = some (value, next, more) := by
  induction symbols generalizing state with
  | nil => cases stops
  | cons symbol symbols ih =>
      rw [stop] at stops
      cases fed : tokener.feed state symbol with
      | continues after =>
          rw [fed] at stops
          obtain ⟨front, -, rfl, stays⟩ := ih stops
          refine ⟨symbol :: front, List.cons_ne_nil _ _, rfl, fun more => ?_⟩
          rw [List.cons_append, stop, fed]
          exact stays more
      | completes found =>
          rw [fed] at stops
          cases stops
          refine ⟨[symbol], List.cons_ne_nil _ _, rfl, fun more => ?_⟩
          rw [List.singleton_append, stop, fed]
      | breaks after =>
          rw [fed] at stops
          cases stops
          refine ⟨[symbol], List.cons_ne_nil _ _, rfl, fun more => ?_⟩
          rw [List.singleton_append, stop, fed]

theorem stop_append (stops : tokener.stop state symbols = some (value, next, rest))
    (more : List Symbol) :
    tokener.stop state (symbols ++ more) = some (value, next, rest ++ more) := by
  obtain ⟨front, -, rfl, stays⟩ := exists_of_stop stops
  rw [List.append_assoc, stays]

/-- A completed value leaves the tokener at its start. -/
theorem next_of_stop {found : Value}
    (stops : tokener.stop state symbols = some (some found, next, rest)) :
    next = tokener.start := by
  induction symbols generalizing state with
  | nil => cases stops
  | cons symbol symbols ih =>
      rw [stop] at stops
      cases fed : tokener.feed state symbol with
      | continues after =>
          rw [fed] at stops
          exact ih stops
      | completes value =>
          rw [fed] at stops
          cases stops
          rfl
      | breaks after =>
          rw [fed] at stops
          cases stops

theorem parse_singleton (symbol : Symbol) : (tokener.parse tokener.start [symbol]).2 = none := by
  rw [parse]
  cases fed : tokener.feed tokener.start symbol with
  | continues after => rfl
  | completes value =>
      cases value with
      | none => rfl
      | some value => exact absurd fed (tokener.single symbol value)
  | breaks after => rfl

/-! ## Chunks -/

variable {chunks : List (List Symbol)}

theorem lastValue_cons_of_stop {chunk : List Symbol} {old : Option Value}
    (stops : tokener.stop state chunk = some (value, next, rest)) :
    tokener.lastValue state old (chunk :: chunks) = tokener.lastValue next value chunks := by
  rw [lastValue, parse_of_stop stops]

/-- What comes behind a parse that has not stopped answers for it. -/
theorem Answers.of_goes {more : List Symbol} (goes : tokener.stop state symbols = none)
    (answers : tokener.Answers (tokener.parse state symbols).1 more) :
    tokener.Answers state (symbols ++ more) := by
  cases answers with
  | now stops => exact .now (((stop_append_of_none goes).2 more).trans stops)
  | later stops behind answers =>
      exact .later (((stop_append_of_none goes).2 more).trans stops) behind answers

theorem not_answers_of_goes (goes : tokener.stop state symbols = none) :
    ¬ tokener.Answers state symbols := by
  intro answers
  cases answers with
  | now stops => cases goes.symm.trans stops
  | later stops => cases goes.symm.trans stops

/-- Where a parse stops without a value, what is left behind answers. -/
theorem Answers.left (answers : tokener.Answers state symbols)
    (silent : tokener.stop state symbols = some (none, next, rest)) :
    ∃ left, left <:+ rest ∧ tokener.Answers next left := by
  cases answers with
  | now stops => cases silent.symm.trans stops
  | later stops behind answers =>
      cases silent.symm.trans stops
      exact ⟨_, behind, answers⟩

/-- A value of the last chunk answers the whole input. -/
theorem answers_of_lastValue {found : Value} (chunks : List (List Symbol))
    (gives : tokener.lastValue state none chunks = some found) :
    tokener.Answers state chunks.flatten := by
  suffices ∀ old, tokener.lastValue state old chunks = some found →
      chunks = [] ∧ old = some found ∨ tokener.Answers state chunks.flatten by
    rcases this none gives with ⟨-, absent⟩ | answers
    · cases absent
    · exact answers
  clear gives
  intro old gives
  induction chunks generalizing state old with
  | nil => exact .inl ⟨rfl, gives⟩
  | cons chunk chunks ih =>
      right
      rw [List.flatten_cons]
      rw [lastValue] at gives
      rcases ih _ gives with ⟨rfl, last⟩ | answers
      · cases stops : tokener.stop state chunk with
        | none =>
            rw [(stop_append_of_none stops).1] at last
            cases last
        | some stopped =>
            obtain ⟨value, next, rest⟩ := stopped
            rw [parse_of_stop stops] at last
            obtain rfl : value = some found := last
            exact .now (stop_append stops _)
      · cases stops : tokener.stop state chunk with
        | none => exact answers.of_goes stops
        | some stopped =>
            obtain ⟨value, next, rest⟩ := stopped
            rw [parse_of_stop stops] at answers
            exact .later (stop_append stops _) (List.suffix_append _ _) answers

/-- An input that answers can be cut so that its last chunk gives a value. -/
theorem Answers.exists_chunks (answers : tokener.Answers state symbols) :
    ∃ chunks found, (∀ chunk ∈ chunks, chunk ≠ []) ∧ chunks.flatten = symbols ∧
      ∀ old, tokener.lastValue state old chunks = some found := by
  induction answers with
  | now stops =>
      rename_i symbols _ found
      obtain ⟨front, nonempty, rfl, -⟩ := exists_of_stop stops
      refine ⟨[_], found, ?_, List.flatten_singleton, fun old => ?_⟩
      · simp [nonempty]
      · rw [lastValue_cons_of_stop stops, lastValue]
  | later stops behind _ ih =>
      obtain ⟨front, nonempty, rfl, stays⟩ := exists_of_stop stops
      obtain ⟨dropped, rfl⟩ := behind
      obtain ⟨chunks, found, cut, rfl, gives⟩ := ih
      refine ⟨(front ++ dropped) :: chunks, found, ?_, ?_, fun old => ?_⟩
      · rw [List.forall_mem_cons]
        exact ⟨by simp [nonempty], cut⟩
      · rw [List.flatten_cons, List.append_assoc]
      · rw [lastValue_cons_of_stop (stays dropped), gives]

/-- A parse that stops with the last symbol gives its value however it is cut. -/
theorem lastValue_of_stop_end {old : Option Value} (cut : ∀ chunk ∈ chunks, chunk ≠ [])
    (stops : tokener.stop state chunks.flatten = some (value, next, [])) :
    tokener.lastValue state old chunks = value := by
  induction chunks generalizing state old with
  | nil => cases stops
  | cons chunk chunks ih =>
      rw [List.forall_mem_cons] at cut
      rw [List.flatten_cons] at stops
      cases early : tokener.stop state chunk with
      | none =>
          rw [lastValue]
          apply ih cut.2
          rw [← (stop_append_of_none early).2, stops]
      | some stopped =>
          obtain ⟨found, after, rest⟩ := stopped
          rw [stop_append early, Option.some.injEq, Prod.mk.injEq, Prod.mk.injEq,
            List.append_eq_nil_iff] at stops
          obtain ⟨rfl, rfl, rfl, none⟩ := stops
          rw [lastValue_cons_of_stop early]
          cases chunks with
          | nil => rfl
          | cons chunk chunks =>
              rw [List.flatten_cons, List.append_eq_nil_iff] at none
              exact absurd none.1 (cut.2 _ List.mem_cons_self)

end Tokener

end IncrementalParser
