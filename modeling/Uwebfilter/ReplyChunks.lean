import Uwebfilter.IncrementalParser
import Uwebfilter.JsonTree

/-!
# Replies delivered in chunks

`curl_write_cb` parses each chunk of a reply as it comes and keeps what the last
one gives.  That is what the whole reply gives in one chunk, however the network
cuts it, exactly where no parse ends too early.
-/

namespace Uwebfilter

open CStrings IncrementalParser

/-- A tokener of json-c.  A JSON `null` is no object. -/
abbrev JsonTokener := Tokener UInt8 Json

structure CurlJsonBuffer (tokener : JsonTokener) where
  tok : tokener.State
  obj : Option Json

variable (tokener : JsonTokener)

def curlJsonBuffer : CurlJsonBuffer tokener := ⟨tokener.start, none⟩

def curlWriteCb (b : CurlJsonBuffer tokener) (contents : Bytes) : CurlJsonBuffer tokener :=
  let (tok, obj) := tokener.parse b.tok contents
  ⟨tok, obj⟩

/-- The object after the last chunk. -/
def delivered (chunks : List Bytes) : Option Json :=
  (chunks.foldl (curlWriteCb tokener) (curlJsonBuffer tokener)).obj

/-- The object does not depend on how the body is cut. -/
def DeliversAlike (body : Bytes) : Prop :=
  ∀ chunks : List Bytes, (∀ chunk ∈ chunks, chunk ≠ []) → chunks.flatten = body →
    delivered tokener chunks = delivered tokener [body]

/-- The first value of the body ends with the body; where a `null` or an error
ends its parse before, no later parse of what follows completes a value. -/
def EndsInTime (body : Bytes) : Prop :=
  ∀ value next rest, tokener.stop tokener.start body = some (value, next, rest) →
    (value ≠ none → rest = []) ∧
      (value = none → ∀ left, left <:+ rest → ¬ tokener.Answers next left)

variable {tokener}

theorem foldl_curlWriteCb (b : CurlJsonBuffer tokener) (chunks : List Bytes) :
    (chunks.foldl (curlWriteCb tokener) b).obj = tokener.lastValue b.tok b.obj chunks := by
  induction chunks generalizing b with
  | nil => rfl
  | cons chunk chunks ih => exact ih _

theorem delivered_eq (chunks : List Bytes) :
    delivered tokener chunks = tokener.lastValue tokener.start none chunks :=
  foldl_curlWriteCb (curlJsonBuffer tokener) chunks

variable {body : Bytes} {value : Option Json} {next : tokener.State} {rest : Bytes}

theorem delivered_singleton_of_stop
    (stops : tokener.stop tokener.start body = some (value, next, rest)) :
    delivered tokener [body] = value := by
  rw [delivered_eq, Tokener.lastValue_cons_of_stop stops, Tokener.lastValue]

theorem delivered_singleton_of_goes (goes : tokener.stop tokener.start body = none) :
    delivered tokener [body] = none := by
  rw [delivered_eq, Tokener.lastValue, Tokener.lastValue]
  exact (Tokener.stop_append_of_none goes).1

theorem delivered_eq_none {chunks : List Bytes}
    (silent : ¬ tokener.Answers tokener.start chunks.flatten) : delivered tokener chunks = none := by
  cases given : delivered tokener chunks with
  | none => rfl
  | some found =>
      rw [delivered_eq] at given
      exact absurd (Tokener.answers_of_lastValue chunks given) silent

/-- A value that ends before the body is lost when the last byte comes apart. -/
theorem not_deliversAlike_of_value {found : Json}
    (stops : tokener.stop tokener.start body = some (some found, next, rest)) (behind : rest ≠ []) :
    ¬ DeliversAlike tokener body := by
  intro alike
  obtain ⟨front, nonempty, rfl, stays⟩ := Tokener.exists_of_stop stops
  obtain ⟨kept, last, rfl⟩ := List.eq_nil_or_concat rest |>.resolve_left behind
  have cut : ∀ chunk ∈ [front ++ kept, [last]], chunk ≠ [] := by simp [nonempty]
  have joined : [front ++ kept, [last]].flatten = front ++ kept.concat last := by simp
  have whole := alike _ cut joined
  obtain rfl := Tokener.next_of_stop stops
  rw [delivered_singleton_of_stop stops, delivered_eq, Tokener.lastValue_cons_of_stop (stays kept),
    Tokener.lastValue, Tokener.lastValue, Tokener.parse_singleton] at whole
  cases whole

/-- What follows an early `null` or error can be cut so that it gives a value. -/
theorem not_deliversAlike_of_answers {left : Bytes}
    (stops : tokener.stop tokener.start body = some (none, next, rest)) (behind : left <:+ rest)
    (answers : tokener.Answers next left) : ¬ DeliversAlike tokener body := by
  intro alike
  obtain ⟨chunks, found, cut, joined, gives⟩ :=
    (Tokener.Answers.later stops behind answers).exists_chunks
  have whole := alike chunks cut joined
  rw [delivered_singleton_of_stop stops, delivered_eq, gives] at whole
  cases whole

/-- A reply gives the same object however it is cut exactly where no parse of it
ends too early. -/
theorem deliversAlike_iff (tokener : JsonTokener) (body : Bytes) :
    DeliversAlike tokener body ↔ EndsInTime tokener body := by
  constructor
  · intro alike value next rest stops
    constructor
    · intro given
      obtain ⟨found, rfl⟩ := Option.ne_none_iff_exists'.mp given
      by_contra behind
      exact not_deliversAlike_of_value stops behind alike
    · rintro rfl left behind answers
      exact not_deliversAlike_of_answers stops behind answers alike
  · rintro inTime chunks cut rfl
    cases stops : tokener.stop tokener.start chunks.flatten with
    | none =>
        rw [delivered_singleton_of_goes stops]
        exact delivered_eq_none (Tokener.not_answers_of_goes stops)
    | some stopped =>
        obtain ⟨value, next, rest⟩ := stopped
        rw [delivered_singleton_of_stop stops]
        obtain ⟨ends, silent⟩ := inTime value next rest stops
        cases value with
        | some found =>
            obtain rfl := ends (by simp)
            rw [delivered_eq]
            exact Tokener.lastValue_of_stop_end cut stops
        | none =>
            apply delivered_eq_none
            intro answers
            obtain ⟨left, behind, later⟩ := answers.left stops
            exact silent rfl left behind later

/-! ## The empty object -/

inductive ObjectState
  | outside
  | inside

/-- A tokener of the empty object and white space; any other byte is an error. -/
def objectTokener : JsonTokener where
  State := ObjectState
  start := .outside
  feed
    | .outside, byte =>
        if byte = 123 then .continues .inside
        else if byte ∈ [9, 10, 13, 32] then .continues .outside
        else .breaks .outside
    | .inside, byte =>
        if byte = 125 then .completes (some (.object []))
        else if byte ∈ [9, 10, 13, 32] then .continues .inside
        else .breaks .inside
  single byte value := by
    dsimp only
    split_ifs <;> simp

theorem deliversAlike_iff_emptyObject : DeliversAlike objectTokener [123, 125] := by
  rw [deliversAlike_iff]
  intro value next rest stops
  have ends : objectTokener.stop .outside [123, 125] =
      some (some (.object []), .outside, []) := rfl
  have same := ends.symm.trans stops
  simp only [Option.some.injEq, Prod.mk.injEq] at same
  obtain ⟨rfl, -, rfl⟩ := same
  exact ⟨fun _ => rfl, fun absent => by cases absent⟩

/-- An object with a line feed behind it is lost where the network cuts between
the two. -/
theorem not_deliversAlike_lineFeed : ¬ DeliversAlike objectTokener [123, 125, 10] := by
  have stops : objectTokener.stop objectTokener.start [123, 125, 10] =
      some (some (.object []), .outside, [10]) := rfl
  exact not_deliversAlike_of_value stops (by simp)

end Uwebfilter
