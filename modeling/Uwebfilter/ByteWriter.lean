import Uwebfilter.ByteReader

/-!
# Programs that write bytes to memory

Memory together with the addresses written to it.  What a write leaves is told
by what memory holds: the content written, and elsewhere what it held before.
-/

/-- Memory and the addresses written so far. -/
structure ByteWriter where
  memory : Nat → UInt8
  written : List Nat

namespace ByteWriter

open ByteReader

/-- Memory that is all zero. -/
def cleared : ByteWriter := ⟨fun _ => 0, []⟩

def write (state : ByteWriter) (address : Nat) (content : List UInt8) : ByteWriter where
  memory place :=
    if address ≤ place then content.getD (place - address) (state.memory place)
    else state.memory place
  written := state.written ++ List.range' address content.length

/-- Some contents one behind the other. -/
def writeFields (state : ByteWriter) (address : Nat) : List (List UInt8) → ByteWriter
  | [] => state
  | field :: fields => (state.write address field).writeFields (address + field.length) fields

variable {state : ByteWriter} {address other : Nat} {content held : List UInt8}

theorem memory_write_inside {index : Nat} (inside : index < content.length) :
    (state.write address content).memory (address + index) = content[index] := by
  simp [write, inside]

theorem memory_write_outside {place : Nat}
    (outside : place < address ∨ address + content.length ≤ place) :
    (state.write address content).memory place = state.memory place := by
  rcases outside with below | above
  · exact if_neg (by omega)
  · have behind : content.length ≤ place - address := by omega
    simp [write, List.getElem?_eq_none behind]

theorem holds_write : Holds (state.write address content).memory address content :=
  fun _ inside => memory_write_inside inside

theorem holds_write_of_apart (holds : Holds state.memory other held)
    (apart : other + held.length ≤ address ∨ address + content.length ≤ other) :
    Holds (state.write address content).memory other held := by
  intro index inside
  rw [memory_write_outside (by omega)]
  exact holds index inside

theorem holds_cleared (count : Nat) : Holds cleared.memory address (List.replicate count 0) := by
  intro index inside
  exact (List.getElem_replicate inside).symm

theorem mem_written_write {place : Nat} :
    place ∈ (state.write address content).written ↔
      place ∈ state.written ∨ address ≤ place ∧ place < address + content.length := by
  rw [write, List.mem_append, List.mem_range'_1]

theorem write_write (first second : List UInt8) :
    (state.write address first).write (address + first.length) second =
      state.write address (first ++ second) := by
  have memory : ((state.write address first).write (address + first.length) second).memory =
      (state.write address (first ++ second)).memory := by
    funext place
    rcases Nat.lt_or_ge place address with below | above
    · rw [memory_write_outside (.inl (by omega)), memory_write_outside (.inl below),
        memory_write_outside (.inl below)]
    · obtain ⟨index, rfl⟩ := Nat.exists_eq_add_of_le above
      rcases Nat.lt_or_ge index first.length with inFirst | behind
      · rw [memory_write_outside (.inl (by omega)), memory_write_inside inFirst,
          memory_write_inside (by rw [List.length_append]; omega),
          List.getElem_append_left inFirst]
      · obtain ⟨rest, rfl⟩ := Nat.exists_eq_add_of_le behind
        rw [← Nat.add_assoc]
        rcases Nat.lt_or_ge rest second.length with inSecond | outside
        · rw [memory_write_inside inSecond, Nat.add_assoc,
            memory_write_inside (by rw [List.length_append]; omega)]
          simp
        · rw [memory_write_outside (.inr (by omega)), memory_write_outside (.inr (by omega)),
            memory_write_outside (.inr (by rw [List.length_append]; omega))]
  have written : ((state.write address first).write (address + first.length) second).written =
      (state.write address (first ++ second)).written := by
    simp only [write, List.append_assoc, List.length_append, List.range'_append_1]
  exact congrArg₂ ByteWriter.mk memory written

theorem write_nil : state.write address [] = state := by
  have memory : (state.write address []).memory = state.memory := by
    funext place
    simp [write]
  exact congrArg₂ ByteWriter.mk memory (List.append_nil _)

/-- Fields one behind the other are one write. -/
theorem writeFields_eq (fields : List (List UInt8)) :
    state.writeFields address fields = state.write address fields.flatten := by
  induction fields generalizing state address with
  | nil => exact write_nil.symm
  | cons field fields ih => rw [writeFields, ih, write_write, List.flatten_cons]

end ByteWriter
