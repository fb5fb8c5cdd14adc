import Mathlib.Data.List.Basic
import Mathlib.Data.List.Perm.Basic

/-!
# Intrusive hash tables

A table is the list of its elements in application order: `add` appends, an
iteration goes from the head.  Adding does not look for an element of the same
key, and a bucket expansion reverses chains, so a search may reach any of the
elements with the key it looks for.  The argument `choice` picks which.
-/

namespace HashTable

variable {α : Type}

/-- One of the elements of a list, or nothing when there is none. -/
def pick (choice : Nat) (candidates : List α) : Option α :=
  candidates[choice % candidates.length]?

theorem pick_eq_none {choice : Nat} {candidates : List α} :
    pick choice candidates = none ↔ candidates = [] := by
  constructor
  · intro nothing
    by_contra nonempty
    have positive : 0 < candidates.length := List.length_pos_iff.mpr nonempty
    have inside := Nat.mod_lt choice positive
    simp [pick, inside] at nothing
  · rintro rfl
    rfl

theorem mem_of_pick {choice : Nat} {candidates : List α} {value : α}
    (picked : pick choice candidates = some value) : value ∈ candidates :=
  List.mem_of_getElem? picked

@[simp] theorem pick_singleton (choice : Nat) (value : α) :
    pick choice [value] = some value := by
  simp [pick, Nat.mod_one]

theorem exists_pick {candidates : List α} {value : α} (member : value ∈ candidates) :
    ∃ choice, pick choice candidates = some value := by
  obtain ⟨index, inside, rfl⟩ := List.mem_iff_getElem.mp member
  exact ⟨index, by simp [pick, Nat.mod_eq_of_lt inside, inside]⟩

/-- Search for an element with its position in the table. -/
def find (choice : Nat) (matching : α → Bool) (table : List α) : Option (Nat × α) :=
  (pick choice (table.zipIdx.filter fun entry => matching entry.1)).map Prod.swap

theorem find_eq_none {choice : Nat} {matching : α → Bool} {table : List α} :
    find choice matching table = none ↔ ∀ element ∈ table, matching element = false := by
  rw [find, Option.map_eq_none_iff, pick_eq_none, List.filter_eq_nil_iff]
  constructor
  · intro none element member
    obtain ⟨index, inside, rfl⟩ := List.mem_iff_getElem.mp member
    have listed : (table[index], index) ∈ table.zipIdx :=
      List.mk_mem_zipIdx_iff_getElem?.mpr (by simp [inside])
    simpa using none (table[index], index) listed
  · rintro none ⟨element, index⟩ member
    have present := List.mem_of_getElem? (List.mk_mem_zipIdx_iff_getElem?.mp member)
    simp [none element present]

theorem find_eq_some {choice : Nat} {matching : α → Bool} {table : List α}
    {index : Nat} {element : α} (found : find choice matching table = some (index, element)) :
    table[index]? = some element ∧ matching element = true := by
  rw [find, Option.map_eq_some_iff] at found
  obtain ⟨⟨value, position⟩, picked, swapped⟩ := found
  obtain ⟨rfl, rfl⟩ : position = index ∧ value = element := by simpa using swapped
  have member := mem_of_pick picked
  rw [List.mem_filter] at member
  exact ⟨List.mk_mem_zipIdx_iff_getElem?.mp member.1, member.2⟩

theorem exists_find (matching : α → Bool) {table : List α} {element : α}
    (member : element ∈ table) (matched : matching element = true) :
    ∃ choice index, find choice matching table = some (index, element) := by
  obtain ⟨index, inside, rfl⟩ := List.mem_iff_getElem.mp member
  have listed : (table[index], index) ∈ table.zipIdx.filter fun entry => matching entry.1 := by
    rw [List.mem_filter]
    exact ⟨List.mk_mem_zipIdx_iff_getElem?.mpr (by simp [inside]), matched⟩
  obtain ⟨choice, picked⟩ := exists_pick listed
  exact ⟨choice, index, by simp [find, picked]⟩

/-- An element that matches alone is found at its position, whatever the choice. -/
theorem find_of_unique (choice : Nat) {matching : α → Bool} {table rest : List α}
    {element : α} (matched : matching element = true)
    (before : ∀ other ∈ table, matching other = false)
    (behind : ∀ other ∈ rest, matching other = false) :
    find choice matching (table ++ element :: rest) = some (table.length, element) := by
  have front : (table.zipIdx.filter fun entry => matching entry.1) = [] := by
    rw [List.filter_eq_nil_iff]
    rintro ⟨other, index⟩ member
    simp [before other (List.mem_of_getElem? (List.mk_mem_zipIdx_iff_getElem?.mp member))]
  have back (start : Nat) : ((rest.zipIdx start).filter fun entry => matching entry.1) = [] := by
    rw [List.filter_eq_nil_iff]
    rintro ⟨other, index⟩ member
    simp [behind other (List.fst_mem_of_mem_zipIdx member)]
  simp [find, List.zipIdx_append, List.zipIdx_cons, List.filter_append, front, back, matched]

theorem pick_map {β : Type} (choice : Nat) (f : α → β) (candidates : List α) :
    pick choice (candidates.map f) = (pick choice candidates).map f := by
  simp [pick]

/-- A search through the images of some elements. -/
theorem find_map {β : Type} (choice : Nat) (matching : β → Bool) (f : α → β) (table : List α) :
    find choice matching (table.map f) =
      (find choice (fun element => matching (f element)) table).map fun found =>
        (found.1, f found.2) := by
  have filtered : ((table.map f).zipIdx.filter fun entry => matching entry.1) =
      (table.zipIdx.filter fun entry => matching (f entry.1)).map fun entry =>
        (f entry.1, entry.2) := by
    rw [List.zipIdx_map, List.filter_map]
    rfl
  rw [find, filtered, pick_map, find, Option.map_map, Option.map_map]
  rfl

theorem find_congr (choice : Nat) {first second : α → Bool} {table : List α}
    (same : ∀ element ∈ table, first element = second element) :
    find choice first table = find choice second table := by
  rw [find, find, List.filter_congr]
  rintro ⟨element, index⟩ member
  exact same element (List.fst_mem_of_mem_zipIdx member)

theorem perm_cons_eraseIdx {table : List α} {index : Nat} {element : α}
    (present : table[index]? = some element) :
    table.Perm (element :: table.eraseIdx index) := by
  obtain ⟨inside, rfl⟩ := List.getElem?_eq_some_iff.mp present
  exact (List.getElem_cons_eraseIdx_perm inside).symm

theorem set_perm_cons_eraseIdx {table : List α} {index : Nat} {element : α} (value : α)
    (present : table[index]? = some element) :
    (table.set index value).Perm (value :: table.eraseIdx index) :=
  List.set_perm_cons_eraseIdx (List.getElem?_eq_some_iff.mp present).1 value

end HashTable
