import Mathlib.Data.List.Nodup
import Mathlib.Data.List.ReduceOption
import Mathlib.Data.List.Sort

/-!
# Numbering the values of a column

The values of a column that may be missing are numbered in the order of their
first appearance, and a missing one has the number -1.  In increasing order the
numbers decode to the distinct values in the order of their appearance exactly
where no value is missing, or the first one is.
-/

namespace Factorize

section EraseDups

variable {β : Type} [DecidableEq β]

theorem nodup_eraseDups (values : List β) : values.eraseDups.Nodup := by
  induction length : values.length using Nat.strong_induction_on generalizing values with
  | _ count ih =>
      cases values with
      | nil => exact List.nodup_nil
      | cons value values =>
          rw [List.eraseDups_cons, List.nodup_cons]
          constructor
          · rw [List.mem_eraseDups]
            simp
          · have shorter := List.length_filter_le (fun other => !other == value) values
            rw [List.length_cons] at length
            exact ih _ (by omega) _ rfl

theorem eraseDups_map_some (values : List β) :
    (values.map some).eraseDups = values.eraseDups.map some := by
  induction length : values.length using Nat.strong_induction_on generalizing values with
  | _ count ih =>
      cases values with
      | nil => rfl
      | cons value values =>
          have shorter := List.length_filter_le (fun other => !other == value) values
          rw [List.length_cons] at length
          have rest := ih _ (by omega) (values.filter fun other => !other == value) rfl
          rw [List.map_cons, List.eraseDups_cons, List.eraseDups_cons, List.map_cons, ← rest,
            List.filter_map]
          rfl

end EraseDups

variable {α : Type} [DecidableEq α]

/-- The distinct values, in the order of their first appearance. -/
def unique (column : List (Option α)) : List (Option α) := column.eraseDups

/-- The distinct values that are not missing. -/
def uniques (column : List (Option α)) : List α := column.reduceOption.eraseDups

def code (column : List (Option α)) : Option α → Int
  | none => -1
  | some value => (uniques column).idxOf value

def codes (column : List (Option α)) : List Int := column.map (code column)

/-- The value of a code. -/
def decode (column : List (Option α)) (id : Int) : Option α :=
  if id < 0 then none else (uniques column)[id.toNat]?

/-- The distinct codes in increasing order. -/
def ids (column : List (Option α)) : List Int :=
  (if none ∈ column then [-1] else []) ++
    (List.range (uniques column).length).map fun (index : Nat) => (index : Int)

variable {column : List (Option α)}

theorem mem_uniques {value : α} : value ∈ uniques column ↔ some value ∈ column := by
  rw [uniques, List.mem_eraseDups, List.reduceOption_mem_iff]

theorem decode_code {value : Option α} (member : value ∈ column) :
    decode column (code column value) = value := by
  cases value with
  | none => rfl
  | some value =>
      have inside := List.idxOf_lt_length_of_mem (mem_uniques.mpr member)
      rw [decode, code, if_neg (by omega), Int.toNat_natCast, List.getElem?_eq_getElem inside,
        List.getElem_idxOf]

theorem mem_codes {id : Int} :
    id ∈ codes column ↔ id = -1 ∧ none ∈ column ∨
      ∃ index : Nat, index < (uniques column).length ∧ id = index := by
  rw [codes, List.mem_map]
  constructor
  · rintro ⟨value, member, rfl⟩
    cases value with
    | none => exact .inl ⟨rfl, member⟩
    | some value =>
        exact .inr ⟨_, List.idxOf_lt_length_of_mem (mem_uniques.mpr member), rfl⟩
  · rintro (⟨rfl, member⟩ | ⟨index, inside, rfl⟩)
    · exact ⟨none, member, rfl⟩
    · have distinct : (uniques column).Nodup := nodup_eraseDups _
      refine ⟨some (uniques column)[index], mem_uniques.mp (List.getElem_mem inside), ?_⟩
      rw [code, distinct.idxOf_getElem]

theorem mem_ids {id : Int} : id ∈ ids column ↔ id ∈ codes column := by
  rw [mem_codes, ids, List.mem_append, List.mem_map]
  apply or_congr
  · split
    · rename_i missing
      simp [missing]
    · rename_i present
      simp [present]
  · simp only [List.mem_range, eq_comm]

theorem ids_increasing : (ids column).Pairwise (· < ·) := by
  rw [ids, List.pairwise_append]
  refine ⟨?_, ?_, ?_⟩
  · split <;> simp
  · rw [List.pairwise_map]
    exact List.pairwise_lt_range.imp fun less => by omega
  · intro first firstMem second secondMem
    obtain ⟨index, -, rfl⟩ := List.mem_map.mp secondMem
    split at firstMem
    · obtain rfl := List.mem_singleton.mp firstMem
      omega
    · cases firstMem

/-- The distinct codes in increasing order are the only such list. -/
theorem eq_ids {classes : List Int} (increasing : classes.Pairwise (· < ·))
    (distinct : ∀ id, id ∈ classes ↔ id ∈ codes column) : classes = ids column :=
  increasing.eq_of_mem_iff ids_increasing fun id => (distinct id).trans mem_ids.symm

theorem map_decode_ids : (ids column).map (decode column) =
    (if none ∈ column then [none] else []) ++ (uniques column).map some := by
  rw [ids, List.map_append, List.map_map]
  congr 1
  · split <;> rfl
  · apply List.ext_getElem
    · simp
    · intro index inRange inside
      simp only [List.length_map] at inside
      simp [decode, inside]

omit [DecidableEq α] in
theorem map_some_reduceOption (column : List (Option α)) :
    column.reduceOption.map some = column.filter (· ≠ none) := by
  induction column with
  | nil => rfl
  | cons value column ih =>
      cases value with
      | none => simpa using ih
      | some value => simpa using ih

theorem unique_of_present (present : none ∉ column) :
    unique column = (uniques column).map some := by
  have all : column.filter (· ≠ none) = column := by
    rw [List.filter_eq_self]
    intro value member
    have given : value ≠ none := fun missing => present (missing ▸ member)
    exact decide_eq_true given
  rw [uniques, ← eraseDups_map_some, map_some_reduceOption, all]
  rfl

theorem unique_cons_none (column : List (Option α)) :
    unique (none :: column) = none :: (uniques (none :: column)).map some := by
  rw [unique, List.eraseDups_cons, uniques, List.reduceOption_cons_of_none, ← eraseDups_map_some,
    map_some_reduceOption]
  congr 2
  apply List.filter_congr
  intro value _
  cases value <;> rfl

/-- The distinct values are those of the codes, in order, exactly where a missing
value, if any, comes first. -/
theorem unique_eq_map_decode_iff : unique column = (ids column).map (decode column) ↔
    none ∉ column ∨ column.head? = some none := by
  rw [map_decode_ids]
  by_cases missing : none ∈ column
  · rw [if_pos missing, or_iff_right (not_not_intro missing)]
    cases column with
    | nil => cases missing
    | cons value column =>
        cases value with
        | none => exact iff_of_true (unique_cons_none column) rfl
        | some value =>
            rw [unique, List.eraseDups_cons]
            simp
  · rw [if_neg missing]
    exact iff_of_true (unique_of_present missing) (.inl missing)

end Factorize
