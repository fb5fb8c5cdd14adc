import Uwebfilter.HashTable

/-!
# Bodies of SQL functions

Conditions over the columns of a queried table and the parameters of the
function around the query.  An unqualified name that is both denotes the
column.  A query limited to one row answers with any of the rows that meet its
condition; `choice` picks which.
-/

namespace SqlFunction

open HashTable (pick)

variable {Name Value Row : Type}

inductive Expression (Name Value : Type)
  | name (name : Name)
  | call (function : Value → Value → Value) (first second : Expression Name Value)

inductive Condition (Name Value : Type)
  | equal (left right : Expression Name Value)
  | both (left right : Condition Name Value)

/-- What names stand for at one row. -/
structure Scope (Name Value : Type) where
  column : Name → Option Value
  parameter : Name → Option Value

namespace Scope

variable (scope : Scope Name Value)

def resolve (name : Name) : Option Value := (scope.column name).or (scope.parameter name)

theorem resolve_of_column {name : Name} {value : Value} (column : scope.column name = some value) :
    scope.resolve name = some value := by
  simp [resolve, column]

end Scope

def Expression.eval (scope : Scope Name Value) : Expression Name Value → Option Value
  | .name identifier => scope.resolve identifier
  | .call function first second => do
      let first ← first.eval scope
      let second ← second.eval scope
      some (function first second)

section Query

variable [DecidableEq Value]

/-- Whether a condition holds of a row without nulls; an unknown name makes it fail. -/
def Condition.holds (scope : Scope Name Value) : Condition Name Value → Bool
  | .equal left right =>
      match left.eval scope, right.eval scope with
      | some left, some right => decide (left = right)
      | _, _ => false
  | .both left right => left.holds scope && right.holds scope

theorem Condition.holds_equal {scope : Scope Name Value} {left right : Expression Name Value}
    {first second : Value} (leftValue : left.eval scope = some first)
    (rightValue : right.eval scope = some second) :
    (Condition.equal left right).holds scope = true ↔ first = second := by
  simp [Condition.holds, leftValue, rightValue]

/-- A column compared with a parameter of its name is compared with itself. -/
theorem Condition.holds_of_shadowed {scope : Scope Name Value} {name : Name} {value : Value}
    (column : scope.column name = some value) :
    (Condition.equal (.name name) (.name name)).holds scope = true := by
  have denotes : (Expression.name name).eval scope = some value := scope.resolve_of_column column
  exact (holds_equal denotes denotes).mpr rfl

theorem Condition.holds_both {scope : Scope Name Value} {left right : Condition Name Value} :
    (Condition.both left right).holds scope = true ↔
      left.holds scope = true ∧ right.holds scope = true := by
  simp [Condition.holds]

/-- `SELECT ... FROM rows WHERE condition LIMIT 1` -/
def selectOne (choice : Nat) (scope : Row → Scope Name Value) (condition : Condition Name Value)
    (rows : List Row) : Option Row :=
  pick choice (rows.filter fun row => condition.holds (scope row))

variable {scope : Row → Scope Name Value} {condition : Condition Name Value} {rows : List Row}

theorem selectOne_eq_none {choice : Nat} :
    selectOne choice scope condition rows = none ↔
      ∀ row ∈ rows, condition.holds (scope row) = false := by
  rw [selectOne, HashTable.pick_eq_none, List.filter_eq_nil_iff]
  simp

theorem selectOne_eq_some {choice : Nat} {row : Row}
    (selected : selectOne choice scope condition rows = some row) :
    row ∈ rows ∧ condition.holds (scope row) = true := by
  have member := HashTable.mem_of_pick selected
  rwa [List.mem_filter] at member

theorem exists_selectOne {row : Row} (member : row ∈ rows)
    (holds : condition.holds (scope row) = true) :
    ∃ choice, selectOne choice scope condition rows = some row := by
  apply HashTable.exists_pick
  rw [List.mem_filter]
  exact ⟨member, holds⟩

end Query

end SqlFunction
