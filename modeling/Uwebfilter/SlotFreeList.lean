import Mathlib.Data.List.Perm.Basic
import Mathlib.Data.List.Perm.Subperm
import Mathlib.Data.List.Nodup

/-!
# Free lists over an array of slots

A stack of free slots overlaid on an array: the entries from `index` on are the
free slots, the entries below are stale.  Taking a slot moves `index` up, giving
one back moves it down and overwrites the entry there.
-/

namespace SlotFreeList

def free (size : Nat) (stack : Nat → Nat) (index : Int) : List Nat :=
  (List.range' index.toNat (size - index.toNat)).map stack

/-- The free slots and the held slots are all the slots, each once. -/
structure Owns (size : Nat) (stack : Nat → Nat) (index : Int) (held : List Nat) : Prop where
  count : index = held.length
  slots : (free size stack index ++ held).Perm (List.range size)

theorem owns_initial (size : Nat) : Owns size id 0 [] where
  count := rfl
  slots := by simp [free, List.range_eq_range']

namespace Owns

variable {size : Nat} {stack : Nat → Nat} {index : Int} {held : List Nat}

theorem nodup (owns : Owns size stack index held) : (free size stack index ++ held).Nodup :=
  owns.slots.nodup_iff.mpr List.nodup_range

theorem held_nodup (owns : Owns size stack index held) : held.Nodup :=
  (List.sublist_append_right _ _).nodup owns.nodup

theorem held_le (owns : Owns size stack index held) : held.length ≤ size := by
  have total := owns.slots.length_eq
  rw [List.length_append, List.length_range] at total
  omega

theorem perm (owns : Owns size stack index held) {other : List Nat} (perm : held.Perm other) :
    Owns size stack index other where
  count := by rw [owns.count, perm.length_eq]
  slots := (perm.symm.append_left _).trans owns.slots

theorem free_eq_cons (owns : Owns size stack index held) (room : index < size) :
    free size stack index = stack index.toNat :: free size stack (index + 1) := by
  have count := owns.count
  have next : (index + 1).toNat = index.toNat + 1 := by omega
  have more : size - index.toNat = size - (index.toNat + 1) + 1 := by omega
  rw [free, free, next, more, List.range'_succ, List.map_cons]

theorem fresh (owns : Owns size stack index held) (room : index < size) :
    stack index.toNat ∉ held := by
  have nodup := owns.nodup
  rw [owns.free_eq_cons room, List.cons_append, List.nodup_cons] at nodup
  exact fun member => nodup.1 (List.mem_append_right _ member)

/-- Taking the first free slot. -/
theorem take (owns : Owns size stack index held) (room : index < size) :
    Owns size stack (index + 1) (held ++ [stack index.toNat]) where
  count := by simp [owns.count]
  slots := by
    have slots := owns.slots
    rw [owns.free_eq_cons room, List.cons_append] at slots
    rw [← List.append_assoc]
    exact (List.perm_append_singleton _ _).trans slots

/-- Giving a held slot back. -/
theorem give (owns : Owns size stack index held) {slot : Nat} (member : slot ∈ held) :
    Owns size (fun place => if place = (index - 1).toNat then slot else stack place) (index - 1)
      (held.erase slot) := by
  have count := owns.count
  have bound := owns.held_le
  have positive : 0 < held.length := List.length_pos_of_mem member
  constructor
  · rw [List.length_erase_of_mem member]
    omega
  · have more : size - (index - 1).toNat = size - index.toNat + 1 := by omega
    have next : (index - 1).toNat + 1 = index.toNat := by omega
    have above : (List.range' index.toNat (size - index.toNat)).map
        (fun place => if place = (index - 1).toNat then slot else stack place) =
        (List.range' index.toNat (size - index.toNat)).map stack := by
      apply List.map_congr_left
      intro place inside
      rw [List.mem_range'_1] at inside
      rw [if_neg (by omega)]
    rw [free, more, List.range'_succ, List.map_cons, if_pos rfl, next, above, List.cons_append]
    refine List.Perm.trans ?_ owns.slots
    rw [free]
    refine List.perm_middle.symm.trans (List.Perm.append_left _ ?_)
    exact (List.perm_cons_erase member).symm

end Owns

end SlotFreeList
