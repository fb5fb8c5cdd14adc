import Mathlib.Algebra.GroupWithZero.Nat
import Mathlib.Data.List.Flatten
import Mathlib.Data.List.Perm.Subperm
import Uwebfilter.Uthash

/-!
# What the buckets of uthash hold

Every element of a hash is in the chain of the bucket its hash value selects.
Adding, deleting and the expansion of the buckets keep it so, and the expansion
comes to its end without leaving the two blocks of buckets.
-/

namespace Uthash

open CStrings IntrusiveList

variable {Cell : Type}

/-! ## Bucket numbers -/

theorem hashToBkt_two_pow {bits : Nat} (bounded : bits ≤ 32) (hashv : Nat) :
    hashToBkt hashv (2 ^ bits) = hashv % 2 ^ bits := by
  have positive : 0 < 2 ^ bits := Nat.two_pow_pos bits
  have below : 2 ^ bits ≤ 2 ^ 32 := Nat.pow_le_pow_right (by decide) bounded
  have mask : toUnsigned (2 ^ bits + 4294967295) = 2 ^ bits - 1 := by
    unfold toUnsigned
    omega
  rw [hashToBkt, mask, Nat.and_two_pow_sub_one_eq_mod]

theorem hashToBkt_lt {bits : Nat} (bounded : bits ≤ 32) (hashv : Nat) :
    hashToBkt hashv (2 ^ bits) < 2 ^ bits := by
  rw [hashToBkt_two_pow bounded]
  exact Nat.mod_lt hashv (Nat.two_pow_pos bits)

theorem bucketAt_of_lt {buckets : Nat → Bucket Cell} {allocated index : Nat}
    (inside : index < allocated) : bucketAt buckets allocated index = .ok (buckets index) :=
  if_pos inside

/-! ## Contents -/

/-- The chains of the buckets, and that they hold some cells, each in the bucket
of its hash value. -/
structure Contents (hashv : Cell → Nat) (chain : Links Cell) (buckets : Nat → Bucket Cell)
    (numBuckets : Nat) (cells : List Cell) (content : Nat → List Cell) : Prop where
  chained : ∀ bkt, Chain chain (content bkt)
  head : ∀ bkt, (buckets bkt).hhHead = (content bkt).head?
  count : ∀ bkt, (buckets bkt).count = toUnsigned (content bkt).length
  mem : ∀ bkt cell, cell ∈ content bkt ↔
    cell ∈ cells ∧ hashToBkt (hashv cell) numBuckets = bkt

section Buckets

variable {hashv : Cell → Nat} {chain : Links Cell} {buckets : Nat → Bucket Cell}
variable {numBuckets : Nat} {cells : List Cell} {content : Nat → List Cell}

theorem toUnsigned_succ (length : Nat) :
    toUnsigned (toUnsigned length + 1) = toUnsigned (length + 1) := by
  unfold toUnsigned
  omega

theorem toUnsigned_pred {length : Nat} (positive : 0 < length) :
    toUnsigned (toUnsigned length + 4294967295) = toUnsigned (length - 1) := by
  unfold toUnsigned
  omega

theorem contents_empty (hashv : Cell → Nat) (chain : Links Cell) (numBuckets : Nat) :
    Contents hashv chain (fun _ => {}) numBuckets [] (fun _ => []) where
  chained _ := chain_nil chain
  head _ := rfl
  count _ := rfl
  mem _ _ := by simp

/-- Only the hash values of the cells held count, and their order does not. -/
theorem Contents.congr (contents : Contents hashv chain buckets numBuckets cells content)
    {values : Cell → Nat} {others : List Cell} (same : ∀ cell ∈ cells, values cell = hashv cell)
    (members : ∀ cell, cell ∈ others ↔ cell ∈ cells) :
    Contents values chain buckets numBuckets others content := by
  refine ⟨contents.chained, contents.head, contents.count, fun bkt cell => ?_⟩
  rw [contents.mem, members]
  constructor
  · rintro ⟨member, place⟩
    exact ⟨member, by rw [same cell member, place]⟩
  · rintro ⟨member, place⟩
    exact ⟨member, by rw [← same cell member, place]⟩

/-- Only the links of the cells held count. -/
theorem Contents.relink (contents : Contents hashv chain buckets numBuckets cells content)
    {links : Links Cell} (agree : AgreeOn cells chain links) :
    Contents hashv links buckets numBuckets cells content := by
  refine ⟨fun bkt => (contents.chained bkt).congr fun cell member => ?_, contents.head,
    contents.count, contents.mem⟩
  exact agree cell ((contents.mem bkt cell).mp member).1

theorem Contents.length_le (contents : Contents hashv chain buckets numBuckets cells content)
    (bkt : Nat) : (content bkt).length ≤ cells.length := by
  have subset : content bkt ⊆ cells := fun cell member => ((contents.mem bkt cell).mp member).1
  exact (List.subperm_of_subset (contents.chained bkt).nodup subset).length_le

/-- Cells of different buckets are different. -/
theorem Contents.disjoint (contents : Contents hashv chain buckets numBuckets cells content)
    {first second : Nat} (distinct : first ≠ second) {cell : Cell} (member : cell ∈ content first) :
    cell ∉ content second := by
  intro other
  have inFirst := ((contents.mem first cell).mp member).2
  have inSecond := ((contents.mem second cell).mp other).2
  exact distinct (inFirst.symm.trans inSecond)

variable [DecidableEq Cell]

/-- A new cell goes to the front of the chain of its bucket. -/
theorem Contents.push (contents : Contents hashv chain buckets numBuckets cells content)
    {cell : Cell} (fresh : cell ∉ cells) {bkt : Nat}
    (place : hashToBkt (hashv cell) numBuckets = bkt) (expandMult : Nat) :
    Contents hashv (chain.pushFront (buckets bkt).hhHead cell)
      (Function.update buckets bkt ⟨some cell, toUnsigned ((buckets bkt).count + 1), expandMult⟩)
      numBuckets
      (cells ++ [cell]) (Function.update content bkt (cell :: content bkt)) := by
  have absent (other : Nat) : cell ∉ content other :=
    fun member => fresh ((contents.mem other cell).mp member).1
  rw [contents.head bkt]
  constructor
  · intro other
    by_cases same : other = bkt
    · subst same
      rw [Function.update_self]
      exact (contents.chained other).pushFront (absent other)
    · rw [Function.update_of_ne same]
      refine (contents.chained other).pushFront_other (absent other) fun inside member first => ?_
      exact contents.disjoint same member (List.mem_of_head? first)
  · intro other
    by_cases same : other = bkt
    · subst same
      simp
    · simp [Function.update_of_ne same, contents.head other]
  · intro other
    by_cases same : other = bkt
    · subst same
      simp [contents.count, toUnsigned_succ]
    · simp [Function.update_of_ne same, contents.count other]
  · intro other inside
    rw [List.mem_append, List.mem_singleton]
    by_cases same : other = bkt
    · subst same
      rw [Function.update_self, List.mem_cons, contents.mem]
      constructor
      · rintro (rfl | ⟨member, there⟩)
        · exact ⟨.inr rfl, place⟩
        · exact ⟨.inl member, there⟩
      · rintro ⟨member | rfl, there⟩
        · exact .inr ⟨member, there⟩
        · exact .inl rfl
    · rw [Function.update_of_ne same, contents.mem]
      constructor
      · rintro ⟨member, there⟩
        exact ⟨.inl member, there⟩
      · rintro ⟨member | rfl, there⟩
        · exact ⟨member, there⟩
        · exact absurd (there.symm.trans place) same

/-- A cell leaves the chain of its bucket. -/
theorem Contents.remove (contents : Contents hashv chain buckets numBuckets cells content)
    {cell : Cell} (member : cell ∈ cells) {bkt : Nat}
    (place : hashToBkt (hashv cell) numBuckets = bkt) {after : List Cell}
    (members : ∀ other, other ∈ after ↔ other ∈ cells ∧ other ≠ cell) :
    Contents hashv (chain.unlink cell)
      (Function.update buckets bkt ((buckets bkt).delIn chain cell)) numBuckets after
      (Function.update content bkt ((content bkt).erase cell)) := by
  have held : cell ∈ content bkt := (contents.mem bkt cell).mpr ⟨member, place⟩
  have around := contents.chained bkt
  obtain ⟨front, back, split⟩ := List.append_of_mem held
  have nodup := around.nodup
  rw [split] at around nodup
  have inFront : cell ∉ front := by
    rw [List.nodup_append] at nodup
    exact fun inside => nodup.2.2 cell inside cell List.mem_cons_self rfl
  have erased : (content bkt).erase cell = front ++ back := by
    rw [split, List.erase_append_right _ inFront, List.erase_cons_head]
  constructor
  · intro other
    by_cases same : other = bkt
    · subst same
      rw [Function.update_self, erased]
      exact around.unlink
    · rw [Function.update_of_ne same]
      refine (contents.chained other).unlink_other around fun inside held => ?_
      rw [← split]
      exact contents.disjoint same held
  · intro other
    by_cases same : other = bkt
    · subst same
      rw [Function.update_self, Function.update_self, erased]
      have head := contents.head other
      rw [split] at head
      simp only [Bucket.delIn, head, around.neighbours.2]
      cases front with
      | nil => simp
      | cons first rest =>
          have ne : first ≠ cell := fun equal => inFront (by simp [equal])
          simp [ne]
    · simp [Function.update_of_ne same, contents.head other]
  · intro other
    by_cases same : other = bkt
    · subst same
      simp [Bucket.delIn, contents.count, List.length_erase_of_mem held,
        toUnsigned_pred (List.length_pos_of_mem held)]
    · simp [Function.update_of_ne same, contents.count other]
  · intro other inside
    rw [members]
    by_cases same : other = bkt
    · subst same
      rw [Function.update_self, (contents.chained other).nodup.mem_erase_iff, contents.mem]
      tauto
    · rw [Function.update_of_ne same, contents.mem]
      constructor
      · rintro ⟨kept, there⟩
        refine ⟨⟨kept, ?_⟩, there⟩
        rintro rfl
        exact same (there.symm.trans place)
      · rintro ⟨⟨kept, -⟩, there⟩
        exact ⟨kept, there⟩

end Buckets

/-! ## Expansion -/

section Expanding

variable [DecidableEq Cell] {hashv : Cell → Nat} {bits : Nat} (ideal : Nat)

/-- The new buckets hold some cells. -/
def Moved (hashv : Cell → Nat) (numBuckets : Nat) (expansion : Expansion Cell)
    (cells : List Cell) : Prop :=
  ∃ content, Contents hashv expansion.chain expansion.newBuckets numBuckets cells content

theorem expandMove_spec (bounded : bits ≤ 30) {expansion : Expansion Cell} {moved : List Cell}
    (holds : Moved hashv (2 ^ (bits + 1)) expansion moved) {thh : Cell} (fresh : thh ∉ moved) :
    ∃ after, expandMove hashv (2 ^ bits) ideal thh expansion = .ok after ∧
      Moved hashv (2 ^ (bits + 1)) after (moved ++ [thh]) ∧
      ∀ other, other ≠ thh → after.chain.next other = expansion.chain.next other := by
  obtain ⟨content, contents⟩ := holds
  have below : 2 ^ bits ≤ 2 ^ 30 := Nat.pow_le_pow_right (by decide) bounded
  have doubled : toUnsigned (2 ^ bits * 2) = 2 ^ (bits + 1) := by
    rw [toUnsigned, Nat.pow_succ]
    omega
  have inside : hashToBkt (hashv thh) (2 ^ (bits + 1)) < 2 * 2 ^ bits := by
    have bound : hashToBkt (hashv thh) (2 ^ (bits + 1)) < 2 ^ (bits + 1) :=
      hashToBkt_lt (by omega) (hashv thh)
    rw [Nat.pow_succ] at bound ⊢
    omega
  simp only [expandMove, doubled, bucketAt_of_lt inside, bind, Except.bind]
  exact ⟨_, rfl, ⟨_, contents.push fresh rfl _⟩,
    fun other ne => Links.pushFront_next_of_ne _ _ ne⟩

theorem expandChain_spec (bounded : bits ≤ 30) {cells : List Cell} {fuel : Nat}
    {start : Option Cell} {expansion : Expansion Cell} {moved : List Cell}
    (holds : Moved hashv (2 ^ (bits + 1)) expansion moved)
    (follows : Follows expansion.chain.next start cells) (nodup : (moved ++ cells).Nodup)
    (enough : cells.length ≤ fuel) :
    ∃ after, expandChain hashv (2 ^ bits) ideal fuel start expansion = .ok after ∧
      Moved hashv (2 ^ (bits + 1)) after (moved ++ cells) ∧
      ∀ other, other ∉ cells → after.chain.next other = expansion.chain.next other := by
  induction cells generalizing fuel start expansion moved with
  | nil =>
      obtain rfl : start = none := follows
      refine ⟨expansion, by cases fuel <;> rfl, ?_, fun _ _ => rfl⟩
      rwa [List.append_nil]
  | cons thh rest ih =>
      obtain ⟨rfl, onward⟩ := follows
      cases fuel with
      | zero => simp at enough
      | succ fuel =>
          have fresh : thh ∉ moved := by
            rw [List.nodup_append] at nodup
            exact fun member => nodup.2.2 thh member thh List.mem_cons_self rfl
          have absent : thh ∉ rest := by
            rw [List.nodup_append] at nodup
            exact (List.nodup_cons.mp nodup.2.1).1
          obtain ⟨middle, moves, holdsMiddle, kept⟩ :=
            expandMove_spec ideal bounded holds fresh
          have followsMiddle : Follows middle.chain.next (expansion.chain.next thh) rest := by
            apply onward.congr
            intro cell member
            apply kept
            rintro rfl
            exact absent member
          have regrouped : moved ++ thh :: rest = moved ++ [thh] ++ rest := by simp
          rw [regrouped] at nodup ⊢
          obtain ⟨after, moved, holdsAfter, keptAfter⟩ :=
            ih holdsMiddle followsMiddle nodup (by simpa using enough)
          refine ⟨after, ?_, holdsAfter, ?_⟩
          · simp only [expandChain, moves, bind, Except.bind]
            exact moved
          · intro other outside
            rw [List.mem_cons, not_or] at outside
            rw [keptAfter other outside.2, kept other outside.1]

/-- The old buckets of some numbers, which have not been moved yet. -/
structure Pending (expansion : Expansion Cell) (tbl : Table Cell) (old : Nat → List Cell)
    (fuel index : Nat) : Prop where
  inside : index < tbl.allocated
  head : (tbl.buckets index).hhHead = (old index).head?
  follows : Follows expansion.chain.next (old index).head? (old index)
  short : (old index).length ≤ fuel

theorem expandLoop_spec (bounded : bits ≤ 30) {tbl : Table Cell}
    (size : tbl.numBuckets = 2 ^ bits) {old : Nat → List Cell} {fuel : Nat} {indices : List Nat}
    {expansion : Expansion Cell} {moved : List Cell}
    (holds : Moved hashv (2 ^ (bits + 1)) expansion moved)
    (pending : ∀ index ∈ indices, Pending expansion tbl old fuel index)
    (nodup : (moved ++ indices.flatMap old).Nodup) :
    ∃ after, expandLoop hashv tbl ideal fuel indices expansion = .ok after ∧
      Moved hashv (2 ^ (bits + 1)) after (moved ++ indices.flatMap old) := by
  induction indices generalizing expansion moved with
  | nil => exact ⟨expansion, rfl, by simpa using holds⟩
  | cons index indices ih =>
      rw [List.forall_mem_cons] at pending
      obtain ⟨⟨inside, head, follows, short⟩, others⟩ := pending
      rw [List.flatMap_cons, ← List.append_assoc] at nodup
      obtain ⟨front, -, disjoint⟩ := List.nodup_append.mp nodup
      obtain ⟨middle, walked, holdsMiddle, kept⟩ :=
        expandChain_spec ideal bounded holds follows front short
      have othersMiddle : ∀ other ∈ indices, Pending middle tbl old fuel other := by
        intro other member
        obtain ⟨otherInside, otherHead, otherFollows, otherShort⟩ := others other member
        refine ⟨otherInside, otherHead, otherFollows.congr fun cell held => ?_, otherShort⟩
        apply kept
        intro inIndex
        have later : cell ∈ indices.flatMap old := List.mem_flatMap.mpr ⟨other, member, held⟩
        exact disjoint cell (List.mem_append_right _ inIndex) cell later rfl
      obtain ⟨after, looped, holdsAfter⟩ := ih holdsMiddle othersMiddle nodup
      refine ⟨after, ?_, by simpa [List.append_assoc] using holdsAfter⟩
      simp only [expandLoop, bucketAt_of_lt inside, head, size, bind, Except.bind]
      simp only [walked, looped]

end Expanding

end Uthash
