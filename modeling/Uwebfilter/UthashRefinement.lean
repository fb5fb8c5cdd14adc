import Uwebfilter.MachineRun
import Uwebfilter.UthashContents

/-!
# uthash refines the list of its elements

A hash represents a list of elements, the ones added and not deleted, in that
order.  Every macro does to the represented list what it should, and a run of
macros either ends for want of memory or is a run on the list.
-/

namespace Uthash

open CStrings IntrusiveList

variable {Cell : Type}

/-- A table holds some cells, and its numbers of buckets are in step. -/
structure Holds (hashv : Cell → Nat) (chain : Links Cell) (tbl : Table Cell)
    (cells : List Cell) : Prop where
  size : tbl.numBuckets = 2 ^ tbl.log2NumBuckets
  bounded : tbl.log2NumBuckets ≤ 31
  allocated : tbl.allocated = tbl.numBuckets
  contents : ∃ content, Contents hashv chain tbl.buckets tbl.numBuckets cells content

/-- The head and the table of a hash of some cells. -/
structure RootHolds (hash : Hash Cell) (root : Root Cell) (cells : List Cell) : Prop where
  head : some root.head = cells.head?
  tail : root.tbl.tail = cells.getLast?
  items : root.tbl.numItems = toUnsigned cells.length
  holds : Holds hash.hashv hash.chain root.tbl cells

/-- The cells of a hash in application order, each under the hash value of its
key. -/
structure Represents (hashFcn : Bytes → Nat) (hash : Hash Cell) (cells : List Cell) : Prop where
  linked : Chain hash.app cells
  hashed : ∀ cell ∈ cells, hash.hashv cell = hashFcn (hash.key cell)
  empty : hash.root = none → cells = []
  rooted : ∀ root, hash.root = some root → RootHolds hash root cells

section Table

variable {hashv : Cell → Nat} {chain : Links Cell} {tbl : Table Cell} {cells : List Cell}

theorem Holds.inside (holds : Holds hashv chain tbl cells) (value : Nat) :
    hashToBkt value tbl.numBuckets < tbl.allocated := by
  have bounded := holds.bounded
  rw [holds.allocated, holds.size]
  exact hashToBkt_lt (by omega) value

theorem Holds.bucketAt (holds : Holds hashv chain tbl cells) (value : Nat) :
    bucketAt tbl.buckets tbl.allocated (hashToBkt value tbl.numBuckets) =
      .ok (tbl.buckets (hashToBkt value tbl.numBuckets)) :=
  bucketAt_of_lt (holds.inside value)

/-- The old buckets, one behind the other, are all cells, each once. -/
theorem Contents.flatMap_range {numBuckets : Nat} {buckets : Nat → Bucket Cell}
    {content : Nat → List Cell}
    (contents : Contents hashv chain buckets numBuckets cells content)
    (inside : ∀ cell ∈ cells, hashToBkt (hashv cell) numBuckets < numBuckets) :
    ((List.range numBuckets).flatMap content).Nodup ∧
      ∀ cell, cell ∈ (List.range numBuckets).flatMap content ↔ cell ∈ cells := by
  constructor
  · rw [List.nodup_flatMap]
    refine ⟨fun bkt _ => (contents.chained bkt).nodup, ?_⟩
    refine List.nodup_range.imp fun distinct cell member other => ?_
    exact contents.disjoint distinct member other
  · intro cell
    rw [List.mem_flatMap]
    constructor
    · rintro ⟨bkt, -, member⟩
      exact ((contents.mem bkt cell).mp member).1
    · intro member
      refine ⟨_, List.mem_range.mpr (inside cell member), ?_⟩
      exact (contents.mem _ cell).mpr ⟨member, rfl⟩

theorem Holds.congr (holds : Holds hashv chain tbl cells) {values : Cell → Nat}
    (same : ∀ cell ∈ cells, values cell = hashv cell) : Holds values chain tbl cells := by
  obtain ⟨size, bounded, allocated, content, contents⟩ := holds
  exact ⟨size, bounded, allocated, content, contents.congr same fun _ => Iff.rfl⟩

/-- A table as `HASH_MAKE_TABLE` leaves it. -/
theorem hashMakeTable_spec (malloc : Nat → Bool) (hashv : Cell → Nat) (chain : Links Cell)
    (head : Cell) :
    hashMakeTable malloc head = .error .outOfMemory ∨
      ∃ tbl, hashMakeTable malloc head = .ok tbl ∧ Holds hashv chain tbl [] ∧
        tbl.tail = some head ∧ tbl.numItems = 0 := by
  rw [hashMakeTable]
  split
  · refine .inr ⟨_, rfl, ⟨rfl, ?_, rfl, _, contents_empty hashv chain _⟩, rfl, rfl⟩
    show hashInitialNumBucketsLog2 ≤ 31
    decide
  · exact .inl rfl

variable [DecidableEq Cell] {malloc : Nat → Bool} {fuel : Nat}

theorem hashExpandBuckets_spec (holds : Holds hashv chain tbl cells)
    (limit : malloc 68719476736 = false) (enough : cells.length ≤ fuel) :
    hashExpandBuckets malloc fuel hashv chain tbl = .error .outOfMemory ∨
      ∃ chainAfter tblAfter,
        hashExpandBuckets malloc fuel hashv chain tbl = .ok (chainAfter, tblAfter) ∧
          Holds hashv chainAfter tblAfter cells ∧ tblAfter.tail = tbl.tail ∧
          tblAfter.numItems = tbl.numItems := by
  cases granted : malloc (2 * tbl.numBuckets * sizeofUtHashBucket) with
  | false => exact .inl (by simp [hashExpandBuckets, granted])
  | true =>
      right
      obtain ⟨size, bounded, allocated, content, contents⟩ := holds
      have bits : tbl.log2NumBuckets ≤ 30 := by
        by_contra more
        have all : tbl.log2NumBuckets = 31 := by omega
        rw [size, all] at granted
        exact absurd (granted.symm.trans limit) (by decide)
      have below : 2 ^ tbl.log2NumBuckets ≤ 2 ^ 30 := Nat.pow_le_pow_right (by decide) bits
      have start : Moved hashv (2 ^ (tbl.log2NumBuckets + 1)) ⟨chain, fun _ => {}, 0⟩ [] :=
        ⟨_, contents_empty hashv chain _⟩
      have pending : ∀ index ∈ List.range tbl.numBuckets,
          Pending ⟨chain, fun _ => {}, 0⟩ tbl content fuel index := by
        intro index member
        refine ⟨?_, contents.head index, (contents.chained index).follows, ?_⟩
        · rw [allocated]
          exact List.mem_range.mp member
        · exact (contents.length_le index).trans enough
      have inside : ∀ cell ∈ cells, hashToBkt (hashv cell) tbl.numBuckets < tbl.numBuckets := by
        intro cell _
        rw [size]
        exact hashToBkt_lt (by omega) (hashv cell)
      obtain ⟨nodup, members⟩ := contents.flatMap_range inside
      obtain ⟨after, looped, contentAfter, contentsAfter⟩ :=
        expandLoop_spec tbl.doubledIdeal bits size start pending (by simpa using nodup)
      have doubled : toUnsigned (tbl.numBuckets * 2) = 2 ^ (tbl.log2NumBuckets + 1) := by
        rw [size, Nat.pow_succ, toUnsigned]
        omega
      simp only [hashExpandBuckets, granted, if_true, looped, bind, Except.bind]
      refine ⟨_, _, rfl, ⟨doubled, ?_, ?_, contentAfter, ?_⟩, rfl, rfl⟩
      · show tbl.log2NumBuckets + 1 ≤ 31
        omega
      · show 2 * tbl.numBuckets = toUnsigned (tbl.numBuckets * 2)
        rw [doubled, size, Nat.pow_succ, Nat.mul_comm]
      · show Contents hashv after.chain after.newBuckets (toUnsigned (tbl.numBuckets * 2)) cells
          contentAfter
        rw [doubled]
        refine contentsAfter.congr (fun _ _ => rfl) fun cell => ?_
        rw [List.nil_append, members]

theorem hashAddToBkt_spec (holds : Holds hashv chain tbl cells)
    (limit : malloc 68719476736 = false) (enough : cells.length < fuel) {add : Cell}
    (fresh : add ∉ cells) {bkt : Nat} (place : hashToBkt (hashv add) tbl.numBuckets = bkt) :
    hashAddToBkt malloc fuel hashv bkt add chain tbl = .error .outOfMemory ∨
      ∃ chainAfter tblAfter,
        hashAddToBkt malloc fuel hashv bkt add chain tbl = .ok (chainAfter, tblAfter) ∧
          Holds hashv chainAfter tblAfter (cells ++ [add]) ∧ tblAfter.tail = tbl.tail ∧
          tblAfter.numItems = tbl.numItems := by
  have read := holds.bucketAt (hashv add)
  obtain ⟨size, bounded, allocated, content, contents⟩ := holds
  rw [place] at read
  simp only [hashAddToBkt, read, bind, Except.bind]
  have pushed : Holds hashv (chain.pushFront (tbl.buckets bkt).hhHead add)
      { tbl with
        buckets := Function.update tbl.buckets bkt
          { (tbl.buckets bkt) with
            hhHead := some add
            count := toUnsigned ((tbl.buckets bkt).count + 1) } }
      (cells ++ [add]) :=
    ⟨size, bounded, allocated, _, contents.push fresh place (tbl.buckets bkt).expandMult⟩
  split
  · exact hashExpandBuckets_spec pushed limit (by simpa using Nat.succ_le_of_lt enough)
  · exact .inr ⟨_, _, rfl, pushed, rfl, rfl⟩

end Table

/-! ## Adding -/

theorem represents_empty (hashFcn : Bytes → Nat) (app chain : Links Cell) (key : Cell → Bytes)
    (hashv : Cell → Nat) : Represents hashFcn ⟨app, chain, key, hashv, none⟩ [] where
  linked := chain_nil app
  hashed _ member := absurd member List.not_mem_nil
  empty _ := rfl
  rooted _ same := by cases same

section Adding

variable [DecidableEq Cell] {hashFcn : Bytes → Nat} {malloc : Nat → Bool} {fuel : Nat}
variable {hash : Hash Cell} {cells : List Cell}

/-- A cell outside the hash may be cleared. -/
theorem Represents.clearCell (represents : Represents hashFcn hash cells) {cell : Cell}
    (absent : cell ∉ cells) : Represents hashFcn (hash.clearCell cell) cells := by
  have other : ∀ held ∈ cells, held ≠ cell := by
    rintro held member rfl
    exact absent member
  refine ⟨represents.linked.congr (agreeOn_clear absent), fun held member => ?_,
    represents.empty, fun root same => ?_⟩
  · simp only [Hash.clearCell, Function.update_of_ne (other held member)]
    exact represents.hashed held member
  · obtain ⟨head, tail, items, holds⟩ := represents.rooted root same
    have values : ∀ held ∈ cells, (hash.clearCell cell).hashv held = hash.hashv held :=
      fun held member => Function.update_of_ne (other held member) _ _
    obtain ⟨size, bounded, allocated, content, contents⟩ := holds.congr values
    exact ⟨head, tail, items, size, bounded, allocated, content,
      contents.relink (agreeOn_clear absent)⟩

theorem hashAppendList_spec (malloc : Nat → Bool) (represents : Represents hashFcn hash cells)
    {add : Cell}
    (fresh : add ∉ cells) :
    hashAppendList malloc add hash = .error .outOfMemory ∨
      ∃ app root, hashAppendList malloc add hash = .ok (app, root) ∧ Chain app (cells ++ [add]) ∧
        some root.head = (cells ++ [add]).head? ∧ root.tbl.tail = some add ∧
        root.tbl.numItems = toUnsigned cells.length ∧
        Holds hash.hashv hash.chain root.tbl cells := by
  obtain ⟨linked, -, empty, rooted⟩ := represents
  cases rooting : hash.root with
  | none =>
      obtain rfl := empty rooting
      simp only [hashAppendList, rooting]
      rcases hashMakeTable_spec malloc hash.hashv hash.chain add with failed |
        ⟨tbl, made, holds, tail, items⟩
      · exact .inl (by simp [failed, bind, Except.bind])
      · have appended : Chain ((hash.app.setNext add none).setPrev add none) [add] :=
          linked.pushBack fresh
        refine .inr ⟨_, ⟨add, tbl⟩, ?_, appended, rfl, tail, items, holds⟩
        simp [made, bind, Except.bind]
  | some root =>
      obtain ⟨head, tail, items, holds⟩ := rooted root rooting
      cases cells using List.reverseRecOn with
      | nil => cases head
      | append_singleton front last _ =>
          rw [List.getLast?_append, List.getLast?_singleton, Option.some_or] at tail
          simp only [hashAppendList, rooting, tail]
          refine .inr ⟨_, _, rfl, ?_, ?_, rfl, items, ?_⟩
          · have appended := linked.pushBack fresh
            rwa [List.getLast?_append, List.getLast?_singleton, Option.some_or] at appended
          · show some root.head = _
            rw [head]
            cases front <;> simp
          · exact ⟨holds.size, holds.bounded, holds.allocated, holds.contents⟩

/-- Adding an element appends it, or ends for want of memory. -/
theorem hashAdd_spec (represents : Represents hashFcn hash cells)
    (limit : malloc 68719476736 = false) (enough : cells.length < fuel) {add : Cell}
    (fresh : add ∉ cells) (key : Bytes) :
    hashAdd hashFcn malloc fuel add key hash = .error .outOfMemory ∨
      ∃ after, hashAdd hashFcn malloc fuel add key hash = .ok after ∧
        Represents hashFcn after (cells ++ [add]) ∧
        after.key = Function.update hash.key add key := by
  rcases hashAppendList_spec malloc represents fresh with failed |
    ⟨app, root, appended, linked, head, tail, items, holds⟩
  · exact .inl (by simp [hashAdd, failed, bind, Except.bind])
  · have old : ∀ cell ∈ cells, cell ≠ add := by
      rintro cell member rfl
      exact fresh member
    have values : ∀ cell ∈ cells,
        Function.update hash.hashv add (hashFcn key) cell = hash.hashv cell :=
      fun cell member => Function.update_of_ne (old cell member) _ _
    have counted : Holds (Function.update hash.hashv add (hashFcn key)) hash.chain
        { root.tbl with numItems := toUnsigned (root.tbl.numItems + 1) } cells := by
      obtain ⟨size, bounded, allocated, contents⟩ := holds.congr values
      exact ⟨size, bounded, allocated, contents⟩
    have place : hashToBkt (Function.update hash.hashv add (hashFcn key) add)
        root.tbl.numBuckets = hashToBkt (hashFcn key) root.tbl.numBuckets := by simp
    simp only [hashAdd, appended, bind, Except.bind]
    rcases hashAddToBkt_spec counted limit enough fresh place with failed |
      ⟨chain, tbl, added, holdsAfter, tailAfter, itemsAfter⟩
    · exact .inl (by rw [failed])
    · refine .inr ⟨_, by rw [added], ⟨linked, ?_, by simp, ?_⟩, rfl⟩
      · intro cell member
        rw [List.mem_append, List.mem_singleton] at member
        rcases member with earlier | rfl
        · have ne := old cell earlier
          simp only [Function.update_of_ne ne]
          exact represents.hashed cell earlier
        · simp
      · intro after same
        obtain rfl := Option.some.inj same
        refine ⟨head, ?_, ?_, holdsAfter⟩
        · rw [List.getLast?_append, List.getLast?_singleton, Option.some_or]
          exact tailAfter.trans tail
        · rw [List.length_append, List.length_singleton]
          rw [itemsAfter, items, toUnsigned_succ]

end Adding

/-! ## Deleting -/

section Deleting

variable [DecidableEq Cell] {hashFcn : Bytes → Nat} {hash : Hash Cell} {cells : List Cell}

theorem hashDelete_of_more {root : Root Cell} (rooting : hash.root = some root) {del : Cell}
    (more : ¬ (hash.app.prev del = none ∧ hash.app.next del = none))
    {bucket : Bucket Cell}
    (read : bucketAt root.tbl.buckets root.tbl.allocated
      (hashToBkt (hash.hashv del) root.tbl.numBuckets) = .ok bucket) :
    hashDelete del hash = .ok { hash with
      app := hash.app.unlink del
      chain := hash.chain.unlink del
      root := some
        { head := if hash.app.prev del = none then (hash.app.next del).getD root.head
            else root.head
          tbl :=
            { root.tbl with
              tail := if root.tbl.tail = some del then hash.app.prev del else root.tbl.tail
              numItems := toUnsigned (root.tbl.numItems + 4294967295)
              buckets := Function.update root.tbl.buckets
                (hashToBkt (hash.hashv del) root.tbl.numBuckets)
                (bucket.delIn hash.chain del) } } } := by
  simp only [hashDelete, rooting]
  split
  · rename_i prev next
    exact absurd ⟨prev, next⟩ more
  · simp only [read, bind, Except.bind]

/-- What is left of the head and of the tail. -/
theorem ends_of_unlink {front back : List Cell} {del first : Cell} {last : Option Cell}
    (nodup : (front ++ del :: back).Nodup) (head : some first = (front ++ del :: back).head?)
    (tail : last = (front ++ del :: back).getLast?) (more : front ++ back ≠ []) :
    some (if front.getLast? = none then back.head?.getD first else first) =
        (front ++ back).head? ∧
      (if last = some del then front.getLast? else last) = (front ++ back).getLast? := by
  subst tail
  have apart : del ∉ back := by
    rw [List.nodup_append] at nodup
    exact (List.nodup_cons.mp nodup.2.1).1
  constructor
  · cases front with
    | nil =>
        cases back with
        | nil => exact absurd rfl more
        | cons next rest => simp
    | cons cell rest => simpa using head
  · cases back using List.reverseRecOn with
    | nil => simp
    | append_singleton middle end_ _ =>
        have ne : end_ ≠ del := by
          rintro rfl
          exact apart (by simp)
        simp [List.getLast?_append, List.getLast?_cons, ne]

/-- Deleting an element takes it out of the list. -/
theorem hashDelete_spec (represents : Represents hashFcn hash cells) {del : Cell}
    (member : del ∈ cells) :
    ∃ after, hashDelete del hash = .ok after ∧ Represents hashFcn after (cells.erase del) ∧
      after.key = hash.key := by
  obtain ⟨linked, hashed, empty, rooted⟩ := represents
  have nodup := linked.nodup
  have members (other : Cell) : other ∈ cells.erase del ↔ other ∈ cells ∧ other ≠ del := by
    rw [nodup.mem_erase_iff, and_comm]
  obtain ⟨front, back, rfl⟩ := List.append_of_mem member
  have inFront : del ∉ front := by
    rw [List.nodup_append] at nodup
    exact fun inside => nodup.2.2 del inside del List.mem_cons_self rfl
  have erased : (front ++ del :: back).erase del = front ++ back := by
    rw [List.erase_append_right _ inFront, List.erase_cons_head]
  rw [erased] at members ⊢
  obtain ⟨prev, next⟩ := linked.neighbours
  cases rooting : hash.root with
  | none => exact absurd (empty rooting) (by simp)
  | some root =>
      obtain ⟨head, tail, items, holds⟩ := rooted root rooting
      have read := holds.bucketAt (hash.hashv del)
      by_cases more : front ++ back = []
      · -- the last element goes with its table
        obtain ⟨rfl, rfl⟩ := List.append_eq_nil_iff.mp more
        refine ⟨{ hash with root := none }, ?_, represents_empty _ _ _ _ _, rfl⟩
        have alone : hash.app.prev del = none ∧ hash.app.next del = none := ⟨prev, next⟩
        simp [hashDelete, rooting, alone]
      · have neighbour : ¬ (hash.app.prev del = none ∧ hash.app.next del = none) := by
          rw [prev, next]
          rintro ⟨noFront, noBack⟩
          exact more (by simp [List.getLast?_eq_none_iff.mp noFront,
            List.head?_eq_none_iff.mp noBack])
        obtain ⟨headAfter, tailAfter⟩ := ends_of_unlink nodup head tail more
        refine ⟨_, hashDelete_of_more rooting neighbour read, ⟨linked.unlink, ?_, by simp, ?_⟩,
          rfl⟩
        · intro other inside
          exact hashed other ((members other).mp inside).1
        · intro after same
          obtain rfl := Option.some.inj same
          obtain ⟨size, bounded, allocated, content, contents⟩ := holds
          rw [prev, next]
          refine ⟨headAfter, tailAfter, ?_, size, bounded, allocated, _,
            contents.remove member rfl members⟩
          have one : (front ++ del :: back).length - 1 = (front ++ back).length := by simp
          rw [items, toUnsigned_pred (List.length_pos_of_mem member), one]

end Deleting

/-! ## Searching -/

section Searching

variable {hashFcn : Bytes → Nat} {hash : Hash Cell} {cells : List Cell}

/-- The walk stops at the first cell with the key. -/
theorem hashFindInBkt_spec {chain : List Cell} {hashval fuel : Nat} {key : Bytes}
    {start : Option Cell} (follows : Follows hash.chain.next start chain)
    (values : ∀ cell ∈ chain, hash.key cell = key → hash.hashv cell = hashval)
    (enough : chain.length ≤ fuel) :
    hashFindInBkt hash hashval key fuel start =
      .ok (chain.find? fun cell => decide (hash.key cell = key)) := by
  induction chain generalizing start fuel with
  | nil =>
      obtain rfl : start = none := follows
      cases fuel <;> rfl
  | cons cell rest ih =>
      obtain ⟨rfl, onward⟩ := follows
      rw [List.forall_mem_cons] at values
      cases fuel with
      | zero => simp at enough
      | succ fuel =>
          by_cases same : hash.key cell = key
          · simp [hashFindInBkt, same, values.1 same]
          · simp only [hashFindInBkt, same, and_false, if_false]
            rw [ih onward values.2 (by simpa using enough)]
            simp [same]

/-- A search reaches an element with the key, if there is one. -/
theorem hashFind_spec (represents : Represents hashFcn hash cells) {fuel : Nat}
    (enough : cells.length ≤ fuel) (key : Bytes) :
    ∃ choice, hashFind hashFcn fuel key hash =
      .ok ((HashTable.find choice (fun cell => decide (hash.key cell = key)) cells).map
        Prod.snd) := by
  obtain ⟨-, hashed, empty, rooted⟩ := represents
  cases rooting : hash.root with
  | none =>
      obtain rfl := empty rooting
      exact ⟨0, by simp [hashFind, rooting, HashTable.find, HashTable.pick]⟩
  | some root =>
      obtain ⟨-, -, -, holds⟩ := rooted root rooting
      have read := holds.bucketAt (hashFcn key)
      obtain ⟨-, -, -, content, contents⟩ := holds
      set bkt := hashToBkt (hashFcn key) root.tbl.numBuckets with place
      have inside (cell : Cell) (member : cell ∈ cells) (same : hash.key cell = key) :
          cell ∈ content bkt := by
        rw [contents.mem, hashed cell member, same]
        exact ⟨member, rfl⟩
      have values : ∀ cell ∈ content bkt, hash.key cell = key → hash.hashv cell = hashFcn key := by
        intro cell member same
        rw [hashed cell ((contents.mem bkt cell).mp member).1, same]
      have walked := hashFindInBkt_spec (contents.chained bkt).follows values
        ((contents.length_le bkt).trans enough)
      have answer : hashFind hashFcn fuel key hash =
          .ok ((content bkt).find? fun cell => decide (hash.key cell = key)) := by
        simp only [hashFind, rooting, ← place, read, bind, Except.bind, contents.head bkt]
        exact walked
      rw [answer]
      cases found : (content bkt).find? fun cell => decide (hash.key cell = key) with
      | none =>
          have nothing : HashTable.find 0 (fun cell => decide (hash.key cell = key)) cells =
              none := by
            rw [HashTable.find_eq_none]
            intro cell member
            rw [List.find?_eq_none] at found
            by_contra matched
            have same : hash.key cell = key := by simpa using matched
            exact found cell (inside cell member same) (by simpa using same)
          exact ⟨0, by rw [nothing]; rfl⟩
      | some cell =>
          have matched := List.find?_some found
          have member := ((contents.mem bkt cell).mp (List.mem_of_find?_eq_some found)).1
          obtain ⟨choice, index, reached⟩ := HashTable.exists_find
            (fun cell => decide (hash.key cell = key)) member matched
          exact ⟨choice, by rw [reached]; rfl⟩

end Searching

/-! ## Iterating -/

section Iterating

variable {hashFcn : Bytes → Nat}

/-- The head of a hash is the first of its elements. -/
theorem Represents.head {hash : Hash Cell} {cells : List Cell}
    (represents : Represents hashFcn hash cells) : hash.root.map Root.head = cells.head? := by
  cases rooting : hash.root with
  | none =>
      obtain rfl := represents.empty rooting
      rfl
  | some root => exact (represents.rooted root rooting).head

variable [DecidableEq Cell]

/-- `HASH_ITER` visits the list and deletes what it is told to. -/
theorem hashIter_spec (deletes : Cell → Bool) {fuel : Nat} {hash : Hash Cell} {cells : List Cell}
    (represents : Represents hashFcn hash cells) (enough : cells.length ≤ fuel) :
    ∃ after, hashIter deletes fuel hash = .ok (cells, after) ∧
      Represents hashFcn after (cells.filter fun cell => !deletes cell) ∧
      after.key = hash.key := by
  -- what has been visited is kept or gone, what is left is untouched
  let Inv (rest : List Cell) (state : List Cell × Hash Cell) : Prop :=
    state.1 ++ rest = cells ∧
      Represents hashFcn state.2 ((state.1.filter fun cell => !deletes cell) ++ rest) ∧
      state.2.key = hash.key
  have onward : ∀ el rest state, Inv (el :: rest) state → state.2.app.next el = rest.head? :=
    fun _ _ _ inv => inv.2.1.linked.neighbours.2
  have preserved : ∀ el rest state, Inv (el :: rest) state →
      ∃ after, visit deletes el state = .ok after ∧ Inv rest after := by
    rintro el rest ⟨visited, hash⟩ ⟨all, represents, keys⟩
    have regrouped : (visited ++ [el]) ++ rest = cells := by simpa using all
    cases deleted : deletes el with
    | true =>
        have absent : el ∉ visited.filter fun cell => !deletes cell := by
          simp [deleted]
        obtain ⟨after, deletion, representsAfter, keyAfter⟩ := hashDelete_spec represents
          (show el ∈ (visited.filter fun cell => !deletes cell) ++ el :: rest by simp)
        rw [List.erase_append_right _ absent, List.erase_cons_head] at representsAfter
        refine ⟨(visited ++ [el], after), by simp [visit, deleted, deletion, bind, Except.bind],
          regrouped, ?_, keyAfter.trans keys⟩
        simpa [deleted] using representsAfter
    | false =>
        refine ⟨(visited ++ [el], hash), by simp [visit, deleted, bind, Except.bind], regrouped,
          ?_, keys⟩
        simpa [deleted] using represents
  obtain ⟨after, looped, visited, left, keys⟩ := iterate_spec Stop.outOfFuel Inv
    onward preserved (show Inv cells ([], hash) from ⟨rfl, represents, rfl⟩) enough
  rw [List.append_nil] at visited left
  obtain ⟨_, after⟩ := after
  subst visited
  refine ⟨after, ?_, left, keys⟩
  rw [hashIter, represents.head]
  exact looped

end Iterating

/-! ## Runs -/

/-- A macro with its arguments; `malloc` answers for the allocations it makes. -/
inductive Request (Cell : Type)
  | add (cell : Cell) (key : Bytes) (malloc : Nat → Bool)
  | delete (cell : Cell)
  | find (key : Bytes)
  | iterate (deletes : Cell → Bool)
  | count

inductive Answer (Cell : Type)
  | done
  | found (cell : Option Cell)
  | visited (cells : List Cell)
  | items (number : Nat)

/-- The elements of a hash with their keys, in application order. -/
abbrev Entries (Cell : Type) := List (Cell × Bytes)

/-- A hash of some entries. -/
structure Stores (hashFcn : Bytes → Nat) (hash : Hash Cell) (entries : Entries Cell) :
    Prop where
  represents : Represents hashFcn hash (entries.map Prod.fst)
  keys : ∀ entry ∈ entries, hash.key entry.1 = entry.2

theorem Stores.count {hashFcn : Bytes → Nat} {hash : Hash Cell} {entries : Entries Cell}
    (stores : Stores hashFcn hash entries) :
    hashCount hash = toUnsigned entries.length := by
  cases rooting : hash.root with
  | none =>
      have none := stores.represents.empty rooting
      have empty : entries = [] := List.map_eq_nil_iff.mp none
      simp [hashCount, rooting, empty, toUnsigned]
  | some root =>
      have items := (stores.represents.rooted root rooting).items
      simpa [hashCount, rooting] using items

section Runs

variable [DecidableEq Cell] (hashFcn : Bytes → Nat) (fuel : Nat)

def perform (hash : Hash Cell) : Request Cell → Except Stop (Hash Cell × Answer Cell)
  | .add cell key malloc => do
      let hash ← hashAdd hashFcn malloc fuel cell key hash
      .ok (hash, .done)
  | .delete cell => do
      let hash ← hashDelete cell hash
      .ok (hash, .done)
  | .find key => do
      let cell ← hashFind hashFcn fuel key hash
      .ok (hash, .found cell)
  | .iterate deletes => do
      let (visited, hash) ← hashIter deletes fuel hash
      .ok (hash, .visited visited)
  | .count => .ok (hash, .items (hashCount hash))

/-- What a request does to the entries. -/
def Request.apply (entries : Entries Cell) : Request Cell → Entries Cell
  | .add cell key _ => entries ++ [(cell, key)]
  | .delete cell => entries.filter fun entry => decide (entry.1 ≠ cell)
  | .find _ => entries
  | .iterate deletes => entries.filter fun entry => !deletes entry.1
  | .count => entries

def entriesAfter (requests : List (Request Cell)) : Entries Cell :=
  requests.foldl Request.apply []

/-- What a caller of the macros sees to: only a new element is added, only an
element of the hash deleted; and no allocation of 64 GiB succeeds. -/
def Request.Legal (entries : Entries Cell) : Request Cell → Prop
  | .add cell _ malloc => cell ∉ entries.map Prod.fst ∧ malloc 68719476736 = false
  | .delete cell => cell ∈ entries.map Prod.fst
  | .find _ => True
  | .iterate _ => True
  | .count => True

/-- An answer is right about the entries: a search reaches one of those with its
key if there is any, an iteration visits all of them. -/
def Answers (entries : Entries Cell) : Request Cell → Answer Cell → Prop
  | .find key, answer => ∃ choice, answer = .found
      ((HashTable.find choice (fun entry => decide (entry.2 = key)) entries).map fun found =>
        found.2.1)
  | .iterate _, answer => answer = .visited (entries.map Prod.fst)
  | .count, answer => answer = .items (toUnsigned entries.length)
  | _, answer => answer = .done

variable {hashFcn} {fuel} {hash : Hash Cell} {entries : Entries Cell}

theorem Stores.erase (stores : Stores hashFcn hash entries) (cell : Cell) :
    (entries.map Prod.fst).erase cell =
      (entries.filter fun entry => decide (entry.1 ≠ cell)).map Prod.fst := by
  rw [stores.represents.linked.nodup.erase_eq_filter, List.filter_map]
  congr 1
  apply List.filter_congr
  intro entry _
  by_cases same : entry.1 = cell <;> simp [same]

/-- A legal request ends for want of memory, or does to the hash what it does to
the entries. -/
theorem perform_spec (stores : Stores hashFcn hash entries) (enough : entries.length < fuel)
    {request : Request Cell} (legal : request.Legal entries) :
    perform hashFcn fuel hash request = .error .outOfMemory ∨
      ∃ after answer, perform hashFcn fuel hash request = .ok (after, answer) ∧
        Stores hashFcn after (request.apply entries) ∧ Answers entries request answer := by
  have short : (entries.map Prod.fst).length ≤ fuel := by
    rw [List.length_map]
    omega
  cases request with
  | add cell key malloc =>
      obtain ⟨fresh, limit⟩ := legal
      rcases hashAdd_spec stores.represents limit (by simpa using enough) fresh key with failed |
        ⟨after, added, represents, keys⟩
      · exact .inl (by simp [perform, failed, bind, Except.bind])
      · refine .inr ⟨after, .done, by simp [perform, added, bind, Except.bind], ?_, rfl⟩
        refine ⟨by simpa [Request.apply] using represents, ?_⟩
        intro entry member
        rcases List.mem_append.mp member with earlier | new
        · have ne : entry.1 ≠ cell := by
            rintro rfl
            exact fresh (List.mem_map_of_mem earlier)
          rw [keys, Function.update_of_ne ne]
          exact stores.keys entry earlier
        · obtain rfl := List.mem_singleton.mp new
          rw [keys, Function.update_self]
  | delete cell =>
      obtain ⟨after, deleted, represents, keys⟩ := hashDelete_spec stores.represents legal
      rw [stores.erase cell] at represents
      refine .inr ⟨after, .done, by simp [perform, deleted, bind, Except.bind], ⟨represents, ?_⟩,
        rfl⟩
      intro entry member
      rw [keys]
      exact stores.keys entry (List.mem_of_mem_filter member)
  | find key =>
      obtain ⟨choice, found⟩ := hashFind_spec stores.represents short key
      refine .inr ⟨hash, _, by simp [perform, found, bind, Except.bind]; rfl, stores, choice, ?_⟩
      have matching : ∀ entry ∈ entries, decide (hash.key entry.1 = key) =
          decide (entry.2 = key) := by
        intro entry member
        rw [stores.keys entry member]
      rw [HashTable.find_map, HashTable.find_congr choice matching, Option.map_map]
      rfl
  | iterate deletes =>
      obtain ⟨after, visited, represents, keys⟩ := hashIter_spec deletes stores.represents short
      refine .inr ⟨after, _, by simp [perform, visited, bind, Except.bind], ⟨?_, ?_⟩, rfl⟩
      · rw [List.filter_map] at represents
        exact represents
      · intro entry member
        rw [keys]
        exact stores.keys entry (List.mem_of_mem_filter member)
  | count =>
      exact .inr ⟨hash, _, rfl, stores, congrArg Answer.items stores.count⟩

theorem Request.length_apply (entries : Entries Cell) (request : Request Cell) :
    (request.apply entries).length ≤ entries.length + 1 := by
  cases request with
  | add cell key malloc => simp [Request.apply]
  | delete cell => exact (List.length_filter_le _ _).trans (Nat.le_succ _)
  | find key => exact Nat.le_succ _
  | iterate deletes => exact (List.length_filter_le _ _).trans (Nat.le_succ _)
  | count => exact Nat.le_succ _

theorem entriesAfter_snoc (requests : List (Request Cell)) (request : Request Cell) :
    entriesAfter (requests ++ [request]) = request.apply (entriesAfter requests) := by
  simp [entriesAfter]

theorem length_entriesAfter (requests : List (Request Cell)) :
    (entriesAfter requests).length ≤ requests.length := by
  induction requests using List.reverseRecOn with
  | nil => exact Nat.le_refl 0
  | append_singleton requests request ih =>
      have step := request.length_apply (entriesAfter requests)
      rw [entriesAfter_snoc, List.length_append, List.length_singleton]
      omega

/-- Every request of a run is legal for the entries there are before it. -/
def LegalRun (requests : List (Request Cell)) : Prop :=
  MachineRun.EveryInput (fun earlier request => request.Legal (entriesAfter earlier)) requests

/-- The answers of a run are right, each about the entries there are before it. -/
def AnswersRun (requests : List (Request Cell)) (answers : List (Answer Cell)) : Prop :=
  MachineRun.EachAnswer (fun earlier => Answers (entriesAfter earlier)) requests answers

/-- Whatever memory holds before the first element is added, a run of legal macros
ends for want of memory, or leaves the elements added and not deleted, in that
order, and answers every search, iteration and count about them. -/
theorem run_stores (hashFcn : Bytes → Nat) {fuel : Nat} (app chain : Links Cell)
    (key : Cell → Bytes) (hashv : Cell → Nat) {requests : List (Request Cell)}
    (legal : LegalRun requests) (enough : requests.length ≤ fuel) :
    MachineRun.run (perform hashFcn fuel) ⟨app, chain, key, hashv, none⟩ requests =
        .error .outOfMemory ∨
      ∃ hash answers,
        MachineRun.run (perform hashFcn fuel) ⟨app, chain, key, hashv, none⟩ requests =
          .ok (hash, answers) ∧
        Stores hashFcn hash (entriesAfter requests) ∧ AnswersRun requests answers := by
  induction requests using List.reverseRecOn with
  | nil =>
      refine .inr ⟨_, [], rfl, ⟨represents_empty hashFcn app chain key hashv, ?_⟩,
        MachineRun.eachAnswer_nil⟩
      simp [entriesAfter]
  | append_singleton requests request ih =>
      rw [List.length_append, List.length_singleton] at enough
      obtain ⟨before, lastLegal⟩ := MachineRun.everyInput_snoc.mp legal
      rcases ih before (by omega) with failed | ⟨hash, answers, ran, stores, right⟩
      · left
        simp [MachineRun.run_append, failed, bind, Except.bind]
      · have short := length_entriesAfter requests
        have room : (entriesAfter requests).length < fuel := by omega
        rcases perform_spec stores room lastLegal with failed |
          ⟨after, answer, performed, storesAfter, answered⟩
        · left
          simp [MachineRun.run_append, MachineRun.run, ran, failed, bind, Except.bind]
        · right
          refine ⟨after, answers ++ [answer], MachineRun.run_snoc _ _ ran performed, ?_,
            right.snoc answered⟩
          rw [entriesAfter_snoc]
          exact storesAfter

end Runs

/-- Two elements of one key, a search and an iteration that deletes the first. -/
def sampleRequests : List (Request Nat) :=
  let malloc (bytes : Nat) : Bool := decide (bytes < 68719476736)
  [.add 0 [97] malloc] ++ [.add 1 [97] malloc] ++ [.find [97]] ++
    [.iterate fun cell => decide (cell = 0)] ++ [.count]

theorem legalRun_sampleRequests : LegalRun sampleRequests := by
  unfold sampleRequests LegalRun
  rw [MachineRun.everyInput_snoc, MachineRun.everyInput_snoc, MachineRun.everyInput_snoc,
    MachineRun.everyInput_snoc, ← List.nil_append [_], MachineRun.everyInput_snoc]
  refine ⟨⟨⟨⟨⟨MachineRun.everyInput_nil, ?_, ?_⟩, ?_, ?_⟩, trivial⟩, trivial⟩, trivial⟩
  · simp [entriesAfter]
  · decide
  · simp [entriesAfter, Request.apply]
  · decide

/-- A run in memory that holds nothing. -/
theorem run_stores_sampleRequests :
    MachineRun.run (perform hashJen 5)
        ⟨⟨fun _ => none, fun _ => none⟩, ⟨fun _ => none, fun _ => none⟩, fun _ => [], fun _ => 0,
          none⟩ sampleRequests = .error .outOfMemory ∨
      ∃ hash answers,
        MachineRun.run (perform hashJen 5)
            ⟨⟨fun _ => none, fun _ => none⟩, ⟨fun _ => none, fun _ => none⟩, fun _ => [],
              fun _ => 0, none⟩ sampleRequests = .ok (hash, answers) ∧
          Stores hashJen hash (entriesAfter sampleRequests) ∧ AnswersRun sampleRequests answers :=
  run_stores hashJen _ _ _ _ legalRun_sampleRequests (by decide)

end Uthash
