import Mathlib.Data.List.Basic
import Mathlib.Data.List.Induction
import Mathlib.Data.List.Nodup
import Mathlib.Logic.Function.Basic

/-!
# Intrusive doubly linked lists

Cells that carry the links of the list they are in.  A segment is a list of
cells linked to each other both ways.  Linking a cell at either end and
unlinking one write to a few cells only, so they leave every list alone that
has none of these.
-/

namespace IntrusiveList

variable {Cell : Type}

/-- The two link fields of every cell. -/
structure Links (Cell : Type) where
  prev : Cell → Option Cell
  next : Cell → Option Cell

/-- Consecutive cells are linked both ways, the first to what is before them and
the last to what is behind. -/
def Segment (links : Links Cell) (behind : Option Cell) : Option Cell → List Cell → Prop
  | _, [] => True
  | before, cell :: rest =>
      links.prev cell = before ∧ links.next cell = rest.head?.or behind ∧
        Segment links behind (some cell) rest

/-- The cells are a list of their own. -/
structure Chain (links : Links Cell) (cells : List Cell) : Prop where
  linked : Segment links none none cells
  nodup : cells.Nodup

/-- A walk along `next` from a cell visits some cells and ends. -/
def Follows (next : Cell → Option Cell) : Option Cell → List Cell → Prop
  | start, [] => start = none
  | start, cell :: rest => start = some cell ∧ Follows next (next cell) rest

/-- Two memories hold the same links in some cells. -/
def AgreeOn (cells : List Cell) (links other : Links Cell) : Prop :=
  ∀ cell ∈ cells, other.prev cell = links.prev cell ∧ other.next cell = links.next cell

section Segments

variable {links other : Links Cell} {behind before : Option Cell} {cells : List Cell}

theorem segment_congr (agree : AgreeOn cells links other) :
    Segment other behind before cells ↔ Segment links behind before cells := by
  induction cells generalizing before with
  | nil => exact Iff.rfl
  | cons cell rest ih =>
      rw [AgreeOn, List.forall_mem_cons] at agree
      obtain ⟨⟨prev, next⟩, agreeRest⟩ := agree
      simp only [Segment, prev, next, ih agreeRest]

theorem segment_append {first second : List Cell} :
    Segment links behind before (first ++ second) ↔
      Segment links (second.head?.or behind) before first ∧
        Segment links behind (first.getLast?.or before) second := by
  induction first generalizing before with
  | nil => simp [Segment]
  | cons cell first ih =>
      have head : (first ++ second).head?.or behind =
          first.head?.or (second.head?.or behind) := by
        cases first <;> simp
      have last : (cell :: first).getLast?.or before = first.getLast?.or (some cell) := by
        cases first <;> simp [List.getLast?_cons]
      simp only [List.cons_append, Segment, ih, head, last, and_assoc]

theorem Chain.congr (chain : Chain links cells) (agree : AgreeOn cells links other) :
    Chain other cells :=
  ⟨(segment_congr agree).mpr chain.linked, chain.nodup⟩

theorem Segment.follows (segment : Segment links none before cells) :
    Follows links.next cells.head? cells := by
  induction cells generalizing before with
  | nil => rfl
  | cons cell rest ih =>
      obtain ⟨-, next, linked⟩ := segment
      rw [Option.or_none] at next
      refine ⟨rfl, ?_⟩
      rw [next]
      exact ih linked

theorem Chain.follows (chain : Chain links cells) : Follows links.next cells.head? cells :=
  chain.linked.follows

theorem ne_some_of_head? {cell : Cell} (absent : cell ∉ cells) : cells.head? ≠ some cell :=
  fun first => absent (List.mem_of_head? first)

theorem ne_some_of_getLast? {cell : Cell} (absent : cell ∉ cells) : cells.getLast? ≠ some cell :=
  fun last => absent (List.mem_of_getLast? last)

theorem AgreeOn.trans {first second third : Links Cell} (agree : AgreeOn cells first second)
    (further : AgreeOn cells second third) : AgreeOn cells first third :=
  fun cell member =>
    ⟨(further cell member).1.trans (agree cell member).1,
      (further cell member).2.trans (agree cell member).2⟩

theorem Follows.congr {next other : Cell → Option Cell} {start : Option Cell}
    (follows : Follows next start cells) (same : ∀ cell ∈ cells, other cell = next cell) :
    Follows other start cells := by
  induction cells generalizing start with
  | nil => exact follows
  | cons cell rest ih =>
      rw [List.forall_mem_cons] at same
      obtain ⟨first, onward⟩ := follows
      refine ⟨first, ?_⟩
      rw [same.1]
      exact ih onward same.2

/-- The neighbours of a cell, as its list has them. -/
theorem Chain.neighbours {front back : List Cell} {cell : Cell}
    (chain : Chain links (front ++ cell :: back)) :
    links.prev cell = front.getLast? ∧ links.next cell = back.head? := by
  have linked := chain.linked
  rw [segment_append] at linked
  obtain ⟨-, prev, next, -⟩ := linked
  exact ⟨by simpa using prev, by simpa using next⟩

theorem chain_nil (links : Links Cell) : Chain links [] :=
  ⟨trivial, List.nodup_nil⟩

end Segments

/-! ## Iterating -/

section Iterating

variable {State Error : Type}

/-- A loop over a list whose body may unlink the cell it is at: `tmp`, the cell
to go on with, is read one turn ahead. -/
def iterate (next : State → Cell → Option Cell) (body : Cell → State → Except Error State)
    (outOfFuel : Error) : Nat → (el tmp : Option Cell) → State → Except Error State
  | _, none, _, state => .ok state
  | 0, some _, _, _ => .error outOfFuel
  | fuel + 1, some el, tmp, state => do
      let state ← body el state
      iterate next body outOfFuel fuel tmp (tmp.bind (next state)) state

/-- The rule for the loop, with an invariant on the cells that are left. -/
theorem iterate_spec {next : State → Cell → Option Cell}
    {body : Cell → State → Except Error State} (outOfFuel : Error)
    (Inv : List Cell → State → Prop)
    (onward : ∀ el rest state, Inv (el :: rest) state → next state el = rest.head?)
    (preserved : ∀ el rest state, Inv (el :: rest) state →
      ∃ after, body el state = .ok after ∧ Inv rest after)
    {cells : List Cell} {fuel : Nat} {state : State} (initial : Inv cells state)
    (enough : cells.length ≤ fuel) :
    ∃ after, iterate next body outOfFuel fuel cells.head? (cells.head?.bind (next state)) state =
        .ok after ∧ Inv [] after := by
  induction cells generalizing fuel state with
  | nil => exact ⟨state, by cases fuel <;> rfl, initial⟩
  | cons el rest ih =>
      cases fuel with
      | zero => simp at enough
      | succ fuel =>
          obtain ⟨middle, turned, held⟩ := preserved el rest state initial
          obtain ⟨after, looped, ended⟩ := ih held (by simpa using enough)
          refine ⟨after, ?_, ended⟩
          simp only [List.head?_cons, Option.bind_some, onward el rest state initial, iterate,
            turned, bind, Except.bind]
          exact looped

end Iterating

/-! ## Writing links -/

section Writing

variable [DecidableEq Cell]

namespace Links

def setPrev (cell : Cell) (value : Option Cell) (links : Links Cell) : Links Cell :=
  { links with prev := Function.update links.prev cell value }

def setNext (cell : Cell) (value : Option Cell) (links : Links Cell) : Links Cell :=
  { links with next := Function.update links.next cell value }

/-- Write where there is a cell. -/
def setPrevOf (cell : Option Cell) (value : Option Cell) (links : Links Cell) : Links Cell :=
  match cell with
  | none => links
  | some cell => links.setPrev cell value

def setNextOf (cell : Option Cell) (value : Option Cell) (links : Links Cell) : Links Cell :=
  match cell with
  | none => links
  | some cell => links.setNext cell value

/-- Link a cell in front of the first of a list. -/
def pushFront (head : Option Cell) (cell : Cell) (links : Links Cell) : Links Cell :=
  ((links.setNext cell head).setPrev cell none).setPrevOf head (some cell)

/-- Link a cell behind the last of a list. -/
def pushBack (tail : Option Cell) (cell : Cell) (links : Links Cell) : Links Cell :=
  ((links.setNext cell none).setPrev cell tail).setNextOf tail (some cell)

/-- Link the neighbours of a cell to each other. -/
def unlink (cell : Cell) (links : Links Cell) : Links Cell :=
  let linked := links.setNextOf (links.prev cell) (links.next cell)
  linked.setPrevOf (linked.next cell) (linked.prev cell)

variable (links : Links Cell)

@[simp] theorem setPrev_next (cell : Cell) (value : Option Cell) :
    (links.setPrev cell value).next = links.next := rfl

@[simp] theorem setNext_prev (cell : Cell) (value : Option Cell) :
    (links.setNext cell value).prev = links.prev := rfl

@[simp] theorem setPrevOf_next (cell value : Option Cell) :
    (links.setPrevOf cell value).next = links.next := by
  cases cell <;> rfl

@[simp] theorem setNextOf_prev (cell value : Option Cell) :
    (links.setNextOf cell value).prev = links.prev := by
  cases cell <;> rfl

@[simp] theorem setPrev_prev_self (cell : Cell) (value : Option Cell) :
    (links.setPrev cell value).prev cell = value := by
  simp [setPrev]

@[simp] theorem setNext_next_self (cell : Cell) (value : Option Cell) :
    (links.setNext cell value).next cell = value := by
  simp [setNext]

theorem setPrevOf_prev_of_ne {cell : Cell} {written : Option Cell} (value : Option Cell)
    (other : written ≠ some cell) : (links.setPrevOf written value).prev cell = links.prev cell := by
  cases written with
  | none => rfl
  | some target =>
      have ne : cell ≠ target := fun same => other (by rw [same])
      simp [setPrevOf, setPrev, ne]

theorem setNextOf_next_of_ne {cell : Cell} {written : Option Cell} (value : Option Cell)
    (other : written ≠ some cell) : (links.setNextOf written value).next cell = links.next cell := by
  cases written with
  | none => rfl
  | some target =>
      have ne : cell ≠ target := fun same => other (by rw [same])
      simp [setNextOf, setNext, ne]

theorem pushFront_next_of_ne (head : Option Cell) {cell other : Cell} (ne : other ≠ cell) :
    (links.pushFront head cell).next other = links.next other := by
  simp [pushFront, setNext, ne]

end Links

variable {links : Links Cell} {behind before : Option Cell} {cells : List Cell}

theorem agreeOn_setPrevOf {written : Option Cell} (value : Option Cell)
    (outside : ∀ cell ∈ cells, written ≠ some cell) :
    AgreeOn cells links (links.setPrevOf written value) :=
  fun cell member => ⟨links.setPrevOf_prev_of_ne value (outside cell member), by simp⟩

theorem agreeOn_setNextOf {written : Option Cell} (value : Option Cell)
    (outside : ∀ cell ∈ cells, written ≠ some cell) :
    AgreeOn cells links (links.setNextOf written value) :=
  fun cell member => ⟨by simp, links.setNextOf_next_of_ne value (outside cell member)⟩

/-- The first cell may be given another predecessor. -/
theorem Segment.setPrevOf_head (segment : Segment links behind before cells)
    (nodup : cells.Nodup) (value : Option Cell) :
    Segment (links.setPrevOf cells.head? value) behind value cells := by
  cases cells with
  | nil => trivial
  | cons cell rest =>
      obtain ⟨-, next, linked⟩ := segment
      refine ⟨by simp [Links.setPrevOf], by simpa using next, ?_⟩
      have outside : ∀ other ∈ rest, some cell ≠ some other := by
        rintro other member same
        cases same
        exact (List.nodup_cons.mp nodup).1 member
      exact (segment_congr (agreeOn_setPrevOf _ outside)).mpr linked

/-- The last cell may be given another successor. -/
theorem Segment.setNextOf_getLast (segment : Segment links behind before cells)
    (nodup : cells.Nodup) (value : Option Cell) :
    Segment (links.setNextOf cells.getLast? value) value before cells := by
  induction cells using List.reverseRecOn with
  | nil => trivial
  | append_singleton front last _ =>
      rw [segment_append] at segment ⊢
      obtain ⟨linked, prev, -, -⟩ := segment
      have outside : ∀ other ∈ front, some last ≠ some other := by
        rintro other member same
        cases same
        rw [List.nodup_append] at nodup
        exact nodup.2.2 last member last (List.mem_singleton_self last) rfl
      rw [List.getLast?_append, List.getLast?_singleton, Option.some_or]
      refine ⟨(segment_congr (agreeOn_setNextOf _ outside)).mpr linked, by simpa using prev, ?_,
        trivial⟩
      simp [Links.setNextOf]

/-- Clearing the links of a cell leaves lists alone that do not have it. -/
theorem agreeOn_clear {cell : Cell} (absent : cell ∉ cells) :
    AgreeOn cells links ((links.setNext cell none).setPrev cell none) := by
  have outside : ∀ other ∈ cells, some cell ≠ some other := by
    rintro other member same
    cases same
    exact absent member
  exact (agreeOn_setNextOf none outside).trans
    (agreeOn_setPrevOf none outside)

theorem agreeOn_pushFront {head : Option Cell} {cell : Cell} (absent : cell ∉ cells)
    (outside : ∀ other ∈ cells, head ≠ some other) :
    AgreeOn cells links (links.pushFront head cell) := by
  have fresh : ∀ other ∈ cells, some cell ≠ some other := by
    rintro other member same
    cases same
    exact absent member
  have own : AgreeOn cells links ((links.setNext cell head).setPrev cell none) :=
    (agreeOn_setNextOf head fresh).trans (agreeOn_setPrevOf none fresh)
  exact own.trans (agreeOn_setPrevOf (some cell) outside)

/-- A new first cell leaves lists alone that have neither it nor the old one. -/
theorem Chain.pushFront_other (chain : Chain links cells) {head : Option Cell} {cell : Cell}
    (absent : cell ∉ cells) (outside : ∀ other ∈ cells, head ≠ some other) :
    Chain (links.pushFront head cell) cells :=
  chain.congr (agreeOn_pushFront absent outside)

theorem Chain.pushFront (chain : Chain links cells) {cell : Cell} (absent : cell ∉ cells) :
    Chain (links.pushFront cells.head? cell) (cell :: cells) := by
  have fresh : ∀ other ∈ cells, some cell ≠ some other := by
    rintro other member same
    cases same
    exact absent member
  have own : AgreeOn cells links ((links.setNext cell cells.head?).setPrev cell none) :=
    (agreeOn_setNextOf cells.head? fresh).trans
      (agreeOn_setPrevOf none fresh)
  have linked := ((segment_congr own).mpr chain.linked).setPrevOf_head chain.nodup (some cell)
  have first := ne_some_of_head? absent
  refine ⟨⟨?_, ?_, linked⟩, List.nodup_cons.mpr ⟨absent, chain.nodup⟩⟩
  · rw [Links.pushFront, Links.setPrevOf_prev_of_ne _ _ first, Links.setPrev_prev_self]
  · simp [Links.pushFront]

theorem Chain.pushBack (chain : Chain links cells) {cell : Cell} (absent : cell ∉ cells) :
    Chain (links.pushBack cells.getLast? cell) (cells ++ [cell]) := by
  have fresh : ∀ other ∈ cells, some cell ≠ some other := by
    rintro other member same
    cases same
    exact absent member
  have own : AgreeOn cells links ((links.setNext cell none).setPrev cell cells.getLast?) :=
    (agreeOn_setNextOf none fresh).trans
      (agreeOn_setPrevOf cells.getLast? fresh)
  have linked := ((segment_congr own).mpr chain.linked).setNextOf_getLast chain.nodup (some cell)
  have last := ne_some_of_getLast? absent
  constructor
  · rw [segment_append]
    refine ⟨linked, ?_, ?_, trivial⟩
    · simp [Links.pushBack]
    · rw [Links.pushBack, Links.setNextOf_next_of_ne _ _ last]
      simp
  · rw [List.nodup_append]
    refine ⟨chain.nodup, List.nodup_singleton cell, ?_⟩
    rintro other member _ inside rfl
    rw [List.mem_singleton] at inside
    exact absent (inside ▸ member)

theorem Chain.unlink_eq {front back : List Cell} {cell : Cell}
    (chain : Chain links (front ++ cell :: back)) :
    links.unlink cell =
      (links.setNextOf front.getLast? back.head?).setPrevOf back.head? front.getLast? := by
  obtain ⟨prev, next⟩ := chain.neighbours
  have absent : cell ∉ front := by
    have nodup := chain.nodup
    rw [List.nodup_append] at nodup
    exact fun member => nodup.2.2 cell member cell List.mem_cons_self rfl
  have kept := links.setNextOf_next_of_ne back.head? (ne_some_of_getLast? absent)
  simp only [Links.unlink, prev, next, kept, Links.setNextOf_prev]

theorem Chain.unlink {front back : List Cell} {cell : Cell}
    (chain : Chain links (front ++ cell :: back)) :
    Chain (links.unlink cell) (front ++ back) := by
  have rest : (front ++ back).Nodup := by
    have sublist : (front ++ back).Sublist (front ++ cell :: back) :=
      (List.sublist_cons_self cell back).append_left front
    exact chain.nodup.sublist sublist
  rw [chain.unlink_eq]
  have linked := chain.linked
  rw [segment_append] at linked
  obtain ⟨inFront, -, -, inBack⟩ := linked
  have nodup := rest
  rw [List.nodup_append] at nodup
  obtain ⟨frontNodup, backNodup, disjoint⟩ := nodup
  refine ⟨?_, rest⟩
  rw [segment_append]
  constructor
  · -- the front ends before the back, and the write to the back is outside it
    have outside : ∀ other ∈ front, back.head? ≠ some other :=
      fun other member first => disjoint other member other (List.mem_of_head? first) rfl
    rw [segment_congr (agreeOn_setPrevOf _ outside), Option.or_none]
    exact inFront.setNextOf_getLast frontNodup _
  · have outside : ∀ other ∈ back, front.getLast? ≠ some other :=
      fun other member last => disjoint other (List.mem_of_getLast? last) other member rfl
    rw [Option.or_none]
    exact ((segment_congr (agreeOn_setNextOf _ outside)).mpr inBack).setPrevOf_head backNodup _

/-- Unlinking a cell leaves lists alone that have none of the cells around it. -/
theorem Chain.unlink_other {front back : List Cell} {cell : Cell}
    (chain : Chain links cells) (around : Chain links (front ++ cell :: back))
    (disjoint : ∀ other ∈ cells, other ∉ front ++ cell :: back) :
    Chain (links.unlink cell) cells := by
  rw [around.unlink_eq]
  have before : ∀ other ∈ cells, front.getLast? ≠ some other := by
    intro other member last
    exact disjoint other member (List.mem_append_left _ (List.mem_of_getLast? last))
  have behind : ∀ other ∈ cells, back.head? ≠ some other := by
    intro other member first
    have inside := List.mem_cons_of_mem cell (List.mem_of_head? first)
    exact disjoint other member (List.mem_append_right _ inside)
  exact chain.congr ((agreeOn_setNextOf _ before).trans (agreeOn_setPrevOf _ behind))

end Writing

end IntrusiveList
