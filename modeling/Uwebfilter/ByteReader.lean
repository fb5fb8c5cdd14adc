import Mathlib.Data.List.Basic

/-!
# Programs that read bytes from memory

A reader is a decision tree: every inner node asks for the byte at one address
and continues with the answer.  Running it against a memory gives its value
and the addresses it touched, so that a bounds property and the independence
of the memory outside those bounds come from the same tree.
-/

/-- A program whose only effect is to read bytes. -/
inductive ByteReader (α : Type) : Type
  | done (value : α)
  | read (address : Nat) (next : UInt8 → ByteReader α)

namespace ByteReader

variable {α β : Type}

def bind (first : ByteReader α) (second : α → ByteReader β) : ByteReader β :=
  match first with
  | .done value => second value
  | .read address next => .read address fun byte => (next byte).bind second

instance : Monad ByteReader where
  pure := .done
  bind := bind

def byte (address : Nat) : ByteReader Nat :=
  .read address fun value => .done value.toNat

/-- `count` bytes from `address` on. -/
def bytes (address : Nat) : (count : Nat) → ByteReader (List UInt8)
  | 0 => pure []
  | count + 1 => .read address fun value => do
      let rest ← bytes (address + 1) count
      pure (value :: rest)

def run (memory : Nat → UInt8) : ByteReader α → α
  | .done value => value
  | .read address next => run memory (next (memory address))

/-- The addresses a reader touches in a memory, in order. -/
def reads (memory : Nat → UInt8) : ByteReader α → List Nat
  | .done _ => []
  | .read address next => address :: reads memory (next (memory address))

section Run

variable (memory : Nat → UInt8)

@[simp] theorem run_pure (value : α) :
    run memory (pure value : ByteReader α) = value := rfl

@[simp] theorem reads_pure (value : α) :
    reads memory (pure value : ByteReader α) = [] := rfl

@[simp] theorem run_bind (first : ByteReader α) (second : α → ByteReader β) :
    run memory (first >>= second) = run memory (second (run memory first)) := by
  change run memory (bind first second) = _
  induction first with
  | done value => rfl
  | read address next ih => exact ih (memory address)

@[simp] theorem reads_bind (first : ByteReader α) (second : α → ByteReader β) :
    reads memory (first >>= second) =
      reads memory first ++ reads memory (second (run memory first)) := by
  change reads memory (bind first second) = _
  induction first with
  | done value => rfl
  | read address next ih =>
      exact congrArg (address :: ·) (ih (memory address))

@[simp] theorem run_byte (address : Nat) :
    run memory (byte address) = (memory address).toNat := rfl

@[simp] theorem reads_byte (address : Nat) :
    reads memory (byte address) = [address] := rfl

@[simp] theorem run_bytes (address count : Nat) :
    run memory (bytes address count) =
      (List.range' address count).map memory := by
  induction count generalizing address with
  | zero => rfl
  | succ count ih =>
      change run memory (bytes (address + 1) count >>=
        fun rest => pure (memory address :: rest)) = _
      rw [run_bind, run_pure, ih, List.range'_succ, List.map_cons]

@[simp] theorem reads_bytes (address count : Nat) :
    reads memory (bytes address count) = List.range' address count := by
  induction count generalizing address with
  | zero => rfl
  | succ count ih =>
      change address :: reads memory (bytes (address + 1) count >>=
        fun rest => pure (memory address :: rest)) = _
      rw [reads_bind, reads_pure, ih, List.append_nil, List.range'_succ]

end Run

/-! ## Bounds -/

/-- In this memory the reader touches addresses below `limit` only. -/
def Within (memory : Nat → UInt8) (limit : Nat) (reader : ByteReader α) : Prop :=
  ∀ address ∈ reader.reads memory, address < limit

section Within

variable {memory : Nat → UInt8} {limit : Nat}

theorem within_pure (value : α) :
    Within memory limit (pure value : ByteReader α) := by
  simp [Within]

theorem within_bind_iff {first : ByteReader α} {second : α → ByteReader β} :
    Within memory limit (first >>= second) ↔
      Within memory limit first ∧ Within memory limit (second (first.run memory)) := by
  simp only [Within, reads_bind, List.forall_mem_append]

theorem within_bind {first : ByteReader α} {second : α → ByteReader β}
    (firstWithin : Within memory limit first)
    (secondWithin : Within memory limit (second (first.run memory))) :
    Within memory limit (first >>= second) :=
  within_bind_iff.mpr ⟨firstWithin, secondWithin⟩

theorem within_byte_iff {address : Nat} :
    Within memory limit (byte address) ↔ address < limit := by
  simp [Within]

theorem within_byte {address : Nat} (below : address < limit) :
    Within memory limit (byte address) :=
  within_byte_iff.mpr below

theorem within_bytes_iff {address count : Nat} (positive : 0 < count) :
    Within memory limit (bytes address count) ↔ address + count ≤ limit := by
  constructor
  · intro within
    have last := within (address + count - 1) (by
      rw [reads_bytes, List.mem_range'_1]
      omega)
    omega
  · intro below other member
    rw [reads_bytes, List.mem_range'_1] at member
    omega

theorem within_bytes {address count : Nat} (below : address + count ≤ limit) :
    Within memory limit (bytes address count) := by
  intro other member
  rw [reads_bytes, List.mem_range'_1] at member
  omega

end Within

/-! ## Memory contents -/

/-- The memory holds `content` from `address` on. -/
def Holds (memory : Nat → UInt8) (address : Nat) (content : List UInt8) : Prop :=
  ∀ index (inside : index < content.length), memory (address + index) = content[index]

section Holds

variable {memory : Nat → UInt8} {address : Nat}

@[simp] theorem holds_nil : Holds memory address [] := by
  intro index inside
  simp at inside

@[simp] theorem holds_cons {value : UInt8} {content : List UInt8} :
    Holds memory address (value :: content) ↔
      memory address = value ∧ Holds memory (address + 1) content := by
  constructor
  · intro holds
    refine ⟨holds 0 (Nat.zero_lt_succ _), fun index inside => ?_⟩
    have shifted := holds (index + 1) (by simpa using inside)
    simpa only [Nat.add_assoc, Nat.add_comm 1 index, List.getElem_cons_succ] using shifted
  · rintro ⟨head, tail⟩ index inside
    cases index with
    | zero => simpa using head
    | succ index =>
        have shifted := tail index (by simpa using inside)
        simpa only [Nat.add_assoc, Nat.add_comm 1 index, List.getElem_cons_succ] using shifted

@[simp] theorem holds_append {first second : List UInt8} :
    Holds memory address (first ++ second) ↔
      Holds memory address first ∧ Holds memory (address + first.length) second := by
  induction first generalizing address with
  | nil => simp
  | cons value first ih =>
      simp only [List.cons_append, holds_cons, ih, List.length_cons, and_assoc]
      rw [Nat.add_right_comm address 1, Nat.add_assoc address]

theorem holds_getD (content rest : List UInt8) :
    Holds (fun index => (content ++ rest).getD index 0) 0 content := by
  intro index inside
  simp [List.getElem?_append_left inside, inside]

theorem Holds.map_range' {content : List UInt8}
    (holds : Holds memory address content) :
    (List.range' address content.length).map memory = content := by
  apply List.ext_getElem
  · simp
  · intro index _ inside
    simpa using holds index inside

end Holds

/-! ## Values -/

/-- In this memory the reader computes a value and touches addresses below
`limit` only. -/
structure Computes (memory : Nat → UInt8) (limit : Nat) (reader : ByteReader α) (value : α) :
    Prop where
  within : Within memory limit reader
  run : reader.run memory = value

section Computes

variable {memory : Nat → UInt8} {limit : Nat}

theorem computes_pure (value : α) : Computes memory limit (pure value) value :=
  ⟨within_pure value, rfl⟩

theorem computes_bind {first : ByteReader α} {second : α → ByteReader β} {middle : α} {value : β}
    (firstComputes : Computes memory limit first middle)
    (secondComputes : Computes memory limit (second middle) value) :
    Computes memory limit (first >>= second) value := by
  constructor
  · apply within_bind firstComputes.within
    rw [firstComputes.run]
    exact secondComputes.within
  · rw [run_bind, firstComputes.run, secondComputes.run]

theorem computes_byte {address : Nat} {value : UInt8} (here : memory address = value)
    (below : address < limit) : Computes memory limit (byte address) value.toNat :=
  ⟨within_byte below, by rw [run_byte, here]⟩

theorem computes_bytes {address : Nat} {content : List UInt8}
    (holds : Holds memory address content) (below : address + content.length ≤ limit) :
    Computes memory limit (bytes address content.length) content :=
  ⟨within_bytes below, by rw [run_bytes, holds.map_range']⟩

end Computes

/-! ## Readers that may give up -/

/-- As far as it goes, a reader that may give up reads and computes as another. -/
def Follows (guarded : OptionT ByteReader α) (plain : ByteReader α) : Prop :=
  ∀ memory value, guarded.run.run memory = some value →
    plain.run memory = value ∧ plain.reads memory = guarded.run.reads memory

section Follows

variable {memory : Nat → UInt8} {limit : Nat}

theorem run_bind_guarded {first : OptionT ByteReader α} {middle : α}
    (returns : first.run.run memory = some middle) (second : α → OptionT ByteReader β) :
    (first >>= second).run.run memory = (second middle).run.run memory ∧
      (first >>= second).run.reads memory =
        first.run.reads memory ++ (second middle).run.reads memory := by
  have unfolded : (first >>= second).run = first.run >>= fun
      | some value => (second value).run
      | none => pure none := rfl
  rw [unfolded, run_bind, reads_bind, returns]
  exact ⟨rfl, rfl⟩

theorem follows_pure (value : α) : Follows (pure value) (pure value) := by
  intro memory other same
  exact ⟨Option.some.inj same, rfl⟩

theorem follows_lift (plain : ByteReader α) : Follows (liftM plain) plain := by
  intro memory value same
  have unfolded : (liftM plain : OptionT ByteReader α).run =
      plain >>= fun value => pure (some value) := rfl
  rw [unfolded, run_bind, run_pure, Option.some.injEq] at same
  rw [unfolded, reads_bind, reads_pure, List.append_nil]
  exact ⟨same, rfl⟩

theorem follows_bind {first : OptionT ByteReader α} {second : α → OptionT ByteReader β}
    {plainFirst : ByteReader α} {plainSecond : α → ByteReader β}
    (firstFollows : Follows first plainFirst)
    (secondFollows : ∀ value, Follows (second value) (plainSecond value)) :
    Follows (first >>= second) (plainFirst >>= plainSecond) := by
  intro memory value same
  cases returned : first.run.run memory with
  | none =>
      have unfolded : (first >>= second).run.run memory = none := by
        change (first.run >>= fun
          | some value => (second value).run
          | none => pure none : ByteReader (Option β)).run memory = none
        rw [run_bind, returned, run_pure]
      rw [unfolded] at same
      cases same
  | some middle =>
      obtain ⟨runs, reads⟩ := run_bind_guarded returned second
      obtain ⟨plainRuns, plainReads⟩ := firstFollows memory middle returned
      rw [runs] at same
      obtain ⟨restRuns, restReads⟩ := secondFollows middle memory value same
      rw [run_bind, reads_bind, reads, plainRuns, plainReads, restReads]
      exact ⟨restRuns, rfl⟩

theorem follows_ite {condition : Prop} [Decidable condition]
    {first second : OptionT ByteReader α} {plainFirst plainSecond : ByteReader α}
    (firstFollows : Follows first plainFirst) (secondFollows : Follows second plainSecond) :
    Follows (if condition then first else second)
      (if condition then plainFirst else plainSecond) := by
  split
  · exact firstFollows
  · exact secondFollows

theorem computes_guarded_pure (value : α) :
    Computes memory limit (pure value : OptionT ByteReader α).run (some value) :=
  computes_pure (some value)

theorem computes_guarded_lift {plain : ByteReader α} {value : α}
    (computes : Computes memory limit plain value) :
    Computes memory limit (liftM plain : OptionT ByteReader α).run (some value) :=
  computes_bind computes (computes_pure (some value))

theorem computes_guarded_bind {first : OptionT ByteReader α} {second : α → OptionT ByteReader β}
    {middle : α} {value : β} (firstComputes : Computes memory limit first.run (some middle))
    (secondComputes : Computes memory limit (second middle).run (some value)) :
    Computes memory limit (first >>= second).run (some value) :=
  computes_bind firstComputes secondComputes

/-- What a reader that may give up computes without doing so, the reader it
follows computes. -/
theorem Follows.computes {guarded : OptionT ByteReader α} {plain : ByteReader α} {value : α}
    (follows : Follows guarded plain) (computes : Computes memory limit guarded.run (some value)) :
    Computes memory limit plain value := by
  obtain ⟨runs, reads⟩ := follows memory value computes.run
  exact ⟨by rw [Within, reads]; exact computes.within, runs⟩

end Follows

end ByteReader
