import Uwebfilter.ByteWriter
import Uwebfilter.DomainArena
import Uwebfilter.HttpFields
import Uwebfilter.PacketHandle

/-!
# Names in the slots of the domain cache

`domain_info_create` copies a name of any length into the 256 bytes a slot has
for it.  A name stays in its slot exactly where it leaves room for its zero.
-/

namespace Uwebfilter

open ByteReader ByteWriter CStrings

/-- The bytes of a string with the zero behind them. -/
structure StringAt (memory : Nat → UInt8) (address : Nat) (content : Bytes) : Prop where
  holds : Holds memory address content
  terminated : memory (address + content.length) = 0
  nulFree : 0 ∉ content

/-- The `memcpy` of `domain_info_create` into the `domain` of a slot. -/
def copyDomain (memory : Nat → UInt8) (field : Nat) (domain : Bytes) : ByteWriter :=
  ByteWriter.write ⟨memory, []⟩ field (cString domain)

/-- The copy writes to the `domain` of the slot only, a zero ends what it leaves
there, and that is the name or as much of it as fits. -/
structure StaysInSlot (memory : Nat → UInt8) (field : Nat) (name : Bytes) : Prop where
  inside : ∀ address ∈ (copyDomain memory field name).written,
    field ≤ address ∧ address < field + domainLength
  terminated : ∃ index < domainLength, (copyDomain memory field name).memory (field + index) = 0
  key : ∃ key, StringAt (copyDomain memory field name).memory field key ∧
    (key = name ∨ key = name.take (domainLength - 1))
  frame : ∀ address, address < field ∨ field + domainLength ≤ address →
    (copyDomain memory field name).memory address = memory address

/-- A string `domain_lookup` passes to `domain_info_create`: the requested
domain as handling a packet leaves it in the log record, or an element of
`cache_domains`. -/
inductive PassedName (jsonC : JsonC) : Bytes → Prop
  | requested {σ : Type} {checkAccess : CheckAccess σ} {daemon : Daemon σ} {arrival : Arrival}
      {log : Uwebfilterlog} {verdict : Verdict}
      (checked : .checkAccess log verdict ∈ (packetHandle checkAccess daemon arrival).2) :
      PassedName jsonC (cString log.domain)
  | listed {elements : List Json} {name : Bytes} (member : name ∈ cacheDomainNames jsonC elements) :
      PassedName jsonC (cString name)

theorem PassedName.nulFree {jsonC : JsonC} {name : Bytes} (passed : PassedName jsonC name) :
    0 ∉ name := by
  cases passed with
  | requested checked => exact cString_nulFree _
  | listed member => exact cString_nulFree _

/-- Every name a lookup stores for a packet is passed. -/
theorem passedName_of_stored {jsonC : JsonC} {σ : Type} {checkAccess : CheckAccess σ}
    {daemon : Daemon σ} {arrival : Arrival} {log : Uwebfilterlog} {verdict : Verdict}
    (checked : .checkAccess log verdict ∈ (packetHandle checkAccess daemon arrival).2)
    {now : Int} {fetch : Option Json} {names : List Bytes} {info : Bytes → DomainInfo}
    (stored : storedEntries jsonC now (cString log.domain) fetch = .ok (names, info))
    {name : Bytes} (member : name ∈ names) : PassedName jsonC (cString name) := by
  have requested : PassedName jsonC (cString (cString log.domain)) := by
    rw [cString_of_nulFree (cString_nulFree _)]
    exact .requested checked
  unfold storedEntries at stored
  split at stored
  · cases stored
    rwa [List.mem_singleton.mp member]
  · dsimp only at stored
    split at stored
    · cases stored
      rwa [List.mem_singleton.mp member]
    · split at stored
      · cases stored
      · cases stored
        exact .listed member

section Slot

variable {memory : Nat → UInt8} {field : Nat} {name : Bytes}

theorem staysInSlot_iff_of_nulFree (nulFree : 0 ∉ name)
    (cleared : ∀ index < domainLength, memory (field + index) = 0) :
    StaysInSlot memory field name ↔ name.length < domainLength := by
  have copy : copyDomain memory field name = ByteWriter.write ⟨memory, []⟩ field name := by
    rw [copyDomain, cString_of_nulFree nulFree]
  constructor
  · intro stays
    by_contra long
    have terminated := stays.terminated
    rw [copy] at terminated
    obtain ⟨index, below, zero⟩ := terminated
    have inside : index < name.length := by omega
    rw [memory_write_inside inside] at zero
    exact nulFree (zero ▸ List.getElem_mem inside)
  · intro short
    constructor
    · intro address written
      rw [copy, mem_written_write] at written
      rcases written with nothing | inside
      · exact absurd nothing List.not_mem_nil
      · omega
    · refine ⟨name.length, short, ?_⟩
      rw [copy, memory_write_outside (.inr (Nat.le_refl _))]
      exact cleared _ short
    · refine ⟨name, ⟨?_, ?_, nulFree⟩, .inl rfl⟩
      · rw [copy]
        exact holds_write
      · rw [copy, memory_write_outside (.inr (Nat.le_refl _))]
        exact cleared _ short
    · intro address outside
      rw [copy, memory_write_outside (by omega)]

/-- A name passed to `domain_info_create` stays in its slot, which is cleared,
exactly where it is shorter than the field. -/
theorem staysInSlot_iff_short {jsonC : JsonC} (passed : PassedName jsonC name)
    (cleared : ∀ index < domainLength, memory (field + index) = 0) :
    StaysInSlot memory field name ↔ name.length < domainLength :=
  staysInSlot_iff_of_nulFree passed.nulFree cleared

end Slot

theorem passedName_listed {name : Bytes} (nulFree : 0 ∉ name) : PassedName plainJsonC name := by
  have member : name ∈ cacheDomainNames plainJsonC [.string name] := by
    change name ∈ [plainJsonC.getString (.string name)]
    rw [plainJsonC.getString_of_nulFree nulFree]
    exact List.mem_cons_self
  have listed := PassedName.listed member
  rwa [cString_of_nulFree nulFree] at listed

theorem staysInSlot_iff_short_bc :
    StaysInSlot (fun _ => 0) 312 [98, 46, 99] ↔ [98, 46, 99].length < domainLength :=
  staysInSlot_iff_short (passedName_listed (by decide)) fun _ _ => rfl

/-- A name as long as the field leaves no zero in it. -/
theorem not_staysInSlot_longName :
    PassedName plainJsonC (List.replicate 256 97) ∧
      ¬ StaysInSlot (fun _ => 0) 312 (List.replicate 256 97) := by
  have nulFree : 0 ∉ List.replicate 256 (97 : UInt8) := fun member =>
    absurd (List.eq_of_mem_replicate member) (by decide)
  refine ⟨passedName_listed nulFree, ?_⟩
  rw [staysInSlot_iff_of_nulFree nulFree fun _ _ => rfl, List.length_replicate]
  decide

/-! ## Names that stay, and names that fault -/

/-- The host of an HTTP request always stays. -/
theorem staysInSlot_extractHttpPayload {memory : Nat → UInt8} {field : Nat}
    (cleared : ∀ index < domainLength, memory (field + index) = 0) (httpRequest : Bytes)
    (payloadLength : Nat) :
    StaysInSlot memory field (cString (extractHttpPayload httpRequest payloadLength).domain) := by
  rw [staysInSlot_iff_of_nulFree (cString_nulFree _) cleared]
  exact Nat.lt_of_le_of_lt (List.takeWhile_prefix _).length_le
    (extractHttpPayload_domain_length_lt httpRequest payloadLength)

/-- The model's fault for a name that is too long is what leaving the slot is. -/
theorem domainInfoCreate_eq_overrun_iff {size : Nat} {state : DomainInfoCache} {held : List Nat}
    (owns : SlotFreeList.Owns size state.arenaPtr state.arenaIndex held)
    (room : held.length < size) {info : DomainInfo} (nulFree : 0 ∉ info.domain)
    {memory : Nat → UInt8} {field : Nat}
    (cleared : ∀ index < domainLength, memory (field + index) = 0) :
    domainInfoCreate size state info = .error .overrun ↔
      ¬ StaysInSlot memory field info.domain := by
  rw [domainInfoCreate_of_room owns room, staysInSlot_iff_of_nulFree nulFree cleared, Nat.not_lt]
  constructor
  · intro overrun
    by_contra short
    rw [if_neg short] at overrun
    cases overrun
  · intro long
    exact if_pos long

end Uwebfilter
