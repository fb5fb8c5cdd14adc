import Uwebfilter.PacketHandle
import Uwebfilter.Simulation
import Uwebfilter.UthashRefinement

/-!
# Pending flows on the heap

`tcpflow.c` with the macros of `uthash.h` as they are, and with the flows where
`calloc` puts them.  A flow that is used after `free` ends the run, as does one
that is freed again.  Every run of packets ends for want of memory of the table,
or is one on the list of the flows; and what is allocated is what the table
holds.
-/

namespace Uwebfilter

open CStrings Simulation

/-- What ends the handling of a packet: a flow used that is not allocated, or a
macro that stops. -/
inductive FlowHalt
  | notAllocated
  | stop (stop : Uthash.Stop)
  deriving DecidableEq, Repr

/-- The bytes of a number, lowest first. -/
def numberBytes : Nat → Nat → Bytes
  | 0, _ => []
  | count + 1, number => UInt8.ofNat (number % 256) :: numberBytes count (number / 256)

/-- The memory of a key. -/
def TcpflowKey.bytes (key : TcpflowKey) : Bytes :=
  numberBytes 4 key.src ++ numberBytes 4 key.dst ++ numberBytes 2 key.port ++
    numberBytes 2 key.padding

/-- `tcpflow_cache`, and the heap its flows are on. -/
structure HashedFlows where
  memory : Nat → Tcpflow
  allocated : List Nat
  cache : Uthash.Hash Nat
  tcpflowLastGc : Int

/-- A packet with everything outside it that its handling reads.  `calloc` finds
an address beside those in use, `malloc` serves the table. -/
structure HashedArrival where
  packet : PacketInfo
  padding : Nat
  calloc : List Nat → Option Nat
  malloc : Nat → Bool
  now : Int
  heap : Bytes

namespace HashedFlows

def initial : HashedFlows where
  memory := fun _ => ⟨0, ⟨0, 0, 0, 0⟩, ⟨0, 0, [], [], 0⟩⟩
  allocated := []
  cache := ⟨⟨fun _ => none, fun _ => none⟩, ⟨fun _ => none, fun _ => none⟩, fun _ => [],
    fun _ => 0, none⟩
  tcpflowLastGc := 0

/-- A turn for every flow, and one more. -/
def fuel (flows : HashedFlows) : Nat := flows.allocated.length + 1

def load (flows : HashedFlows) (flow : Nat) : Except FlowHalt Tcpflow :=
  if flow ∈ flows.allocated then .ok (flows.memory flow) else .error .notAllocated

def store (flows : HashedFlows) (flow : Nat) (held : Tcpflow) : HashedFlows :=
  { flows with memory := Function.update flows.memory flow held }

@[simp] theorem store_memory (flows : HashedFlows) (flow : Nat) (held : Tcpflow) :
    (flows.store flow held).memory flow = held :=
  Function.update_self _ _ _

theorem store_memory_of_ne (flows : HashedFlows) {flow other : Nat} (ne : other ≠ flow)
    (held : Tcpflow) : (flows.store flow held).memory other = flows.memory other :=
  Function.update_of_ne ne _ _

/-- What `tcpflow_create` leaves behind `calloc`. -/
def created (key : TcpflowKey) (expected : Nat) : Tcpflow where
  timestamp := 0
  key := { src := key.src, dst := key.dst, port := key.port, padding := 0 }
  value :=
    { expected := expected
      current := 0
      payload := List.replicate flowPayloadSize 0
      ids := List.replicate maxPacketCount 0
      index := 0 }

def tcpflowCreate (calloc : List Nat → Option Nat) (key : TcpflowKey) (expected : Nat)
    (flows : HashedFlows) : Option (Nat × HashedFlows) :=
  (calloc flows.allocated).map fun flow =>
    (flow,
      { flows with
        memory := Function.update flows.memory flow (created key expected)
        allocated := flow :: flows.allocated
        cache := flows.cache.clearCell flow })

def tcpflowFree (flow : Nat) (flows : HashedFlows) : Except FlowHalt HashedFlows :=
  if flow ∈ flows.allocated then
    .ok { flows with allocated := flows.allocated.erase flow }
  else .error .notAllocated

def tcpflowValueAppend (flow id : Nat) (payload : Bytes) (flows : HashedFlows) :
    Except FlowHalt (Bool × HashedFlows) := do
  let held ← flows.load flow
  match Uwebfilter.tcpflowValueAppend held.value id payload with
  | none => .ok (false, flows)
  | some value => .ok (true, flows.store flow { held with value := value })

def tcpflowDelete (flow : Nat) (flows : HashedFlows) : Except FlowHalt HashedFlows := do
  let cache ← (Uthash.hashDelete flow flows.cache).mapError FlowHalt.stop
  .ok { flows with cache := cache }

def tcpflowSetverdictAndFree (flow : Nat) (verdict : Verdict) (flows : HashedFlows) :
    Except FlowHalt (HashedFlows × List Event) := do
  let flows ← tcpflowDelete flow flows
  let held ← flows.load flow
  let flows ← tcpflowFree flow flows
  .ok (flows, tcpflowSetverdict held verdict)

/-- The body of the loop of `tcpflow_rungc`. -/
def rungcVisit (expiredTime : Int) (flow : Nat) (state : HashedFlows × List Event) :
    Except FlowHalt (HashedFlows × List Event) := do
  let held ← state.1.load flow
  if held.timestamp < expiredTime then do
    let (flows, sent) ← tcpflowSetverdictAndFree flow .nfDrop state.1
    .ok (flows, state.2 ++ sent)
  else .ok state

def tcpflowRungc (now : Int) (flows : HashedFlows) :
    Except FlowHalt (HashedFlows × List Event) := do
  let head := flows.cache.root.map Uthash.Root.head
  let (flows, events) ← IntrusiveList.iterate (fun state => state.1.cache.app.next)
    (rungcVisit (now - 5)) (.stop .outOfFuel) flows.fuel head
    (head.bind flows.cache.app.next) (flows, [])
  .ok ({ flows with tcpflowLastGc := now }, events)

section Handlers

-- the hash function of the table
variable (hashFcn : Bytes → Nat)

def tcpflowLookup (key : TcpflowKey) (flows : HashedFlows) : Except FlowHalt (Option Nat) :=
  (Uthash.hashFind hashFcn flows.fuel key.bytes flows.cache).mapError FlowHalt.stop

def tcpflowInsert (malloc : Nat → Bool) (now : Int) (flow : Nat) (flows : HashedFlows) :
    Except FlowHalt (HashedFlows × List Event) := do
  let held ← flows.load flow
  let cache ← (Uthash.hashAdd hashFcn malloc flows.fuel flow held.key.bytes
    flows.cache).mapError FlowHalt.stop
  let flows := { flows with cache := cache }
  if flows.tcpflowLastGc < now - 60 then tcpflowRungc now flows else .ok (flows, [])

variable {σ : Type} (checkAccess : CheckAccess σ)

def packetHandleTcp443Pending (arrival : HashedArrival) (log : Uwebfilterlog) (flow : Nat)
    (flows : HashedFlows) (access : σ) : Except FlowHalt ((HashedFlows × σ) × List Event) := do
  let packet := arrival.packet
  let (appended, flows) ← tcpflowValueAppend flow packet.id packet.tcpBytes flows
  if appended then do
    let held ← flows.load flow
    if tcpflowIscomplete held then do
      let name := (extractSni held.value.current).run
        (byteAt (held.value.payload ++ arrival.heap))
      let (verdict, access, events) := judgeSni checkAccess access packet log name
      let (flows, sent) ← tcpflowSetverdictAndFree flow verdict flows
      .ok ((flows, access),
        .extractSni (held.value.payload.take held.value.current) :: events ++ sent)
    else .ok ((flows, access), [])
  else do
    let (flows, sent) ← tcpflowSetverdictAndFree flow .nfAccept flows
    .ok ((flows, access), sent)

def packetHandleTcp443Fresh (arrival : HashedArrival) (log : Uwebfilterlog) (key : TcpflowKey)
    (flows : HashedFlows) (access : σ) : Except FlowHalt ((HashedFlows × σ) × List Event) :=
  let packet := arrival.packet
  let payload := packet.tcpBytes
  if byteAt payload 0 ≠ 0x16 ∨ byteAt payload 5 ≠ 0x01 then
    .ok ((flows, access), [.sendVerdict packet.id .nfAccept])
  else
    let handshakeLength := u16be payload 3
    if packet.tcpPayloadLength ≥ handshakeLength then
      let name := (extractSni packet.tcpPayloadLength).run fun index =>
        byteAt packet.payload (packet.tcpPayload + index)
      let (verdict, access, events) := judgeSni checkAccess access packet log name
      .ok ((flows, access), .extractSni payload :: events ++ [.sendVerdict packet.id verdict])
    else if handshakeLength > flowPayloadSize then
      .ok ((flows, access), [.sendVerdict packet.id .nfAccept])
    else
      match tcpflowCreate arrival.calloc key handshakeLength flows with
      | none => .ok ((flows, access), [.sendVerdict packet.id .nfAccept])
      | some (flow, flows) => do
          let (appended, flows) ← tcpflowValueAppend flow packet.id payload flows
          if appended then do
            let (flows, sent) ← tcpflowInsert hashFcn arrival.malloc arrival.now flow flows
            .ok ((flows, access), sent)
          else do
            let flows ← tcpflowFree flow flows
            .ok ((flows, access), [.sendVerdict packet.id .nfAccept])

def packetHandleTcp443 (arrival : HashedArrival) (log : Uwebfilterlog) (flows : HashedFlows)
    (access : σ) : Except FlowHalt ((HashedFlows × σ) × List Event) :=
  let packet := arrival.packet
  if packet.tcpPayloadLength < 10 then
    .ok ((flows, access), [.sendVerdict packet.id .nfAccept])
  else do
    let key := ⟨packet.saddr, packet.daddr, packet.sport, arrival.padding⟩
    match ← tcpflowLookup hashFcn key flows with
    | some flow => packetHandleTcp443Pending checkAccess arrival log flow flows access
    | none => packetHandleTcp443Fresh hashFcn checkAccess arrival log key flows access

/-- `packet_handle`, which leaves the flows alone but for TCP port 443. -/
def packetHandle (state : HashedFlows × σ) (arrival : HashedArrival) :
    Except FlowHalt ((HashedFlows × σ) × List Event) :=
  let packet := arrival.packet
  if packet.protocol = ipprotoTcp ∧ packet.dport = 443 then
    packetHandleTcp443 hashFcn checkAccess arrival (packetLog packet .tcp) state.1 state.2
  else
    let (daemon, events) := Uwebfilter.packetHandle checkAccess ⟨.initial, state.2⟩
      ⟨packet, arrival.padding, 0, false, arrival.now, arrival.heap⟩
    .ok ((state.1, daemon.access), events)

/-- A run from the start of `nfqueue_main`. -/
def packetRun (access : σ) (arrivals : List HashedArrival) :
    Except FlowHalt ((HashedFlows × σ) × List (List Event)) :=
  MachineRun.run (packetHandle hashFcn checkAccess) (initial, access) arrivals

end Handlers

/-! ## The list of the flows -/

/-- The same flows in a list. -/
def listed (flows : HashedFlows) (cells : List Nat) : TcpflowCache :=
  ⟨cells.map flows.memory, flows.tcpflowLastGc⟩

end HashedFlows

/-- The fields of a key are of their widths. -/
structure TcpflowKey.Fits (key : TcpflowKey) : Prop where
  src : key.src < 4294967296
  dst : key.dst < 4294967296
  port : key.port < 65536
  padding : key.padding < 65536

theorem lowestByte_inj {first second : Nat} :
    UInt8.ofNat (first % 256) = UInt8.ofNat (second % 256) ↔ first % 256 = second % 256 := by
  constructor
  · intro same
    have numbers := congrArg UInt8.toNat same
    simp only [UInt8.toNat_ofNat'] at numbers
    omega
  · intro same
    rw [same]

theorem numberBytes_four {first second : Nat} (firstFits : first < 4294967296)
    (secondFits : second < 4294967296) (same : numberBytes 4 first = numberBytes 4 second) :
    first = second := by
  simp only [numberBytes, List.cons.injEq, and_true, lowestByte_inj] at same
  omega

theorem numberBytes_two {first second : Nat} (firstFits : first < 65536)
    (secondFits : second < 65536) (same : numberBytes 2 first = numberBytes 2 second) :
    first = second := by
  simp only [numberBytes, List.cons.injEq, and_true, lowestByte_inj] at same
  omega

theorem TcpflowKey.Fits.bytes_eq_iff {first second : TcpflowKey} (firstFits : first.Fits)
    (secondFits : second.Fits) : first.bytes = second.bytes ↔ first = second := by
  constructor
  · intro same
    have lengths (count number : Nat) : (numberBytes count number).length = count := by
      induction count generalizing number with
      | zero => rfl
      | succ count ih => simp [numberBytes, ih]
    obtain ⟨front, padding⟩ := List.append_inj same (by simp [lengths])
    obtain ⟨addresses, port⟩ := List.append_inj front (by simp [lengths])
    obtain ⟨src, dst⟩ := List.append_inj addresses (by simp [lengths])
    cases first
    cases second
    rw [TcpflowKey.mk.injEq]
    exact ⟨numberBytes_four firstFits.src secondFits.src src,
      numberBytes_four firstFits.dst secondFits.dst dst,
      numberBytes_two firstFits.port secondFits.port port,
      numberBytes_two firstFits.padding secondFits.padding padding⟩
  · rintro rfl
    rfl

theorem u32le_lt (memory : Bytes) (address : Nat) : u32le memory address < 4294967296 := by
  have first := (byteAt memory address).toNat_lt
  have second := (byteAt memory (address + 1)).toNat_lt
  have third := (byteAt memory (address + 2)).toNat_lt
  have fourth := (byteAt memory (address + 3)).toNat_lt
  unfold u32le
  omega

namespace HashedFlows

/-- The table holds the flows of some cells under their keys, and these and some
flows more are what is allocated. -/
structure Caches (hashFcn : Bytes → Nat) (pending : List Nat) (flows : HashedFlows)
    (cells : List Nat) : Prop where
  represents : Uthash.Represents hashFcn flows.cache cells
  keyed : ∀ flow ∈ cells, flows.cache.key flow = (flows.memory flow).key.bytes
  fits : ∀ flow ∈ cells, (flows.memory flow).key.Fits
  nodup : flows.allocated.Nodup
  owned : flows.allocated.Perm (cells ++ pending)

/-- The one failure of the table: no memory. -/
def OutOfMemory (halt : FlowHalt) : Prop := halt = .stop .outOfMemory

section Refinement

variable {hashFcn : Bytes → Nat} {pending cells : List Nat} {flows : HashedFlows} {flow : Nat}

theorem Caches.length_le (caches : Caches hashFcn pending flows cells) :
    cells.length ≤ flows.allocated.length := by
  rw [caches.owned.length_eq, List.length_append]
  omega

theorem Caches.load_cached (caches : Caches hashFcn pending flows cells) (member : flow ∈ cells) :
    flows.load flow = .ok (flows.memory flow) :=
  if_pos (caches.owned.mem_iff.mpr (List.mem_append_left _ member))

/-- A pending flow is not in the table. -/
theorem Caches.not_mem (caches : Caches hashFcn [flow] flows cells) : flow ∉ cells := by
  have nodup := caches.owned.nodup_iff.mp caches.nodup
  rw [List.nodup_append] at nodup
  exact fun inside => nodup.2.2 flow inside flow (List.mem_singleton_self flow) rfl

/-- A lookup in the table is one in the list, by some choice. -/
theorem tcpflowLookup_lists (caches : Caches hashFcn pending flows cells) {key : TcpflowKey}
    (fits : key.Fits) :
    ∃ (choice : Nat) (found : Option (Nat × Nat)),
      tcpflowLookup hashFcn key flows = .ok (found.map Prod.snd) ∧
      Uwebfilter.tcpflowLookup choice (flows.listed cells) key =
        found.map (fun entry => (entry.1, flows.memory entry.2)) ∧
      ∀ entry ∈ found, cells[entry.1]? = some entry.2 := by
  have enough : cells.length ≤ flows.fuel := Nat.le_succ_of_le caches.length_le
  obtain ⟨choice, found⟩ := Uthash.hashFind_spec caches.represents enough key.bytes
  have keyed : ∀ cell ∈ cells, decide (flows.cache.key cell = key.bytes) =
      decide ((flows.memory cell).key = key) := by
    intro cell member
    rw [caches.keyed cell member]
    exact decide_eq_decide.mpr ((caches.fits cell member).bytes_eq_iff fits)
  rw [HashTable.find_congr choice keyed] at found
  refine ⟨choice, HashTable.find choice (fun cell => decide ((flows.memory cell).key = key)) cells,
    ?_, ?_, ?_⟩
  · rw [tcpflowLookup, found]
    rfl
  · rw [Uwebfilter.tcpflowLookup, listed, HashTable.find_map]
  · intro entry present
    exact (HashTable.find_eq_some present).1

/-- Deleting a flow of the table and freeing it. -/
theorem tcpflowSetverdictAndFree_spec (caches : Caches hashFcn pending flows cells)
    (member : flow ∈ cells) (verdict : Verdict) :
    ∃ after, tcpflowSetverdictAndFree flow verdict flows =
        .ok (after, tcpflowSetverdict (flows.memory flow) verdict) ∧
      Caches hashFcn pending after (cells.erase flow) ∧ after.memory = flows.memory ∧
      after.tcpflowLastGc = flows.tcpflowLastGc := by
  obtain ⟨represents, keyed, fits, nodup, owned⟩ := caches
  obtain ⟨cache, deleted, deletedRepresents, keys⟩ := Uthash.hashDelete_spec represents member
  have inside : flow ∈ flows.allocated :=
    owned.mem_iff.mpr (List.mem_append_left _ member)
  refine ⟨{ flows with cache := cache, allocated := flows.allocated.erase flow }, ?_,
    ⟨deletedRepresents, ?_, ?_, nodup.erase flow, ?_⟩, rfl, rfl⟩
  · simp [tcpflowSetverdictAndFree, tcpflowDelete, deleted, load, tcpflowFree, inside,
      Except.mapError, bind, Except.bind]
  · intro other still
    rw [keys]
    exact keyed other (List.mem_of_mem_erase still)
  · exact fun other still => fits other (List.mem_of_mem_erase still)
  · rw [← List.erase_append_left _ member]
    exact owned.erase flow

/-- The collector removes the flows it removes from the list. -/
theorem tcpflowRungc_lists (caches : Caches hashFcn [] flows cells) (now : Int) :
    ∃ after rest, tcpflowRungc now flows =
        .ok (after, (Uwebfilter.tcpflowRungc (flows.listed cells) now).2) ∧
      Caches hashFcn [] after rest ∧
      (Uwebfilter.tcpflowRungc (flows.listed cells) now).1 = after.listed rest := by
  set expired : Nat → Bool := fun flow => decide ((flows.memory flow).timestamp < now - 5)
    with expiredEq
  -- of the cells gone over, the ones that are not expired are still in the table
  let Inv (rest : List Nat) (state : HashedFlows × List Event) : Prop :=
    ∃ visited, cells = visited ++ rest ∧
      Caches hashFcn [] state.1 (visited.filter (fun flow => !expired flow) ++ rest) ∧
      state.1.memory = flows.memory ∧
      state.2 = (visited.filter expired).flatMap fun flow =>
        tcpflowSetverdict (flows.memory flow) .nfDrop
  have onward : ∀ el rest state, Inv (el :: rest) state →
      state.1.cache.app.next el = rest.head? := by
    rintro el rest state ⟨visited, -, held, -⟩
    exact held.represents.linked.neighbours.2
  have preserved : ∀ el rest state, Inv (el :: rest) state →
      ∃ after, rungcVisit (now - 5) el state = .ok after ∧ Inv rest after := by
    rintro el rest ⟨reached, events⟩ ⟨visited, split, held, memory, sent⟩
    dsimp only at held memory sent
    have member : el ∈ visited.filter (fun flow => !expired flow) ++ el :: rest := by simp
    have loaded := held.load_cached member
    have regrouped : cells = (visited ++ [el]) ++ rest := by
      rw [split, List.append_assoc, List.singleton_append]
    simp only [rungcVisit, loaded, bind, Except.bind]
    by_cases late : (reached.memory el).timestamp < now - 5
    · obtain ⟨after, freed, left, same, -⟩ := tcpflowSetverdictAndFree_spec held member .nfDrop
      have yes : expired el = true := by
        rw [memory] at late
        exact decide_eq_true late
      have absent : el ∉ visited.filter fun flow => !expired flow := by
        intro inside
        simpa [yes] using (List.mem_filter.mp inside).2
      rw [List.erase_append_right _ absent, List.erase_cons_head] at left
      rw [if_pos late, freed]
      refine ⟨_, rfl, visited ++ [el], regrouped, ?_, same.trans memory, ?_⟩
      · simpa [List.filter_append, yes] using left
      · simp [List.filter_append, yes, sent, memory]
    · have no : expired el = false := by
        rw [memory] at late
        exact decide_eq_false late
      rw [if_neg late]
      refine ⟨_, rfl, visited ++ [el], regrouped, ?_, memory, ?_⟩
      · simpa [List.filter_append, no] using held
      · simp [List.filter_append, no, sent]
  have enough : cells.length ≤ flows.fuel := Nat.le_succ_of_le caches.length_le
  obtain ⟨⟨after, events⟩, looped, visited, split, left, memory, sent⟩ :=
    IntrusiveList.iterate_spec (FlowHalt.stop .outOfFuel) Inv onward preserved
      (show Inv cells (flows, []) from ⟨[], rfl, caches, rfl, rfl⟩) enough
  dsimp only at memory left sent
  rw [List.append_nil] at split left
  subst split
  refine ⟨{ after with tcpflowLastGc := now }, cells.filter fun flow => !expired flow, ?_,
    ⟨left.represents, left.keyed, left.fits, left.nodup, left.owned⟩, ?_⟩
  · simp only [tcpflowRungc, caches.represents.head, looped, bind, Except.bind]
    simp [sent, Uwebfilter.tcpflowRungc, tcpflowRungcIter_snd, listed, List.filter_map,
      List.flatMap_map, Function.comp_def, expiredEq]
  · simp only [Uwebfilter.tcpflowRungc, tcpflowRungcIter_fst, listed, List.filter_map,
      Function.comp_def, expiredEq, memory, decide_not]

/-- A state and the list it stands for. -/
def Lists (hashFcn : Bytes → Nat) (flows : HashedFlows) (list : TcpflowCache) : Prop :=
  ∃ cells, Caches hashFcn [] flows cells ∧ list = flows.listed cells

/-- A pending flow goes to the end of the list. -/
theorem tcpflowInsert_refines (caches : Caches hashFcn [flow] flows cells)
    (fits : (flows.memory flow).key.Fits) {malloc : Nat → Bool}
    (limit : malloc 68719476736 = false) (now : Int) :
    Refines OutOfMemory Empty.elim
      (fun first second => Lists hashFcn first.1 second.1 ∧ first.2 = second.2)
      (tcpflowInsert hashFcn malloc now flow flows)
      (.ok (Uwebfilter.tcpflowInsert (flows.listed cells) (flows.memory flow) now)) := by
  have fresh := caches.not_mem
  have pending : flow ∈ flows.allocated :=
    caches.owned.mem_iff.mpr (List.mem_append_right _ (List.mem_singleton_self flow))
  have enough : cells.length < flows.fuel := Nat.lt_succ_of_le caches.length_le
  obtain ⟨represents, keyed, fitting, nodup, owned⟩ := caches
  simp only [tcpflowInsert, load, if_pos pending, bind, Except.bind]
  rcases Uthash.hashAdd_spec represents limit enough fresh (flows.memory flow).key.bytes with
    failed | ⟨cache, added, representsAfter, keys⟩
  · rw [failed]
    exact .gaveUp (show OutOfMemory (.stop .outOfMemory) from rfl) _
  · simp only [added, Except.mapError]
    have after : Caches hashFcn [] { flows with cache := cache } (cells ++ [flow]) := by
      refine ⟨representsAfter, fun other member => ?_, fun other member => ?_, nodup, ?_⟩
      · show cache.key other = (flows.memory other).key.bytes
        rw [keys]
        rcases List.mem_append.mp member with old | new
        · have ne : other ≠ flow := by
            rintro rfl
            exact fresh old
          rw [Function.update_of_ne ne]
          exact keyed other old
        · obtain rfl := List.mem_singleton.mp new
          rw [Function.update_self]
      · rcases List.mem_append.mp member with old | new
        · exact fitting other old
        · obtain rfl := List.mem_singleton.mp new
          exact fits
      · simpa using owned
    have longer : { flows.listed cells with
        cache := (flows.listed cells).cache ++ [flows.memory flow] } =
          listed { flows with cache := cache } (cells ++ [flow]) := by
      simp [listed]
    by_cases due : flows.tcpflowLastGc < now - 60
    · obtain ⟨swept, rest, ran, left, same⟩ := tcpflowRungc_lists after now
      have list : Uwebfilter.tcpflowInsert (flows.listed cells) (flows.memory flow) now =
          Uwebfilter.tcpflowRungc (listed { flows with cache := cache } (cells ++ [flow])) now := by
        rw [← longer]
        exact if_pos due
      rw [if_pos due, ran, list]
      exact .returned ⟨⟨rest, left, same⟩, rfl⟩
    · rw [if_neg due, tcpflowInsert_of_idle _ due, longer]
      exact .returned ⟨⟨_, after, rfl⟩, rfl⟩

/-- A flow may be given another value. -/
theorem Caches.store (caches : Caches hashFcn pending flows cells) (flow : Nat)
    (value : TcpflowValue) :
    Caches hashFcn pending (flows.store flow { flows.memory flow with value := value })
      cells := by
  have key (other : Nat) : ((flows.store flow
      { flows.memory flow with value := value }).memory other).key = (flows.memory other).key := by
    by_cases same : other = flow
    · rw [same, store_memory]
    · rw [store_memory_of_ne _ same]
  refine ⟨caches.represents, fun other member => ?_, fun other member => ?_, caches.nodup,
    caches.owned⟩
  · rw [key]
    exact caches.keyed other member
  · rw [key]
    exact caches.fits other member

theorem Caches.cells_nodup (caches : Caches hashFcn pending flows cells) : cells.Nodup :=
  caches.represents.linked.nodup

theorem map_update {α : Type} {cells : List Nat} (nodup : cells.Nodup) {position cell : Nat}
    (present : cells[position]? = some cell) (memory : Nat → α) (value : α) :
    cells.map (Function.update memory cell value) = (cells.map memory).set position value := by
  obtain ⟨inside, rfl⟩ := List.getElem?_eq_some_iff.mp present
  apply List.ext_getElem (by simp)
  intro index first second
  rw [List.getElem_map, List.getElem_set, List.getElem_map]
  by_cases same : position = index
  · subst same
    simp
  · have bound : index < cells.length := by simpa using first
    have other : cells[index] ≠ cells[position] := by
      intro equal
      exact same ((nodup.getElem_inj_iff.mp equal).symm)
    rw [Function.update_of_ne other, if_neg same]

theorem map_erase {α : Type} {cells : List Nat} (nodup : cells.Nodup) {position cell : Nat}
    (present : cells[position]? = some cell) (memory : Nat → α) :
    (cells.erase cell).map memory = (cells.map memory).eraseIdx position := by
  obtain ⟨inside, rfl⟩ := List.getElem?_eq_some_iff.mp present
  rw [List.erase_eq_eraseIdx_of_idxOf (nodup.idxOf_getElem position inside), List.eraseIdx_map]

theorem store_listed (caches : Caches hashFcn pending flows cells) {position : Nat}
    (present : cells[position]? = some flow) (held : Tcpflow) :
    (flows.store flow held).listed cells =
      { flows.listed cells with cache := (flows.listed cells).cache.set position held } := by
  simp only [listed, store, map_update caches.cells_nodup present]

/-- A verdict for a flow, which is deleted and freed, is one for a flow of the
list. -/
theorem tcpflowSetverdictAndFree_lists (caches : Caches hashFcn pending flows cells)
    {position : Nat} (present : cells[position]? = some flow) (verdict : Verdict) :
    ∃ after rest events, tcpflowSetverdictAndFree flow verdict flows = .ok (after, events) ∧
      Caches hashFcn pending after rest ∧
      Uwebfilter.tcpflowSetverdictAndFree (flows.listed cells) position (flows.memory flow)
        verdict = (after.listed rest, events) := by
  obtain ⟨after, freed, left, memory, lastGc⟩ :=
    tcpflowSetverdictAndFree_spec caches (List.mem_of_getElem? present) verdict
  refine ⟨after, _, _, freed, left, ?_⟩
  simp only [Uwebfilter.tcpflowSetverdictAndFree, listed, memory, lastGc,
    map_erase caches.cells_nodup present]

/-! ## Packets -/

variable {σ : Type}

/-- A state stands for one of the daemon over a list. -/
def Stands (hashFcn : Bytes → Nat) (state : HashedFlows × σ) (daemon : Daemon σ) : Prop :=
  Lists hashFcn state.1 daemon.flows ∧ state.2 = daemon.access

/-- The packet as it arrives where the flows are a list. -/
def plain (arrival : HashedArrival) (choice : Nat) (callocOk : Bool) : Arrival :=
  ⟨arrival.packet, arrival.padding, choice, callocOk, arrival.now, arrival.heap⟩

/-- The outcome of a packet beside that on a list. -/
def HandlesAs (hashFcn : Bytes → Nat)
    (outcome : Except FlowHalt ((HashedFlows × σ) × List Event))
    (other : Daemon σ × List Event) : Prop :=
  Refines OutOfMemory Empty.elim
    (fun first second => Stands hashFcn first.1 second.1 ∧ first.2 = second.2) outcome (.ok other)

theorem HandlesAs.ite {condition : Prop} [Decidable condition]
    {outcome outcome' : Except FlowHalt ((HashedFlows × σ) × List Event)}
    {other other' : Daemon σ × List Event} (holds : condition → HandlesAs hashFcn outcome other)
    (fails : ¬ condition → HandlesAs hashFcn outcome' other') :
    HandlesAs hashFcn (if condition then outcome else outcome')
      (if condition then other else other') := by
  split
  · exact holds ‹_›
  · exact fails ‹_›

theorem handlesAs_of_lists {cells : List Nat} {access : σ} {events : List Event}
    (caches : Caches hashFcn [] flows cells) :
    HandlesAs hashFcn (.ok ((flows, access), events)) (⟨flows.listed cells, access⟩, events) :=
  .returned ⟨⟨⟨cells, caches, rfl⟩, rfl⟩, rfl⟩

theorem packetHandleTcp443Pending_refines (checkAccess : CheckAccess σ)
    (caches : Caches hashFcn [] flows cells) {position : Nat}
    (present : cells[position]? = some flow) (arrival : HashedArrival) (log : Uwebfilterlog)
    (access : σ) (choice : Nat) (callocOk : Bool) :
    HandlesAs hashFcn (packetHandleTcp443Pending checkAccess arrival log flow flows access)
      (Uwebfilter.packetHandleTcp443Pending checkAccess ⟨flows.listed cells, access⟩
        (plain arrival choice callocOk) log position (flows.memory flow)) := by
  have member : flow ∈ cells := List.mem_of_getElem? present
  simp only [packetHandleTcp443Pending, Uwebfilter.packetHandleTcp443Pending, plain,
    tcpflowValueAppend, caches.load_cached member, bind, Except.bind]
  cases appended : Uwebfilter.tcpflowValueAppend (flows.memory flow).value arrival.packet.id
      arrival.packet.tcpBytes with
  | none =>
      obtain ⟨after, rest, events, freed, left, same⟩ :=
        tcpflowSetverdictAndFree_lists caches present .nfAccept
      simp only [freed, Bool.false_eq_true, if_false, same]
      exact handlesAs_of_lists left
  | some value =>
      have written := caches.store flow value
      simp only [if_true, written.load_cached member, store_memory, ← store_listed caches present]
      split
      · obtain ⟨after, rest, events, freed, left, same⟩ :=
          tcpflowSetverdictAndFree_lists written present
            (judgeSni checkAccess access arrival.packet log
              ((extractSni value.current).run (byteAt (value.payload ++ arrival.heap)))).1
        rw [store_memory] at same
        simp only [freed, same]
        exact handlesAs_of_lists left
      · exact handlesAs_of_lists written

/-- A flow that `calloc` gives is pending, and nothing else changes. -/
theorem tcpflowCreate_spec (caches : Caches hashFcn [] flows cells)
    {calloc : List Nat → Option Nat} (given : calloc flows.allocated = some flow)
    (fresh : flow ∉ flows.allocated) (key : TcpflowKey) (expected : Nat) :
    ∃ after, tcpflowCreate calloc key expected flows = some (flow, after) ∧
      Caches hashFcn [flow] after cells ∧ after.memory flow = created key expected ∧
      after.listed cells = flows.listed cells := by
  obtain ⟨represents, keyed, fits, nodup, owned⟩ := caches
  rw [List.append_nil] at owned
  have absent : flow ∉ cells := fun inside => fresh (owned.mem_iff.mpr inside)
  have other : ∀ cell ∈ cells, cell ≠ flow := by
    rintro cell member rfl
    exact absent member
  refine ⟨_, by rw [tcpflowCreate, given]; rfl, ⟨represents.clearCell absent, ?_, ?_,
    nodup.cons fresh, ?_⟩, Function.update_self _ _ _, ?_⟩
  · intro cell member
    simp only [Uthash.Hash.clearCell, Function.update_of_ne (other cell member)]
    exact keyed cell member
  · intro cell member
    simp only [Function.update_of_ne (other cell member)]
    exact fits cell member
  · exact (owned.cons flow).trans (List.perm_append_singleton flow cells).symm
  · simp only [listed]
    congr 1
    exact List.map_congr_left fun cell member => Function.update_of_ne (other cell member) _ _

theorem tcpflowFree_spec (caches : Caches hashFcn [flow] flows cells) :
    ∃ after, tcpflowFree flow flows = .ok after ∧ Caches hashFcn [] after cells ∧
      after.listed cells = flows.listed cells := by
  have absent := caches.not_mem
  obtain ⟨represents, keyed, fits, nodup, owned⟩ := caches
  have inside : flow ∈ flows.allocated :=
    owned.mem_iff.mpr (List.mem_append_right _ (List.mem_singleton_self flow))
  refine ⟨_, if_pos inside, ⟨represents, keyed, fits, nodup.erase flow, ?_⟩, rfl⟩
  have erased := owned.erase flow
  rwa [List.erase_append_right _ absent, List.erase_cons_head] at erased

theorem Caches.load_pending (caches : Caches hashFcn [flow] flows cells) :
    flows.load flow = .ok (flows.memory flow) :=
  if_pos (caches.owned.mem_iff.mpr (List.mem_append_right _ (List.mem_singleton_self flow)))

/-- What is outside a packet is as the libraries promise: the padding has two
bytes, `calloc` gives no address in use, and the table cannot have 64 GiB. -/
structure Promised (arrival : HashedArrival) : Prop where
  padding : arrival.padding < 65536
  calloc : ∀ used flow, arrival.calloc used = some flow → flow ∉ used
  malloc : arrival.malloc 68719476736 = false

theorem fits_key {arrival : HashedArrival} (promised : Promised arrival) (choice : Nat)
    (callocOk : Bool) : (plain arrival choice callocOk).key.Fits :=
  ⟨u32le_lt _ _, u32le_lt _ _, u16be_lt _ _, promised.padding⟩

theorem packetHandleTcp443Fresh_refines (checkAccess : CheckAccess σ)
    (caches : Caches hashFcn [] flows cells) {arrival : HashedArrival}
    (promised : Promised arrival) (log : Uwebfilterlog) (access : σ) (choice : Nat) :
    HandlesAs hashFcn
      (packetHandleTcp443Fresh hashFcn checkAccess arrival log (plain arrival choice true).key
        flows access)
      (Uwebfilter.packetHandleTcp443Fresh checkAccess ⟨flows.listed cells, access⟩
        (plain arrival choice (arrival.calloc flows.allocated).isSome) log) := by
  refine .ite (fun _ => handlesAs_of_lists caches) fun _ => ?_
  refine .ite (fun _ => handlesAs_of_lists caches) fun _ => ?_
  refine .ite (fun _ => handlesAs_of_lists caches) fun _ => ?_
  set length := u16be arrival.packet.tcpBytes 3
  set key := (plain arrival choice true).key
  cases given : arrival.calloc flows.allocated with
  | none =>
      simp only [tcpflowCreate, given, Option.map_none]
      exact handlesAs_of_lists caches
  | some flow =>
      obtain ⟨fresh, made, pending, memory, same⟩ :=
        tcpflowCreate_spec caches given (promised.calloc _ _ given) key length
      show HandlesAs hashFcn _ (match Uwebfilter.tcpflowValueAppend (created key length).value
        arrival.packet.id arrival.packet.tcpBytes with
        | none => (⟨flows.listed cells, access⟩, [.sendVerdict arrival.packet.id .nfAccept])
        | some value =>
            (⟨(Uwebfilter.tcpflowInsert (flows.listed cells)
              { created key length with value := value } arrival.now).1, access⟩,
              (Uwebfilter.tcpflowInsert (flows.listed cells)
                { created key length with value := value } arrival.now).2))
      simp only [made, tcpflowValueAppend, pending.load_pending, memory, bind, Except.bind]
      cases appended : Uwebfilter.tcpflowValueAppend (created key length).value
          arrival.packet.id arrival.packet.tcpBytes with
      | none =>
          obtain ⟨after, freed, left, unchanged⟩ := tcpflowFree_spec pending
          simp only [freed, Bool.false_eq_true, if_false, ← same, ← unchanged]
          exact handlesAs_of_lists left
      | some value =>
          have written := pending.store flow value
          rw [memory] at written
          have listing : (fresh.store flow { created key length with value := value }).listed
              cells = flows.listed cells := by
            rw [← same]
            simp only [listed, store]
            congr 1
            refine List.map_congr_left fun cell member => Function.update_of_ne ?_ _ _
            rintro rfl
            exact pending.not_mem member
          have fits : (created key length).key.Fits :=
            ⟨u32le_lt _ _, u32le_lt _ _, u16be_lt _ _, Nat.zero_lt_succ _⟩
          have inserted := tcpflowInsert_refines written (by rwa [store_memory]) promised.malloc
            arrival.now
          rw [store_memory, listing] at inserted
          simp only [if_true]
          generalize tcpflowInsert hashFcn arrival.malloc arrival.now flow
            (fresh.store flow { created key length with value := value }) = outcome at inserted ⊢
          cases inserted with
          | returned related => exact .returned ⟨⟨related.1, rfl⟩, related.2⟩
          | gaveUp allowed => exact .gaveUp allowed _

/-- A handler that is not that of TCP port 443 has no part in the flows. -/
theorem packetHandle_of_other (checkAccess : CheckAccess σ) {arrival : Arrival}
    (other : ¬ (arrival.packet.protocol = ipprotoTcp ∧ arrival.packet.dport = 443))
    (list : TcpflowCache) (access : σ) (padding choice : Nat) (callocOk : Bool) (now : Int)
    (heap : Bytes) :
    Uwebfilter.packetHandle checkAccess ⟨list, access⟩ arrival =
      (⟨list, (Uwebfilter.packetHandle checkAccess ⟨.initial, access⟩
        ⟨arrival.packet, padding, choice, callocOk, now, heap⟩).1.access⟩,
        (Uwebfilter.packetHandle checkAccess ⟨.initial, access⟩
          ⟨arrival.packet, padding, choice, callocOk, now, heap⟩).2) := by
  simp only [Uwebfilter.packetHandle, packetHandleTcp80, packetHandleUdp53]
  split
  · rename_i tcp
    split
    · split
      · rfl
      · split <;> rfl
    · rw [if_neg fun port => other ⟨tcp, port⟩, if_neg fun port => other ⟨tcp, port⟩]
  · split
    · split
      · split
        · rfl
        · split <;> rfl
      · rfl
    · rfl

/-- An arrival where the flows are a list reads what the arrival on the heap reads
outside them. -/
def Completes (arrival : HashedArrival) (other : Arrival) : Prop :=
  ∃ choice callocOk, other = plain arrival choice callocOk

/-- A packet on the heap is handled as one on the list. -/
theorem packetHandle_refines (checkAccess : CheckAccess σ) {state : HashedFlows × σ}
    {daemon : Daemon σ} (stands : Stands hashFcn state daemon) {arrival : HashedArrival}
    (promised : Promised arrival) :
    ∃ other, Completes arrival other ∧
      HandlesAs hashFcn (packetHandle hashFcn checkAccess state arrival)
        (Uwebfilter.packetHandle checkAccess daemon other) := by
  obtain ⟨flows, access⟩ := state
  obtain ⟨list, reached⟩ := daemon
  obtain ⟨⟨cells, caches, rfl⟩, rfl⟩ := stands
  by_cases tls : arrival.packet.protocol = ipprotoTcp ∧ arrival.packet.dport = 443
  · obtain ⟨choice, found, looked, list, positions⟩ :=
      tcpflowLookup_lists caches (fits_key promised 0 true)
    refine ⟨plain arrival choice (arrival.calloc flows.allocated).isSome, ⟨_, _, rfl⟩, ?_⟩
    have handled : Uwebfilter.packetHandle checkAccess ⟨flows.listed cells, access⟩
        (plain arrival choice (arrival.calloc flows.allocated).isSome) =
          Uwebfilter.packetHandleTcp443 checkAccess ⟨flows.listed cells, access⟩
            (plain arrival choice (arrival.calloc flows.allocated).isSome)
            (packetLog arrival.packet .tcp) := by
      simp only [Uwebfilter.packetHandle, plain, tls.1, tls.2, if_true]
      rw [if_neg (by decide)]
    rw [handled, packetHandle, if_pos tls]
    refine .ite (fun _ => handlesAs_of_lists caches) fun _ => ?_
    have listLooked : Uwebfilter.tcpflowLookup choice (flows.listed cells)
        (plain arrival choice (arrival.calloc flows.allocated).isSome).key =
          found.map fun entry => (entry.1, flows.memory entry.2) := list
    have tableLooked : tcpflowLookup hashFcn ⟨arrival.packet.saddr, arrival.packet.daddr,
        arrival.packet.sport, arrival.padding⟩ flows = .ok (found.map Prod.snd) := looked
    simp only [plain] at listLooked ⊢
    simp only [listLooked, tableLooked, bind, Except.bind]
    cases found with
    | none => exact packetHandleTcp443Fresh_refines checkAccess caches promised _ access choice
    | some entry =>
        exact packetHandleTcp443Pending_refines checkAccess caches (positions entry rfl) arrival _
          access choice _
  · refine ⟨plain arrival 0 false, ⟨0, false, rfl⟩, ?_⟩
    have handled : Uwebfilter.packetHandle checkAccess ⟨flows.listed cells, access⟩
        (plain arrival 0 false) = _ :=
      packetHandle_of_other checkAccess tls _ _ arrival.padding 0 false arrival.now arrival.heap
    rw [handled, packetHandle, if_neg tls]
    exact handlesAs_of_lists caches

theorem caches_initial (hashFcn : Bytes → Nat) : Caches hashFcn [] .initial [] where
  represents := Uthash.represents_empty hashFcn _ _ _ _
  keyed _ member := absurd member List.not_mem_nil
  fits _ member := absurd member List.not_mem_nil
  nodup := List.nodup_nil
  owned := List.Perm.refl _

/-- Whatever the hash function, the padding and the addresses, a run of packets
ends for want of memory of the table, or uses no flow that is not allocated and
does what the daemon over the list does for some choices; and the flows that are
allocated are those of the table. -/
theorem packetRun_refines (checkAccess : CheckAccess σ) (hashFcn : Bytes → Nat) (access : σ)
    (arrivals : List HashedArrival) (promised : ∀ arrival ∈ arrivals, Promised arrival) :
    ∃ others, List.Forall₂ Completes arrivals others ∧
      (packetRun hashFcn checkAccess access arrivals = .error (.stop .outOfMemory) ∨
        ∃ flows, packetRun hashFcn checkAccess access arrivals =
            .ok ((flows, (daemonAfter checkAccess access others).access),
              MachineRun.outputs (Uwebfilter.packetHandle checkAccess) (daemonStart access)
                others) ∧
          ∃ cells, Uthash.Represents hashFcn flows.cache cells ∧ flows.allocated.Perm cells ∧
            cells.map flows.memory = (daemonAfter checkAccess access others).flows.cache) := by
  have total (arrival : HashedArrival) : ∃ other, Completes arrival other := ⟨_, 0, true, rfl⟩
  obtain ⟨others, complete, refines⟩ :=
    Refines.run (Stands hashFcn) Completes total
      (fun state daemon arrival stands promised =>
        packetHandle_refines checkAccess stands promised) promised
      (show Stands hashFcn (initial, access) (daemonStart access) from
        ⟨⟨[], caches_initial hashFcn, rfl⟩, rfl⟩)
  refine ⟨others, complete, ?_⟩
  rw [MachineRun.run_total] at refines
  rw [packetRun]
  generalize MachineRun.run (packetHandle hashFcn checkAccess) (initial, access) arrivals =
    outcome at refines ⊢
  cases refines with
  | @returned value _ same =>
      obtain ⟨⟨flows, reached⟩, events⟩ := value
      obtain ⟨⟨⟨cells, caches, list⟩, sameAccess⟩, sameEvents⟩ := same
      dsimp only at list sameAccess sameEvents
      subst sameAccess sameEvents
      refine .inr ⟨flows, rfl, cells, caches.represents, ?_, ?_⟩
      · simpa using caches.owned
      · exact (congrArg TcpflowCache.cache list).symm
  | gaveUp allowed => exact .inl (by rw [show _ = _ from allowed])

end Refinement

/-- The first segment of a ClientHello, where the heap has room for one flow. -/
def heldSegment (id : Nat) : HashedArrival where
  packet := plainSegment id 50000 ([0x16, 3, 1, 1, 0, 1] ++ List.replicate 10 0)
  padding := 0
  calloc := fun used => if used = [] then some 4096 else none
  malloc := fun bytes => decide (bytes < 68719476736)
  now := 1700000000
  heap := []

def allowEvery : CheckAccess Unit := fun access _ _ _ => (.nfAccept, access)

theorem packetRun_refines_heldSegments :
    ∃ others, List.Forall₂ Completes [heldSegment 0, heldSegment 1] others ∧
      (packetRun Uthash.hashJen allowEvery () [heldSegment 0, heldSegment 1] =
          .error (.stop .outOfMemory) ∨
        ∃ flows, packetRun Uthash.hashJen allowEvery () [heldSegment 0, heldSegment 1] =
            .ok ((flows, (daemonAfter allowEvery () others).access),
              MachineRun.outputs (Uwebfilter.packetHandle allowEvery) (daemonStart ()) others) ∧
          ∃ cells, Uthash.Represents Uthash.hashJen flows.cache cells ∧
            flows.allocated.Perm cells ∧
            cells.map flows.memory = (daemonAfter allowEvery () others).flows.cache) := by
  apply packetRun_refines
  intro arrival member
  have promised (id : Nat) : Promised (heldSegment id) := by
    refine ⟨Nat.zero_lt_succ _, fun used flow given => ?_, rfl⟩
    simp only [heldSegment] at given
    split at given
    · rename_i empty
      rw [empty]
      exact List.not_mem_nil
    · cases given
  rcases List.mem_pair.mp member with rfl | rfl <;> exact promised _

end HashedFlows

end Uwebfilter
