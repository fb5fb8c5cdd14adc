import Uwebfilter.VerdictConservation

/-!
# Reassembly of TLS records

What the flow cache holds after any run whose lookup keys have cleared padding:
one flow for each connection, each with the concatenated payloads of the
packets in its id slots followed by zeros.
-/

namespace Uwebfilter

/-- The connection a key stands for. -/
def TcpflowKey.connection (key : TcpflowKey) : Nat × Nat × Nat := (key.src, key.dst, key.port)

def segmentBytes (segments : List Arrival) : Bytes :=
  segments.flatMap fun segment => segment.packet.tcpBytes

@[simp] theorem segmentBytes_append (first second : List Arrival) :
    segmentBytes (first ++ second) = segmentBytes first ++ segmentBytes second := by
  simp [segmentBytes]

@[simp] theorem segmentBytes_singleton (segment : Arrival) :
    segmentBytes [segment] = segment.packet.tcpBytes := by
  simp [segmentBytes]

/-- The flow's buffer and slots hold these segments, in order. -/
structure HoldsSegments (flow : Tcpflow) (segments : List Arrival) : Prop where
  connection : ∀ segment ∈ segments, segment.key.connection = flow.key.connection
  ids : (segments.map fun segment => segment.packet.id) = flow.value.heldIds
  current : flow.value.current = (segmentBytes segments).length
  payload : flow.value.payload = segmentBytes segments ++
    List.replicate (flowPayloadSize - flow.value.current) 0

/-- A cached flow after a sequence of packets. -/
structure Reassembles (arrivals : List Arrival) (flow : Tcpflow) : Prop where
  nonempty : 1 ≤ flow.value.index
  slots : flow.value.index ≤ maxPacketCount
  incomplete : flow.value.current < flow.value.expected
  bounded : flow.value.expected ≤ flowPayloadSize
  segments : ∃ segments, segments.Sublist arrivals ∧ HoldsSegments flow segments

/-- The flow cache after a sequence of packets and what was done for them. -/
structure ReassemblyInvariant (arrivals : List Arrival) (events : List Event)
    (flows : List Tcpflow) : Prop where
  connections : (flows.map fun flow => flow.key.connection).Nodup
  reassembles : ∀ flow ∈ flows, Reassembles arrivals flow
  distinct : (pendingIds flows).Nodup
  unsettled : ∀ id ∈ pendingIds flows, id ∉ settledIds events

theorem Reassembles.later {arrivals : List Arrival} {flow : Tcpflow}
    (reassembles : Reassembles arrivals flow) (arrival : Arrival) :
    Reassembles (arrivals ++ [arrival]) flow := by
  obtain ⟨segments, sublist, holds⟩ := reassembles.segments
  exact { reassembles with
    segments := ⟨segments, sublist.trans (List.sublist_append_left _ _), holds⟩ }

theorem HoldsSegments.append {flow : Tcpflow} {segments : List Arrival} {arrival : Arrival}
    {value : TcpflowValue} (holds : HoldsSegments flow segments)
    (slots : flow.value.ids.length = maxPacketCount)
    (same : arrival.key.connection = flow.key.connection)
    (appended : tcpflowValueAppend flow.value arrival.packet.id arrival.packet.tcpBytes =
      some value) :
    HoldsSegments { flow with value := value } (segments ++ [arrival]) := by
  have ids := heldIds_append slots appended
  obtain ⟨-, room, rfl⟩ := tcpflowValueAppend_eq_some appended
  have write := CStrings.overwrite_replicate (segmentBytes segments) arrival.packet.tcpBytes
    (flowPayloadSize - flow.value.current)
  rw [← holds.current, ← holds.payload] at write
  refine
    { connection := ?_
      ids := by rw [List.map_append, holds.ids, ids]; rfl
      current := by simp [holds.current]
      payload := ?_ }
  · intro segment member
    rcases List.mem_append.mp member with earlier | last
    · exact holds.connection segment earlier
    · rw [List.mem_singleton.mp last]
      exact same
  · simp only [segmentBytes_append, segmentBytes_singleton]
    rw [write, Nat.sub_sub]

theorem FreshFlow.holds {arrival : Arrival} {flow : Tcpflow}
    (fresh : FreshFlow arrival flow) : HoldsSegments flow [arrival] where
  connection segment member := by
    rw [List.mem_singleton.mp member, fresh.key]
    rfl
  ids := by simp [fresh.heldIds]
  current := by simp [fresh.current]
  payload := by simp [fresh.payload, fresh.current]

theorem FreshFlow.reassembles {arrival : Arrival} {flow : Tcpflow}
    (fresh : FreshFlow arrival flow) (arrivals : List Arrival) :
    Reassembles (arrivals ++ [arrival]) flow where
  nonempty := fresh.index.ge
  slots := by simp [fresh.index, maxPacketCount]
  incomplete := fresh.current ▸ fresh.incomplete
  bounded := fresh.bounded
  segments := ⟨[arrival], List.sublist_append_right _ _, fresh.holds⟩

/-- The part of the invariant that speaks about single steps: which flows are
cached and what each holds. -/
structure FlowsReassemble (arrivals : List Arrival) (flows : List Tcpflow) : Prop where
  connections : (flows.map fun flow => flow.key.connection).Nodup
  padding : ∀ flow ∈ flows, flow.key.padding = 0
  reassembles : ∀ flow ∈ flows, Reassembles arrivals flow

theorem FlowsReassemble.sublist {arrivals : List Arrival} {flows fewer : List Tcpflow}
    (reassemble : FlowsReassemble arrivals flows) (sublist : fewer.Sublist flows) :
    FlowsReassemble arrivals fewer where
  connections := (sublist.map _).nodup reassemble.connections
  padding flow member := reassemble.padding flow (sublist.subset member)
  reassembles flow member := reassemble.reassembles flow (sublist.subset member)

theorem FlowsReassemble.later {arrivals : List Arrival} {flows : List Tcpflow}
    (reassemble : FlowsReassemble arrivals flows) (arrival : Arrival) :
    FlowsReassemble (arrivals ++ [arrival]) flows :=
  { reassemble with
    reassembles := fun flow member => (reassemble.reassembles flow member).later arrival }

/-- A flow whose key is looked up with cleared padding and not found belongs to
another connection. -/
theorem connection_ne_of_absent {flows : TcpflowCache} {arrival : Arrival}
    (padding : ∀ flow ∈ flows.cache, flow.key.padding = 0) (cleared : arrival.padding = 0)
    (absent : tcpflowLookup arrival.choice flows arrival.key = none) {flow : Tcpflow}
    (member : flow ∈ flows.cache) : flow.key.connection ≠ arrival.key.connection := by
  intro same
  have differs := HashTable.find_eq_none.mp absent flow member
  have unpadded := padding flow member
  simp only [decide_eq_false_iff_not] at differs
  apply differs
  simp only [TcpflowKey.connection, Prod.mk.injEq] at same
  obtain ⟨src, dst, port⟩ := same
  cases key : flow.key with
  | mk => simp_all [Arrival.key]

theorem key_of_found {flows : TcpflowCache} {arrival : Arrival} {position : Nat}
    {flow : Tcpflow}
    (found : tcpflowLookup arrival.choice flows arrival.key = some (position, flow)) :
    flow ∈ flows.cache ∧ flow.key = arrival.key := by
  obtain ⟨present, same⟩ := HashTable.find_eq_some found
  exact ⟨List.mem_of_getElem? present, of_decide_eq_true same⟩

/-- A flow that takes the next packet of its connection and still lacks bytes
of its record goes on reassembling. -/
theorem Reassembles.append {arrivals : List Arrival} {flow : Tcpflow} {value : TcpflowValue}
    {arrival : Arrival} (reassembles : Reassembles arrivals flow)
    (slots : flow.value.ids.length = maxPacketCount)
    (same : arrival.key.connection = flow.key.connection)
    (appended : tcpflowValueAppend flow.value arrival.packet.id arrival.packet.tcpBytes =
      some value)
    (incomplete : value.current < value.expected) :
    Reassembles (arrivals ++ [arrival]) { flow with value := value } := by
  obtain ⟨free, -, grown⟩ := tcpflowValueAppend_eq_some appended
  obtain ⟨segments, sublist, holds⟩ := reassembles.segments
  exact
    { nonempty := by simp [grown]
      slots := by rw [grown]; exact free
      incomplete := incomplete
      bounded := by simpa [grown] using reassembles.bounded
      segments := ⟨segments ++ [arrival], sublist.append (List.Sublist.refl _),
        holds.append slots same appended⟩ }

theorem map_connection_set {flows : List Tcpflow} {position : Nat} {flow : Tcpflow}
    (present : flows[position]? = some flow) (value : TcpflowValue) :
    ((flows.set position { flow with value := value }).map fun flow => flow.key.connection) =
      flows.map fun flow => flow.key.connection := by
  obtain ⟨inside, here⟩ := List.getElem?_eq_some_iff.mp present
  have within : position < (flows.map fun flow => flow.key.connection).length := by
    simpa using inside
  have same : flow.key.connection =
      (flows.map fun flow => flow.key.connection)[position] := by simp [here]
  rw [List.map_set]
  exact (congrArg _ same).trans (List.set_getElem_self within)

theorem FlowsReassemble.set {arrivals : List Arrival} {flows : List Tcpflow} {position : Nat}
    {flow : Tcpflow} {value : TcpflowValue} (reassemble : FlowsReassemble arrivals flows)
    (present : flows[position]? = some flow)
    (reassembles : Reassembles arrivals { flow with value := value }) :
    FlowsReassemble arrivals (flows.set position { flow with value := value }) := by
  refine ⟨by simpa only [map_connection_set present] using reassemble.connections, ?_, ?_⟩
  · intro other member
    rcases List.mem_or_eq_of_mem_set member with earlier | rfl
    · exact reassemble.padding other earlier
    · exact reassemble.padding flow (List.mem_of_getElem? present)
  · intro other member
    rcases List.mem_or_eq_of_mem_set member with earlier | rfl
    · exact reassemble.reassembles other earlier
    · exact reassembles

theorem FlowsReassemble.opened {arrivals : List Arrival} {flows : TcpflowCache}
    {arrival : Arrival} {flow : Tcpflow} (reassemble : FlowsReassemble arrivals flows.cache)
    (cleared : arrival.padding = 0)
    (absent : tcpflowLookup arrival.choice flows arrival.key = none)
    (fresh : FreshFlow arrival flow) :
    FlowsReassemble (arrivals ++ [arrival]) (flows.cache ++ [flow]) := by
  refine ⟨?_, ?_, ?_⟩
  · rw [List.map_append, List.map_singleton, List.nodup_append]
    refine ⟨reassemble.connections, List.nodup_singleton _, ?_⟩
    intro connection member other otherMember
    obtain ⟨old, oldMember, rfl⟩ := List.mem_map.mp member
    rw [List.mem_singleton.mp otherMember, fresh.key]
    exact connection_ne_of_absent reassemble.padding cleared absent oldMember
  · intro other member
    rcases List.mem_append.mp member with earlier | last
    · exact reassemble.padding other earlier
    · rw [List.mem_singleton.mp last, fresh.key]
  · intro other member
    rcases List.mem_append.mp member with earlier | last
    · exact (reassemble.reassembles other earlier).later arrival
    · rw [List.mem_singleton.mp last]
      exact fresh.reassembles arrivals

theorem effect_reassemble {arrivals : List Arrival} {flows after : TcpflowCache}
    {arrival : Arrival} {events : List Event} (intact : SlotsIntact flows.cache)
    (reassemble : FlowsReassemble arrivals flows.cache) (cleared : arrival.padding = 0)
    (effect : FlowEffect flows arrival after events) :
    FlowsReassemble (arrivals ++ [arrival]) after.cache := by
  cases effect with
  | settled | overran => exact reassemble.later arrival
  | held position flow value looksUp found appended incomplete =>
      obtain ⟨member, same⟩ := key_of_found found
      have grown := (reassemble.reassembles flow member).append (intact flow member)
        (by rw [same]) appended incomplete
      exact (reassemble.later arrival).set (HashTable.find_eq_some found).1 grown
  | completed | refused =>
      exact (reassemble.later arrival).sublist (List.eraseIdx_sublist _ _)
  | opened flow opens fresh =>
      have whole := reassemble.opened cleared opens.2.1 fresh
      by_cases due : flows.tcpflowLastGc < arrival.now - 60
      · rw [tcpflowInsert_of_due flow due, tcpflowRungcIter_fst]
        exact whole.sublist List.filter_sublist
      · rw [tcpflowInsert_of_idle flow due]
        exact whole

/-! ## Runs -/

section Runs

variable {σ : Type} (checkAccess : CheckAccess σ) (access : σ)

theorem run_reassemble (arrivals : List Arrival)
    (cleared : ∀ arrival ∈ arrivals, arrival.padding = 0) :
    FlowsReassemble arrivals (daemonAfter checkAccess access arrivals).flows.cache := by
  refine MachineRun.invariant (packetHandle checkAccess) (daemonStart access)
    (fun inputs _ daemon => (∀ arrival ∈ inputs, arrival.padding = 0) →
      FlowsReassemble inputs daemon.flows.cache) ?_ ?_ arrivals cleared
  · intro _
    exact ⟨List.nodup_nil, by simp [daemonStart, TcpflowCache.initial],
      by simp [daemonStart, TcpflowCache.initial]⟩
  · intro inputs input ih allCleared
    have intact := (run_accounting checkAccess access inputs).1
    exact effect_reassemble intact
      (ih fun arrival member => allCleared arrival (List.mem_append_left _ member))
      (allCleared input (by simp)) (packetHandle_effect checkAccess _ input)

theorem extractSni_not_mem_judgeSni {packet : PacketInfo} {log : Uwebfilterlog}
    {name : Option Bytes} {payload : Bytes} {accessNow : σ} :
    Event.extractSni payload ∉ (judgeSni checkAccess accessNow packet log name).2.2 := by
  cases name with
  | none => simp [judgeSni]
  | some domain =>
      simp only [judgeSni, checkAndAnswer]
      split <;> simp

theorem extracted_of_complete {daemon : Daemon σ} {next : Arrival} {position : Nat}
    {flow : Tcpflow} {value : TcpflowValue} {segments : List Arrival}
    (looksUp : next.LooksUp)
    (found : tcpflowLookup next.choice daemon.flows next.key = some (position, flow))
    (appended : tcpflowValueAppend flow.value next.packet.id next.packet.tcpBytes = some value)
    (complete : value.expected ≤ value.current)
    (slots : flow.value.ids.length = maxPacketCount) (holds : HoldsSegments flow segments)
    (payload : Bytes) :
    Event.extractSni payload ∈ (packetHandle checkAccess daemon next).2 ↔
      payload = segmentBytes segments ++ next.packet.tcpBytes := by
  have same : next.key.connection = flow.key.connection := by rw [(key_of_found found).2]
  have grown := holds.append slots same appended
  have content : value.payload.take value.current =
      segmentBytes segments ++ next.packet.tcpBytes := by
    have current := grown.current
    have bytes := grown.payload
    simp only [segmentBytes_append, segmentBytes_singleton] at current bytes
    rw [bytes, current, List.take_left']
    rfl
  have sent (verdict : Verdict) : Event.extractSni payload ∉
      tcpflowSetverdict { flow with value := value } verdict := by
    simp [tcpflowSetverdict]
  rw [packetHandle_of_complete checkAccess daemon looksUp found appended complete]
  simp [content, extractSni_not_mem_judgeSni, sent]

/-- The reassembly invariant holds after every run, and `extract_sni` runs on
exactly the held segments and the packet that completes them. -/
theorem reassembly_invariant (arrivals : List Arrival)
    (distinct : (arrivals.map fun arrival => arrival.packet.id).Nodup)
    (cleared : ∀ arrival ∈ arrivals, arrival.padding = 0) :
    ReassemblyInvariant arrivals (daemonEvents checkAccess access arrivals)
        (daemonAfter checkAccess access arrivals).flows.cache ∧
      ∀ (next : Arrival) (position : Nat) (flow : Tcpflow) (value : TcpflowValue),
        next.LooksUp →
        tcpflowLookup next.choice (daemonAfter checkAccess access arrivals).flows next.key =
          some (position, flow) →
        tcpflowValueAppend flow.value next.packet.id next.packet.tcpBytes = some value →
        value.expected ≤ value.current →
        ∃ segments, segments.Sublist arrivals ∧ HoldsSegments flow segments ∧
          ∀ payload, Event.extractSni payload ∈
              (packetHandle checkAccess (daemonAfter checkAccess access arrivals) next).2 ↔
            payload = segmentBytes segments ++ next.packet.tcpBytes := by
  obtain ⟨intact, lost, accounted, -⟩ := run_accounting checkAccess access arrivals
  have reassemble := run_reassemble checkAccess access arrivals cleared
  have nodup := accounted.nodup_iff.mpr distinct
  rw [List.append_assoc, List.nodup_append] at nodup
  obtain ⟨-, unsettledNodup, disjoint⟩ := nodup
  constructor
  · exact
      { connections := reassemble.connections
        reassembles := reassemble.reassembles
        distinct := (List.sublist_append_left _ _).nodup unsettledNodup
        unsettled := fun id pending settled =>
          disjoint id settled id (List.mem_append_left _ pending) rfl }
  · intro next position flow value looksUp found appended complete
    have member := (key_of_found found).1
    obtain ⟨segments, sublist, holds⟩ := (reassemble.reassembles flow member).segments
    exact ⟨segments, sublist, holds, extracted_of_complete checkAccess looksUp found appended
      complete (intact flow member) holds⟩

end Runs

/-- A record of 35 bytes begins on one connection and, after the collector ran,
on another. -/
def openedFlowRun : List Arrival :=
  let opening : Bytes := [0x16, 3, 1, 0, 30, 1, 0, 0, 0, 0]
  [plainSegment 0 1000 opening, plainSegment 1 1001 opening].map (plainArrival 1700000000)

def completingSegment : Arrival :=
  plainArrival 1700000000 (plainSegment 2 1001 (List.replicate 20 0))

theorem reassembly_invariant_openedFlow :
    ReassemblyInvariant openedFlowRun (daemonEvents acceptAll () openedFlowRun)
        (daemonAfter acceptAll () openedFlowRun).flows.cache ∧
      ∃ segments, segments.Sublist openedFlowRun ∧
        Event.extractSni (segmentBytes segments ++ completingSegment.packet.tcpBytes) ∈
          (packetHandle acceptAll (daemonAfter acceptAll () openedFlowRun) completingSegment).2 := by
  obtain ⟨holds, completes⟩ :=
    reassembly_invariant acceptAll () openedFlowRun (by decide) (by decide)
  have looksUp : completingSegment.LooksUp := ⟨by decide, by decide, by decide⟩
  obtain ⟨position, flow, value, found, appended, complete⟩ :
      ∃ position flow value,
        tcpflowLookup completingSegment.choice (daemonAfter acceptAll () openedFlowRun).flows
            completingSegment.key = some (position, flow) ∧
          tcpflowValueAppend flow.value completingSegment.packet.id
            completingSegment.packet.tcpBytes = some value ∧ value.expected ≤ value.current :=
    ⟨_, _, _, rfl, rfl, by decide +kernel⟩
  obtain ⟨segments, sublist, -, extracted⟩ :=
    completes completingSegment position flow value looksUp found appended complete
  exact ⟨holds, segments, sublist, (extracted _).mpr rfl⟩

end Uwebfilter
