import Uwebfilter.ClientHello
import Uwebfilter.FlowReassembly

/-!
# Segmentation of ClientHello records

A ClientHello record cut into segments is filtered as it is in one packet, as
long as every segment reaches the flow lookup, that is has the ten bytes below
which `packet_handle_tcp443` accepts a packet unseen.
-/

namespace Uwebfilter

open ByteReader CStrings

/-- Segments of one connection that carry the bytes of a record, for which
`calloc` succeeds and no collection is due. -/
structure Delivers (flows : TcpflowCache) (key : TcpflowKey) (record : Bytes)
    (segments : List Arrival) : Prop where
  content : segmentBytes segments = record
  tcp443 : ∀ segment ∈ segments,
    segment.packet.protocol = ipprotoTcp ∧ segment.packet.dport = 443
  connection : ∀ segment ∈ segments, segment.key = key
  nonempty : ∀ segment ∈ segments, 1 ≤ segment.packet.tcpPayloadLength
  allocates : ∀ segment ∈ segments, segment.callocOk = true
  idle : ∀ segment ∈ segments, ¬ flows.tcpflowLastGc < segment.now - 60

/-- The domains `check_access` was called with, in order. -/
def checkedDomains (events : List Event) : List Bytes :=
  events.filterMap fun
    | .checkAccess log _ => some log.domain
    | _ => none

section Delivery

variable {σ : Type} (checkAccess : CheckAccess σ)

/-- What the daemon does for some packets from a given state on. -/
def eventsFrom (daemon : Daemon σ) (segments : List Arrival) : List Event :=
  (MachineRun.outputs (packetHandle checkAccess) daemon segments).flatten

/-- The segments are all settled, `check_access` sees the domains it sees when
the record arrives in one packet, and where it denies that packet it does not
let all segments pass. -/
structure SegmentationIndependent (daemon : Daemon σ) (whole : Arrival)
    (segments : List Arrival) : Prop where
  settled : ∀ segment ∈ segments,
    segment.packet.id ∈ settledIds (eventsFrom checkAccess daemon segments)
  domains : checkedDomains (eventsFrom checkAccess daemon segments) =
    checkedDomains (eventsFrom checkAccess daemon [whole])
  denied : (whole.packet.id, Verdict.nfDrop) ∈ verdicts (eventsFrom checkAccess daemon [whole]) →
    ¬ ∀ segment ∈ segments,
      (segment.packet.id, Verdict.nfAccept) ∈ verdicts (eventsFrom checkAccess daemon segments)

end Delivery

/-! ## Memory with a record -/

theorem byteAt_append_left {first second : Bytes} {address : Nat}
    (inside : address < first.length) :
    byteAt (first ++ second) address = byteAt first address := by
  simp [byteAt, List.getElem?_append_left inside]

theorem u16be_of_holds {memory : Bytes} {address value : Nat}
    (holds : Holds (byteAt memory) address (be16 value)) (small : value < 65536) :
    u16be memory address = value := by
  simp only [be16, holds_cons, holds_nil, and_true] at holds
  rw [u16be, holds.1, holds.2, be16_toNat small]

theorem holds_readBytes (memory : Bytes) (address count : Nat) :
    Holds (fun index => byteAt memory (address + index)) 0 (readBytes memory address count) := by
  intro index inside
  simp [readBytes]

theorem holds_byteAt (content rest : Bytes) : Holds (byteAt (content ++ rest)) 0 content :=
  holds_getD content rest

theorem record_header {hello : ClientHello} (small : hello.record.length < 65536) :
    byteAt hello.record 0 = 0x16 ∧ byteAt hello.record 5 = 0x01 ∧
      u16be hello.record 3 + 5 = hello.record.length := by
  have total := hello.record_length
  have holds := holds_byteAt hello.record []
  rw [List.append_nil] at holds
  obtain ⟨contentType, handshakeType, length, -⟩ := holds_fixedFields holds
  refine ⟨contentType, handshakeType, ?_⟩
  rw [u16be_of_holds length (by omega)]
  omega

/-- The first ten bytes of a record decide how its first segment is handled. -/
theorem header_of_prefix {hello : ClientHello} (small : hello.record.length < 65536)
    {first rest : Bytes} (content : first ++ rest = hello.record) (long : 10 ≤ first.length) :
    byteAt first 0 = 0x16 ∧ byteAt first 5 = 0x01 ∧ u16be first 3 + 5 = hello.record.length := by
  obtain ⟨contentType, handshakeType, length⟩ := record_header small
  simp only [u16be, ← content] at contentType handshakeType length ⊢
  rw [byteAt_append_left (by omega)] at contentType handshakeType length
  rw [byteAt_append_left (by omega)] at length
  exact ⟨contentType, handshakeType, length⟩

theorem extractSni_of_holds {hello : ClientHello} {memory : Nat → UInt8}
    (holds : Holds memory 0 hello.record) (small : hello.record.length < 65536) :
    (extractSni hello.record.length).run memory = hello.serverName.map (List.take domainLength) :=
  (computes_extractSni _ holds le_rfl small).run

/-! ## Deliveries -/

theorem eventsFrom_cons {σ : Type} (checkAccess : CheckAccess σ) (daemon : Daemon σ)
    (segment : Arrival) (segments : List Arrival) :
    eventsFrom checkAccess daemon (segment :: segments) =
      (packetHandle checkAccess daemon segment).2 ++
        eventsFrom checkAccess (packetHandle checkAccess daemon segment).1 segments := rfl

theorem segmentBytes_long {first : Arrival} (long : 10 ≤ first.packet.tcpPayloadLength)
    (rest : List Arrival) : 10 ≤ (segmentBytes (first :: rest)).length := by
  simp only [segmentBytes, List.flatMap_cons, List.length_append, PacketInfo.tcpBytes_length]
  omega

/-- The last cached flow is the one of a connection and holds an incomplete
record's first segments. -/
structure PendingRecord (flows : TcpflowCache) (key : TcpflowKey) (length : Nat)
    (base : List Tcpflow) (flow : Tcpflow) (received : List Arrival) : Prop where
  cache : flows.cache = base ++ [flow]
  flowKey : flow.key = key
  alone : ∀ other ∈ base, other.key ≠ key
  holds : HoldsSegments flow received
  slots : flow.value.ids.length = maxPacketCount
  index : flow.value.index = received.length
  expected : flow.value.expected + 5 = length
  incomplete : flow.value.current < flow.value.expected

theorem PendingRecord.found {flows : TcpflowCache} {key : TcpflowKey} {length : Nat}
    {base : List Tcpflow} {flow : Tcpflow} {received : List Arrival}
    (pending : PendingRecord flows key length base flow received) (choice : Nat) :
    tcpflowLookup choice flows key = some (base.length, flow) := by
  rw [tcpflowLookup, pending.cache]
  apply HashTable.find_of_unique
  · simp [pending.flowKey]
  · intro other member
    simpa using pending.alone other member
  · simp

theorem PendingRecord.append {flows : TcpflowCache} {key : TcpflowKey} {length : Nat}
    {base : List Tcpflow} {flow : Tcpflow} {received : List Arrival} {segment : Arrival}
    (pending : PendingRecord flows key length base flow received)
    (connection : segment.key = key) (slot : received.length < maxPacketCount)
    (room : (segmentBytes (received ++ [segment])).length ≤ flowPayloadSize) :
    ∃ value, tcpflowValueAppend flow.value segment.packet.id segment.packet.tcpBytes =
        some value ∧
      HoldsSegments { flow with value := value } (received ++ [segment]) ∧
      value.ids.length = maxPacketCount ∧ value.index = received.length + 1 ∧
      value.expected = flow.value.expected := by
  have current := pending.holds.current
  have index := pending.index
  simp only [segmentBytes_append, segmentBytes_singleton, List.length_append] at room
  cases appended : tcpflowValueAppend flow.value segment.packet.id segment.packet.tcpBytes with
  | none =>
      rw [tcpflowValueAppend_eq_none] at appended
      omega
  | some value =>
      have same : segment.key.connection = flow.key.connection := by
        rw [connection, pending.flowKey]
      have holds := pending.holds.append pending.slots same appended
      have slots := slots_append pending.slots appended
      obtain ⟨-, -, grown⟩ := tcpflowValueAppend_eq_some appended
      exact ⟨value, rfl, holds, slots, by rw [grown, index], by rw [grown]⟩

section Delivery

variable {σ : Type} (checkAccess : CheckAccess σ)

/-- What `check_access` is asked and answers for a record's server name on the
connection of a packet. -/
def judgeRecord (access : σ) (packet : PacketInfo) (hello : ClientHello) :
    Verdict × σ × List Event :=
  judgeSni checkAccess access packet (packetLog packet .tcp)
    (hello.serverName.map (List.take domainLength))

theorem judgeRecord_congr {first second : Arrival} (same : first.key = second.key)
    (port : first.packet.dport = second.packet.dport) (access : σ) (hello : ClientHello) :
    judgeRecord checkAccess access first.packet hello =
      judgeRecord checkAccess access second.packet hello := by
  simp only [Arrival.key, TcpflowKey.mk.injEq] at same
  obtain ⟨src, dst, sport, -⟩ := same
  have log : packetLog first.packet .tcp = packetLog second.packet .tcp := by
    rw [packetLog, packetLog, sport, port]
  unfold judgeRecord
  cases hello.serverName with
  | none => rfl
  | some name =>
      rw [log, Option.map_some, judgeSni, judgeSni, checkAndAnswer, checkAndAnswer, src, dst]

/-- The handling of a whole record: one extraction, one verdict for all. -/
def recordEvents (access : σ) (packet : PacketInfo) (hello : ClientHello)
    (segments : List Arrival) : List Event :=
  let judged := judgeRecord checkAccess access packet hello
  .extractSni hello.record :: judged.2.2 ++
    segments.map fun segment => .sendVerdict segment.packet.id judged.1

theorem recordEvents_congr {first second : Arrival} (same : first.key = second.key)
    (port : first.packet.dport = second.packet.dport) (access : σ) (hello : ClientHello)
    (segments : List Arrival) :
    recordEvents checkAccess access first.packet hello segments =
      recordEvents checkAccess access second.packet hello segments := by
  unfold recordEvents
  rw [judgeRecord_congr checkAccess same port access hello]

/-- The segment that completes a pending record. -/
theorem events_of_last {hello : ClientHello} {key : TcpflowKey}
    (fits : hello.record.length ≤ flowPayloadSize) {base : List Tcpflow} (daemon : Daemon σ)
    {flow : Tcpflow} {received : List Arrival} {segment : Arrival}
    (pending : PendingRecord daemon.flows key hello.record.length base flow received)
    (content : segmentBytes (received ++ [segment]) = hello.record)
    (slot : received.length < maxPacketCount) (connection : segment.key = key)
    (looksUp : segment.LooksUp) :
    eventsFrom checkAccess daemon [segment] =
      recordEvents checkAccess daemon.access segment.packet hello (received ++ [segment]) := by
  have size : flowPayloadSize = 12000 := rfl
  obtain ⟨value, appended, holds, -, -, expected⟩ :=
    pending.append connection slot (by rwa [content])
  have found := pending.found segment.choice
  rw [← connection] at found
  have pendingExpected := pending.expected
  have current := holds.current
  have payload := holds.payload
  simp only [content] at current payload
  have name : (extractSni value.current).run (byteAt (value.payload ++ segment.heap)) =
      hello.serverName.map (List.take domainLength) := by
    rw [current, payload, List.append_assoc]
    exact extractSni_of_holds (holds_byteAt _ _) (by omega)
  have extracted : value.payload.take value.current = hello.record := by
    rw [current, payload, List.take_left']
    rfl
  have sent (verdict : Verdict) : tcpflowSetverdict { flow with value := value } verdict =
      (received ++ [segment]).map fun segment =>
        Event.sendVerdict segment.packet.id verdict := by
    rw [tcpflowSetverdict, ← holds.ids, List.map_map]
    rfl
  rw [eventsFrom_cons, packetHandle_of_complete checkAccess daemon looksUp found appended
    (by omega)]
  simp only [name, extracted, sent]
  exact List.append_nil _

/-- A segment that leaves a pending record incomplete. -/
theorem packetHandle_of_pending {key : TcpflowKey} {length : Nat} {base : List Tcpflow}
    (daemon : Daemon σ) {flow : Tcpflow} {received : List Arrival} {segment : Arrival}
    (pending : PendingRecord daemon.flows key length base flow received)
    (incomplete : (segmentBytes (received ++ [segment])).length + 5 < length)
    (small : length ≤ flowPayloadSize) (slot : received.length < maxPacketCount)
    (connection : segment.key = key) (looksUp : segment.LooksUp) :
    ∃ flows grown, packetHandle checkAccess daemon segment = ({ daemon with flows := flows }, []) ∧
      PendingRecord flows key length base grown (received ++ [segment]) := by
  obtain ⟨value, appended, holds, full, index, expected⟩ :=
    pending.append connection slot (by omega)
  have found := pending.found segment.choice
  rw [← connection] at found
  have pendingExpected := pending.expected
  have current : value.current = (segmentBytes (received ++ [segment])).length := holds.current
  have stillIncomplete : value.current < value.expected := by omega
  refine ⟨_, { flow with value := value },
    packetHandle_of_incomplete checkAccess daemon looksUp found appended stillIncomplete, ?_⟩
  exact
    { cache := by simp [pending.cache]
      flowKey := pending.flowKey
      alone := pending.alone
      holds := holds
      slots := full
      index := by simpa using index
      expected := by rw [← pendingExpected, ← expected]
      incomplete := stillIncomplete }

theorem events_of_pending {hello : ClientHello} {key : TcpflowKey} {reference : Arrival}
    (fits : hello.record.length ≤ flowPayloadSize) (referenceKey : reference.key = key)
    (referencePort : reference.packet.dport = 443) (base : List Tcpflow)
    (remaining : List Arrival) (daemon : Daemon σ) {flow : Tcpflow} {received : List Arrival}
    (pending : PendingRecord daemon.flows key hello.record.length base flow received)
    (content : segmentBytes (received ++ remaining) = hello.record)
    (slots : received.length + remaining.length ≤ maxPacketCount)
    (connection : ∀ segment ∈ remaining, segment.key = key)
    (looksUp : ∀ segment ∈ remaining, segment.LooksUp) :
    eventsFrom checkAccess daemon remaining =
      recordEvents checkAccess daemon.access reference.packet hello (received ++ remaining) := by
  induction remaining generalizing daemon flow received with
  | nil =>
      have current := pending.holds.current
      have incomplete := pending.incomplete
      have expected := pending.expected
      rw [List.append_nil] at content
      rw [content] at current
      omega
  | cons segment rest ih =>
      have segmentKey := connection segment (by simp)
      have segmentLooksUp := looksUp segment (by simp)
      rw [List.length_cons] at slots
      cases rest with
      | nil =>
          rw [events_of_last checkAccess fits daemon pending content (by omega) segmentKey
            segmentLooksUp]
          exact recordEvents_congr checkAccess (segmentKey.trans referenceKey.symm)
            (segmentLooksUp.2.1.trans referencePort.symm) _ _ _
      | cons next rest =>
          have more := segmentBytes_long (looksUp next (by simp)).2.2 rest
          have length := congrArg List.length content
          rw [List.append_cons, segmentBytes_append, List.length_append] at length
          obtain ⟨flows, grown, handled, growing⟩ := packetHandle_of_pending checkAccess daemon
            pending (by omega) fits (by omega) segmentKey segmentLooksUp
          rw [eventsFrom_cons, handled, List.nil_append]
          have later := ih { daemon with flows := flows } growing (by simpa using content)
            (by simp at slots ⊢; omega)
            (fun segment member => connection segment (List.mem_cons_of_mem _ member))
            (fun segment member => looksUp segment (List.mem_cons_of_mem _ member))
          simpa using later

theorem events_of_whole {hello : ClientHello} (fits : hello.record.length ≤ flowPayloadSize)
    (daemon : Daemon σ) {segment : Arrival} (looksUp : segment.LooksUp)
    (content : segment.packet.tcpBytes = hello.record)
    (absent : tcpflowLookup segment.choice daemon.flows segment.key = none) :
    eventsFrom checkAccess daemon [segment] =
      recordEvents checkAccess daemon.access segment.packet hello [segment] := by
  have size : flowPayloadSize = 12000 := rfl
  have length := congrArg List.length content
  rw [PacketInfo.tcpBytes_length] at length
  have small : hello.record.length < 65536 := by omega
  obtain ⟨contentType, handshakeType, handshakeLength⟩ := record_header small
  have holds := holds_readBytes segment.packet.payload segment.packet.tcpPayload
    segment.packet.tcpPayloadLength
  rw [← PacketInfo.tcpBytes, content] at holds
  have name := extractSni_of_holds holds (by omega)
  rw [eventsFrom_cons, packetHandle_of_looksUp checkAccess daemon looksUp, absent]
  simp only [packetHandleTcp443Fresh, content, contentType, handshakeType, length]
  rw [if_neg (by simp), if_pos (by omega), name]
  simp [recordEvents, judgeRecord, eventsFrom, MachineRun.outputs]

/-- A first segment of at least ten bytes that leaves ten bytes to come. -/
theorem packetHandle_of_first {hello : ClientHello} {key : TcpflowKey}
    (fits : hello.record.length ≤ flowPayloadSize) (cleared : key.padding = 0)
    (daemon : Daemon σ) (alone : ∀ flow ∈ daemon.flows.cache, flow.key ≠ key)
    {first : Arrival} {more : Bytes} (content : first.packet.tcpBytes ++ more = hello.record)
    (long : 10 ≤ more.length) (connection : first.key = key) (looksUp : first.LooksUp)
    (allocates : first.callocOk = true)
    (absent : tcpflowLookup first.choice daemon.flows first.key = none)
    (idle : ¬ daemon.flows.tcpflowLastGc < first.now - 60) :
    ∃ flows flow, packetHandle checkAccess daemon first = ({ daemon with flows := flows }, []) ∧
      PendingRecord flows key hello.record.length daemon.flows.cache flow [first] := by
  have size : flowPayloadSize = 12000 := rfl
  have firstLong := looksUp.2.2
  have total := congrArg List.length content
  rw [List.length_append, PacketInfo.tcpBytes_length] at total
  obtain ⟨contentType, handshakeType, handshakeLength⟩ :=
    header_of_prefix (by omega) content (by simpa using firstLong)
  have opens : Opens daemon.flows first :=
    ⟨looksUp, absent, contentType, handshakeType, by omega, by omega, allocates⟩
  obtain ⟨flow, fresh, handled⟩ := packetHandle_of_opens checkAccess daemon opens
  rw [tcpflowInsert_of_idle flow idle] at handled
  refine ⟨_, flow, handled, ?_⟩
  exact
    { cache := rfl
      flowKey := by rw [fresh.key, connection, ← cleared]
      alone := alone
      holds := fresh.holds
      slots := fresh.slots
      index := fresh.index
      expected := by rw [fresh.expected, handshakeLength]
      incomplete := by simpa [fresh.current] using fresh.incomplete }

/-- A record that arrives in segments of at least ten bytes. -/
theorem events_of_delivery {hello : ClientHello} {key : TcpflowKey} {reference : Arrival}
    (fits : hello.record.length ≤ flowPayloadSize) (referenceKey : reference.key = key)
    (referencePort : reference.packet.dport = 443) (cleared : key.padding = 0)
    (daemon : Daemon σ) (alone : ∀ flow ∈ daemon.flows.cache, flow.key ≠ key)
    {segments : List Arrival} (delivers : Delivers daemon.flows key hello.record segments)
    (slots : segments.length ≤ maxPacketCount)
    (long : ∀ segment ∈ segments, 10 ≤ segment.packet.tcpPayloadLength) :
    eventsFrom checkAccess daemon segments =
      recordEvents checkAccess daemon.access reference.packet hello segments := by
  have looksUp : ∀ segment ∈ segments, segment.LooksUp := fun segment member =>
    ⟨(delivers.tcp443 segment member).1, (delivers.tcp443 segment member).2, long segment member⟩
  have content := delivers.content
  have recordLength := hello.record_length
  cases segments with
  | nil =>
      have total := congrArg List.length content
      simp only [segmentBytes, List.flatMap_nil, List.length_nil] at total
      omega
  | cons first rest =>
      have firstKey := delivers.connection first (by simp)
      have firstLooksUp := looksUp first (by simp)
      have absent : tcpflowLookup first.choice daemon.flows first.key = none := by
        rw [tcpflowLookup, HashTable.find_eq_none]
        intro flow member
        simpa [firstKey] using alone flow member
      cases rest with
      | nil =>
          rw [segmentBytes_singleton] at content
          rw [events_of_whole checkAccess fits daemon firstLooksUp content absent]
          exact recordEvents_congr checkAccess (firstKey.trans referenceKey.symm)
            (firstLooksUp.2.1.trans referencePort.symm) _ _ _
      | cons second rest =>
          have more := segmentBytes_long (long second (by simp)) rest
          obtain ⟨flows, flow, handled, pending⟩ := packetHandle_of_first checkAccess fits cleared
            daemon alone content more firstKey firstLooksUp (delivers.allocates first (by simp))
            absent (delivers.idle first (by simp))
          rw [eventsFrom_cons, handled, List.nil_append]
          exact events_of_pending checkAccess fits referenceKey referencePort _ (second :: rest)
            { daemon with flows := flows } pending delivers.content
            (by simpa [Nat.add_comm] using slots)
            (fun segment member => delivers.connection segment (List.mem_cons_of_mem _ member))
            (fun segment member => looksUp segment (List.mem_cons_of_mem _ member))

theorem verdicts_recordEvents (access : σ) (packet : PacketInfo) (hello : ClientHello)
    (segments : List Arrival) :
    verdicts (recordEvents checkAccess access packet hello segments) =
      segments.map fun segment =>
        (segment.packet.id, (judgeRecord checkAccess access packet hello).1) := by
  have sent (verdict : Verdict) : verdicts (segments.map fun segment =>
      Event.sendVerdict segment.packet.id verdict) =
        segments.map fun segment => (segment.packet.id, verdict) := by
    simp [verdicts, List.filterMap_map]
  simp [recordEvents, judgeRecord, verdicts_judgeSni, sent]

theorem checkedDomains_recordEvents (access : σ) (packet : PacketInfo) (hello : ClientHello)
    (segments : List Arrival) :
    checkedDomains (recordEvents checkAccess access packet hello segments) =
      checkedDomains (judgeRecord checkAccess access packet hello).2.2 := by
  simp [recordEvents, checkedDomains, List.filterMap_map]

theorem long_of_whole {hello : ClientHello} {flows : TcpflowCache} {key : TcpflowKey}
    {whole : Arrival} (delivers : Delivers flows key hello.record [whole]) :
    10 ≤ whole.packet.tcpPayloadLength := by
  have recordLength := hello.record_length
  have messageLength := hello.message_length
  have length := congrArg List.length delivers.content
  rw [segmentBytes_singleton, PacketInfo.tcpBytes_length] at length
  omega

theorem events_of_one {hello : ClientHello} {key : TcpflowKey} {whole : Arrival}
    (daemon : Daemon σ) (fits : hello.record.length ≤ flowPayloadSize) (cleared : key.padding = 0)
    (alone : ∀ flow ∈ daemon.flows.cache, flow.key ≠ key)
    (delivers : Delivers daemon.flows key hello.record [whole]) :
    eventsFrom checkAccess daemon [whole] =
      recordEvents checkAccess daemon.access whole.packet hello [whole] := by
  refine events_of_delivery checkAccess fits (delivers.connection whole (by simp))
    (delivers.tcp443 whole (by simp)).2 cleared daemon alone delivers (by simp [maxPacketCount]) ?_
  intro segment member
  rw [List.mem_singleton.mp member]
  exact long_of_whole delivers

theorem independent_of_long {hello : ClientHello} {key : TcpflowKey} {whole : Arrival}
    {segments : List Arrival} (daemon : Daemon σ)
    (fits : hello.record.length ≤ flowPayloadSize) (cleared : key.padding = 0)
    (alone : ∀ flow ∈ daemon.flows.cache, flow.key ≠ key)
    (deliversWhole : Delivers daemon.flows key hello.record [whole])
    (delivers : Delivers daemon.flows key hello.record segments)
    (slots : segments.length ≤ maxPacketCount)
    (long : ∀ segment ∈ segments, 10 ≤ segment.packet.tcpPayloadLength) :
    SegmentationIndependent checkAccess daemon whole segments := by
  have oneEvents := events_of_one checkAccess daemon fits cleared alone deliversWhole
  have events := events_of_delivery checkAccess fits (deliversWhole.connection whole (by simp))
    (deliversWhole.tcp443 whole (by simp)).2 cleared daemon alone delivers slots long
  constructor
  · intro segment member
    rw [events, settledIds, verdicts_recordEvents, List.map_map]
    exact List.mem_map_of_mem member
  · rw [events, oneEvents, checkedDomains_recordEvents, checkedDomains_recordEvents]
  · intro dropped accepted
    rw [oneEvents, verdicts_recordEvents] at dropped
    have drop : (judgeRecord checkAccess daemon.access whole.packet hello).1 = .nfDrop := by
      simpa using (List.mem_singleton.mp dropped).symm
    cases segments with
    | nil =>
        have length := long_of_whole deliversWhole
        have same := delivers.content.trans deliversWhole.content.symm
        have total := congrArg List.length same
        rw [segmentBytes_singleton, PacketInfo.tcpBytes_length] at total
        simp only [segmentBytes, List.flatMap_nil, List.length_nil] at total
        omega
    | cons first rest =>
        have pass := accepted first (by simp)
        rw [events, verdicts_recordEvents, drop] at pass
        simp at pass

/-! ## Segments that pass unseen -/

/-- The packet is too short to be looked at or does not begin a ClientHello. -/
def Unseen (segment : Arrival) : Prop :=
  segment.packet.tcpPayloadLength < 10 ∨ byteAt segment.packet.tcpBytes 0 ≠ 0x16 ∨
    byteAt segment.packet.tcpBytes 5 ≠ 0x01

instance (segment : Arrival) : Decidable (Unseen segment) := by
  unfold Unseen
  infer_instance

/-- A connection whose packets all pass unseen never gets a flow. -/
theorem events_of_unseen (daemon : Daemon σ) {key : TcpflowKey}
    (alone : ∀ flow ∈ daemon.flows.cache, flow.key ≠ key) (segments : List Arrival)
    (tcp443 : ∀ segment ∈ segments,
      segment.packet.protocol = ipprotoTcp ∧ segment.packet.dport = 443)
    (connection : ∀ segment ∈ segments, segment.key = key)
    (unseen : ∀ segment ∈ segments, Unseen segment) :
    eventsFrom checkAccess daemon segments =
      segments.map fun segment => .sendVerdict segment.packet.id .nfAccept := by
  induction segments with
  | nil => rfl
  | cons segment rest ih =>
      obtain ⟨tcp, port⟩ := tcp443 segment (by simp)
      have handled : packetHandle checkAccess daemon segment =
          (daemon, [.sendVerdict segment.packet.id .nfAccept]) := by
        by_cases short : segment.packet.tcpPayloadLength < 10
        · simp [packetHandle, tcp, port, packetHandleTcp443, short]
        · have absent : tcpflowLookup segment.choice daemon.flows segment.key = none := by
            rw [tcpflowLookup, HashTable.find_eq_none]
            intro flow member
            simpa [connection segment (by simp)] using alone flow member
          have plain := (unseen segment (by simp)).resolve_left short
          rw [packetHandle_of_looksUp checkAccess daemon ⟨tcp, port, by omega⟩, absent]
          simp only [packetHandleTcp443Fresh]
          rw [if_pos plain]
      rw [eventsFrom_cons, handled, List.map_cons, List.singleton_append,
        ih (fun segment member => tcp443 segment (List.mem_cons_of_mem _ member))
          (fun segment member => connection segment (List.mem_cons_of_mem _ member))
          (fun segment member => unseen segment (List.mem_cons_of_mem _ member))]

theorem not_independent_of_unseen {hello : ClientHello} {key : TcpflowKey} {whole : Arrival}
    {segments : List Arrival} (daemon : Daemon σ)
    (fits : hello.record.length ≤ flowPayloadSize) (cleared : key.padding = 0)
    (alone : ∀ flow ∈ daemon.flows.cache, flow.key ≠ key)
    (deliversWhole : Delivers daemon.flows key hello.record [whole])
    (delivers : Delivers daemon.flows key hello.record segments)
    (named : hello.serverName.isSome) (unseen : ∀ segment ∈ segments, Unseen segment) :
    ¬ SegmentationIndependent checkAccess daemon whole segments := by
  intro independent
  have oneEvents := events_of_one checkAccess daemon fits cleared alone deliversWhole
  have events := events_of_unseen checkAccess daemon alone segments delivers.tcp443
    delivers.connection unseen
  obtain ⟨name, present⟩ := Option.isSome_iff_exists.mp named
  have domains := independent.domains
  rw [oneEvents, events, checkedDomains_recordEvents, judgeRecord, present] at domains
  simp [checkedDomains, List.filterMap_map, judgeSni, checkAndAnswer] at domains

end Delivery

/-! ## A cut record -/

def smallHello : ClientHello where
  recordVersion := (3, 1)
  version := (3, 3)
  random := List.replicate 32 7
  sessionId := []
  cipherSuites := [0x13, 1]
  compressionMethods := [0]
  extensions := some [.serverName 0 (ascii ['a', '.', 'b']) []]
  rest := []
  randomLength := by simp
  sessionIdLength := by simp
  compressionMethodsLength := by simp
  restAbsent := by simp

def cutHello (offset : Nat) : List Arrival :=
  [plainSegment 1 1000 (smallHello.record.take offset),
    plainSegment 2 1000 (smallHello.record.drop offset)].map (plainArrival 1700000000)

def wholeHello : Arrival := plainArrival 1700000000 (plainSegment 0 1000 smallHello.record)

def idleDaemon : Daemon Unit := ⟨⟨[], 1700000000⟩, ()⟩

def denyAll : CheckAccess Unit := fun access _ _ _ => (.nfDrop, access)

theorem delivers_wholeHello :
    Delivers idleDaemon.flows wholeHello.key smallHello.record [wholeHello] where
  content := by decide +kernel
  tcp443 := by decide
  connection := by decide
  nonempty := by decide
  allocates := by decide
  idle := by decide

theorem delivers_cutHello (offset : Nat) (inside : offset = 5 ∨ offset = 20) :
    Delivers idleDaemon.flows wholeHello.key smallHello.record (cutHello offset) := by
  rcases inside with rfl | rfl
  · exact ⟨by decide +kernel, by decide, by decide, by decide, by decide, by decide⟩
  · exact ⟨by decide +kernel, by decide, by decide, by decide, by decide, by decide⟩

end Uwebfilter
