import Uwebfilter.MachineRun
import Uwebfilter.PlainExtraction
import Uwebfilter.SniExtraction
import Uwebfilter.Tcpflow

/-!
# Packet handlers

`packet_handle` of `nfqueue.c` with the handlers of `tcp443.c`, `tcp80.c` and
`udp53.c`.  `check_access` enters as a parameter: it has a state of its own and
sees the log record and the two addresses of the IP header.
-/

namespace Uwebfilter

open CStrings

/-- A packet taken from the queue with everything outside it that its handling
reads: the bytes the compiler leaves behind the lookup key's `port`, the flow
`HASH_FIND` reaches, the outcome of `calloc`, the clock, and the memory behind
a flow's payload buffer. -/
structure Arrival where
  packet : PacketInfo
  padding : Nat
  choice : Nat
  callocOk : Bool
  now : Int
  heap : Bytes

def plainArrival (now : Int) (packet : PacketInfo) : Arrival :=
  { packet := packet, padding := 0, choice := 0, callocOk := true, now := now, heap := [] }

/-- `check_access` over a state of type `σ`. -/
abbrev CheckAccess (σ : Type) := σ → Uwebfilterlog → (saddr daddr : Nat) → Verdict × σ

/-- What survives from one packet to the next. -/
structure Daemon (σ : Type) where
  flows : TcpflowCache
  access : σ

/-! ## The question of a packet to UDP port 53 -/

def answerBufferSize : Nat := 512

/-- The bytes from `domain` to the end of `uwebfilterlog_t`: after the two names
a pointer, four `int`s with their padding and a `time_t`. -/
def logRoom : Nat := domainLength + pathLength + 8 + 4 * 4 + 8

section Question

variable (packet : PacketInfo)

/-- What `extract_dns_domain` answers and writes. -/
def dnsDomain : Bool × Bytes :=
  (extractDnsDomain packet.udpPayloadLength).run fun index =>
    byteAt packet.payload (packet.udpPayload + index)

/-- The record with the name written to it.  What does not fit `domain` goes on in
`path`. -/
def dnsLog (log : Uwebfilterlog) : Uwebfilterlog :=
  let domain := (dnsDomain packet).2
  { log with domain := domain, path := domain.drop domainLength }

/-- `query` of `dns_answer_send`, as an offset in the packet. -/
def queryOffset : Nat := packet.udpPayload + 12

/-- `query_length`, the length of the name with its final zero. -/
def queryLength : Nat := (cString (packet.payload.drop (queryOffset packet))).length + 1

/-- `ptr - buffer` when `dns_answer_send` has laid out the answer. -/
def answerEnd : Nat := 40 + (queryLength packet + 4) + queryLength packet + 14

/-- What `dns_answer_send` does: it sends the answer or lays out more than its
buffer holds. -/
def dnsAnswer : Event :=
  if answerEnd packet ≤ answerBufferSize then .dnsAnswerSend else .overrun

theorem dnsAnswer_of_fits {packet : PacketInfo} (fits : answerEnd packet ≤ answerBufferSize) :
    dnsAnswer packet = .dnsAnswerSend :=
  if_pos fits

theorem dnsAnswer_of_long {packet : PacketInfo} (long : answerBufferSize < answerEnd packet) :
    dnsAnswer packet = .overrun :=
  if_neg (Nat.not_le.mpr long)

end Question

section Handlers

variable {σ : Type} (checkAccess : CheckAccess σ)

/-- Call `check_access` and answer the client where it says `NF_DROP`. -/
def checkAndAnswer (answer : Event) (access : σ) (packet : PacketInfo)
    (log : Uwebfilterlog) : Verdict × σ × List Event :=
  let (verdict, access) := checkAccess access log packet.saddr packet.daddr
  (verdict, access,
    .checkAccess log verdict :: if verdict = .nfDrop then [answer] else [])

/-- `check_access` for the name `extract_sni` found, if it found one. -/
def judgeSni (access : σ) (packet : PacketInfo) (log : Uwebfilterlog) :
    Option Bytes → Verdict × σ × List Event
  | none => (.nfAccept, access, [])
  | some domain =>
      checkAndAnswer checkAccess .tcpRstSend access packet { log with domain := domain }

/-- The key a TCP 443 packet is looked up by. -/
def Arrival.key (arrival : Arrival) : TcpflowKey :=
  { src := arrival.packet.saddr
    dst := arrival.packet.daddr
    port := arrival.packet.sport
    padding := arrival.padding }

/-- `packet_handle_tcp443` where the packet's flow is in the cache. -/
def packetHandleTcp443Pending (daemon : Daemon σ) (arrival : Arrival) (log : Uwebfilterlog)
    (position : Nat) (flow : Tcpflow) : Daemon σ × List Event :=
  let packet := arrival.packet
  match tcpflowValueAppend flow.value packet.id packet.tcpBytes with
  | none =>
      let (flows, sent) := tcpflowSetverdictAndFree daemon.flows position flow .nfAccept
      ({ daemon with flows := flows }, sent)
  | some value =>
      let flow := { flow with value := value }
      let flows := { daemon.flows with cache := daemon.flows.cache.set position flow }
      if tcpflowIscomplete flow then
        let name := (extractSni value.current).run (byteAt (value.payload ++ arrival.heap))
        let (verdict, access, events) := judgeSni checkAccess daemon.access packet log name
        let (flows, sent) := tcpflowSetverdictAndFree flows position flow verdict
        (⟨flows, access⟩, .extractSni (value.payload.take value.current) :: events ++ sent)
      else ({ daemon with flows := flows }, [])

/-- `packet_handle_tcp443` where the packet belongs to no cached flow. -/
def packetHandleTcp443Fresh (daemon : Daemon σ) (arrival : Arrival) (log : Uwebfilterlog) :
    Daemon σ × List Event :=
  let packet := arrival.packet
  let payload := packet.tcpBytes
  if byteAt payload 0 ≠ 0x16 ∨ byteAt payload 5 ≠ 0x01 then
    (daemon, [.sendVerdict packet.id .nfAccept])
  else
    let handshakeLength := u16be payload 3
    if packet.tcpPayloadLength ≥ handshakeLength then
      let name := (extractSni packet.tcpPayloadLength).run fun index =>
        byteAt packet.payload (packet.tcpPayload + index)
      let (verdict, access, events) := judgeSni checkAccess daemon.access packet log name
      ({ daemon with access := access },
        .extractSni payload :: events ++ [.sendVerdict packet.id verdict])
    else if handshakeLength > flowPayloadSize then
      (daemon, [.sendVerdict packet.id .nfAccept])
    else
      match tcpflowCreate arrival.callocOk arrival.key handshakeLength with
      | none => (daemon, [.sendVerdict packet.id .nfAccept])
      | some flow =>
          match tcpflowValueAppend flow.value packet.id payload with
          | none => (daemon, [.sendVerdict packet.id .nfAccept])
          | some value =>
              let (flows, sent) :=
                tcpflowInsert daemon.flows { flow with value := value } arrival.now
              ({ daemon with flows := flows }, sent)

def packetHandleTcp443 (daemon : Daemon σ) (arrival : Arrival) (log : Uwebfilterlog) :
    Daemon σ × List Event :=
  if arrival.packet.tcpPayloadLength < 10 then
    (daemon, [.sendVerdict arrival.packet.id .nfAccept])
  else
    match tcpflowLookup arrival.choice daemon.flows arrival.key with
    | some (position, flow) =>
        packetHandleTcp443Pending checkAccess daemon arrival log position flow
    | none => packetHandleTcp443Fresh checkAccess daemon arrival log

def packetHandleTcp80 (daemon : Daemon σ) (arrival : Arrival) (log : Uwebfilterlog) :
    Daemon σ × List Event :=
  let packet := arrival.packet
  if packet.tcpPayloadLength < 10 then (daemon, [.sendVerdict packet.id .nfAccept])
  else
    let http := extractHttpPayload (packet.payload.drop packet.tcpPayload)
      packet.tcpPayloadLength
    if http.found then
      let (verdict, access, events) := checkAndAnswer checkAccess .tcpRstSend daemon.access
        packet { log with domain := http.domain, path := http.path }
      ({ daemon with access := access }, events ++ [.sendVerdict packet.id verdict])
    else (daemon, [.sendVerdict packet.id .nfAccept])

def packetHandleUdp53 (daemon : Daemon σ) (arrival : Arrival) (log : Uwebfilterlog) :
    Daemon σ × List Event :=
  let packet := arrival.packet
  let (found, domain) := dnsDomain packet
  if logRoom < domain.length then (daemon, [.overrun])
  else if found then
    let answer := dnsAnswer packet
    let (verdict, access, events) := checkAndAnswer checkAccess answer daemon.access packet
      (dnsLog packet log)
    ({ daemon with access := access },
      -- an overrun comes before the verdict
      if verdict = .nfDrop ∧ answer = .overrun then events
      else events ++ [.sendVerdict packet.id verdict])
  else (daemon, [.sendVerdict packet.id .nfAccept])

def packetLog (packet : PacketInfo) (proto : Proto) : Uwebfilterlog :=
  { proto := some proto, srcport := packet.sport, dstport := packet.dport }

def packetHandle (daemon : Daemon σ) (arrival : Arrival) : Daemon σ × List Event :=
  let packet := arrival.packet
  if packet.protocol = ipprotoTcp then
    let log := packetLog packet .tcp
    if packet.dport = 80 then packetHandleTcp80 checkAccess daemon arrival log
    else if packet.dport = 443 then packetHandleTcp443 checkAccess daemon arrival log
    else (daemon, [.sendVerdict packet.id .nfAccept])
  else if packet.protocol = ipprotoUdp then
    let log := packetLog packet .udp
    if packet.dport = 53 then packetHandleUdp53 checkAccess daemon arrival log
    else (daemon, [.sendVerdict packet.id .nfAccept])
  else (daemon, [.sendVerdict packet.id .nfAccept])

/-! ## Runs -/

variable (access : σ)

/-- The daemon when `nfqueue_main` enters its loop. -/
def daemonStart : Daemon σ := ⟨.initial, access⟩

def daemonAfter (arrivals : List Arrival) : Daemon σ :=
  MachineRun.after (packetHandle checkAccess) (daemonStart access) arrivals

def daemonEvents (arrivals : List Arrival) : List Event :=
  (MachineRun.outputs (packetHandle checkAccess) (daemonStart access) arrivals).flatten

/-- Every packet of a sequence meets a condition on the flows it finds. -/
def EveryArrival (condition : TcpflowCache → Arrival → Prop) (arrivals : List Arrival) : Prop :=
  MachineRun.EveryStep (packetHandle checkAccess) (daemonStart access)
    (fun daemon arrival => condition daemon.flows arrival) arrivals

end Handlers

/-! ## What one packet can do to the flows -/

/-- A packet `packet_handle_tcp443` looks up in the flow cache. -/
def Arrival.LooksUp (arrival : Arrival) : Prop :=
  arrival.packet.protocol = ipprotoTcp ∧ arrival.packet.dport = 443 ∧
    10 ≤ arrival.packet.tcpPayloadLength

/-- The packet's flow is cached and has no id slot or no room left for it. -/
def AppendFails (flows : TcpflowCache) (arrival : Arrival) : Prop :=
  arrival.LooksUp ∧
    ∃ position flow, tcpflowLookup arrival.choice flows arrival.key = some (position, flow) ∧
      (maxPacketCount ≤ flow.value.index ∨
        flowPayloadSize < flow.value.current + arrival.packet.tcpPayloadLength)

/-- A packet `packet_handle_udp53` gets. -/
def Arrival.IsQuery (arrival : Arrival) : Prop :=
  arrival.packet.protocol = ipprotoUdp ∧ arrival.packet.dport = 53

/-- The labels of a question do not fit the record, or `check_access` denies their
name and the answer does not fit the buffer of `dns_answer_send`. -/
def Overruns {σ : Type} (checkAccess : CheckAccess σ) (access : σ) (arrival : Arrival) : Prop :=
  let packet := arrival.packet
  arrival.IsQuery ∧
    (logRoom < (dnsDomain packet).2.length ∨
      (dnsDomain packet).1 = true ∧ answerBufferSize < answerEnd packet ∧
        (checkAccess access (dnsLog packet (packetLog packet .udp)) packet.saddr
          packet.daddr).1 = .nfDrop)

/-- The packet reaches `tcpflow_insert`: it begins an incomplete ClientHello of
a connection without a flow. -/
def Opens (flows : TcpflowCache) (arrival : Arrival) : Prop :=
  arrival.LooksUp ∧ tcpflowLookup arrival.choice flows arrival.key = none ∧
    CStrings.byteAt arrival.packet.tcpBytes 0 = 0x16 ∧
    CStrings.byteAt arrival.packet.tcpBytes 5 = 0x01 ∧
    arrival.packet.tcpPayloadLength < CStrings.u16be arrival.packet.tcpBytes 3 ∧
    CStrings.u16be arrival.packet.tcpBytes 3 ≤ flowPayloadSize ∧ arrival.callocOk = true

/-- A flow as the packet that opens it leaves it. -/
structure FreshFlow (arrival : Arrival) (flow : Tcpflow) : Prop where
  timestamp : flow.timestamp = 0
  key : flow.key = { arrival.key with padding := 0 }
  expected : flow.value.expected = u16be arrival.packet.tcpBytes 3
  incomplete : arrival.packet.tcpPayloadLength < flow.value.expected
  bounded : flow.value.expected ≤ flowPayloadSize
  current : flow.value.current = arrival.packet.tcpPayloadLength
  payload : flow.value.payload = arrival.packet.tcpBytes ++
    List.replicate (flowPayloadSize - arrival.packet.tcpPayloadLength) 0
  ids : flow.value.ids = arrival.packet.id :: List.replicate (maxPacketCount - 1) 0
  index : flow.value.index = 1

/-- What `packet_handle_udp53` makes of a packet. -/
inductive QueryEffect {σ : Type} (checkAccess : CheckAccess σ) (daemon : Daemon σ)
    (packet : PacketInfo) (log : Uwebfilterlog) : Daemon σ × List Event → Prop
  | overlong (long : logRoom < (dnsDomain packet).2.length) :
      QueryEffect checkAccess daemon packet log (daemon, [.overrun])
  | unasked (short : (dnsDomain packet).2.length ≤ logRoom)
      (unasked : (dnsDomain packet).1 = false) :
      QueryEffect checkAccess daemon packet log (daemon, [.sendVerdict packet.id .nfAccept])
  | overran (short : (dnsDomain packet).2.length ≤ logRoom) (asked : (dnsDomain packet).1 = true)
      (long : answerBufferSize < answerEnd packet)
      (denied : (checkAccess daemon.access (dnsLog packet log) packet.saddr packet.daddr).1 =
        .nfDrop) :
      QueryEffect checkAccess daemon packet log
        ({ daemon with
            access :=
              (checkAccess daemon.access (dnsLog packet log) packet.saddr packet.daddr).2 },
          [.checkAccess (dnsLog packet log) .nfDrop, .overrun])
  | checked (short : (dnsDomain packet).2.length ≤ logRoom)
      (asked : (dnsDomain packet).1 = true)
      (fits : (checkAccess daemon.access (dnsLog packet log) packet.saddr packet.daddr).1 =
        .nfDrop → answerEnd packet ≤ answerBufferSize) :
      QueryEffect checkAccess daemon packet log
        ({ daemon with
            access := (checkAndAnswer checkAccess .dnsAnswerSend daemon.access packet
              (dnsLog packet log)).2.1 },
          (checkAndAnswer checkAccess .dnsAnswerSend daemon.access packet
              (dnsLog packet log)).2.2 ++
            [.sendVerdict packet.id (checkAndAnswer checkAccess .dnsAnswerSend daemon.access
              packet (dnsLog packet log)).1])

/-- The record is the packet's, with the name and the path an extractor wrote. -/
def RecordOf (packet : PacketInfo) (log : Uwebfilterlog) : Prop :=
  ∃ proto domain path, log = { packetLog packet proto with domain := domain, path := path }

/-- A drop among the events was asked for by `check_access`. -/
def DeniedBy (events : List Event) : Prop := ∃ log, Event.checkAccess log .nfDrop ∈ events

/-- Everything the handling of one packet can do to the flow cache, with the
verdicts it sends. -/
inductive FlowEffect (flows : TcpflowCache) (arrival : Arrival) :
    TcpflowCache → List Event → Prop
  | settled (verdict : Verdict) (events : List Event)
      (sent : verdicts events = [(arrival.packet.id, verdict)])
      (cause : verdict = .nfDrop → DeniedBy events)
      (fits : ¬ AppendFails flows arrival) (contained : Event.overrun ∉ events) :
      FlowEffect flows arrival flows events
  | overran (events : List Event) (query : arrival.IsQuery) (unsent : verdicts events = [])
      (fits : ¬ AppendFails flows arrival) (overrun : Event.overrun ∈ events) :
      FlowEffect flows arrival flows events
  | held (position : Nat) (flow : Tcpflow) (value : TcpflowValue)
      (looksUp : arrival.LooksUp)
      (found : tcpflowLookup arrival.choice flows arrival.key = some (position, flow))
      (appended : tcpflowValueAppend flow.value arrival.packet.id arrival.packet.tcpBytes =
        some value)
      (incomplete : value.current < value.expected) :
      FlowEffect flows arrival
        { flows with cache := flows.cache.set position { flow with value := value } } []
  | completed (position : Nat) (flow : Tcpflow) (value : TcpflowValue) (verdict : Verdict)
      (events : List Event) (looksUp : arrival.LooksUp)
      (found : tcpflowLookup arrival.choice flows arrival.key = some (position, flow))
      (appended : tcpflowValueAppend flow.value arrival.packet.id arrival.packet.tcpBytes =
        some value)
      (complete : value.expected ≤ value.current)
      (sent : verdicts events = value.heldIds.map fun id => (id, verdict))
      (cause : verdict = .nfDrop → DeniedBy events) (contained : Event.overrun ∉ events) :
      FlowEffect flows arrival { flows with cache := flows.cache.eraseIdx position } events
  | refused (position : Nat) (flow : Tcpflow)
      (found : tcpflowLookup arrival.choice flows arrival.key = some (position, flow))
      (fails : AppendFails flows arrival) :
      FlowEffect flows arrival { flows with cache := flows.cache.eraseIdx position }
        (tcpflowSetverdict flow .nfAccept)
  | opened (flow : Tcpflow) (opens : Opens flows arrival) (fresh : FreshFlow arrival flow) :
      FlowEffect flows arrival (tcpflowInsert flows flow arrival.now).1
        (tcpflowInsert flows flow arrival.now).2

theorem not_appendFails_of_absent {flows : TcpflowCache} {arrival : Arrival}
    (absent : tcpflowLookup arrival.choice flows arrival.key = none) :
    ¬ AppendFails flows arrival := by
  rintro ⟨_, position, flow, found, _⟩
  simp [absent] at found

theorem not_appendFails_of_appended {flows : TcpflowCache} {arrival : Arrival}
    {position : Nat} {flow : Tcpflow} {value : TcpflowValue}
    (found : tcpflowLookup arrival.choice flows arrival.key = some (position, flow))
    (appended : tcpflowValueAppend flow.value arrival.packet.id arrival.packet.tcpBytes =
      some value) : ¬ AppendFails flows arrival := by
  rintro ⟨_, otherPosition, other, otherFound, failure⟩
  obtain ⟨rfl, rfl⟩ : position = otherPosition ∧ flow = other := by
    simpa [found] using otherFound
  have refused : tcpflowValueAppend flow.value arrival.packet.id arrival.packet.tcpBytes =
      none := by
    rw [tcpflowValueAppend_eq_none, PacketInfo.tcpBytes_length]
    exact failure
  simp [refused] at appended

theorem freshFlow_of_append {arrival : Arrival} {flow : Tcpflow} {value : TcpflowValue}
    {handshakeLength : Nat} (length : handshakeLength = u16be arrival.packet.tcpBytes 3)
    (created : tcpflowCreate arrival.callocOk arrival.key handshakeLength = some flow)
    (appended : tcpflowValueAppend flow.value arrival.packet.id arrival.packet.tcpBytes =
      some value)
    (incomplete : arrival.packet.tcpPayloadLength < handshakeLength)
    (bounded : handshakeLength ≤ flowPayloadSize) :
    FreshFlow arrival { flow with value := value } := by
  obtain ⟨timestamp, key, expected, current, index, payload, ids⟩ :=
    tcpflowCreate_eq_some created
  obtain ⟨-, -, rfl⟩ := tcpflowValueAppend_eq_some appended
  have write := overwrite_cleared arrival.packet.tcpBytes flowPayloadSize
  exact
    { timestamp := timestamp
      key := key
      expected := by simp [expected, length]
      incomplete := by simpa [expected] using incomplete
      bounded := by simpa [expected] using bounded
      current := by simp [current]
      payload := by simpa [payload, current] using write
      ids := by simp [ids, index, maxPacketCount, List.replicate_succ]
      index := by simp [index] }

section Effects

variable {σ : Type} (checkAccess : CheckAccess σ)

theorem verdicts_checkAndAnswer {answer : Event} (silent : verdicts [answer] = [])
    (access : σ) (packet : PacketInfo) (log : Uwebfilterlog) :
    verdicts (checkAndAnswer checkAccess answer access packet log).2.2 = [] := by
  simp only [checkAndAnswer, verdicts_checkAccess]
  split
  · exact silent
  · rfl

theorem denied_of_checkAndAnswer {answer : Event} {access : σ} {packet : PacketInfo}
    {log : Uwebfilterlog}
    (drop : (checkAndAnswer checkAccess answer access packet log).1 = .nfDrop) :
    DeniedBy (checkAndAnswer checkAccess answer access packet log).2.2 := by
  refine ⟨log, ?_⟩
  simp only [checkAndAnswer] at drop ⊢
  simp [drop]

theorem verdicts_judgeSni (access : σ) (packet : PacketInfo) (log : Uwebfilterlog)
    (name : Option Bytes) :
    verdicts (judgeSni checkAccess access packet log name).2.2 = [] := by
  cases name with
  | none => rfl
  | some domain => exact verdicts_checkAndAnswer checkAccess rfl access packet _

theorem denied_of_judgeSni {access : σ} {packet : PacketInfo} {log : Uwebfilterlog}
    {name : Option Bytes}
    (drop : (judgeSni checkAccess access packet log name).1 = .nfDrop) :
    DeniedBy (judgeSni checkAccess access packet log name).2.2 := by
  cases name with
  | none => simp [judgeSni] at drop
  | some domain => exact denied_of_checkAndAnswer checkAccess drop

theorem DeniedBy.mono {first second : List Event} (denied : DeniedBy first)
    (subset : first ⊆ second) : DeniedBy second :=
  denied.imp fun _ member => subset member

/-! ### Overruns -/

theorem not_overrun_checkAndAnswer {answer : Event} (other : answer ≠ .overrun) (access : σ)
    (packet : PacketInfo) (log : Uwebfilterlog) :
    Event.overrun ∉ (checkAndAnswer checkAccess answer access packet log).2.2 := by
  simp only [checkAndAnswer]
  split <;> simp [other.symm]

theorem not_overrun_judgeSni (access : σ) (packet : PacketInfo) (log : Uwebfilterlog)
    (name : Option Bytes) :
    Event.overrun ∉ (judgeSni checkAccess access packet log name).2.2 := by
  cases name with
  | none => exact List.not_mem_nil
  | some domain => exact not_overrun_checkAndAnswer checkAccess (by simp) access packet _

theorem not_overrun_tcpflowSetverdict (flow : Tcpflow) (verdict : Verdict) :
    Event.overrun ∉ tcpflowSetverdict flow verdict := by
  simp [tcpflowSetverdict]

theorem not_overrun_tcpflowInsert (flows : TcpflowCache) (flow : Tcpflow) (now : Int) :
    Event.overrun ∉ (tcpflowInsert flows flow now).2 := by
  by_cases due : flows.tcpflowLastGc < now - 60
  · rw [tcpflowInsert_of_due flow due, tcpflowRungcIter_snd, List.mem_flatMap]
    rintro ⟨expired, -, overrun⟩
    exact not_overrun_tcpflowSetverdict expired .nfDrop overrun
  · rw [tcpflowInsert_of_idle flow due]
    exact List.not_mem_nil

/-! ### Effects -/

theorem effect_accepted {flows : TcpflowCache} {arrival : Arrival}
    (fits : ¬ AppendFails flows arrival) :
    FlowEffect flows arrival flows [.sendVerdict arrival.packet.id .nfAccept] :=
  .settled .nfAccept _ rfl (by simp) fits (by simp)

theorem effect_checked {flows : TcpflowCache} {arrival : Arrival} {answer : Event}
    (silent : verdicts [answer] = []) (other : answer ≠ .overrun)
    (fits : ¬ AppendFails flows arrival) (access : σ) (log : Uwebfilterlog) :
    FlowEffect flows arrival flows
      ((checkAndAnswer checkAccess answer access arrival.packet log).2.2 ++
        [.sendVerdict arrival.packet.id
          (checkAndAnswer checkAccess answer access arrival.packet log).1]) := by
  refine .settled (checkAndAnswer checkAccess answer access arrival.packet log).1 _ ?_
    (fun drop => ?_) fits ?_
  · simp [verdicts_checkAndAnswer checkAccess silent]
  · exact (denied_of_checkAndAnswer checkAccess drop).mono (List.subset_append_left _ _)
  · simpa using not_overrun_checkAndAnswer checkAccess other access arrival.packet log

theorem effect_judged {flows : TcpflowCache} {arrival : Arrival}
    (fits : ¬ AppendFails flows arrival) (access : σ) (log : Uwebfilterlog)
    (payload : Bytes) (name : Option Bytes) :
    FlowEffect flows arrival flows
      (.extractSni payload :: (judgeSni checkAccess access arrival.packet log name).2.2 ++
        [.sendVerdict arrival.packet.id
          (judgeSni checkAccess access arrival.packet log name).1]) := by
  refine .settled (judgeSni checkAccess access arrival.packet log name).1 _ ?_
    (fun drop => ?_) fits ?_
  · simp [verdicts_judgeSni]
  · refine (denied_of_judgeSni checkAccess drop).mono fun event member => ?_
    exact List.mem_cons_of_mem _ (List.mem_append_left _ member)
  · simpa using not_overrun_judgeSni checkAccess access arrival.packet log name

theorem packetHandleUdp53_effect (daemon : Daemon σ) (arrival : Arrival) (log : Uwebfilterlog) :
    QueryEffect checkAccess daemon arrival.packet log
      (packetHandleUdp53 checkAccess daemon arrival log) := by
  simp only [packetHandleUdp53]
  split
  · rename_i long
    exact .overlong long
  rename_i short
  rw [Nat.not_lt] at short
  split
  · rename_i asked
    rcases Nat.lt_or_ge answerBufferSize (answerEnd arrival.packet) with long | room
    · rw [dnsAnswer_of_long long]
      by_cases denied : (checkAccess daemon.access (dnsLog arrival.packet log)
          arrival.packet.saddr arrival.packet.daddr).1 = .nfDrop
      · simpa [checkAndAnswer, denied] using QueryEffect.overran short asked long denied
      · have checked : QueryEffect checkAccess daemon arrival.packet log _ :=
          .checked short asked fun drop => absurd drop denied
        simpa [checkAndAnswer, denied] using checked
    · rw [dnsAnswer_of_fits room]
      have checked : QueryEffect checkAccess daemon arrival.packet log _ :=
        .checked short asked fun _ => room
      simpa using checked
  · rename_i unasked
    exact .unasked short (Bool.eq_false_iff.mpr unasked)

theorem packetHandle_of_query (daemon : Daemon σ) {arrival : Arrival} (query : arrival.IsQuery) :
    packetHandle checkAccess daemon arrival =
      packetHandleUdp53 checkAccess daemon arrival (packetLog arrival.packet .udp) := by
  simp only [packetHandle, query.1, query.2, if_true]
  rw [if_neg (by decide)]

/-- A packet that is neither looked up nor a query is accepted, or is a request to
port 80 that is checked. -/
theorem packetHandle_of_other (daemon : Daemon σ) {arrival : Arrival}
    (unlooked : ¬ arrival.LooksUp) (unasked : ¬ arrival.IsQuery) :
    packetHandle checkAccess daemon arrival =
        (daemon, [.sendVerdict arrival.packet.id .nfAccept]) ∨
      ∃ log, RecordOf arrival.packet log ∧
        packetHandle checkAccess daemon arrival =
          ({ daemon with
              access := (checkAndAnswer checkAccess .tcpRstSend daemon.access arrival.packet
                log).2.1 },
            (checkAndAnswer checkAccess .tcpRstSend daemon.access arrival.packet log).2.2 ++
              [.sendVerdict arrival.packet.id
                (checkAndAnswer checkAccess .tcpRstSend daemon.access arrival.packet log).1]) := by
  simp only [packetHandle]
  split
  · rename_i tcp
    split
    · simp only [packetHandleTcp80]
      split
      · exact .inl rfl
      split
      · exact .inr ⟨_, ⟨.tcp, _, _, rfl⟩, rfl⟩
      · exact .inl rfl
    split
    · rename_i port
      -- a segment to port 443 that is not looked up is too short
      have short : arrival.packet.tcpPayloadLength < 10 := by
        by_contra long
        exact unlooked ⟨tcp, port, by omega⟩
      rw [packetHandleTcp443, if_pos short]
      exact .inl rfl
    · exact .inl rfl
  · split
    · rename_i udp
      split
      · rename_i port
        exact absurd ⟨udp, port⟩ unasked
      · exact .inl rfl
    · exact .inl rfl

/-- A query is accepted, checked, or overruns. -/
theorem effect_query {daemon : Daemon σ} {arrival : Arrival} (query : arrival.IsQuery)
    (fits : ¬ AppendFails daemon.flows arrival) (log : Uwebfilterlog) :
    FlowEffect daemon.flows arrival (packetHandleUdp53 checkAccess daemon arrival log).1.flows
      (packetHandleUdp53 checkAccess daemon arrival log).2 := by
  have effect := packetHandleUdp53_effect checkAccess daemon arrival log
  generalize packetHandleUdp53 checkAccess daemon arrival log = outcome at effect ⊢
  cases effect with
  | overlong long => exact .overran _ query rfl fits (by simp)
  | unasked short unasked => exact effect_accepted fits
  | overran short asked long denied => exact .overran _ query rfl fits (by simp)
  | checked short asked room => exact effect_checked checkAccess rfl (by simp) fits _ _

theorem packetHandle_of_looksUp (daemon : Daemon σ) {arrival : Arrival}
    (looksUp : arrival.LooksUp) :
    packetHandle checkAccess daemon arrival =
      match tcpflowLookup arrival.choice daemon.flows arrival.key with
      | some (position, flow) =>
          packetHandleTcp443Pending checkAccess daemon arrival (packetLog arrival.packet .tcp)
            position flow
      | none =>
          packetHandleTcp443Fresh checkAccess daemon arrival (packetLog arrival.packet .tcp) := by
  obtain ⟨tcp, port, long⟩ := looksUp
  simp only [packetHandle, tcp, port, if_true, packetHandleTcp443]
  rw [if_neg (by decide), if_neg (by omega)]

theorem packetHandle_of_complete (daemon : Daemon σ) {arrival : Arrival}
    (looksUp : arrival.LooksUp) {position : Nat} {flow : Tcpflow} {value : TcpflowValue}
    (found : tcpflowLookup arrival.choice daemon.flows arrival.key = some (position, flow))
    (appended : tcpflowValueAppend flow.value arrival.packet.id arrival.packet.tcpBytes =
      some value)
    (complete : value.expected ≤ value.current) :
    packetHandle checkAccess daemon arrival =
      let name := (extractSni value.current).run (byteAt (value.payload ++ arrival.heap))
      let judged := judgeSni checkAccess daemon.access arrival.packet
        (packetLog arrival.packet .tcp) name
      (⟨{ daemon.flows with cache := daemon.flows.cache.eraseIdx position }, judged.2.1⟩,
        .extractSni (value.payload.take value.current) :: judged.2.2 ++
          tcpflowSetverdict { flow with value := value } judged.1) := by
  rw [packetHandle_of_looksUp checkAccess daemon looksUp, found]
  simp [packetHandleTcp443Pending, appended, tcpflowIscomplete, complete,
    tcpflowSetverdictAndFree, List.eraseIdx_set_eq]

theorem packetHandle_of_incomplete (daemon : Daemon σ) {arrival : Arrival}
    (looksUp : arrival.LooksUp) {position : Nat} {flow : Tcpflow} {value : TcpflowValue}
    (found : tcpflowLookup arrival.choice daemon.flows arrival.key = some (position, flow))
    (appended : tcpflowValueAppend flow.value arrival.packet.id arrival.packet.tcpBytes =
      some value)
    (incomplete : value.current < value.expected) :
    packetHandle checkAccess daemon arrival =
      ({ daemon with
          flows :=
            { daemon.flows with
              cache := daemon.flows.cache.set position { flow with value := value } } }, []) := by
  rw [packetHandle_of_looksUp checkAccess daemon looksUp, found]
  simp [packetHandleTcp443Pending, appended, tcpflowIscomplete, incomplete]

/-- A packet that cannot be appended releases its flow and is itself forgotten. -/
theorem packetHandle_of_refused (daemon : Daemon σ) {arrival : Arrival}
    (looksUp : arrival.LooksUp) {position : Nat} {flow : Tcpflow}
    (found : tcpflowLookup arrival.choice daemon.flows arrival.key = some (position, flow))
    (refused : tcpflowValueAppend flow.value arrival.packet.id arrival.packet.tcpBytes = none) :
    packetHandle checkAccess daemon arrival =
      ({ daemon with
          flows := { daemon.flows with cache := daemon.flows.cache.eraseIdx position } },
        tcpflowSetverdict flow .nfAccept) := by
  rw [packetHandle_of_looksUp checkAccess daemon looksUp, found]
  simp [packetHandleTcp443Pending, refused, tcpflowSetverdictAndFree]

theorem effect_pending {daemon : Daemon σ} {arrival : Arrival} {position : Nat} {flow : Tcpflow}
    (looksUp : arrival.LooksUp)
    (found : tcpflowLookup arrival.choice daemon.flows arrival.key = some (position, flow)) :
    FlowEffect daemon.flows arrival (packetHandle checkAccess daemon arrival).1.flows
      (packetHandle checkAccess daemon arrival).2 := by
  cases appended : tcpflowValueAppend flow.value arrival.packet.id arrival.packet.tcpBytes with
  | none =>
      rw [packetHandle_of_refused checkAccess daemon looksUp found appended]
      have failure := tcpflowValueAppend_eq_none.mp appended
      rw [PacketInfo.tcpBytes_length] at failure
      exact .refused position flow found ⟨looksUp, position, flow, found, failure⟩
  | some value =>
      by_cases complete : value.expected ≤ value.current
      · rw [packetHandle_of_complete checkAccess daemon looksUp found appended complete]
        set judged := judgeSni checkAccess daemon.access arrival.packet
          (packetLog arrival.packet .tcp)
          ((extractSni value.current).run (byteAt (value.payload ++ arrival.heap))) with judgedEq
        refine .completed position flow value judged.1 _ looksUp found appended complete ?_ ?_ ?_
        · simp [judgedEq, verdicts_judgeSni]
        · intro drop
          refine (denied_of_judgeSni checkAccess drop).mono fun event member => ?_
          exact List.mem_cons_of_mem _ (List.mem_append_left _ member)
        · simp [not_overrun_judgeSni, not_overrun_tcpflowSetverdict]
      · rw [packetHandle_of_incomplete checkAccess daemon looksUp found appended (by omega)]
        exact .held position flow value looksUp found appended (by omega)

theorem packetHandle_of_opens (daemon : Daemon σ) {arrival : Arrival}
    (opens : Opens daemon.flows arrival) :
    ∃ flow, FreshFlow arrival flow ∧ packetHandle checkAccess daemon arrival =
      ({ daemon with flows := (tcpflowInsert daemon.flows flow arrival.now).1 },
        (tcpflowInsert daemon.flows flow arrival.now).2) := by
  obtain ⟨looksUp, absent, tls, hello, incomplete, bounded, callocOk⟩ := opens
  have length : arrival.packet.tcpBytes.length ≤ flowPayloadSize := by
    rw [PacketInfo.tcpBytes_length]
    omega
  cases created : tcpflowCreate arrival.callocOk arrival.key
      (u16be arrival.packet.tcpBytes 3) with
  | none => simp [tcpflowCreate, callocOk] at created
  | some flow =>
      obtain ⟨-, -, -, current, index, -, -⟩ := tcpflowCreate_eq_some created
      cases appended : tcpflowValueAppend flow.value arrival.packet.id
          arrival.packet.tcpBytes with
      | none =>
          rw [tcpflowValueAppend_eq_none, current, index, maxPacketCount] at appended
          omega
      | some value =>
          refine ⟨{ flow with value := value },
            freshFlow_of_append rfl created appended incomplete bounded, ?_⟩
          rw [packetHandle_of_looksUp checkAccess daemon looksUp, absent]
          simp only [packetHandleTcp443Fresh, tls, hello, ne_eq, not_true_eq_false, or_self,
            if_false, ge_iff_le, Nat.not_le.mpr incomplete, gt_iff_lt, Nat.not_lt.mpr bounded,
            created, appended]

theorem effect_fresh {daemon : Daemon σ} {arrival : Arrival}
    (looksUp : arrival.LooksUp)
    (absent : tcpflowLookup arrival.choice daemon.flows arrival.key = none) :
    FlowEffect daemon.flows arrival (packetHandle checkAccess daemon arrival).1.flows
      (packetHandle checkAccess daemon arrival).2 := by
  by_cases opens : Opens daemon.flows arrival
  · obtain ⟨flow, fresh, handled⟩ := packetHandle_of_opens checkAccess daemon opens
    rw [handled]
    exact .opened flow opens fresh
  have fits := not_appendFails_of_absent absent
  rw [packetHandle_of_looksUp checkAccess daemon looksUp, absent]
  simp only [packetHandleTcp443Fresh]
  split
  · exact effect_accepted fits
  rename_i hello
  split
  · exact effect_judged checkAccess fits _ _ _ _
  rename_i short
  split
  · exact effect_accepted fits
  rename_i bounded
  cases callocOk : arrival.callocOk with
  | false => exact effect_accepted fits
  | true =>
      rw [not_or, not_not, not_not] at hello
      exact absurd ⟨looksUp, absent, hello.1, hello.2, by omega, by omega, callocOk⟩ opens

/-- Every packet has one of the effects. -/
theorem packetHandle_effect (daemon : Daemon σ) (arrival : Arrival) :
    FlowEffect daemon.flows arrival (packetHandle checkAccess daemon arrival).1.flows
      (packetHandle checkAccess daemon arrival).2 := by
  by_cases looksUp : arrival.LooksUp
  · cases lookup : tcpflowLookup arrival.choice daemon.flows arrival.key with
    | none => exact effect_fresh checkAccess looksUp lookup
    | some entry => exact effect_pending checkAccess looksUp lookup
  have fits : ¬ AppendFails daemon.flows arrival := fun fails => looksUp fails.1
  by_cases query : arrival.IsQuery
  · rw [packetHandle_of_query checkAccess daemon query]
    exact effect_query checkAccess query fits _
  rcases packetHandle_of_other checkAccess daemon looksUp query with
    accepted | ⟨log, -, checked⟩
  · rw [accepted]
    exact effect_accepted fits
  · rw [checked]
    exact effect_checked checkAccess rfl (by simp) fits _ _

theorem FlowEffect.isQuery_of_overrun {flows after : TcpflowCache} {arrival : Arrival}
    {events : List Event} (effect : FlowEffect flows arrival after events)
    (overrun : Event.overrun ∈ events) : arrival.IsQuery := by
  cases effect with
  | overran _ query => exact query
  | settled _ _ _ _ _ contained => exact absurd overrun contained
  | completed _ _ _ _ _ _ _ _ _ _ _ contained => exact absurd overrun contained
  | held => exact absurd overrun List.not_mem_nil
  | refused => exact absurd overrun (not_overrun_tcpflowSetverdict _ _)
  | opened => exact absurd overrun (not_overrun_tcpflowInsert _ _ _)

/-- A handling ends in an overrun exactly where its packet overruns a buffer. -/
theorem overrun_mem_iff {daemon : Daemon σ} {arrival : Arrival} :
    Event.overrun ∈ (packetHandle checkAccess daemon arrival).2 ↔
      Overruns checkAccess daemon.access arrival := by
  by_cases query : arrival.IsQuery
  · have effect := packetHandleUdp53_effect checkAccess daemon arrival
      (packetLog arrival.packet .udp)
    rw [packetHandle_of_query checkAccess daemon query]
    generalize packetHandleUdp53 checkAccess daemon arrival (packetLog arrival.packet .udp) =
      outcome at effect
    unfold Overruns
    cases effect with
    | overlong long => simp [query, long]
    | unasked short unasked => simp [Nat.not_lt.mpr short, unasked]
    | overran short asked long denied => simp [query, asked, long, denied]
    | checked short asked fits =>
        have contained := not_overrun_checkAndAnswer checkAccess
          (show Event.dnsAnswerSend ≠ .overrun by simp) daemon.access arrival.packet
          (dnsLog arrival.packet (packetLog arrival.packet .udp))
        apply iff_of_false
        · simpa using contained
        · rintro ⟨-, overlong | ⟨-, long, denied⟩⟩
          · omega
          · exact Nat.not_lt.mpr (fits denied) long
  · apply iff_of_false
    · intro overrun
      exact query ((packetHandle_effect checkAccess daemon arrival).isQuery_of_overrun overrun)
    · exact fun overruns => query overruns.1

/-! ## The records that are checked -/

theorem checked_checkAndAnswer {answer : Event} {access : σ} {packet : PacketInfo}
    {given log : Uwebfilterlog} {verdict : Verdict}
    (checked : Event.checkAccess log verdict ∈
      (checkAndAnswer checkAccess answer access packet given).2.2)
    (other : Event.checkAccess log verdict ≠ answer) : log = given := by
  simp only [checkAndAnswer, List.mem_cons, Event.checkAccess.injEq] at checked
  rcases checked with ⟨same, -⟩ | answered
  · exact same
  · split at answered
    · exact absurd (List.mem_singleton.mp answered) other
    · exact absurd answered List.not_mem_nil

theorem checked_judgeSni {access : σ} {packet : PacketInfo} {given log : Uwebfilterlog}
    {verdict : Verdict} {name : Option Bytes}
    (checked : Event.checkAccess log verdict ∈
      (judgeSni checkAccess access packet given name).2.2) :
    ∃ domain, log = { given with domain := domain } := by
  cases name with
  | none => exact absurd checked List.not_mem_nil
  | some domain => exact ⟨domain, checked_checkAndAnswer checkAccess checked nofun⟩

theorem not_checked_tcpflowSetverdict (flow : Tcpflow) (sent verdict : Verdict)
    (log : Uwebfilterlog) : Event.checkAccess log verdict ∉ tcpflowSetverdict flow sent := by
  intro checked
  obtain ⟨id, -, same⟩ := List.mem_map.mp checked
  cases same

theorem not_checked_tcpflowInsert (flows : TcpflowCache) (flow : Tcpflow) (now : Int)
    (verdict : Verdict) (log : Uwebfilterlog) :
    Event.checkAccess log verdict ∉ (tcpflowInsert flows flow now).2 := by
  intro checked
  by_cases due : flows.tcpflowLastGc < now - 60
  · rw [tcpflowInsert_of_due flow due, tcpflowRungcIter_snd] at checked
    obtain ⟨expired, -, sent⟩ := List.mem_flatMap.mp checked
    exact not_checked_tcpflowSetverdict expired .nfDrop verdict log sent
  · rw [tcpflowInsert_of_idle flow due] at checked
    exact absurd checked List.not_mem_nil

theorem checked_fresh {daemon : Daemon σ} {arrival : Arrival} {log : Uwebfilterlog}
    {verdict : Verdict}
    (checked : Event.checkAccess log verdict ∈
      (packetHandleTcp443Fresh checkAccess daemon arrival (packetLog arrival.packet .tcp)).2) :
    RecordOf arrival.packet log := by
  simp only [packetHandleTcp443Fresh] at checked
  split at checked
  · simp at checked
  split at checked
  · simp only [List.cons_append, List.mem_cons, List.mem_append, reduceCtorEq, false_or,
      List.not_mem_nil, or_false] at checked
    obtain ⟨domain, rfl⟩ := checked_judgeSni checkAccess checked
    exact ⟨.tcp, domain, [], rfl⟩
  split at checked
  · simp at checked
  split at checked
  · simp at checked
  split at checked
  · simp at checked
  · exact absurd checked (not_checked_tcpflowInsert _ _ _ verdict log)

theorem checked_packetHandleTcp443 {daemon : Daemon σ} {arrival : Arrival} {log : Uwebfilterlog}
    {verdict : Verdict} (looksUp : arrival.LooksUp)
    (checked : Event.checkAccess log verdict ∈ (packetHandle checkAccess daemon arrival).2) :
    RecordOf arrival.packet log := by
  cases found : tcpflowLookup arrival.choice daemon.flows arrival.key with
  | none =>
      rw [packetHandle_of_looksUp checkAccess daemon looksUp, found] at checked
      exact checked_fresh checkAccess checked
  | some entry =>
      cases appended : tcpflowValueAppend entry.2.value arrival.packet.id
          arrival.packet.tcpBytes with
      | none =>
          rw [packetHandle_of_refused checkAccess daemon looksUp found appended] at checked
          exact absurd checked (not_checked_tcpflowSetverdict _ _ verdict log)
      | some value =>
          by_cases complete : value.expected ≤ value.current
          · rw [packetHandle_of_complete checkAccess daemon looksUp found appended complete]
              at checked
            simp only [List.cons_append, List.mem_cons, List.mem_append, reduceCtorEq, false_or]
              at checked
            rcases checked with judged | sent
            · obtain ⟨domain, rfl⟩ := checked_judgeSni checkAccess judged
              exact ⟨.tcp, domain, [], rfl⟩
            · exact absurd sent (not_checked_tcpflowSetverdict _ _ verdict log)
          · rw [packetHandle_of_incomplete checkAccess daemon looksUp found appended (by omega)]
              at checked
            simp at checked

theorem checked_query {daemon : Daemon σ} {arrival : Arrival} {log : Uwebfilterlog}
    {verdict : Verdict}
    (checked : Event.checkAccess log verdict ∈
      (packetHandleUdp53 checkAccess daemon arrival (packetLog arrival.packet .udp)).2) :
    RecordOf arrival.packet log := by
  have effect := packetHandleUdp53_effect checkAccess daemon arrival
    (packetLog arrival.packet .udp)
  generalize packetHandleUdp53 checkAccess daemon arrival (packetLog arrival.packet .udp) =
    outcome at effect checked
  cases effect with
  | overlong | unasked => simp at checked
  | overran =>
      obtain ⟨rfl, -⟩ : log = dnsLog arrival.packet (packetLog arrival.packet .udp) ∧ _ := by
        simpa using checked
      exact ⟨.udp, _, _, rfl⟩
  | checked =>
      rcases List.mem_append.mp checked with inside | sent
      · exact ⟨.udp, _, _, checked_checkAndAnswer checkAccess inside nofun⟩
      · simp at sent

/-- Every check is of a record of the packet that is handled. -/
theorem checked_packetHandle {daemon : Daemon σ} {arrival : Arrival} {log : Uwebfilterlog}
    {verdict : Verdict}
    (checked : Event.checkAccess log verdict ∈ (packetHandle checkAccess daemon arrival).2) :
    RecordOf arrival.packet log := by
  by_cases looksUp : arrival.LooksUp
  · exact checked_packetHandleTcp443 checkAccess looksUp checked
  by_cases query : arrival.IsQuery
  · rw [packetHandle_of_query checkAccess daemon query] at checked
    exact checked_query checkAccess checked
  rcases packetHandle_of_other checkAccess daemon looksUp query with
    accepted | ⟨given, record, handled⟩
  · simp [accepted] at checked
  · rw [handled] at checked
    rcases List.mem_append.mp checked with inside | sent
    · obtain rfl := checked_checkAndAnswer checkAccess inside nofun
      exact record
    · simp at sent

end Effects

end Uwebfilter
