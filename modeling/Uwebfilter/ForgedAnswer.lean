import Uwebfilter.DnsAnswer
import Uwebfilter.DnsNames

/-!
# The forged DNS answer

What `dns_answer_send` makes of a query for a legal name: a datagram that parses
as an answer to the query, and that the buffer has room for only where the name
takes at most 227 octets.
-/

namespace Uwebfilter

open ByteReader ByteWriter CStrings DnsMessage Datagram WireParser

/-- The first question of a packet's DNS message, all inside the packet, with a
name of labels of 1 to 63 bytes other than zero. -/
structure AsksFor (packet : PacketInfo) (question : Question) : Prop where
  holds : Holds (byteAt packet.payload) (queryOffset packet) question.encode
  inside : queryOffset packet + question.encode.length ≤ packet.payloadLength
  nonempty : ∀ label ∈ question.name, label ≠ []
  short : ∀ label ∈ question.name, label.length ≤ 63
  zeroFree : ∀ label ∈ question.name, 0 ∉ label
  qtype : question.qtype < 65536
  qclass : question.qclass < 65536

/-- The record of the answer: the question's name at 127.0.0.1 for ten seconds. -/
def forgedRecord (question : Question) : Record where
  name := question.name
  type := 1
  rclass := 1
  ttl := 10
  rdata := [127, 0, 0, 1]

def forgedMessage (packet : PacketInfo) (question : Question) : Message where
  id := u16be packet.payload packet.udpPayload
  flags := 0x8180
  questions := [question]
  answers := [forgedRecord question]
  authorities := []
  additionals := []

section Query

variable {packet : PacketInfo} {question : Question}

/-- The length octets of a name are no zeros either. -/
theorem zero_not_mem_labels {labels : List Bytes} (nonempty : ∀ label ∈ labels, label ≠ [])
    (short : ∀ label ∈ labels, label.length ≤ 63) (zeroFree : ∀ label ∈ labels, 0 ∉ label) :
    0 ∉ labels.flatMap encodeLabel := by
  intro member
  obtain ⟨label, labelMember, inside⟩ := List.mem_flatMap.mp member
  rcases List.mem_cons.mp inside with length | letter
  · have positive := List.length_pos_of_ne_nil (nonempty label labelMember)
    have small := short label labelMember
    have exact8 : (UInt8.ofNat label.length).toNat = label.length :=
      UInt8.toNat_ofNat_of_lt' (Nat.lt_of_le_of_lt small (by decide))
    rw [← length] at exact8
    simp at exact8
    omega
  · exact zeroFree label labelMember letter

/-- `strlen` of a content that a zero follows. -/
theorem cString_drop_of_holds {memory content : Bytes} {address : Nat} (zeroFree : 0 ∉ content)
    (holds : Holds (byteAt memory) address (content ++ [0])) :
    cString (memory.drop address) = content := by
  induction content generalizing address with
  | nil =>
      rw [List.nil_append, holds_cons] at holds
      cases rest : memory.drop address with
      | nil => rfl
      | cons value values =>
          have here : value = 0 := by
            rw [← holds.1, byteAt, List.getD_eq_getElem?_getD, ← List.head?_drop, rest]
            rfl
          rw [here]
          rfl
  | cons letter content ih =>
      rw [List.cons_append, holds_cons] at holds
      rw [List.mem_cons, not_or] at zeroFree
      have inside : address < memory.length := by
        by_contra outside
        have nothing : byteAt memory address = 0 := by
          rw [byteAt, List.getD_eq_getElem?_getD, List.getElem?_eq_none (by omega)]
          rfl
        exact zeroFree.1 (nothing ▸ holds.1)
      have here : memory[address] = letter := by
        rw [← holds.1]
        simp [byteAt, inside]
      rw [List.drop_eq_getElem_cons inside, here, cString, List.takeWhile_cons_of_pos
        (by simpa using Ne.symm zeroFree.1)]
      exact congrArg _ (ih zeroFree.2 holds.2)

theorem AsksFor.queryLength_eq (asks : AsksFor packet question) :
    queryLength packet = (encodeName question.name).length := by
  have holds := asks.holds
  rw [Question.encode, holds_append] at holds
  rw [queryLength, cString_drop_of_holds
    (zero_not_mem_labels asks.nonempty asks.short asks.zeroFree) holds.1, encodeName,
    List.length_append, List.length_singleton]

theorem AsksFor.answerEnd_eq (asks : AsksFor packet question) :
    answerEnd packet = 58 + 2 * (encodeName question.name).length := by
  rw [answerEnd, asks.queryLength_eq]
  omega

theorem AsksFor.recordBytes_eq (asks : AsksFor packet question) :
    recordBytes packet = question.encode ++ (forgedRecord question).encode := by
  have whole := asks.holds.map_range'
  have name := asks.holds
  rw [Question.encode, holds_append] at name
  have nameWhole := name.1.map_range'
  have length : question.encode.length = queryLength packet + 4 := by
    rw [asks.queryLength_eq, Question.encode, List.length_append, List.length_append,
      be16_length, be16_length]
  rw [length] at whole
  rw [← asks.queryLength_eq] at nameWhole
  rw [recordBytes, readBytes, whole, readBytes, nameWhole]
  simp [forgedRecord, Record.encode]

theorem AsksFor.message_eq (asks : AsksFor packet question) :
    dnsHeaderBytes packet ++ recordBytes packet = (forgedMessage packet question).encode := by
  rw [asks.recordBytes_eq]
  simp [dnsHeaderBytes, forgedMessage, Message.encode]

end Query

/-! ## Queries that are answered -/

section Answered

variable {packet : PacketInfo} {question : Question}

/-- What the extractor makes of the query. -/
theorem AsksFor.dnsDomain_eq (asks : AsksFor packet question) (named : question.name ≠ [])
    (asked : 1 ≤ u16be packet.payload (packet.udpPayload + 4))
    (captured : packet.payloadLength < 65536) :
    dnsDomain packet = (decide (AcceptedType question.qtype), dotted question.name) := by
  have inside := asks.inside
  have holds := asks.holds
  rw [Question.encode, ← List.append_assoc, holds_append] at holds
  rw [Question.encode, List.length_append] at inside
  have length : packet.udpPayloadLength = packet.payloadLength - packet.udpPayload := by
    apply u16_eq
    · simp only [queryOffset, PacketInfo.udpPayload, PacketInfo.transport] at inside ⊢
      omega
    · omega
  refine extractDnsDomain_named ?_ named asks.nonempty asks.short asks.zeroFree ?_ ?_
  · exact Nat.one_le_iff_ne_zero.mp asked
  · intro index below
    rw [← holds.1 index below, queryOffset, Nat.add_assoc]
  · rw [length]
    simp only [queryOffset] at inside
    omega

/-- A query for a legal name that `check_access` denies reaches `dns_answer_send`. -/
theorem AsksFor.answered {σ : Type} {checkAccess : CheckAccess σ} {daemon : Daemon σ}
    {arrival : Arrival} {log : Uwebfilterlog} (asks : AsksFor arrival.packet question)
    (named : question.name ≠ [])
    (asked : 1 ≤ u16be arrival.packet.payload (arrival.packet.udpPayload + 4))
    (captured : arrival.packet.payloadLength < 65536) (accepted : AcceptedType question.qtype)
    (legal : (encodeName question.name).length ≤ 255)
    (denied : ∀ access log saddr daddr, (checkAccess access log saddr daddr).1 = .nfDrop) :
    dnsAnswer arrival.packet ∈ (packetHandleUdp53 checkAccess daemon arrival log).2 := by
  have length := dotted_length named
  have short : ¬ logRoom < (dotted question.name).length := by
    change ¬ 1312 < _
    omega
  simp only [packetHandleUdp53, asks.dnsDomain_eq named asked captured, short, if_false, accepted,
    decide_true, if_true, checkAndAnswer, denied, true_and]
  split <;> simp

end Answered

/-- A query to port 53 captured with the shortest IP header. -/
def capturedQuery (question : Question) : PacketInfo :=
  let length := question.encode.length + 40
  { id := 1
    payload :=
      [0x45, 0, UInt8.ofNat (length / 256), UInt8.ofNat length, 0, 7, 0, 0, 64, 17, 0, 0,
        10, 0, 0, 1, 10, 0, 0, 2] ++
      ([0x30, 0x39, 0, 53, UInt8.ofNat ((length - 20) / 256), UInt8.ofNat (length - 20), 0, 0] ++
      ([0x12, 0x34, 1, 0, 0, 1, 0, 0, 0, 0, 0, 0] ++ question.encode))
    payloadLength := length }

section CapturedQuery

variable {question : Question}

theorem udpPayload_capturedQuery : (capturedQuery question).udpPayload = 28 := by
  simp [PacketInfo.udpPayload, PacketInfo.transport, PacketInfo.ihl, capturedQuery, byteAt]

theorem asked_capturedQuery :
    1 ≤ u16be (capturedQuery question).payload ((capturedQuery question).udpPayload + 4) := by
  rw [udpPayload_capturedQuery]
  simp [capturedQuery, u16be, byteAt]

theorem payloadLength_capturedQuery :
    (capturedQuery question).payloadLength = (encodeName question.name).length + 44 := by
  simp [capturedQuery, Question.encode]

theorem asksFor_capturedQuery (nonempty : ∀ label ∈ question.name, label ≠ [])
    (short : ∀ label ∈ question.name, label.length ≤ 63)
    (zeroFree : ∀ label ∈ question.name, 0 ∉ label) (qtype : question.qtype < 65536)
    (qclass : question.qclass < 65536) : AsksFor (capturedQuery question) question where
  holds := by
    have whole := holds_getD (capturedQuery question).payload []
    simp only [capturedQuery, List.append_nil, holds_append] at whole
    rw [queryOffset, udpPayload_capturedQuery]
    exact whole.2.2.2
  inside := by
    rw [queryOffset, udpPayload_capturedQuery]
    exact Nat.le_of_eq (Nat.add_comm _ _)
  nonempty := nonempty
  short := short
  zeroFree := zeroFree
  qtype := qtype
  qclass := qclass

end CapturedQuery

def questionOfBc : Question where
  name := [[98], [99]]
  qtype := 1
  qclass := 1

theorem asksFor_questionOfBc : AsksFor (capturedQuery questionOfBc) questionOfBc :=
  asksFor_capturedQuery (by decide) (by decide) (by decide) (by decide) (by decide)

/-! ## Room for the answer -/

/-- Every byte written is inside the buffer, the bytes laid out are as many as
`tot_len` says, and `uh_ulen` agrees with it. -/
structure AnswerFits (packet : PacketInfo) : Prop where
  inside : ∀ address ∈ (answerBuffer packet).written, address < answerBufferSize
  laidOut : ∀ address, address ∈ (answerBuffer packet).written ↔ address < answerTotLen packet
  udpLength : answerTotLen packet = 20 + answerUhUlen packet

section Room

variable {packet : PacketInfo}

theorem wordAt_of_holds {memory : Nat → UInt8} {address value : Nat}
    (holds : Holds memory address (be16 value)) (small : value < 65536) :
    wordAt memory address = value := by
  simp only [be16, holds_cons] at holds
  rw [wordAt, holds.1, holds.2.1]
  exact be16_toNat small

theorem answerTotLen_eq (small : answerEnd packet < 65536) :
    answerTotLen packet = answerEnd packet := by
  have holds := holds_answerBuffer packet
  simp only [Ipv4Header.encode, answerIpHeader, holds_append, List.length_singleton] at holds
  exact wordAt_of_holds holds.1.2.2.1 small

theorem answerUdpHeader_length (packet : PacketInfo) :
    20 + (answerUdpHeader packet).length = answerEnd packet := by
  simp only [answerEnd, answerUdpHeader]
  omega

theorem answerUhUlen_eq (small : answerEnd packet < 65536) :
    20 + answerUhUlen packet = answerEnd packet := by
  have holds := holds_answerBuffer packet
  have total := answerUdpHeader_length packet
  rw [holds_append, answerIpHeader_length, holds_append] at holds
  have fields := holds.2.1
  simp only [UdpHeader.encode, holds_append, be16_length] at fields
  rw [answerUhUlen, wordAt_of_holds fields.2.2.1 (by omega), total]

/-- There is room for the answer exactly where the name takes at most 227 octets. -/
theorem answerFits_iff_short {question : Question} (asks : AsksFor packet question)
    (legal : (encodeName question.name).length ≤ 255) :
    AnswerFits packet ↔ (encodeName question.name).length ≤ 227 := by
  have total := asks.answerEnd_eq
  constructor
  · intro fits
    by_contra long
    have last := fits.inside (answerEnd packet - 1) (mem_written_answerBuffer.mpr (by omega))
    rw [answerBufferSize] at last
    omega
  · intro short
    have small : answerEnd packet < 65536 := by omega
    constructor
    · intro address written
      have below := mem_written_answerBuffer.mp written
      rw [answerBufferSize]
      omega
    · intro address
      rw [answerTotLen_eq small]
      exact mem_written_answerBuffer
    · rw [answerTotLen_eq small, answerUhUlen_eq small]

end Room

theorem answerFits_iff_short_questionOfBc :
    AnswerFits (capturedQuery questionOfBc) ↔ (encodeName questionOfBc.name).length ≤ 227 :=
  answerFits_iff_short asksFor_questionOfBc (by decide)

/-- A question for a name of 228 octets. -/
def longQuestion : Question where
  name := List.replicate 3 (List.replicate 63 98) ++ [List.replicate 34 98]
  qtype := 1
  qclass := 1

theorem longQuestion_length : (encodeName longQuestion.name).length = 228 := by
  rw [encodeName_length]
  decide

theorem asksFor_longQuestion : AsksFor (capturedQuery longQuestion) longQuestion :=
  asksFor_capturedQuery (by decide) (by decide) (by decide) (by decide) (by decide)

/-- The name is legal, the answer to its query is laid out, and does not fit. -/
theorem not_answerFits_longQuestion :
    LegalName longQuestion.name ∧
      .overrun ∈ (packetHandleUdp53 (fun _ _ _ _ => (.nfDrop, ())) (daemonStart ())
        (plainArrival 0 (capturedQuery longQuestion)) {}).2 ∧
      ¬ AnswerFits (capturedQuery longQuestion) := by
  have length := longQuestion_length
  refine ⟨⟨by decide, by decide, by omega⟩, ?_, ?_⟩
  · have captured : (capturedQuery longQuestion).payloadLength < 65536 := by
      rw [payloadLength_capturedQuery]
      omega
    have asks : AsksFor (plainArrival 0 (capturedQuery longQuestion)).packet longQuestion :=
      asksFor_longQuestion
    have long : answerBufferSize < answerEnd (capturedQuery longQuestion) := by
      rw [asksFor_longQuestion.answerEnd_eq, length]
      decide
    have laid : dnsAnswer (capturedQuery longQuestion) ∈
        (packetHandleUdp53 (fun _ _ _ _ => (.nfDrop, ())) (daemonStart ())
          (plainArrival 0 (capturedQuery longQuestion)) {}).2 :=
      asks.answered (by decide) asked_capturedQuery captured (by decide) (by omega)
        fun _ _ _ _ => rfl
    rwa [dnsAnswer_of_long long] at laid
  · intro fits
    have last := fits.inside 513 (mem_written_answerBuffer.mpr (by
      rw [asksFor_longQuestion.answerEnd_eq]
      omega))
    exact absurd last (by decide)

/-! ## The answer as its receiver parses it -/

structure ParsedAnswer where
  ip : Ipv4Header
  udp : UdpHeader
  dns : Message
  deriving DecidableEq, Repr

/-- A whole datagram of IPv4, UDP and DNS. -/
def parseAnswer (datagram : Bytes) : Option ParsedAnswer := do
  let (ip, ipPayload) ← parseIpv4 datagram
  let (udp, udpPayload) ← parseUdp ipPayload
  let dns ← parseWhole parseMessage udpPayload
  pure ⟨ip, udp, dns⟩

/-- `extract_dns_domain` on the bytes of a message from a place on. -/
def domainAt (memory : Bytes) (start length : Nat) : Bool × Bytes :=
  (extractDnsDomain length).run fun index => byteAt memory (start + index)

/-- A datagram answers a query: it goes back to where the query is from, its
lengths and its checksum are right, it repeats the question, and its record has
the name of the question and the address 127.0.0.1. -/
structure AnswersQuery (packet : PacketInfo) (question : Question) (datagram : Bytes)
    (answer : ParsedAnswer) : Prop where
  source : answer.ip.source = readBytes packet.payload 16 4
  destination : answer.ip.destination = readBytes packet.payload 12 4
  protocol : answer.ip.protocol.toNat = ipprotoUdp
  sourcePort : answer.udp.sourcePort = packet.dport
  destinationPort : answer.udp.destinationPort = packet.sport
  totalLength : answer.ip.totalLength = datagram.length
  udpLength : answer.ip.totalLength = 20 + answer.udp.length
  verifies : OnesComplement.Verifies (datagram.take 20)
  id : answer.dns.id = u16be packet.payload packet.udpPayload
  questions : answer.dns.questions = [question]
  sameQuestion : readBytes datagram 40 question.encode.length =
    readBytes packet.payload (queryOffset packet) question.encode.length
  answers : answer.dns.answers = [forgedRecord question]
  sameDomain : domainAt datagram 28 (datagram.length - 28) =
    domainAt packet.payload packet.udpPayload packet.udpPayloadLength

section Parsing

variable {packet : PacketInfo} {question : Question}

theorem legal_answerIpHeader (fits : answerEnd packet ≤ answerBufferSize) :
    (answerIpHeader packet (answerCheck packet)).Legal where
  totalLength := Nat.lt_of_le_of_lt fits (by decide)
  identification := by simp [answerIpHeader]
  fragment := by simp [answerIpHeader]
  checksum := by
    have small := answerCheck_lt packet
    simp only [answerIpHeader]
    omega
  source := readBytes_length _ _ _
  destination := readBytes_length _ _ _
  options := by simp [answerIpHeader]
  words := by simp [answerIpHeader]

theorem legal_answerUdpHeader (fits : answerEnd packet ≤ answerBufferSize) :
    (answerUdpHeader packet).Legal where
  sourcePort := u16be_lt _ _
  destinationPort := u16be_lt _ _
  length := by
    simp only [answerEnd, answerBufferSize, answerUdpHeader] at fits ⊢
    omega
  checksum := by simp [answerUdpHeader]

/-- A name that leaves room for the answer is legal. -/
theorem AsksFor.legalName (asks : AsksFor packet question)
    (fits : answerEnd packet ≤ answerBufferSize) : LegalName question.name where
  nonempty := asks.nonempty
  short := asks.short
  fits := by
    rw [asks.answerEnd_eq, answerBufferSize] at fits
    omega

theorem AsksFor.legal_forgedMessage (asks : AsksFor packet question)
    (fits : answerEnd packet ≤ answerBufferSize) : (forgedMessage packet question).Legal where
  id := u16be_lt _ _
  flags := by simp [forgedMessage]
  qdcount := by simp [forgedMessage]
  ancount := by simp [forgedMessage]
  nscount := by simp [forgedMessage]
  arcount := by simp [forgedMessage]
  questions other member := by
    rw [List.mem_singleton.mp member]
    exact ⟨asks.legalName fits, asks.qtype, asks.qclass⟩
  answers record member := by
    rw [List.mem_singleton.mp member]
    exact ⟨asks.legalName fits, by simp [forgedRecord], by simp [forgedRecord],
      by simp [forgedRecord], by simp [forgedRecord]⟩
  authorities record member := absurd member List.not_mem_nil
  additionals record member := absurd member List.not_mem_nil

/-- The answer in the three formats, one behind the other. -/
def answerBytes (packet : PacketInfo) (question : Question) : Bytes :=
  (answerIpHeader packet (answerCheck packet)).encode ++
    ((answerUdpHeader packet).encode ++ (forgedMessage packet question).encode)

theorem AsksFor.answerBytes_length (asks : AsksFor packet question) :
    (answerBytes packet question).length = answerEnd packet := by
  rw [answerBytes, ← asks.message_eq, asks.recordBytes_eq, asks.answerEnd_eq]
  simp only [List.length_append, answerIpHeader_length, UdpHeader.encode, dnsHeaderBytes,
    Question.encode, Record.encode, forgedRecord, be16_length, be32_length, List.length_cons,
    List.length_nil]
  omega

theorem AsksFor.datagram_eq (asks : AsksFor packet question)
    (fits : answerEnd packet ≤ answerBufferSize) :
    (List.range' 0 (answerTotLen packet)).map (answerBuffer packet).memory =
      answerBytes packet question := by
  have holds := holds_answerBuffer packet
  rw [asks.message_eq, ← answerBytes] at holds
  have whole := holds.map_range'
  rwa [asks.answerBytes_length, ← answerTotLen_eq (Nat.lt_of_le_of_lt fits (by decide))] at whole

theorem AsksFor.parseAnswer (asks : AsksFor packet question)
    (fits : answerEnd packet ≤ answerBufferSize) :
    parseAnswer (answerBytes packet question) =
      some ⟨answerIpHeader packet (answerCheck packet), answerUdpHeader packet,
        forgedMessage packet question⟩ := by
  have total := asks.answerBytes_length
  have ip : parseIpv4 (answerBytes packet question) = some (_, _) :=
    parseIpv4_encode (legal_answerIpHeader fits) total.symm verifies_answerIpHeader
  rw [answerBytes, List.length_append, answerIpHeader_length] at total
  have udpTotal := answerUdpHeader_length packet
  have udp := parseUdp_encode (legal_answerUdpHeader fits) (by omega :
    _ = ((answerUdpHeader packet).encode ++ (forgedMessage packet question).encode).length)
  have dns := parseWhole_of_parses (asks.legal_forgedMessage fits).parses
  rw [Uwebfilter.parseAnswer, ip, Option.bind_eq_bind, Option.bind_some]
  simp only [udp, dns, Option.bind_eq_bind, Option.bind_some]
  rfl

theorem AsksFor.holds_answer (asks : AsksFor packet question) :
    Holds (byteAt (answerBytes packet question)) 28 (dnsHeaderBytes packet) ∧
      Holds (byteAt (answerBytes packet question)) 40 question.encode := by
  have whole := holds_getD (answerBytes packet question) []
  rw [List.append_nil, answerBytes, ← asks.message_eq, asks.recordBytes_eq] at whole
  simp only [holds_append, answerIpHeader_length] at whole
  rw [answerBytes, ← asks.message_eq, asks.recordBytes_eq]
  exact ⟨whole.2.2.1, whole.2.2.2.1⟩

theorem AsksFor.domainAt_answer (asks : AsksFor packet question) (named : question.name ≠ []) :
    domainAt (answerBytes packet question) 28 ((answerBytes packet question).length - 28) =
      (decide (AcceptedType question.qtype), dotted question.name) := by
  obtain ⟨header, asked⟩ := asks.holds_answer
  rw [Question.encode, ← List.append_assoc, holds_append] at asked
  refine extractDnsDomain_named ?_ named asks.nonempty asks.short asks.zeroFree ?_ ?_
  · simp only [dnsHeaderBytes, be16, holds_append, holds_cons, List.length_cons,
      List.length_nil] at header
    rw [header.2.2.1.1, header.2.2.1.2.1]
    decide
  · intro index below
    have shifted : 28 + (12 + index) = 40 + index := by omega
    rw [← asked.1 index below]
    exact congrArg (byteAt (answerBytes packet question)) shifted
  · rw [asks.answerBytes_length, asks.answerEnd_eq]
    omega

/-- Every datagram sent for a query with a name that leaves room for the answer
answers the query. -/
theorem dnsAnswerSend_answersQuery {sent : SentDatagram} {socketOk setsockoptOk : Bool}
    (captured : packet.payloadLength < 65536) (asks : AsksFor packet question)
    (named : question.name ≠ []) (asked : 1 ≤ u16be packet.payload (packet.udpPayload + 4))
    (fits : answerEnd packet ≤ answerBufferSize)
    (sends : dnsAnswerSend packet socketOk setsockoptOk = some sent) :
    ∃ answer, parseAnswer sent.datagram = some answer ∧
      AnswersQuery packet question sent.datagram answer := by
  have datagram : sent.datagram = answerBytes packet question := by
    rw [← asks.datagram_eq fits]
    unfold dnsAnswerSend at sends
    split at sends
    · rw [← Option.some.inj sends]
    · exact absurd sends (by simp)
  refine ⟨_, datagram ▸ asks.parseAnswer fits, ?_⟩
  rw [datagram]
  exact
    { source := rfl
      destination := rfl
      protocol := rfl
      sourcePort := rfl
      destinationPort := rfl
      totalLength := asks.answerBytes_length.symm
      udpLength := (answerUdpHeader_length packet).symm
      verifies := by
        rw [answerBytes, List.take_left' answerIpHeader_length]
        exact verifies_answerIpHeader
      id := rfl
      questions := rfl
      sameQuestion := by
        rw [readBytes, asks.holds_answer.2.map_range', readBytes, asks.holds.map_range']
      answers := rfl
      sameDomain :=
        (asks.domainAt_answer named).trans (asks.dnsDomain_eq named asked captured).symm }

end Parsing

theorem dnsAnswerSend_answersQuery_questionOfBc :
    ∃ sent answer, dnsAnswerSend (capturedQuery questionOfBc) true true = some sent ∧
      parseAnswer sent.datagram = some answer ∧
      AnswersQuery (capturedQuery questionOfBc) questionOfBc sent.datagram answer := by
  have fits : answerEnd (capturedQuery questionOfBc) ≤ answerBufferSize := by
    rw [asksFor_questionOfBc.answerEnd_eq]
    decide
  have sends : ∃ sent, dnsAnswerSend (capturedQuery questionOfBc) true true = some sent :=
    ⟨_, rfl⟩
  obtain ⟨sent, sends⟩ := sends
  obtain ⟨answer, parsed, answers⟩ := dnsAnswerSend_answersQuery (by decide) asksFor_questionOfBc
    (by decide) asked_capturedQuery fits sends
  exact ⟨sent, answer, sends, parsed, answers⟩

end Uwebfilter
