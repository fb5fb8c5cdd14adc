import Uwebfilter.ByteWriter
import Uwebfilter.Datagram
import Uwebfilter.DnsMessage
import Uwebfilter.PacketHandle

/-!
# `dns_answer_send`

The forged answer of `block.c`, laid out in a buffer of 512 bytes in the order
of the source: the question and the answer behind the three headers, then each
header.  What the buffer holds then is a datagram of the formats, as far as
there is room for it.
-/

namespace Uwebfilter

open ByteReader ByteWriter CStrings DnsMessage Datagram WireParser

/-! ## `checksum` -/

/-- The loop of `checksum` over the words of a little-endian host. -/
def checksumLoop (cksum : Nat) : Bytes → Nat
  | [] => cksum
  | [last] => cksum + last.toNat
  | low :: high :: rest => checksumLoop (cksum + (low.toNat + high.toNat * 256)) rest

def checksum (buffer : Bytes) : Nat :=
  let cksum := checksumLoop 0 buffer
  let cksum := cksum / 65536 + cksum % 65536
  let cksum := cksum + cksum / 65536
  65535 - cksum % 65536

theorem checksumLoop_eq (cksum : Nat) (buffer : Bytes) :
    checksumLoop cksum buffer = cksum + OnesComplement.swappedSum buffer := by
  induction buffer using OnesComplement.swappedSum.induct generalizing cksum with
  | case1 => rfl
  | case2 last => rfl
  | case3 low high rest ih =>
      rw [checksumLoop, ih, OnesComplement.swappedSum, Nat.add_assoc]

theorem checksum_eq (buffer : Bytes) :
    checksum buffer = 65535 - OnesComplement.fold (OnesComplement.swappedSum buffer) := by
  rw [checksum, checksumLoop_eq, Nat.zero_add]
  rfl

/-- The checksum of some bytes with two zeros between them, as a little-endian
host stores it there. -/
def checkBytes (front back : Bytes) : Bytes :=
  let check := checksum (front ++ ([0, 0] ++ back))
  [UInt8.ofNat check, UInt8.ofNat (check / 256)]

theorem checkBytes_length (front back : Bytes) : (checkBytes front back).length = 2 := rfl

theorem checksum_lt (buffer : Bytes) : checksum buffer < 65536 := by
  rw [checksum_eq]
  omega

/-- Bytes with their checksum stored in them verify. -/
theorem verifies_checkBytes {front back : Bytes} (even : front.length % 2 = 0)
    (short : (front ++ back).length < 65536)
    (positive : 0 < OnesComplement.swappedSum front) :
    OnesComplement.Verifies (front ++ (checkBytes front back ++ back)) := by
  have small := checksum_lt (front ++ ([0, 0] ++ back))
  have sum : OnesComplement.swappedSum (front ++ ([0, 0] ++ back)) =
      OnesComplement.swappedSum front + OnesComplement.swappedSum back := by
    rw [OnesComplement.swappedSum_append even]
    simp [OnesComplement.swappedSum]
  have computed : checksum (front ++ ([0, 0] ++ back)) = 65535 - OnesComplement.fold
      (OnesComplement.swappedSum front + OnesComplement.swappedSum back) := by
    rw [checksum_eq, sum]
  apply OnesComplement.verifies_of_complement even short
  · omega
  · rw [← computed, UInt8.toNat_ofNat', UInt8.toNat_ofNat']
    omega

/-- Zeros behind some words do not change their checksum. -/
theorem checksum_append_zeros {front : Bytes} (even : front.length % 2 = 0) (count : Nat) :
    checksum (front ++ List.replicate (2 * count) 0) = checksum front := by
  have zeros : OnesComplement.swappedSum (List.replicate (2 * count) 0) = 0 := by
    induction count with
    | zero => rfl
    | succ count ih => simpa [Nat.mul_add, List.replicate_succ, OnesComplement.swappedSum] using ih
  rw [checksum_eq, checksum_eq, OnesComplement.swappedSum_append even, zeros, Nat.add_zero]

/-! ## The layout -/

section Layout

variable (packet : PacketInfo)

/-- The DNS query and the DNS answer. -/
def layRecords : ByteWriter :=
  let query := queryOffset packet
  let buffer := cleared.write 40 (readBytes packet.payload query (queryLength packet + 4))
  let ptr := 40 + (queryLength packet + 4)
  let buffer := buffer.write ptr (readBytes packet.payload query (queryLength packet))
  let ptr := ptr + queryLength packet
  buffer.writeFields ptr [be16 1, be16 1, be32 10, be16 4, [127, 0, 0, 1]]

/-- The IP header.  Its checksum is taken before it is there. -/
def layIpHeader (buffer : ByteWriter) : ByteWriter :=
  let buffer := buffer.writeFields 0
    [[0x45], [0], be16 (answerEnd packet), [0, 0], [0, 0], [64], [17]]
  let buffer := buffer.writeFields 12
    [readBytes packet.payload 16 4, readBytes packet.payload 12 4]
  let check := checksum ((List.range' 0 20).map buffer.memory)
  buffer.write 10 [UInt8.ofNat check, UInt8.ofNat (check / 256)]

def layUdpHeader (buffer : ByteWriter) : ByteWriter :=
  buffer.writeFields 20
    [readBytes packet.payload (packet.transport + 2) 2, readBytes packet.payload packet.transport 2,
      be16 (8 + 12 + (queryLength packet + 4) + (queryLength packet + 14)), [0, 0]]

/-- The header of the DNS response. -/
def layDnsHeader (buffer : ByteWriter) : ByteWriter :=
  buffer.writeFields 28
    [readBytes packet.payload packet.udpPayload 2, be16 0x8180, be16 1, be16 1, [0, 0], [0, 0]]

/-- `buffer` when all of it is laid out. -/
def answerBuffer : ByteWriter :=
  layDnsHeader packet (layUdpHeader packet (layIpHeader packet (layRecords packet)))

/-- `iphdr->tot_len` in host order. -/
def answerTotLen : Nat := wordAt (answerBuffer packet).memory 2

/-- `udphdr->uh_ulen` in host order. -/
def answerUhUlen : Nat := wordAt (answerBuffer packet).memory 24

/-- What `sendto` is given. -/
structure SentDatagram where
  datagram : Bytes
  sinPort : Nat
  sinAddr : Nat
  deriving DecidableEq, Repr

/-- `dns_answer_send`, where `socket` and `setsockopt` succeed or fail. -/
def dnsAnswerSend (socketOk setsockoptOk : Bool) : Option SentDatagram :=
  if socketOk && setsockoptOk then
    some
      { datagram := (List.range' 0 (answerTotLen packet)).map (answerBuffer packet).memory
        sinPort := packet.sport
        sinAddr := packet.saddr }
  else none

end Layout

/-! ## What is written where -/

section Written

variable {packet : PacketInfo}

theorem mem_written_answerBuffer {address : Nat} :
    address ∈ (answerBuffer packet).written ↔ address < answerEnd packet := by
  simp only [answerBuffer, layDnsHeader, layUdpHeader, layIpHeader, layRecords, writeFields_eq,
    mem_written_write, cleared, List.flatten_cons, List.flatten_nil, List.length_append,
    readBytes_length, be16_length, be32_length, List.length_cons, List.length_nil,
    List.not_mem_nil, false_or, answerEnd]
  omega

/-- The bytes of the two records. -/
def recordBytes (packet : PacketInfo) : Bytes :=
  [readBytes packet.payload (queryOffset packet) (queryLength packet + 4),
    readBytes packet.payload (queryOffset packet) (queryLength packet),
    be16 1, be16 1, be32 10, be16 4, [127, 0, 0, 1]].flatten

theorem layRecords_eq : layRecords packet = cleared.write 40 (recordBytes packet) := by
  rw [recordBytes, ← writeFields_eq]
  simp only [layRecords, writeFields, readBytes_length]

/-- The IP header as a receiver reads it. -/
def answerIpHeader (packet : PacketInfo) (check : Nat) : Ipv4Header where
  tos := 0
  totalLength := answerEnd packet
  identification := 0
  fragment := 0
  ttl := 64
  protocol := 17
  checksum := check % 256 * 256 + check / 256
  source := readBytes packet.payload 16 4
  destination := readBytes packet.payload 12 4
  options := []

def answerUdpHeader (packet : PacketInfo) : UdpHeader where
  sourcePort := packet.dport
  destinationPort := packet.sport
  length := 8 + 12 + (queryLength packet + 4) + (queryLength packet + 14)
  checksum := 0

/-- The part of the IP header in front of its checksum. -/
def ipFront (packet : PacketInfo) : Bytes :=
  [0x45, 0] ++ (be16 (answerEnd packet) ++ [0, 0, 0, 0, 64, 17])

def ipBack (packet : PacketInfo) : Bytes :=
  readBytes packet.payload 16 4 ++ readBytes packet.payload 12 4

/-- A number in the order of the host, read in network order. -/
theorem be16_swapped {value : Nat} (small : value < 65536) :
    be16 (value % 256 * 256 + value / 256) = [UInt8.ofNat value, UInt8.ofNat (value / 256)] := by
  have front : (value % 256 * 256 + value / 256) / 256 = value % 256 := by omega
  have high : UInt8.ofNat ((value % 256 * 256 + value / 256) / 256) = UInt8.ofNat value := by
    rw [front, ← UInt8.toNat_inj, UInt8.toNat_ofNat', UInt8.toNat_ofNat']
    exact Nat.mod_mod _ _
  have low : UInt8.ofNat (value % 256 * 256 + value / 256) = UInt8.ofNat (value / 256) := by
    rw [← UInt8.toNat_inj, UInt8.toNat_ofNat', UInt8.toNat_ofNat']
    omega
  rw [be16, high, low]

theorem encode_answerIpHeader {check : Nat} (small : check < 65536) :
    (answerIpHeader packet check).encode =
      ipFront packet ++ ([UInt8.ofNat check, UInt8.ofNat (check / 256)] ++ ipBack packet) := by
  rw [← be16_swapped small]
  simp [Ipv4Header.encode, answerIpHeader, ipFront, ipBack, Ipv4Header.versionIhl, be16]

theorem ipFront_length : (ipFront packet).length = 10 := rfl

theorem ipBack_length : (ipBack packet).length = 8 := by
  rw [ipBack, List.length_append, readBytes_length, readBytes_length]

/-- The checksum of the IP header without one. -/
def answerCheck (packet : PacketInfo) : Nat :=
  checksum (ipFront packet ++ ([0, 0] ++ ipBack packet))

theorem answerCheck_lt (packet : PacketInfo) : answerCheck packet < 65536 := checksum_lt _

theorem answerIpHeader_length :
    (answerIpHeader packet (answerCheck packet)).encode.length = 20 := by
  rw [encode_answerIpHeader (answerCheck_lt packet), List.length_append, List.length_append,
    ipFront_length, ipBack_length]
  rfl

/-- The checksum verifies in the header it is written to. -/
theorem verifies_answerIpHeader :
    OnesComplement.Verifies (answerIpHeader packet (answerCheck packet)).encode := by
  have positive : 0 < OnesComplement.swappedSum (ipFront packet) := by
    rw [ipFront, List.cons_append, List.cons_append, OnesComplement.swappedSum]
    exact Nat.lt_of_lt_of_le (by decide) (Nat.le_add_right _ _)
  rw [encode_answerIpHeader (answerCheck_lt packet)]
  apply verifies_checkBytes _ _ positive
  · rw [ipFront_length]
  · rw [List.length_append, ipFront_length, ipBack_length]
    decide

theorem holds_layIpHeader {buffer : ByteWriter} (room : Holds buffer.memory 10 [0, 0]) :
    Holds (layIpHeader packet buffer).memory 0
      (answerIpHeader packet (answerCheck packet)).encode := by
  -- the header as `checksum` reads it
  set before := (buffer.write 0 (ipFront packet)).write 12 (ipBack packet) with filled
  have front : Holds before.memory 0 (ipFront packet) :=
    holds_write_of_apart holds_write (.inl (by rw [ipFront_length]; decide))
  have back : Holds before.memory 12 (ipBack packet) := holds_write
  have middle : Holds before.memory 10 [0, 0] :=
    holds_write_of_apart (holds_write_of_apart room (.inr (by rw [ipFront_length])))
      (.inl (by decide))
  have header : Holds before.memory 0 (ipFront packet ++ ([0, 0] ++ ipBack packet)) := by
    rw [holds_append, holds_append, ipFront_length]
    exact ⟨front, middle, back⟩
  have read : (List.range' 0 20).map before.memory = ipFront packet ++ ([0, 0] ++ ipBack packet) := by
    have whole := header.map_range'
    rwa [List.length_append, List.length_append, ipFront_length, ipBack_length] at whole
  have laid : layIpHeader packet buffer = before.write 10
      [UInt8.ofNat (answerCheck packet), UInt8.ofNat (answerCheck packet / 256)] := by
    have first : [[0x45], [0], be16 (answerEnd packet), [0, 0], [0, 0], [64], [17]].flatten =
        ipFront packet := rfl
    have second : [readBytes packet.payload 16 4, readBytes packet.payload 12 4].flatten =
        ipBack packet := by simp [ipBack]
    rw [layIpHeader, writeFields_eq, writeFields_eq, first, second, ← filled, read,
      ← answerCheck]
  rw [laid, encode_answerIpHeader (answerCheck_lt packet), holds_append, holds_append, ipFront_length]
  refine ⟨holds_write_of_apart front (.inl (by rw [ipFront_length])), holds_write, ?_⟩
  exact holds_write_of_apart back (.inr (Nat.le_refl 12))

theorem holds_layIpHeader_of_apart {buffer : ByteWriter} {address : Nat} {held : Bytes}
    (holds : Holds buffer.memory address held) (apart : 20 ≤ address) :
    Holds (layIpHeader packet buffer).memory address held := by
  rw [layIpHeader, writeFields_eq, writeFields_eq]
  refine holds_write_of_apart (holds_write_of_apart (holds_write_of_apart holds ?_) ?_) ?_
  · refine .inr ?_
    simp only [List.flatten_cons, List.flatten_nil, List.length_append, List.length_cons,
      List.length_nil, be16_length]
    omega
  · refine .inr ?_
    simp only [List.flatten_cons, List.flatten_nil, List.length_append, readBytes_length,
      List.length_nil]
    omega
  · refine .inr ?_
    simp only [List.length_cons, List.length_nil]
    omega

theorem readBytes_word (memory : Bytes) (address : Nat) :
    readBytes memory address 2 = be16 (u16be memory address) := by
  have high := (byteAt memory address).toNat_lt
  have low := (byteAt memory (address + 1)).toNat_lt
  have front : u16be memory address / 256 = (byteAt memory address).toNat := by
    rw [u16be]
    omega
  have back : UInt8.ofNat (u16be memory address) = byteAt memory (address + 1) := by
    rw [← UInt8.toNat_inj, UInt8.toNat_ofNat', u16be]
    omega
  rw [be16, front, back, UInt8.ofNat_toNat]
  rfl

theorem layUdpHeader_eq (buffer : ByteWriter) :
    layUdpHeader packet buffer = buffer.write 20 (answerUdpHeader packet).encode := by
  rw [layUdpHeader, writeFields_eq, readBytes_word, readBytes_word]
  simp [UdpHeader.encode, answerUdpHeader, PacketInfo.dport, PacketInfo.sport, be16]

/-- The header of the DNS message. -/
def dnsHeaderBytes (packet : PacketInfo) : Bytes :=
  be16 (u16be packet.payload packet.udpPayload) ++ (be16 0x8180 ++ (be16 1 ++ (be16 1 ++
    (be16 0 ++ be16 0))))

theorem layDnsHeader_eq (buffer : ByteWriter) :
    layDnsHeader packet buffer = buffer.write 28 (dnsHeaderBytes packet) := by
  rw [layDnsHeader, writeFields_eq, readBytes_word]
  rfl

/-- The buffer holds the three headers and the records one behind the other. -/
theorem holds_answerBuffer (packet : PacketInfo) :
    Holds (answerBuffer packet).memory 0
      ((answerIpHeader packet (answerCheck packet)).encode ++
        ((answerUdpHeader packet).encode ++ (dnsHeaderBytes packet ++ recordBytes packet))) := by
  have udpLength : (answerUdpHeader packet).encode.length = 8 := rfl
  have dnsLength : (dnsHeaderBytes packet).length = 12 := rfl
  have room : Holds (layRecords packet).memory 10 [0, 0] := by
    rw [layRecords_eq]
    exact holds_write_of_apart (holds_cleared 2) (.inl (by decide))
  have records : Holds (layRecords packet).memory 40 (recordBytes packet) := by
    rw [layRecords_eq]
    exact holds_write
  rw [answerBuffer, layDnsHeader_eq, layUdpHeader_eq, holds_append, holds_append, holds_append,
    answerIpHeader_length, udpLength, dnsLength]
  refine ⟨?_, ?_, holds_write, ?_⟩
  · refine holds_write_of_apart (holds_write_of_apart (holds_layIpHeader room) ?_) ?_
    · exact .inl (by rw [answerIpHeader_length])
    · exact .inl (by rw [answerIpHeader_length]; decide)
  · exact holds_write_of_apart holds_write (.inl (Nat.le_refl 28))
  · refine holds_write_of_apart (holds_write_of_apart
      (holds_layIpHeader_of_apart records (by decide)) ?_) ?_
    · exact .inr (by omega)
    · exact .inr (by omega)

end Written

end Uwebfilter
