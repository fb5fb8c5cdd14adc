import Uwebfilter.DnsAnswer

/-!
# `tcp_rst_send`

The forged reset of `block.c`, on a little-endian host.  It answers the
captured segment in all but its acknowledgement number: one is added to the
sequence number as the host reads it, which is the number of the wire only where
all its bits are ones.
-/

namespace Uwebfilter

open ByteReader ByteWriter CStrings

/-- Four bytes of a little-endian host. -/
def le32 (value : Nat) : Bytes :=
  [UInt8.ofNat value, UInt8.ofNat (value / 256), UInt8.ofNat (value / 65536),
    UInt8.ofNat (value / 16777216)]

/-- Four bytes in network order. -/
def u32be (memory : Bytes) (address : Nat) : Nat :=
  (byteAt memory address).toNat * 16777216 + (byteAt memory (address + 1)).toNat * 65536 +
    (byteAt memory (address + 2)).toNat * 256 + (byteAt memory (address + 3)).toNat

section Layout

variable (packet : PacketInfo)

/-- `tcphdr->seq + 1`. -/
def resetAckSeq : Nat := (u32le packet.payload (packet.transport + 4) + 1) % 4294967296

/-- The IP header.  Its checksum is taken of `tot_len` bytes, the TCP header
being zero so far. -/
def layResetIpHeader : ByteWriter :=
  let datagram := cleared.writeFields 0
    [[0x45], [0], [40, 0], [0, 0], [0, 0], [255], [6], [0, 0],
      readBytes packet.payload 16 4, readBytes packet.payload 12 4]
  let check := checksum ((List.range' 0 40).map datagram.memory)
  datagram.write 10 [UInt8.ofNat check, UInt8.ofNat (check / 256)]

def layResetTcpHeader (datagram : ByteWriter) : ByteWriter :=
  datagram.writeFields 20
    [readBytes packet.payload (packet.transport + 2) 2, readBytes packet.payload packet.transport 2,
      readBytes packet.payload (packet.transport + 8) 4, le32 (resetAckSeq packet), [0x50], [0x04],
      be16 5840, [0, 0], [0, 0]]

/-- `psh`. -/
def resetPseudoHeader : Bytes :=
  readBytes packet.payload 16 4 ++ (readBytes packet.payload 12 4 ++ ([0, 6] ++ be16 20))

/-- `datagram` when all of it is laid out. -/
def resetBuffer : ByteWriter :=
  let datagram := layResetTcpHeader packet (layResetIpHeader packet)
  let pseudogram := resetPseudoHeader packet ++ (List.range' 20 20).map datagram.memory
  let check := checksum pseudogram
  datagram.write 36 [UInt8.ofNat check, UInt8.ofNat (check / 256)]

/-- The `tot_len` bytes of `datagram` that are sent. -/
def resetDatagram : Bytes := (List.range' 0 40).map (resetBuffer packet).memory

/-- `tcp_rst_send`, where `socket` and `setsockopt` succeed or fail. -/
def tcpRstSend (socketOk setsockoptOk : Bool) : Option SentDatagram :=
  if socketOk && setsockoptOk then
    some
      { datagram := resetDatagram packet
        sinPort := packet.sport
        sinAddr := packet.saddr }
  else none

end Layout

/-! ## What is sent -/

section Sent

variable (packet : PacketInfo)

/-- The part of the IP header in front of its checksum. -/
def resetIpFront : Bytes := [0x45, 0, 40, 0, 0, 0, 0, 0, 255, 6]

/-- The part of the TCP header in front of its checksum. -/
def resetTcpFront : Bytes :=
  readBytes packet.payload (packet.transport + 2) 2 ++
    (readBytes packet.payload packet.transport 2 ++
      (readBytes packet.payload (packet.transport + 8) 4 ++
        (le32 (resetAckSeq packet) ++ ([0x50, 0x04] ++ be16 5840))))

def resetIpBytes : Bytes :=
  resetIpFront ++ (checkBytes resetIpFront (ipBack packet) ++ ipBack packet)

def resetTcpBytes : Bytes :=
  resetTcpFront packet ++
    (checkBytes (resetPseudoHeader packet ++ resetTcpFront packet) [0, 0] ++ [0, 0])

variable {packet}

theorem resetTcpFront_length : (resetTcpFront packet).length = 16 := by
  simp [resetTcpFront, le32]

theorem resetPseudoHeader_length : (resetPseudoHeader packet).length = 12 := by
  simp [resetPseudoHeader]

theorem resetIpBytes_length : (resetIpBytes packet).length = 20 := by
  rw [resetIpBytes, List.length_append, List.length_append, checkBytes_length, ipBack_length]
  rfl

theorem resetTcpBytes_length : (resetTcpBytes packet).length = 20 := by
  rw [resetTcpBytes, List.length_append, List.length_append, checkBytes_length,
    resetTcpFront_length]
  rfl

theorem layResetIpHeader_eq :
    layResetIpHeader packet =
      (cleared.write 0 (resetIpFront ++ ([0, 0] ++ ipBack packet))).write 10
        (checkBytes resetIpFront (ipBack packet)) := by
  have fields : [[0x45], [0], [40, 0], [0, 0], [0, 0], [255], [6], [0, 0],
      readBytes packet.payload 16 4, readBytes packet.payload 12 4].flatten =
        resetIpFront ++ ([0, 0] ++ ipBack packet) := by
    simp [resetIpFront, ipBack]
  set before := cleared.write 0 (resetIpFront ++ ([0, 0] ++ ipBack packet)) with filled
  have length : (resetIpFront ++ ([0, 0] ++ ipBack packet)).length = 20 := by
    rw [List.length_append, List.length_append, ipBack_length]
    rfl
  have header : Holds before.memory 0 (resetIpFront ++ ([0, 0] ++ ipBack packet)) := holds_write
  have zeros : Holds before.memory 20 (List.replicate (2 * 10) 0) :=
    holds_write_of_apart (holds_cleared 20) (.inr (by rw [length]))
  have whole : Holds before.memory 0
      ((resetIpFront ++ ([0, 0] ++ ipBack packet)) ++ List.replicate (2 * 10) 0) := by
    rw [holds_append, length]
    exact ⟨header, zeros⟩
  have read := whole.map_range'
  rw [List.length_append, length, List.length_replicate] at read
  rw [layResetIpHeader, writeFields_eq, fields, ← filled, read,
    checksum_append_zeros (by rw [length])]
  rfl

theorem layResetTcpHeader_eq (datagram : ByteWriter) :
    layResetTcpHeader packet datagram =
      datagram.write 20 (resetTcpFront packet ++ ([0, 0] ++ [0, 0])) := by
  rw [layResetTcpHeader, writeFields_eq]
  simp [resetTcpFront]

theorem resetBuffer_eq :
    resetBuffer packet =
      ((layResetIpHeader packet).write 20 (resetTcpFront packet ++ ([0, 0] ++ [0, 0]))).write 36
        (checkBytes (resetPseudoHeader packet ++ resetTcpFront packet) [0, 0]) := by
  have segment : Holds ((layResetIpHeader packet).write 20
      (resetTcpFront packet ++ ([0, 0] ++ [0, 0]))).memory 20
        (resetTcpFront packet ++ ([0, 0] ++ [0, 0])) := holds_write
  have length : (resetTcpFront packet ++ ([0, 0] ++ [0, 0])).length = 20 := by
    rw [List.length_append, resetTcpFront_length]
    rfl
  have read := segment.map_range'
  rw [length] at read
  rw [resetBuffer, layResetTcpHeader_eq, read, ← List.append_assoc (resetPseudoHeader packet)]
  rfl

theorem holds_resetIpBytes : Holds (resetBuffer packet).memory 0 (resetIpBytes packet) := by
  have ipLength : resetIpFront.length = 10 := rfl
  have header : Holds (cleared.write 0 (resetIpFront ++ ([0, 0] ++ ipBack packet))).memory 0
      (resetIpFront ++ ([0, 0] ++ ipBack packet)) := holds_write
  rw [holds_append, holds_append, ipLength] at header
  have laid : Holds (layResetIpHeader packet).memory 0 (resetIpBytes packet) := by
    rw [layResetIpHeader_eq, resetIpBytes, holds_append, holds_append, ipLength, checkBytes_length]
    refine ⟨holds_write_of_apart header.1 (.inl (Nat.le_refl 10)), holds_write, ?_⟩
    exact holds_write_of_apart header.2.2 (.inr (Nat.le_refl 12))
  rw [resetBuffer_eq]
  apply holds_write_of_apart (holds_write_of_apart laid _)
  · exact .inl (by rw [resetIpBytes_length]; decide)
  · exact .inl (by rw [resetIpBytes_length])

theorem holds_resetTcpBytes : Holds (resetBuffer packet).memory 20 (resetTcpBytes packet) := by
  have segment : Holds ((layResetIpHeader packet).write 20
      (resetTcpFront packet ++ ([0, 0] ++ [0, 0]))).memory 20
        (resetTcpFront packet ++ ([0, 0] ++ [0, 0])) := holds_write
  rw [holds_append, holds_append, resetTcpFront_length] at segment
  rw [resetBuffer_eq, resetTcpBytes, holds_append, holds_append, resetTcpFront_length,
    checkBytes_length]
  refine ⟨holds_write_of_apart segment.1 (.inl ?_), holds_write, ?_⟩
  · rw [resetTcpFront_length]
  · exact holds_write_of_apart segment.2.2 (.inr (Nat.le_refl 38))

/-- The two headers with their checksums in them. -/
theorem resetDatagram_eq (packet : PacketInfo) :
    resetDatagram packet = resetIpBytes packet ++ resetTcpBytes packet := by
  have holds : Holds (resetBuffer packet).memory 0
      (resetIpBytes packet ++ resetTcpBytes packet) := by
    rw [holds_append, resetIpBytes_length]
    exact ⟨holds_resetIpBytes, holds_resetTcpBytes⟩
  have whole := holds.map_range'
  rwa [List.length_append, resetIpBytes_length, resetTcpBytes_length] at whole

end Sent

/-! ## The answer to a segment -/

/-- The bytes a receiver of a datagram without options puts in front of its
segment for the checksum. -/
def pseudoHeader (datagram : Bytes) : Bytes :=
  readBytes datagram 12 4 ++ (readBytes datagram 16 4 ++
    ([0, byteAt datagram 9] ++ be16 (datagram.length - 20)))

/-- A datagram of 40 bytes resets the connection of a captured segment. -/
structure AnswersSegment (packet : PacketInfo) (datagram : Bytes) : Prop where
  length : datagram.length = 40
  source : readBytes datagram 12 4 = readBytes packet.payload 16 4
  destination : readBytes datagram 16 4 = readBytes packet.payload 12 4
  sourcePort : u16be datagram 20 = packet.dport
  destinationPort : u16be datagram 22 = packet.sport
  flags : byteAt datagram 33 = 0x04
  sequence : u32be datagram 24 = u32be packet.payload (packet.transport + 8)
  acknowledgement : u32be datagram 28 =
    (u32be packet.payload (packet.transport + 4) + 1) % 4294967296
  ipVerifies : OnesComplement.Verifies (datagram.take 20)
  tcpVerifies : OnesComplement.Verifies (pseudoHeader datagram ++ datagram.drop 20)

section Answer

variable (packet : PacketInfo)

theorem verifies_resetIpBytes : OnesComplement.Verifies (resetIpBytes packet) := by
  apply verifies_checkBytes
  · decide
  · rw [List.length_append, ipBack_length]
    decide
  · decide

theorem verifies_resetTcpBytes :
    OnesComplement.Verifies (resetPseudoHeader packet ++ resetTcpBytes packet) := by
  have even : (resetPseudoHeader packet).length % 2 = 0 := by rw [resetPseudoHeader_length]
  rw [resetTcpBytes, ← List.append_assoc]
  apply verifies_checkBytes
  · rw [List.length_append, resetPseudoHeader_length, resetTcpFront_length]
  · rw [List.length_append, List.length_append, resetPseudoHeader_length, resetTcpFront_length]
    decide
  · have length : OnesComplement.swappedSum (resetPseudoHeader packet) =
        OnesComplement.swappedSum (ipBack packet) +
          OnesComplement.swappedSum ([0, 6] ++ be16 20) := by
      rw [resetPseudoHeader, ← List.append_assoc, ← ipBack,
        OnesComplement.swappedSum_append (by rw [ipBack_length])]
    have constant : 0 < OnesComplement.swappedSum ([0, 6] ++ be16 20) := by decide
    rw [OnesComplement.swappedSum_append even, length]
    omega

theorem pseudoHeader_resetDatagram :
    pseudoHeader (resetDatagram packet) = resetPseudoHeader packet := by
  rw [resetDatagram_eq]
  rfl

end Answer

/-- One added to a number in the order of the host is one added to the number in
network order where every carry runs through. -/
theorem swapped_succ_iff {first second third last : Nat} (firstByte : first < 256)
    (secondByte : second < 256) (thirdByte : third < 256) (lastByte : last < 256)
    {host network : Nat}
    (hostSum : host = (first + second * 256 + third * 65536 + last * 16777216 + 1) % 4294967296)
    (read : network = first * 16777216 + second * 65536 + third * 256 + last) :
    host % 256 * 16777216 + host / 256 % 256 * 65536 + host / 65536 % 256 * 256 +
        host / 16777216 % 256 = (network + 1) % 4294967296 ↔ network = 4294967295 := by
  rcases Nat.lt_or_ge first 255 with room | full
  · -- no carry in the host, so the first byte grows
    have sum : host = first + 1 + second * 256 + third * 65536 + last * 16777216 := by omega
    have firstQuotient : host / 256 = second + third * 256 + last * 65536 := by omega
    have secondQuotient : host / 65536 = third + last * 256 := by omega
    have thirdQuotient : host / 16777216 = last := by omega
    have low : host % 256 = first + 1 := by omega
    have middle : (second + third * 256 + last * 65536) % 256 = second := by omega
    have high : (third + last * 256) % 256 = third := by omega
    rw [firstQuotient, secondQuotient, thirdQuotient, low, middle, high,
      Nat.mod_eq_of_lt lastByte]
    omega
  · -- the first byte of the sum is zero, in network order only where all bytes carry
    have low : host % 256 = 0 := by omega
    have secondBound := Nat.mod_lt (host / 256) (by decide : 0 < 256)
    have thirdBound := Nat.mod_lt (host / 65536) (by decide : 0 < 256)
    have lastBound := Nat.mod_lt (host / 16777216) (by decide : 0 < 256)
    rw [low, Nat.zero_mul, Nat.zero_add]
    constructor
    · intro same
      have small : (network + 1) % 4294967296 < 16777216 := by
        rw [← same]
        omega
      have above : 4278190080 ≤ network := by omega
      have below : network < 4294967296 := by omega
      clear same hostSum read
      omega
    · intro all
      have carried : first + second * 256 + third * 65536 + last * 16777216 + 1 = 4294967296 := by
        clear hostSum low secondBound thirdBound lastBound
        omega
      rw [carried, Nat.mod_self] at hostSum
      simp [hostSum, all]

theorem acknowledgement_resetDatagram (packet : PacketInfo) :
    u32be (resetDatagram packet) 28 =
      resetAckSeq packet % 256 * 16777216 + resetAckSeq packet / 256 % 256 * 65536 +
        resetAckSeq packet / 65536 % 256 * 256 + resetAckSeq packet / 16777216 % 256 := by
  have first : byteAt (resetDatagram packet) 28 = UInt8.ofNat (resetAckSeq packet) := by
    rw [resetDatagram_eq]
    rfl
  have second : byteAt (resetDatagram packet) 29 = UInt8.ofNat (resetAckSeq packet / 256) := by
    rw [resetDatagram_eq]
    rfl
  have third : byteAt (resetDatagram packet) 30 = UInt8.ofNat (resetAckSeq packet / 65536) := by
    rw [resetDatagram_eq]
    rfl
  have last : byteAt (resetDatagram packet) 31 = UInt8.ofNat (resetAckSeq packet / 16777216) := by
    rw [resetDatagram_eq]
    rfl
  rw [u32be, first, second, third, last, UInt8.toNat_ofNat', UInt8.toNat_ofNat',
    UInt8.toNat_ofNat', UInt8.toNat_ofNat']

theorem acknowledgement_iff (packet : PacketInfo) :
    u32be (resetDatagram packet) 28 =
        (u32be packet.payload (packet.transport + 4) + 1) % 4294967296 ↔
      u32be packet.payload (packet.transport + 4) = 4294967295 := by
  rw [acknowledgement_resetDatagram]
  apply swapped_succ_iff (UInt8.toNat_lt (byteAt packet.payload (packet.transport + 4)))
    (UInt8.toNat_lt (byteAt packet.payload (packet.transport + 4 + 1)))
    (UInt8.toNat_lt (byteAt packet.payload (packet.transport + 4 + 2)))
    (UInt8.toNat_lt (byteAt packet.payload (packet.transport + 4 + 3)))
  · rw [resetAckSeq, u32le]
  · rw [u32be]

/-- The reset answers a segment exactly where its sequence number is the
greatest there is. -/
theorem answersSegment_iff (packet : PacketInfo) :
    AnswersSegment packet (resetDatagram packet) ↔
      u32be packet.payload (packet.transport + 4) = 4294967295 := by
  constructor
  · intro answers
    exact (acknowledgement_iff packet).mp answers.acknowledgement
  · intro greatest
    have whole := resetDatagram_eq packet
    exact
      { length := by rw [resetDatagram, List.length_map, List.length_range']
        source := by
          rw [whole]
          rfl
        destination := by
          rw [whole]
          rfl
        sourcePort := by
          rw [whole]
          rfl
        destinationPort := by
          rw [whole]
          rfl
        flags := by
          rw [whole]
          rfl
        sequence := by
          rw [whole]
          rfl
        acknowledgement := (acknowledgement_iff packet).mpr greatest
        ipVerifies := by
          rw [whole, List.take_left' resetIpBytes_length]
          exact verifies_resetIpBytes packet
        tcpVerifies := by
          rw [pseudoHeader_resetDatagram, whole, List.drop_left' resetIpBytes_length]
          exact verifies_resetTcpBytes packet }

/-- A segment to port 443 with the sequence number 1. -/
def segmentOne : PacketInfo where
  id := 1
  payload :=
    [0x45, 0, 0, 40, 0, 0, 0x40, 0, 64, 6, 0, 0, 10, 0, 0, 1, 10, 0, 0, 2] ++
    [0x30, 0x39, 1, 187, 0, 0, 0, 1, 0, 0, 0, 5, 0x50, 0x18, 0, 0, 0, 0, 0, 0]
  payloadLength := 40

/-- The acknowledgement number sent for it is not 2. -/
theorem not_answersSegment_one : ¬ AnswersSegment segmentOne (resetDatagram segmentOne) := by
  intro answers
  have greatest := (acknowledgement_iff segmentOne).mp answers.acknowledgement
  exact absurd greatest (by decide)

end Uwebfilter
