import Uwebfilter.OnesComplement
import Uwebfilter.WireParser

/-!
# IPv4 and UDP datagrams

Headers of the Internet Protocol, version 4, and of the User Datagram Protocol
with their parsers, and datagrams as header and payload.  A datagram is parsed
only where its lengths agree with its bytes and its header checksum verifies.
-/

namespace Datagram

open CStrings WireParser

/-! ## IPv4 -/

structure Ipv4Header where
  tos : UInt8
  totalLength : Nat
  identification : Nat
  fragment : Nat
  ttl : UInt8
  protocol : UInt8
  checksum : Nat
  source : Bytes
  destination : Bytes
  options : Bytes
  deriving DecidableEq, Repr

namespace Ipv4Header

/-- Version and header length in words. -/
def versionIhl (header : Ipv4Header) : UInt8 := UInt8.ofNat (64 + (5 + header.options.length / 4))

def encode (header : Ipv4Header) : Bytes :=
  [header.versionIhl] ++ ([header.tos] ++ (be16 header.totalLength ++
    (be16 header.identification ++ (be16 header.fragment ++ ([header.ttl] ++ ([header.protocol] ++
      (be16 header.checksum ++ (header.source ++ (header.destination ++ header.options)))))))))

structure Legal (header : Ipv4Header) : Prop where
  totalLength : header.totalLength < 65536
  identification : header.identification < 65536
  fragment : header.fragment < 65536
  checksum : header.checksum < 65536
  source : header.source.length = 4
  destination : header.destination.length = 4
  options : header.options.length ≤ 40
  words : header.options.length % 4 = 0

end Ipv4Header

def parseIpv4Header : WireParser Ipv4Header := do
  let versionIhl ← byte
  require (versionIhl.toNat / 16 = 4)
  require (5 ≤ versionIhl.toNat % 16)
  let tos ← byte
  let totalLength ← word16
  let identification ← word16
  let fragment ← word16
  let ttl ← byte
  let protocol ← byte
  let checksum ← word16
  let source ← takeBytes 4
  let destination ← takeBytes 4
  let options ← takeBytes (versionIhl.toNat % 16 * 4 - 20)
  pure ⟨tos, totalLength, identification, fragment, ttl, protocol, checksum, source, destination,
    options⟩

theorem Ipv4Header.Legal.encode_length {header : Ipv4Header} (legal : header.Legal) :
    header.encode.length = 20 + header.options.length := by
  simp only [Ipv4Header.encode, List.length_append, List.length_cons, List.length_nil, be16_length,
    legal.source, legal.destination]
  omega

theorem Ipv4Header.Legal.parses {header : Ipv4Header} (legal : header.Legal) :
    Parses parseIpv4Header header.encode header := by
  have options := legal.options
  have words := legal.words
  have version : header.versionIhl.toNat = 64 + (5 + header.options.length / 4) := by
    rw [Ipv4Header.versionIhl]
    apply UInt8.toNat_ofNat_of_lt'
    change _ < 256
    omega
  have count : header.versionIhl.toNat % 16 * 4 - 20 = header.options.length := by omega
  have source := parses_takeBytes header.source
  rw [legal.source] at source
  have destination := parses_takeBytes header.destination
  rw [legal.destination] at destination
  refine parses_bind (parses_byte _) ?_
  refine parses_require (by omega) (parses_require (by omega) ?_)
  refine parses_bind (parses_byte _) (parses_bind (parses_word16 legal.totalLength) ?_)
  refine parses_bind (parses_word16 legal.identification) ?_
  refine parses_bind (parses_word16 legal.fragment) ?_
  refine parses_bind (parses_byte _) (parses_bind (parses_byte _) ?_)
  refine parses_bind (parses_word16 legal.checksum) ?_
  refine parses_bind source (parses_bind destination ?_)
  rw [count]
  exact parses_map (parses_takeBytes header.options) (parses_pure _)

/-- The header and the payload of a whole IPv4 datagram. -/
def parseIpv4 (datagram : Bytes) : Option (Ipv4Header × Bytes) := do
  let (header, payload) ← parseIpv4Header.run datagram
  let headerLength := datagram.length - payload.length
  guard (header.totalLength = datagram.length)
  guard (OnesComplement.Verifies (datagram.take headerLength))
  pure (header, payload)

theorem parseIpv4_encode {header : Ipv4Header} {payload : Bytes} (legal : header.Legal)
    (total : header.totalLength = (header.encode ++ payload).length)
    (verifies : OnesComplement.Verifies header.encode) :
    parseIpv4 (header.encode ++ payload) = some (header, payload) := by
  have front : (header.encode ++ payload).take
      ((header.encode ++ payload).length - payload.length) = header.encode := by
    rw [List.length_append, Nat.add_sub_cancel, List.take_left']
    rfl
  simp only [parseIpv4, legal.parses payload, Option.bind_eq_bind, Option.bind_some, front]
  simp [total, verifies]

/-! ## UDP -/

structure UdpHeader where
  sourcePort : Nat
  destinationPort : Nat
  length : Nat
  checksum : Nat
  deriving DecidableEq, Repr

def UdpHeader.encode (header : UdpHeader) : Bytes :=
  be16 header.sourcePort ++ (be16 header.destinationPort ++
    (be16 header.length ++ be16 header.checksum))

structure UdpHeader.Legal (header : UdpHeader) : Prop where
  sourcePort : header.sourcePort < 65536
  destinationPort : header.destinationPort < 65536
  length : header.length < 65536
  checksum : header.checksum < 65536

def parseUdpHeader : WireParser UdpHeader := do
  let sourcePort ← word16
  let destinationPort ← word16
  let length ← word16
  let checksum ← word16
  pure ⟨sourcePort, destinationPort, length, checksum⟩

theorem UdpHeader.Legal.parses {header : UdpHeader} (legal : header.Legal) :
    Parses parseUdpHeader header.encode header :=
  parses_bind (parses_word16 legal.sourcePort) <|
    parses_bind (parses_word16 legal.destinationPort) <|
      parses_bind (parses_word16 legal.length) <|
        parses_map (parses_word16 legal.checksum) (parses_pure _)

/-- The header and the payload of a whole UDP datagram. -/
def parseUdp (datagram : Bytes) : Option (UdpHeader × Bytes) := do
  let (header, payload) ← parseUdpHeader.run datagram
  guard (header.length = datagram.length)
  pure (header, payload)

theorem parseUdp_encode {header : UdpHeader} {payload : Bytes} (legal : header.Legal)
    (total : header.length = (header.encode ++ payload).length) :
    parseUdp (header.encode ++ payload) = some (header, payload) := by
  simp [parseUdp, legal.parses payload, total]

end Datagram
