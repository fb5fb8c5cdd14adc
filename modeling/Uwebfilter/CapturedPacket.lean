import Uwebfilter.CStrings

/-!
# Captured packets and log records

`packet_info_t` as `queue_cb` fills it, the header fields the handlers read,
and the record `uwebfilterlog_t` they fill.  A packet's payload pointer is
modelled by the bytes in memory from the packet's first byte on: the packet and
whatever lies behind it in the receive buffer.  Here and in the modules above
what models a name of the source has that name in camel case.
-/

namespace Uwebfilter

open CStrings

/-- `NF_ACCEPT` and `NF_DROP`. -/
inductive Verdict
  | nfAccept
  | nfDrop
  deriving DecidableEq, Repr

structure PacketInfo where
  id : Nat
  payload : Bytes
  payloadLength : Nat

namespace PacketInfo

variable (packet : PacketInfo)

/-! ## `struct iphdr` -/

def ihl : Nat := (byteAt packet.payload 0).toNat % 16
def totLen : Nat := u16be packet.payload 2
def protocol : Nat := (byteAt packet.payload 9).toNat
def saddr : Nat := u32le packet.payload 12
def daddr : Nat := u32le packet.payload 16

def transport : Nat := packet.ihl * 4

/-! ## `struct tcphdr` and `struct udphdr` -/

def sport : Nat := u16be packet.payload packet.transport
def dport : Nat := u16be packet.payload (packet.transport + 2)
def thOff : Nat := (byteAt packet.payload (packet.transport + 12)).toNat / 16

/-- Where the two TCP handlers take the payload to begin. -/
def tcpPayload : Nat := packet.transport + packet.thOff * 4

/-- The `uint16_t` the two TCP handlers take for the length of the payload. -/
def tcpPayloadLength : Nat :=
  u16 ((packet.totLen : Int) - packet.thOff * 4 - packet.ihl * 4)

/-- Where the DNS handler takes the message to begin. -/
def udpPayload : Nat := packet.transport + 8

/-- The `uint16_t` the DNS handler takes for the length of the message. -/
def udpPayloadLength : Nat :=
  u16 ((packet.payloadLength : Int) - packet.ihl * 4 - 8)

def tcpBytes : Bytes := readBytes packet.payload packet.tcpPayload packet.tcpPayloadLength

@[simp] theorem tcpBytes_length : packet.tcpBytes.length = packet.tcpPayloadLength := by
  simp [tcpBytes]

end PacketInfo

/-- A captured TCP segment to port 443 with headers of minimal length. -/
def plainSegment (id sport : Nat) (payload : Bytes) : PacketInfo :=
  let length := payload.length + 40
  { id := id
    payload :=
      [0x45, 0, UInt8.ofNat (length / 256), UInt8.ofNat length, 0, 0, 0x40, 0, 64, 6, 0, 0,
        10, 0, 0, 1, 10, 0, 0, 2] ++
      [UInt8.ofNat (sport / 256), UInt8.ofNat sport, 1, 187, 0, 0, 0, 0, 0, 0, 0, 0,
        0x50, 0x18, 0, 0, 0, 0, 0, 0] ++ payload
    payloadLength := length }

def ipprotoTcp : Nat := 6

def ipprotoUdp : Nat := 17

def domainLength : Nat := 256

def pathLength : Nat := 1024

/-- The buffer `domain`, all zero before, with some bytes at its beginning. -/
def domainBuffer (written : Bytes) : Bytes := overwrite (List.replicate domainLength 0) 0 written

theorem cString_domainBuffer {written : Bytes} (zeroFree : 0 ∉ written) :
    cString (domainBuffer written) = written := by
  rw [domainBuffer, overwrite_cleared]
  exact cString_append_replicate zeroFree _

/-- The strings `"tcp"` and `"udp"`. -/
inductive Proto
  | tcp
  | udp
  deriving DecidableEq, Repr

/-- The strings `"allow"` and `"block"`. -/
inductive Action
  | allow
  | block
  deriving DecidableEq, Repr

/-- `uwebfilterlog_t`.  A buffer is given by the bytes written from its
beginning on; the record is cleared first, so zeros follow them. -/
structure Uwebfilterlog where
  srcip : Bytes := []
  dstip : Bytes := []
  srcport : Nat := 0
  dstport : Nat := 0
  proto : Option Proto := none
  domain : Bytes := []
  path : Bytes := []
  action : Option Action := none
  category : Int := 0
  application : Int := 0
  blocktype : Int := 0
  logtime : Int := 0
  deriving DecidableEq, Repr

end Uwebfilter
