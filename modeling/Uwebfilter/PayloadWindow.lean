import Uwebfilter.PacketHandle

/-!
# The payload windows of the handlers

Each handler takes the payload to begin behind the headers and to have a length
of 16 bits that it computes from three fields of the packet.  The window ends
inside the packet unless the headers claim more bytes than there are, and then
the length wraps.
-/

namespace Uwebfilter

open CStrings

/-- What the kernel has checked of an IPv4 packet it hands to the queue. -/
structure Captured (packet : PacketInfo) : Prop where
  header : 20 ≤ packet.transport
  total : packet.transport ≤ packet.totLen
  inside : packet.totLen ≤ packet.payloadLength
  small : packet.payloadLength ≤ 65535

structure PayloadWindow where
  start : Nat
  length : Nat
  deriving DecidableEq, Repr

def PayloadWindow.Inside (window : PayloadWindow) (packet : PacketInfo) : Prop :=
  window.start + window.length ≤ packet.payloadLength

instance (window : PayloadWindow) (packet : PacketInfo) : Decidable (window.Inside packet) :=
  inferInstanceAs (Decidable (_ ≤ _))

namespace PacketInfo

variable (packet : PacketInfo)

def tcpWindow : PayloadWindow := ⟨packet.tcpPayload, packet.tcpPayloadLength⟩

def udpWindow : PayloadWindow := ⟨packet.udpPayload, packet.udpPayloadLength⟩

/-- The IP header and the TCP header end inside the IP datagram. -/
def TcpHeadersInside : Prop := packet.ihl * 4 + packet.thOff * 4 ≤ packet.totLen

end PacketInfo

inductive PayloadHandler
  | tcp443
  | tcp80
  | udp53
  deriving DecidableEq, Repr

/-- The window `packet_handle_tcp443` passes to `tcpflow_value_append` or to
`extract_sni`. -/
def passedTcp443 (flows : TcpflowCache) (arrival : Arrival) : Option PayloadWindow :=
  let packet := arrival.packet
  if packet.tcpPayloadLength < 10 then none
  else
    match tcpflowLookup arrival.choice flows arrival.key with
    | some _ => some packet.tcpWindow
    | none =>
        if byteAt packet.tcpBytes 0 ≠ 0x16 ∨ byteAt packet.tcpBytes 5 ≠ 0x01 then none
        else
          let handshakeLength := u16be packet.tcpBytes 3
          if packet.tcpPayloadLength ≥ handshakeLength then some packet.tcpWindow
          else if handshakeLength > flowPayloadSize then none
          else (tcpflowCreate arrival.callocOk arrival.key handshakeLength).map
            fun _ => packet.tcpWindow

namespace PayloadHandler

def window : PayloadHandler → PacketInfo → PayloadWindow
  | .tcp443 | .tcp80 => PacketInfo.tcpWindow
  | .udp53 => PacketInfo.udpWindow

/-- The window a handler passes to an extractor or to a flow. -/
def passed : PayloadHandler → TcpflowCache → Arrival → Option PayloadWindow
  | .tcp443, flows, arrival => passedTcp443 flows arrival
  | .tcp80, _, arrival =>
      if arrival.packet.tcpPayloadLength < 10 then none else some arrival.packet.tcpWindow
  | .udp53, _, arrival => some arrival.packet.udpWindow

def handle {σ : Type} (checkAccess : CheckAccess σ) :
    PayloadHandler → Daemon σ → Arrival → Uwebfilterlog → Daemon σ × List Event
  | .tcp443 => packetHandleTcp443 checkAccess
  | .tcp80 => packetHandleTcp80 checkAccess
  | .udp53 => packetHandleUdp53 checkAccess

/-- The window is inside the packet, or the packet is accepted with the payload
passed to nothing. -/
def KeepsWindow {σ : Type} (checkAccess : CheckAccess σ) (handler : PayloadHandler)
    (daemon : Daemon σ) (arrival : Arrival) (log : Uwebfilterlog) : Prop :=
  (handler.window arrival.packet).Inside arrival.packet ∨
    handler.passed daemon.flows arrival = none ∧
      handler.handle checkAccess daemon arrival log =
        (daemon, [.sendVerdict arrival.packet.id .nfAccept])

/-- The headers end inside what the handler takes for the end of the packet; or,
at port 443, the packet has no flow and what the wrapped length makes of its
payload is no whole ClientHello. -/
def HeadersInside : PayloadHandler → TcpflowCache → Arrival → Prop
  | .tcp443, flows, arrival =>
      let packet := arrival.packet
      let start := packet.ihl * 4 + packet.thOff * 4
      packet.TcpHeadersInside ∨
        tcpflowLookup arrival.choice flows arrival.key = none ∧
          (byteAt packet.payload start ≠ 0x16 ∨ byteAt packet.payload (start + 5) ≠ 0x01 ∨
            packet.totLen + 65536 < start + u16be packet.payload (start + 3))
  | .tcp80, _, arrival => arrival.packet.TcpHeadersInside
  | .udp53, _, arrival => arrival.packet.ihl * 4 + 8 ≤ arrival.packet.payloadLength

end PayloadHandler

section Windows

variable {packet : PacketInfo} (captured : Captured packet)

theorem ihl_lt (packet : PacketInfo) : packet.ihl < 16 := Nat.mod_lt _ (by decide)

theorem thOff_lt (packet : PacketInfo) : packet.thOff < 16 := by
  have byte := (byteAt packet.payload (packet.transport + 12)).toNat_lt
  unfold PacketInfo.thOff
  omega

include captured

/-- Where the headers claim more than the datagram has, the length wraps. -/
theorem tcpPayloadLength_of_wrapped (wrapped : ¬ packet.TcpHeadersInside) :
    packet.tcpPayloadLength + packet.tcpPayload = packet.totLen + 65536 := by
  have ihl := ihl_lt packet
  have thOff := thOff_lt packet
  have total := captured.total
  unfold PacketInfo.TcpHeadersInside at wrapped
  unfold PacketInfo.transport at total
  unfold PacketInfo.tcpPayloadLength PacketInfo.tcpPayload PacketInfo.transport u16
  omega

theorem tcpWindow_inside_iff : packet.tcpWindow.Inside packet ↔ packet.TcpHeadersInside := by
  constructor
  · intro inside
    by_contra wrapped
    have length := tcpPayloadLength_of_wrapped captured wrapped
    have small := captured.small
    simp only [PayloadWindow.Inside, PacketInfo.tcpWindow] at inside
    omega
  · intro fits
    have inside := captured.inside
    have small := captured.small
    have length : packet.tcpPayloadLength = packet.totLen - packet.tcpPayload := by
      unfold PacketInfo.TcpHeadersInside at fits
      apply u16_eq
      · simp only [PacketInfo.tcpPayload, PacketInfo.transport]
        omega
      · omega
    simp only [PacketInfo.TcpHeadersInside] at fits
    simp only [PayloadWindow.Inside, PacketInfo.tcpWindow, length, PacketInfo.tcpPayload,
      PacketInfo.transport]
    omega

theorem udpWindow_inside_iff :
    packet.udpWindow.Inside packet ↔ packet.ihl * 4 + 8 ≤ packet.payloadLength := by
  have small := captured.small
  have ihl := ihl_lt packet
  simp only [PayloadWindow.Inside, PacketInfo.udpWindow, PacketInfo.udpPayload,
    PacketInfo.udpPayloadLength, PacketInfo.transport, u16]
  omega

theorem long_of_wrapped (wrapped : ¬ packet.TcpHeadersInside) :
    flowPayloadSize < packet.tcpPayloadLength := by
  have length := tcpPayloadLength_of_wrapped captured wrapped
  have ihl := ihl_lt packet
  have thOff := thOff_lt packet
  simp only [PacketInfo.tcpPayload, PacketInfo.transport] at length
  change 12000 < packet.tcpPayloadLength
  omega

end Windows

theorem byteAt_tcpBytes {packet : PacketInfo} {index : Nat}
    (inside : index < packet.tcpPayloadLength) :
    byteAt packet.tcpBytes index = byteAt packet.payload (packet.tcpPayload + index) := by
  simp [byteAt, PacketInfo.tcpBytes, readBytes, inside]

/-! ## Payloads that are passed to nothing -/

section Passed

variable {σ : Type} (checkAccess : CheckAccess σ) {handler : PayloadHandler} {daemon : Daemon σ}
  {arrival : Arrival} {log : Uwebfilterlog}

theorem handle_of_not_passed (unread : handler.passed daemon.flows arrival = none) :
    handler.handle checkAccess daemon arrival log =
      (daemon, [.sendVerdict arrival.packet.id .nfAccept]) := by
  cases handler with
  | tcp443 =>
      change passedTcp443 daemon.flows arrival = none at unread
      change packetHandleTcp443 checkAccess daemon arrival log = _
      unfold passedTcp443 at unread
      unfold packetHandleTcp443
      dsimp only at unread ⊢
      split at unread
      · rename_i short
        rw [if_pos short]
      · rename_i long
        rw [if_neg long]
        cases found : tcpflowLookup arrival.choice daemon.flows arrival.key with
        | some hit => simp [found] at unread
        | none =>
            simp only [found] at unread ⊢
            unfold packetHandleTcp443Fresh
            dsimp only
            split at unread
            · rename_i other
              rw [if_pos other]
            · rename_i hello
              rw [if_neg hello]
              split at unread
              · cases unread
              · rename_i incomplete
                rw [if_neg incomplete]
                split at unread
                · rename_i large
                  rw [if_pos large]
                · rename_i fits
                  rw [if_neg fits, Option.map_eq_none_iff.mp unread]
  | tcp80 =>
      change packetHandleTcp80 checkAccess daemon arrival log = _
      by_cases short : arrival.packet.tcpPayloadLength < 10
      · rw [packetHandleTcp80, if_pos short]
      · simp [PayloadHandler.passed, short] at unread
  | udp53 => cases unread

theorem keepsWindow_iff_passed :
    handler.KeepsWindow checkAccess daemon arrival log ↔
      (handler.window arrival.packet).Inside arrival.packet ∨
        handler.passed daemon.flows arrival = none :=
  or_congr_right (and_iff_left_of_imp (handle_of_not_passed checkAccess))

/-- With a length that wraps, a payload is passed to nothing only where it has
no flow and begins no whole ClientHello. -/
theorem passedTcp443_eq_none_iff {flows : TcpflowCache} (captured : Captured arrival.packet)
    (wrapped : ¬ arrival.packet.TcpHeadersInside) :
    passedTcp443 flows arrival = none ↔
      tcpflowLookup arrival.choice flows arrival.key = none ∧
        (byteAt arrival.packet.tcpBytes 0 ≠ 0x16 ∨ byteAt arrival.packet.tcpBytes 5 ≠ 0x01 ∨
          arrival.packet.tcpPayloadLength < u16be arrival.packet.tcpBytes 3) := by
  have long := long_of_wrapped captured wrapped
  have size : flowPayloadSize = 12000 := rfl
  unfold passedTcp443
  dsimp only
  rw [if_neg (by omega)]
  cases found : tcpflowLookup arrival.choice flows arrival.key with
  | some hit => simp
  | none =>
      dsimp only
      by_cases other : byteAt arrival.packet.tcpBytes 0 ≠ 0x16 ∨
          byteAt arrival.packet.tcpBytes 5 ≠ 0x01
      · rw [if_pos other]
        exact iff_of_true rfl ⟨rfl, or_assoc.mp (.inl other)⟩
      · rw [if_neg other, ← or_assoc, or_iff_right other]
        by_cases whole : arrival.packet.tcpPayloadLength ≥ u16be arrival.packet.tcpBytes 3
        · rw [if_pos whole]
          exact iff_of_false (Option.some_ne_none _) fun later => by omega
        · rw [if_neg whole, if_pos (by omega)]
          exact iff_of_true rfl ⟨rfl, by omega⟩

end Passed

/-- The windows of captured packets: what they keep is what the headers leave. -/
theorem keepsWindow_iff_headersInside {σ : Type} (checkAccess : CheckAccess σ)
    (handler : PayloadHandler) (daemon : Daemon σ) {arrival : Arrival} (log : Uwebfilterlog)
    (captured : Captured arrival.packet) :
    handler.KeepsWindow checkAccess daemon arrival log ↔
      handler.HeadersInside daemon.flows arrival := by
  rw [keepsWindow_iff_passed]
  cases handler with
  | udp53 =>
      rw [PayloadHandler.window, udpWindow_inside_iff captured]
      simp [PayloadHandler.passed, PayloadHandler.HeadersInside]
  | tcp80 =>
      rw [PayloadHandler.window, tcpWindow_inside_iff captured]
      refine or_iff_left_of_imp fun unread => ?_
      by_contra wrapped
      have long := long_of_wrapped captured wrapped
      have size : flowPayloadSize = 12000 := rfl
      simp only [PayloadHandler.passed] at unread
      rw [if_neg (by omega)] at unread
      cases unread
  | tcp443 =>
      rw [PayloadHandler.window, tcpWindow_inside_iff captured]
      by_cases fits : arrival.packet.TcpHeadersInside
      · exact iff_of_true (.inl fits) (.inl fits)
      · have length := tcpPayloadLength_of_wrapped captured fits
        have long := long_of_wrapped captured fits
        have size : flowPayloadSize = 12000 := rfl
        have start : arrival.packet.tcpPayload =
            arrival.packet.ihl * 4 + arrival.packet.thOff * 4 := rfl
        simp only [PayloadHandler.passed, PayloadHandler.HeadersInside, or_iff_right fits]
        rw [passedTcp443_eq_none_iff captured fits, byteAt_tcpBytes (by omega),
          byteAt_tcpBytes (by omega), u16be, byteAt_tcpBytes (by omega),
          byteAt_tcpBytes (by omega), ← start]
        refine and_congr_right fun _ => or_congr_right (or_congr_right ?_)
        rw [u16be, Nat.add_assoc _ 3 1]
        omega

/-- A segment to port 80 of 40 bytes whose TCP header claims 60. -/
def overlongHeader : PacketInfo where
  id := 1
  payload :=
    [0x45, 0, 0, 40, 0, 0, 0x40, 0, 64, 6, 0, 0, 10, 0, 0, 1, 10, 0, 0, 2] ++
    [0x30, 0x39, 0, 80, 0, 0, 0, 0, 0, 0, 0, 0, 0xf0, 0x18, 0, 0, 0, 0, 0, 0]
  payloadLength := 40

theorem captured_overlongHeader : Captured overlongHeader := by
  constructor <;> decide

theorem keepsWindow_iff_headersInside_overlongHeader :
    PayloadHandler.tcp80.KeepsWindow (fun access _ _ _ => (.nfAccept, access)) (daemonStart ())
        (plainArrival 0 overlongHeader) {} ↔
      PayloadHandler.tcp80.HeadersInside .initial (plainArrival 0 overlongHeader) :=
  keepsWindow_iff_headersInside _ .tcp80 _ {} captured_overlongHeader

/-- The length of its payload wraps to 65496, and the extractor is given that. -/
theorem not_keepsWindow_overlongHeader :
    Captured overlongHeader ∧
      ¬ PayloadHandler.tcp80.KeepsWindow (fun access _ _ _ => (.nfAccept, access))
        (daemonStart ()) (plainArrival 0 overlongHeader) {} := by
  refine ⟨captured_overlongHeader, ?_⟩
  rintro (inside | ⟨unread, -⟩)
  · exact absurd inside (by decide)
  · exact absurd unread (by decide)

end Uwebfilter
