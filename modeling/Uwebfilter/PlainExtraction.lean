import Uwebfilter.ByteReader
import Uwebfilter.CapturedPacket

/-!
# `extract_dns_domain` and `extract_http_payload`

The extractors of `udp53.c` and `tcp80.c`.  The first is a reader over the DNS
message; the second works with the C string functions on the memory from the
payload's first byte on.
-/

namespace Uwebfilter

open ByteReader CStrings

/-! ## DNS -/

/-- The `while` loop over the labels of the question: `src` is the read offset
and `written` the bytes written to `domain` so far.  Each round moves `src`, so
`rounds` never runs out before the end of the packet. -/
def extractDnsLabels (questionEnd : Nat) :
    (rounds src : Nat) → (written : Bytes) → ByteReader Bytes
  | 0, _, written => pure written
  | rounds + 1, src, written =>
      if src < questionEnd then do
        let labelLen ← byte src
        if labelLen = 0 then pure written else do
          let separator := if written = [] then [] else [dot]
          let label ← bytes (src + 1) labelLen
          extractDnsLabels questionEnd rounds (src + 1 + labelLen)
            (written ++ separator ++ label)
      else pure written

/-- `extract_dns_domain`: its result and the bytes written to `domain`. -/
def extractDnsDomain (packetLength : Nat) : ByteReader (Bool × Bytes) :=
  if packetLength < 12 then pure (false, []) else do
    let qdcountHigh ← byte 4
    let qdcountLow ← byte 5
    if qdcountHigh * 256 + qdcountLow = 0 then pure (false, []) else do
      let written ← extractDnsLabels packetLength packetLength 12 []
      let dnsType ← byte (12 + ((cString written).length + 3))
      if dnsType > 17 ∧ dnsType ≠ 65 ∧ dnsType ≠ 28 then pure (false, written)
      else pure (true, written)

/-! ## HTTP -/

/-- The table `http_methods`. -/
def httpMethods : List Bytes :=
  [ascii ['G', 'E', 'T', ' '],
   ascii ['P', 'O', 'S', 'T', ' '],
   ascii ['P', 'U', 'T', ' '],
   ascii ['D', 'E', 'L', 'E', 'T', 'E', ' '],
   ascii ['H', 'E', 'A', 'D', ' '],
   ascii ['O', 'P', 'T', 'I', 'O', 'N', 'S', ' '],
   ascii ['C', 'O', 'N', 'N', 'E', 'C', 'T', ' '],
   ascii ['P', 'A', 'T', 'C', 'H', ' ']]

/-- What `extract_http_payload` returns and leaves in its two buffers. -/
structure HttpPayload where
  found : Bool
  domain : Bytes
  path : Bytes
  deriving DecidableEq, Repr

/-- The path, where the request line holds one: nothing where the source
returns `false` for want of a blank. -/
def extractHttpPath (httpRequest : Bytes) (payloadLength : Nat) : Option Bytes :=
  match strstr httpRequest [13, 10] with
  | none => some []
  | some requestLineEnd =>
      if requestLineEnd < payloadLength then
        match strchr httpRequest 0 32 with
        | none => none
        | some blank =>
            let urlStart := blank + 1
            match strchr httpRequest urlStart 32 with
            | none => some []
            | some urlEnd =>
                if urlEnd < requestLineEnd then
                  let urlLength := urlEnd - urlStart
                  let copied := if urlLength < pathLength then urlLength else pathLength - 1
                  some (readBytes httpRequest urlStart copied)
                else some []
      else some []

/-- The host, where a `Host` header lies inside the payload. -/
def extractHttpHost (httpRequest : Bytes) (payloadLength : Nat) : Bytes :=
  match strcasestr httpRequest ([13, 10] ++ ascii ['H', 'o', 's', 't', ':']) with
  | none => []
  | some headerStart =>
      if headerStart < payloadLength then
        let hostStart := headerStart + 8
        match strchr httpRequest hostStart 13 with
        | none => []
        | some hostEnd =>
            if hostEnd < payloadLength then
              let hostLength := hostEnd - hostStart
              let copied := if hostLength < domainLength then hostLength else domainLength - 1
              readBytes httpRequest hostStart copied
            else []
      else []

/-- `extract_http_payload` on the memory from the payload's first byte on. -/
def extractHttpPayload (httpRequest : Bytes) (payloadLength : Nat) : HttpPayload :=
  if httpMethods.any (startsWithWord httpRequest) then
    match extractHttpPath httpRequest payloadLength with
    | none => ⟨false, [], []⟩
    | some path => ⟨true, extractHttpHost httpRequest payloadLength, path⟩
  else ⟨false, [], []⟩

end Uwebfilter
