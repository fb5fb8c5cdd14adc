import Uwebfilter.ByteReader
import Uwebfilter.CapturedPacket

/-!
# `extract_sni`

The reader of `tcp443.c` that walks a ClientHello to its `server_name`
extension.  It answers with the bytes it copies to the beginning of `domain`,
or with nothing where the source returns `false`.  Every `uint16_t` assignment
is taken modulo `2 ^ 16`.
-/

namespace Uwebfilter

open ByteReader CStrings

/-- `from_u8be` on the bytes at an offset and behind it. -/
def fromU8be (offset : Nat) : ByteReader Nat := do
  let first ← byte offset
  let second ← byte (offset + 1)
  pure (u16 ((first * 256 + second % 256 : Nat) : Int))

/-- The `while` loop over the extensions. -/
def extractSniLoop : (iterations extentionOffset endOfExtentions : Nat) →
    ByteReader (Option Bytes)
  | 0, _, _ => pure none
  | iterations + 1, extentionOffset, endOfExtentions =>
      if extentionOffset < endOfExtentions then do
        let extentionId ← fromU8be extentionOffset
        let extentionOffset := u16 (extentionOffset + 2)
        let extentionLength ← fromU8be extentionOffset
        let extentionOffset := u16 (extentionOffset + 2)
        if extentionId = 0 then do
          -- skip the list length and the name type
          let extentionOffset := u16 (extentionOffset + 3)
          let sniLength ← fromU8be extentionOffset
          let extentionOffset := u16 (extentionOffset + 2)
          let name ← bytes extentionOffset (min sniLength domainLength)
          pure (some name)
        else
          extractSniLoop iterations (u16 (extentionOffset + extentionLength)) endOfExtentions
      else pure none

/-- `extract_sni` behind the checks of the record header. -/
def extractSniHello (payloadLength handshakeLength : Nat) : ByteReader (Option Bytes) :=
  let baseOffset := 43
  if baseOffset + 2 > payloadLength then pure none else do
    let sessionIdLength ← byte baseOffset
    if sessionIdLength + baseOffset + 2 > handshakeLength then pure none else do
      let cipherLengthStart := u16 (baseOffset + sessionIdLength + 1)
      let cipherLength ← fromU8be cipherLengthStart
      let offset := u16 (baseOffset + sessionIdLength + cipherLength + 2)
      if offset > handshakeLength then pure none else do
        let compressionLength ← byte (offset + 1)
        let offset := u16 (offset + compressionLength + 2)
        if offset > handshakeLength then pure none else do
          let extentionsLength ← fromU8be offset
          let extentionOffset := u16 (2 + offset)
          let endOfExtentions := u16 (extentionOffset + extentionsLength)
          extractSniLoop 50 extentionOffset endOfExtentions

def extractSni (payloadLength : Nat) : ByteReader (Option Bytes) :=
  if payloadLength < 10 then pure none else do
    let contentType ← byte 0
    if contentType ≠ 0x16 then pure none else do
      let handshakeType ← byte 5
      if handshakeType ≠ 0x01 then pure none else do
        let handshakeLength ← fromU8be 3
        if payloadLength < handshakeLength then pure none else
          extractSniHello payloadLength handshakeLength

end Uwebfilter
