import Uwebfilter.SniExtraction

/-!
# The 16-bit offsets of `extract_sni`

The walk of `SniExtraction` once more, giving up at the first sum that the
`uint16_t` it is assigned to does not hold.  Where it goes to its end, every
offset was exact and `extract_sni` reads and computes the same.
-/

namespace Uwebfilter

open ByteReader CStrings

/-- An assignment to a `uint16_t` that holds the value. -/
def assign16 (value : Int) : OptionT ByteReader Nat :=
  if 0 ≤ value ∧ value < 65536 then pure (u16 value) else failure

/-- `extractSniLoop` with exact offsets. -/
def extractSniLoopExact : (iterations extentionOffset endOfExtentions : Nat) →
    OptionT ByteReader (Option Bytes)
  | 0, _, _ => pure none
  | iterations + 1, extentionOffset, endOfExtentions =>
      if extentionOffset < endOfExtentions then do
        let extentionId ← fromU8be extentionOffset
        let extentionOffset ← assign16 (extentionOffset + 2)
        let extentionLength ← fromU8be extentionOffset
        let extentionOffset ← assign16 (extentionOffset + 2)
        if extentionId = 0 then do
          let extentionOffset ← assign16 (extentionOffset + 3)
          let sniLength ← fromU8be extentionOffset
          let extentionOffset ← assign16 (extentionOffset + 2)
          let name ← bytes extentionOffset (min sniLength domainLength)
          pure (some name)
        else do
          let extentionOffset ← assign16 (extentionOffset + extentionLength)
          extractSniLoopExact iterations extentionOffset endOfExtentions
      else pure none

/-- `extractSniHello` with exact offsets. -/
def extractSniHelloExact (payloadLength handshakeLength : Nat) :
    OptionT ByteReader (Option Bytes) :=
  let baseOffset := 43
  if baseOffset + 2 > payloadLength then pure none else do
    let sessionIdLength ← byte baseOffset
    if sessionIdLength + baseOffset + 2 > handshakeLength then pure none else do
      let cipherLengthStart ← assign16 (baseOffset + sessionIdLength + 1)
      let cipherLength ← fromU8be cipherLengthStart
      let offset ← assign16 (baseOffset + sessionIdLength + cipherLength + 2)
      if offset > handshakeLength then pure none else do
        let compressionLength ← byte (offset + 1)
        let offset ← assign16 (offset + compressionLength + 2)
        if offset > handshakeLength then pure none else do
          let extentionsLength ← fromU8be offset
          let extentionOffset ← assign16 (2 + offset)
          let endOfExtentions ← assign16 (extentionOffset + extentionsLength)
          extractSniLoopExact 50 extentionOffset endOfExtentions

/-- `extractSni` with exact offsets. -/
def extractSniExact (payloadLength : Nat) : OptionT ByteReader (Option Bytes) :=
  if payloadLength < 10 then pure none else do
    let contentType ← byte 0
    if contentType ≠ 0x16 then pure none else do
      let handshakeType ← byte 5
      if handshakeType ≠ 0x01 then pure none else do
        let handshakeLength ← fromU8be 3
        if payloadLength < handshakeLength then pure none else
          extractSniHelloExact payloadLength handshakeLength

theorem follows_assign16 {α : Type} {value : Int} {rest : Nat → OptionT ByteReader α}
    {plain : ByteReader α} (follows : Follows (rest (u16 value)) plain) :
    Follows (assign16 value >>= rest) plain := by
  unfold assign16
  split
  · exact follows
  · intro memory result same
    cases same

theorem computes_assign16 {memory : Nat → UInt8} {limit : Nat} {value : Int} (number : Nat)
    (same : value = number) (small : number < 65536) :
    Computes memory limit (assign16 value).run (some number) := by
  rw [assign16, if_pos (by omega), u16_eq number same small]
  exact computes_pure (some number)

theorem follows_extractSniLoop (iterations extentionOffset endOfExtentions : Nat) :
    Follows (extractSniLoopExact iterations extentionOffset endOfExtentions)
      (extractSniLoop iterations extentionOffset endOfExtentions) := by
  induction iterations generalizing extentionOffset with
  | zero => exact follows_pure none
  | succ iterations ih =>
      unfold extractSniLoopExact extractSniLoop
      refine follows_ite ?_ (follows_pure none)
      refine follows_bind (follows_lift _) fun extentionId => follows_assign16 ?_
      refine follows_bind (follows_lift _) fun extentionLength => follows_assign16 ?_
      refine follows_ite ?_ ?_
      · refine follows_assign16 (follows_bind (follows_lift _) fun sniLength => ?_)
        refine follows_assign16 (follows_bind (follows_lift _) fun name => ?_)
        exact follows_pure (some name)
      · exact follows_assign16 (ih _)

theorem follows_extractSniHello (payloadLength handshakeLength : Nat) :
    Follows (extractSniHelloExact payloadLength handshakeLength)
      (extractSniHello payloadLength handshakeLength) := by
  unfold extractSniHelloExact extractSniHello
  refine follows_ite (follows_pure none) ?_
  refine follows_bind (follows_lift _) fun sessionIdLength => ?_
  refine follows_ite (follows_pure none) (follows_assign16 ?_)
  refine follows_bind (follows_lift _) fun cipherLength => follows_assign16 ?_
  refine follows_ite (follows_pure none) ?_
  refine follows_bind (follows_lift _) fun compressionLength => follows_assign16 ?_
  refine follows_ite (follows_pure none) ?_
  refine follows_bind (follows_lift _) fun extentionsLength => ?_
  exact follows_assign16 (follows_assign16 (follows_extractSniLoop 50 _ _))

/-- With exact offsets the walk is the one of the source. -/
theorem follows_extractSni (payloadLength : Nat) :
    Follows (extractSniExact payloadLength) (extractSni payloadLength) := by
  unfold extractSniExact extractSni
  refine follows_ite (follows_pure none) ?_
  refine follows_bind (follows_lift _) fun contentType => follows_ite (follows_pure none) ?_
  refine follows_bind (follows_lift _) fun handshakeType => follows_ite (follows_pure none) ?_
  refine follows_bind (follows_lift _) fun handshakeLength => follows_ite (follows_pure none) ?_
  exact follows_extractSniHello payloadLength handshakeLength

end Uwebfilter
