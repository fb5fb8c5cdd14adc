import Uwebfilter.SniExtraction

/-!
# Where the ClientHello walk reads and writes

`extract_sni` compares its offsets with the length that the record header
announces, which leaves that header out, and does not compare them at all once
it walks the extensions.  It stays inside the payload and the buffer exactly
where the fields it steps through do, offsets being taken modulo `2 ^ 16`.
-/

namespace Uwebfilter

open ByteReader CStrings

section Layout

variable (memory : Nat → UInt8) (payloadLength : Nat)

/-- The first `DOMAIN_LENGTH` bytes of a server name with its length in front. -/
def serverNameAt (offset : Nat) : Bytes :=
  (List.range' (offset + 2) (min (wordAt memory offset) domainLength)).map memory

/-- The extensions from an offset on, as many as the walk visits, lie inside the
payload, and a server name among them leaves its buffer a zero byte. -/
inductive ExtensionsInside (endOfExtensions : Nat) : (iterations offset : Nat) → Prop
  | spent {offset : Nat} : ExtensionsInside endOfExtensions 0 offset
  | past {iterations offset : Nat} (past : endOfExtensions ≤ offset) :
      ExtensionsInside endOfExtensions (iterations + 1) offset
  | serverName {iterations offset : Nat} (before : offset < endOfExtensions)
      (kind : wordAt memory offset = 0) (header : offset + 4 ≤ payloadLength)
      (name : (offset + 7) % 65536 + 2 +
        min (wordAt memory ((offset + 7) % 65536)) domainLength ≤ payloadLength)
      (terminated : wordAt memory ((offset + 7) % 65536) < domainLength ∨
        0 ∈ serverNameAt memory ((offset + 7) % 65536)) :
      ExtensionsInside endOfExtensions (iterations + 1) offset
  | other {iterations offset : Nat} (before : offset < endOfExtensions)
      (kind : wordAt memory offset ≠ 0) (header : offset + 4 ≤ payloadLength)
      (rest : ExtensionsInside endOfExtensions iterations
        ((offset + 4 + wordAt memory (offset + 2)) % 65536)) :
      ExtensionsInside endOfExtensions (iterations + 1) offset

/-- The length of the extensions is at an offset and lies inside the payload, and
so do the extensions. -/
def ExtensionListInside (offset : Nat) : Prop :=
  offset + 2 ≤ payloadLength ∧
    ExtensionsInside memory payloadLength ((offset + 2 + wordAt memory offset) % 65536) 50
      (offset + 2)

/-- The byte behind an offset is the length of the compression methods; it lies
inside the payload, and so does what follows the methods, if anything does. -/
def CompressionMethodsInside (offset : Nat) : Prop :=
  let next := (offset + 2 + (memory (offset + 1)).toNat) % 65536
  offset + 2 ≤ payloadLength ∧
    (wordAt memory 3 < next ∨ ExtensionListInside memory payloadLength next)

/-- The length of the cipher suites is at an offset and lies inside the payload,
and so does what follows the suites, if anything does. -/
def CipherSuitesInside (offset : Nat) : Prop :=
  let next := (offset + 1 + wordAt memory offset) % 65536
  offset + 2 ≤ payloadLength ∧
    (wordAt memory 3 < next ∨ CompressionMethodsInside memory payloadLength next)

/-- The session id reaches the end of the record, or what follows it lies inside
the payload. -/
def SessionIdInside : Prop :=
  wordAt memory 3 < (memory 43).toNat + 45 ∨
    CipherSuitesInside memory payloadLength (44 + (memory 43).toNat)

/-- The payload is too short for a ClientHello, does not begin one, or does not
hold what its header announces. -/
def TurnedAway : Prop :=
  payloadLength < 45 ∨ memory 0 ≠ 0x16 ∨ memory 5 ≠ 0x01 ∨ payloadLength < wordAt memory 3

/-- The reads of a search for a name are inside the payload, what it writes is
inside the buffer, and the buffer, all zero before, has a zero byte afterwards. -/
structure NameInside (reader : ByteReader (Option Bytes)) : Prop where
  reads : Within memory payloadLength reader
  writes : ((reader.run memory).getD []).length ≤ domainLength
  terminated : 0 ∈ domainBuffer ((reader.run memory).getD [])

end Layout

section Walk

variable {memory : Nat → UInt8} {payloadLength : Nat}

theorem nameInside_none : NameInside memory payloadLength (pure none) where
  reads := within_pure none
  writes := Nat.zero_le _
  terminated := (zero_mem_overwrite_iff (Nat.zero_le _)).mpr (.inl (Nat.zero_lt_succ _))

theorem nameInside_bind_iff {α : Type} {first : ByteReader α}
    {second : α → ByteReader (Option Bytes)} :
    NameInside memory payloadLength (first >>= second) ↔
      Within memory payloadLength first ∧
        NameInside memory payloadLength (second (first.run memory)) := by
  constructor
  · rintro ⟨reads, writes, terminated⟩
    rw [within_bind_iff] at reads
    rw [run_bind] at writes terminated
    exact ⟨reads.1, reads.2, writes, terminated⟩
  · rintro ⟨firstReads, reads, writes, terminated⟩
    refine ⟨within_bind firstReads reads, ?_, ?_⟩ <;> rwa [run_bind]

/-- Where a search ends early, the rest of the walk is as good as inside. -/
theorem nameInside_ite_iff {ended : Prop} [Decidable ended] {reader : ByteReader (Option Bytes)} :
    NameInside memory payloadLength (if ended then pure none else reader) ↔
      ended ∨ NameInside memory payloadLength reader := by
  by_cases early : ended
  · rw [if_pos early]
    exact iff_of_true nameInside_none (.inl early)
  · rw [if_neg early, or_iff_right early]

theorem run_fromU8be (offset : Nat) : (fromU8be offset).run memory = wordAt memory offset := by
  have high := (memory offset).toNat_lt
  have low := (memory (offset + 1)).toNat_lt
  unfold fromU8be
  rw [run_bind, run_byte, run_bind, run_byte, run_pure, Nat.mod_eq_of_lt low]
  exact u16_of_lt (by omega)

theorem within_fromU8be_iff {offset : Nat} :
    Within memory payloadLength (fromU8be offset) ↔ offset + 2 ≤ payloadLength := by
  unfold fromU8be
  rw [within_bind_iff, within_byte_iff, within_bind_iff, within_byte_iff]
  constructor
  · rintro ⟨-, last, -⟩
    omega
  · intro inside
    exact ⟨by omega, by omega, within_pure _⟩

/-- The copy of a name behind its length. -/
theorem nameInside_name_iff {offset : Nat} :
    NameInside memory payloadLength
        (bytes (offset + 2) (min (wordAt memory offset) domainLength) >>= fun name =>
          pure (some name)) ↔
      (0 < min (wordAt memory offset) domainLength →
          offset + 2 + min (wordAt memory offset) domainLength ≤ payloadLength) ∧
        (wordAt memory offset < domainLength ∨ 0 ∈ serverNameAt memory offset) := by
  have copied : (serverNameAt memory offset).length = min (wordAt memory offset) domainLength := by
    simp [serverNameAt]
  have fits : (serverNameAt memory offset).length ≤ domainLength := by omega
  have room := zero_mem_overwrite_iff fits
  rw [copied] at room
  constructor
  · rintro ⟨reads, -, terminated⟩
    rw [run_bind, run_bytes, run_pure, Option.getD_some] at terminated
    refine ⟨fun positive => ?_, ?_⟩
    · exact (within_bytes_iff positive).mp (within_bind_iff.mp reads).1
    · rcases room.mp terminated with shorter | ⟨-, inside⟩
      · exact .inl (by omega)
      · exact .inr inside
  · rintro ⟨inside, terminated⟩
    refine ⟨?_, ?_, ?_⟩
    · refine within_bind ?_ (within_pure _)
      rcases Nat.eq_zero_or_pos (min (wordAt memory offset) domainLength) with none | positive
      · rw [none]
        exact within_pure _
      · exact within_bytes (inside positive)
    · rw [run_bind, run_bytes, run_pure]
      exact fits
    · rw [run_bind, run_bytes, run_pure]
      apply room.mpr
      rcases Nat.lt_or_ge (wordAt memory offset) domainLength with shorter | full
      · exact .inl (by omega)
      · exact .inr ⟨by omega, terminated.resolve_left (by omega)⟩

/-- An extension whose header lies inside the payload. -/
theorem extensionsInside_succ_iff {endOfExtensions iterations offset : Nat}
    (before : offset < endOfExtensions) (header : offset + 4 ≤ payloadLength) :
    ExtensionsInside memory payloadLength endOfExtensions (iterations + 1) offset ↔
      if wordAt memory offset = 0 then
        (offset + 7) % 65536 + 2 + min (wordAt memory ((offset + 7) % 65536)) domainLength ≤
            payloadLength ∧
          (wordAt memory ((offset + 7) % 65536) < domainLength ∨
            0 ∈ serverNameAt memory ((offset + 7) % 65536))
      else
        ExtensionsInside memory payloadLength endOfExtensions iterations
          ((offset + 4 + wordAt memory (offset + 2)) % 65536) := by
  by_cases kind : wordAt memory offset = 0
  · rw [if_pos kind]
    constructor
    · rintro (_ | past | ⟨-, -, -, name, terminated⟩ | ⟨-, other, -, -⟩)
      · omega
      · exact ⟨name, terminated⟩
      · exact absurd kind other
    · rintro ⟨name, terminated⟩
      exact .serverName before kind header name terminated
  · rw [if_neg kind]
    constructor
    · rintro (_ | past | ⟨-, serverName, -, -, -⟩ | ⟨-, -, -, rest⟩)
      · omega
      · exact absurd serverName kind
      · exact rest
    · exact .other before kind header

/-- The name of a `server_name` extension, from the offset of its length on. -/
theorem nameInside_serverName_iff (below : payloadLength < 65536) (offset : Nat) :
    NameInside memory payloadLength
        (fromU8be offset >>= fun sniLength =>
          bytes (u16 (offset + 2)) (min sniLength domainLength) >>= fun name =>
            pure (some name)) ↔
      offset + 2 + min (wordAt memory offset) domainLength ≤ payloadLength ∧
        (wordAt memory offset < domainLength ∨ 0 ∈ serverNameAt memory offset) := by
  rw [nameInside_bind_iff, within_fromU8be_iff, run_fromU8be]
  constructor
  · rintro ⟨length, name⟩
    rw [u16_eq (offset + 2) (by omega) (by omega), nameInside_name_iff] at name
    obtain ⟨copy, terminated⟩ := name
    refine ⟨?_, terminated⟩
    rcases Nat.eq_zero_or_pos (min (wordAt memory offset) domainLength) with none | positive
    · omega
    · exact copy positive
  · rintro ⟨inside, terminated⟩
    refine ⟨by omega, ?_⟩
    rw [u16_eq (offset + 2) (by omega) (by omega), nameInside_name_iff]
    exact ⟨fun _ => inside, terminated⟩

theorem extractSniLoop_iff (below : payloadLength < 65536) (endOfExtensions iterations : Nat)
    {offset : Nat} :
    NameInside memory payloadLength (extractSniLoop iterations offset endOfExtensions) ↔
      ExtensionsInside memory payloadLength endOfExtensions iterations offset := by
  induction iterations generalizing offset with
  | zero => exact iff_of_true nameInside_none .spent
  | succ iterations ih =>
      unfold extractSniLoop
      rcases Nat.lt_or_ge offset endOfExtensions with before | past
      · rw [if_pos before, nameInside_bind_iff, within_fromU8be_iff, run_fromU8be]
        rcases Nat.lt_or_ge payloadLength (offset + 4) with outside | header
        · apply iff_of_false
          · rintro ⟨kind, rest⟩
            rw [u16_eq (offset + 2) (by omega) (by omega), nameInside_bind_iff,
              within_fromU8be_iff] at rest
            omega
          · rintro (_ | _ | _ | _) <;> omega
        · rw [u16_eq (offset + 2) (by omega) (by omega), nameInside_bind_iff,
            within_fromU8be_iff, run_fromU8be, u16_eq (offset + 4) (by omega) (by omega),
            extensionsInside_succ_iff before header,
            and_iff_right (by omega : offset + 2 ≤ payloadLength),
            and_iff_right (by omega : offset + 2 + 2 ≤ payloadLength)]
          by_cases kind : wordAt memory offset = 0
          · rw [if_pos kind, if_pos kind, u16_eq_mod (offset + 7) (by omega)]
            exact nameInside_serverName_iff below _
          · rw [if_neg kind, if_neg kind,
              u16_eq_mod (offset + 4 + wordAt memory (offset + 2)) (by omega)]
            exact ih
      · rw [if_neg (by omega)]
        exact iff_of_true nameInside_none (.past past)

theorem extensionList_iff (below : payloadLength < 65536) (offset : Nat) :
    NameInside memory payloadLength
        (fromU8be offset >>= fun extentionsLength =>
          extractSniLoop 50 (u16 (2 + offset)) (u16 (u16 (2 + offset) + extentionsLength))) ↔
      ExtensionListInside memory payloadLength offset := by
  rw [nameInside_bind_iff, within_fromU8be_iff, run_fromU8be, ExtensionListInside]
  apply and_congr_right
  intro length
  rw [u16_eq (offset + 2) (by omega) (by omega),
    u16_eq_mod (offset + 2 + wordAt memory offset) (by omega)]
  exact extractSniLoop_iff below _ 50

theorem compressionMethods_iff (below : payloadLength < 65536) (offset : Nat) :
    NameInside memory payloadLength
        (byte (offset + 1) >>= fun compressionLength =>
          if u16 (offset + compressionLength + 2) > wordAt memory 3 then pure none
          else fromU8be (u16 (offset + compressionLength + 2)) >>= fun extentionsLength =>
            extractSniLoop 50 (u16 (2 + u16 (offset + compressionLength + 2)))
              (u16 (u16 (2 + u16 (offset + compressionLength + 2)) + extentionsLength))) ↔
      CompressionMethodsInside memory payloadLength offset := by
  rw [nameInside_bind_iff, within_byte_iff, run_byte,
    u16_eq_mod (offset + 2 + (memory (offset + 1)).toNat) (by omega), nameInside_ite_iff,
    extensionList_iff below]
  rfl

theorem extractSniHello_iff (below : payloadLength < 65536) :
    NameInside memory payloadLength (extractSniHello payloadLength (wordAt memory 3)) ↔
      payloadLength < 45 ∨ SessionIdInside memory payloadLength := by
  have session := (memory 43).toNat_lt
  unfold extractSniHello
  rw [nameInside_ite_iff]
  apply or_congr_right'
  intro long
  rw [nameInside_bind_iff, within_byte_iff, run_byte, nameInside_ite_iff,
    u16_eq (44 + (memory 43).toNat) (by omega) (by omega), nameInside_bind_iff,
    within_fromU8be_iff, run_fromU8be,
    u16_eq_mod (44 + (memory 43).toNat + 1 + wordAt memory (44 + (memory 43).toNat)) (by omega),
    nameInside_ite_iff, and_iff_right (by omega : 43 < payloadLength)]
  apply or_congr_right
  apply and_congr_right
  intro length
  apply or_congr_right
  exact compressionMethods_iff below _

end Walk

/-- The walk stays inside its buffers exactly where the payload is turned away
at its header or its fields lie inside it. -/
theorem nameInside_iff_fieldsInside (memory : Nat → UInt8) (payloadLength : Nat)
    (below : payloadLength < 65536) :
    NameInside memory payloadLength (extractSni payloadLength) ↔
      TurnedAway memory payloadLength ∨ SessionIdInside memory payloadLength := by
  have contentType : (memory 0).toNat ≠ 0x16 ↔ memory 0 ≠ 0x16 :=
    not_congr (UInt8.toNat_inj (b := 0x16))
  have handshakeType : (memory 5).toNat ≠ 0x01 ↔ memory 5 ≠ 0x01 :=
    not_congr (UInt8.toNat_inj (b := 0x01))
  unfold extractSni
  rw [nameInside_ite_iff, nameInside_bind_iff, within_byte_iff, run_byte, nameInside_ite_iff,
    nameInside_bind_iff, within_byte_iff, run_byte, nameInside_ite_iff, nameInside_bind_iff,
    within_fromU8be_iff, run_fromU8be, nameInside_ite_iff, extractSniHello_iff below,
    contentType, handshakeType, TurnedAway]
  rcases Nat.lt_or_ge payloadLength 45 with short | long
  · exact iff_of_true (by omega) (.inl (.inl short))
  · have notShort : ¬ payloadLength < 45 := by omega
    rw [or_iff_right (by omega : ¬ payloadLength < 10),
      and_iff_right (by omega : 0 < payloadLength), and_iff_right (by omega : 5 < payloadLength),
      and_iff_right (by omega : 3 + 2 ≤ payloadLength), or_iff_right notShort,
      or_iff_right notShort, or_assoc, or_assoc]

/-- A record of 45 bytes that announces as many and holds a ClientHello whose
session id is empty. -/
def shortHello (address : Nat) : UInt8 :=
  if address = 0 then 0x16 else if address = 4 then 45 else if address = 5 then 1 else 0

theorem nameInside_iff_fieldsInside_shortHello :
    45 < 65536 ∧
      (NameInside shortHello 45 (extractSni 45) ↔
        TurnedAway shortHello 45 ∨ SessionIdInside shortHello 45) :=
  ⟨by decide, nameInside_iff_fieldsInside shortHello 45 (by decide)⟩

/-- The length of the cipher suites is read half behind the payload. -/
theorem not_nameInside_shortHello :
    ¬ NameInside shortHello 45 (extractSni 45) := by
  intro inside
  have beyond := inside.reads 45 (by decide)
  omega

end Uwebfilter
