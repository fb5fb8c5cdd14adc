import Uwebfilter.SniArithmetic

/-!
# ClientHello records

TLS records that hold one whole ClientHello, as their grammar writes them, and
what `extract_sni` finds in memory that holds such a record: the first server
name, from reads inside the record only.
-/

namespace Uwebfilter

open ByteReader CStrings

/-- An extension of a ClientHello: `server_name` with a first name of some type
and the bytes of further names, or one of another type. -/
inductive Extension
  | serverName (nameType : UInt8) (name more : Bytes)
  | other (kind : Nat) (body : Bytes) (notServerName : kind % 65536 ≠ 0)

namespace Extension

def kind : Extension → Nat
  | .serverName .. => 0
  | .other kind .. => kind % 65536

def body : Extension → Bytes
  | .serverName nameType name more =>
      be16 (1 + 2 + name.length + more.length) ++ [nameType] ++ be16 name.length ++ name ++ more
  | .other _ body _ => body

def encode (extension : Extension) : Bytes :=
  be16 extension.kind ++ be16 extension.body.length ++ extension.body

def name? : Extension → Option Bytes
  | .serverName _ name _ => some name
  | .other .. => none

@[simp] theorem encode_length (extension : Extension) :
    extension.encode.length = 4 + extension.body.length := by
  simp only [encode, List.length_append, be16_length]

theorem kind_lt (extension : Extension) : extension.kind < 65536 := by
  cases extension with
  | serverName nameType name more => exact Nat.zero_lt_succ _
  | other kind body notServerName => exact Nat.mod_lt _ (by decide)

end Extension

/-- A record with a ClientHello.  Behind a ClientHello with extensions the
record may hold the beginning of another handshake message. -/
structure ClientHello where
  recordVersion : UInt8 × UInt8
  version : UInt8 × UInt8
  random : Bytes
  sessionId : Bytes
  cipherSuites : Bytes
  compressionMethods : Bytes
  extensions : Option (List Extension)
  rest : Bytes
  randomLength : random.length = 32
  sessionIdLength : sessionId.length ≤ 32
  compressionMethodsLength : compressionMethods.length < 256
  restAbsent : extensions = none → rest = []

namespace ClientHello

variable (hello : ClientHello)

def extensionsBytes : Bytes :=
  match hello.extensions with
  | none => []
  | some extensions =>
      be16 (extensions.flatMap Extension.encode).length ++ extensions.flatMap Extension.encode

/-- The ClientHello behind its fixed-length fields. -/
def variableBytes : Bytes :=
  UInt8.ofNat hello.sessionId.length :: hello.sessionId ++
    be16 hello.cipherSuites.length ++ hello.cipherSuites ++
    UInt8.ofNat hello.compressionMethods.length :: hello.compressionMethods ++
    hello.extensionsBytes

def message : Bytes :=
  let length := 34 + hello.variableBytes.length
  [0x01, UInt8.ofNat (length / 65536)] ++ be16 (length % 65536) ++
    [hello.version.1, hello.version.2] ++ hello.random ++ hello.variableBytes

def record : Bytes :=
  [0x16, hello.recordVersion.1, hello.recordVersion.2] ++
    be16 (hello.message.length + hello.rest.length) ++ hello.message ++ hello.rest

def serverName : Option Bytes :=
  (hello.extensions.getD []).take 50 |>.findSome? Extension.name?

theorem variableBytes_length :
    hello.variableBytes.length = 4 + hello.sessionId.length + hello.cipherSuites.length +
      hello.compressionMethods.length + hello.extensionsBytes.length := by
  simp only [variableBytes, List.length_append, List.length_cons, be16_length]
  omega

theorem message_length : hello.message.length = 38 + hello.variableBytes.length := by
  simp only [message, List.length_append, List.length_cons, List.length_nil, be16_length,
    hello.randomLength]

theorem record_length : hello.record.length = 5 + hello.message.length + hello.rest.length := by
  simp only [record, List.length_append, List.length_cons, List.length_nil, be16_length]

theorem serverName_eq_none (short : hello.extensionsBytes.length < 6) :
    hello.serverName = none := by
  cases present : hello.extensions with
  | none => simp [serverName, present]
  | some extensions =>
      cases extensions with
      | nil => simp [serverName, present]
      | cons extension extensions =>
          simp only [extensionsBytes, present, List.length_append, be16_length,
            List.flatMap_cons, Extension.encode_length] at short
          omega

end ClientHello

/-! ## Reading a record -/

section Reading

variable {memory : Nat → UInt8} {limit : Nat}

theorem computes_fromU8be {offset value : Nat} (holds : Holds memory offset (be16 value))
    (small : value < 65536) (below : offset + 2 ≤ limit) :
    Computes memory limit (fromU8be offset) value := by
  simp only [be16, holds_cons, holds_nil, and_true] at holds
  obtain ⟨first, second⟩ := holds
  have exact16 : u16 (((UInt8.ofNat (value / 256)).toNat * 256 +
      (UInt8.ofNat value).toNat % 256 : Nat) : Int) = value := by
    have whole := be16_toNat small
    have low : (UInt8.ofNat value).toNat < 256 := UInt8.toNat_lt _
    rw [Nat.mod_eq_of_lt low, whole]
    exact u16_of_lt small
  unfold fromU8be
  apply computes_bind (computes_byte first (by omega))
  apply computes_bind (computes_byte second (by omega))
  rw [exact16]
  exact computes_pure value

/-- The name of a `server_name` extension, from its length on. -/
theorem computes_extractedName {offset : Nat} {name : Bytes}
    (length : Holds memory offset (be16 name.length)) (here : Holds memory (offset + 2) name)
    (below : offset + 2 + name.length ≤ limit) (small : limit < 65536) :
    Computes memory limit
      (do
        let sniLength ← fromU8be offset
        let extentionOffset ← assign16 (offset + 2)
        let name ← bytes extentionOffset (min sniLength domainLength)
        pure (some name) : OptionT ByteReader (Option Bytes)).run
      (some (some (name.take domainLength))) := by
  apply computes_guarded_bind
    (computes_guarded_lift (computes_fromU8be length (by omega) (by omega)))
  apply computes_guarded_bind (computes_assign16 (offset + 2) (by omega) (by omega))
  rw [← List.take_append_drop domainLength name, holds_append] at here
  have copied := computes_bytes here.1 (by rw [List.length_take]; omega : _ ≤ limit)
  rw [List.length_take, Nat.min_comm] at copied
  exact computes_guarded_bind (computes_guarded_lift copied) (computes_guarded_pure _)

/-- The loop over a list of extensions, all in memory. -/
theorem computes_extractSniLoopExact (iterations : Nat) (extensions : List Extension)
    {offset : Nat} (holds : Holds memory offset (extensions.flatMap Extension.encode))
    (below : offset + (extensions.flatMap Extension.encode).length ≤ limit)
    (small : limit < 65536) :
    Computes memory limit
      (extractSniLoopExact iterations offset
        (offset + (extensions.flatMap Extension.encode).length)).run
      (some (((extensions.take iterations).findSome? Extension.name?).map
        (List.take domainLength))) := by
  induction extensions generalizing iterations offset with
  | nil =>
      cases iterations with
      | zero => exact computes_guarded_pure none
      | succ iterations => simpa [extractSniLoopExact] using computes_guarded_pure none
  | cons extension extensions ih =>
      cases iterations with
      | zero => exact computes_guarded_pure none
      | succ iterations =>
          simp only [List.flatMap_cons, List.length_append, Extension.encode_length] at below ⊢
          simp only [List.flatMap_cons, holds_append, Extension.encode_length] at holds
          obtain ⟨here, later⟩ := holds
          simp only [Extension.encode, holds_append, be16_length, List.length_append] at here
          obtain ⟨⟨kind, length⟩, body⟩ := here
          unfold extractSniLoopExact
          rw [if_pos (by omega)]
          apply computes_guarded_bind (computes_guarded_lift
            (computes_fromU8be kind extension.kind_lt (by omega)))
          apply computes_guarded_bind (computes_assign16 (offset + 2) (by omega) (by omega))
          apply computes_guarded_bind (computes_guarded_lift
            (computes_fromU8be length (by omega) (by omega)))
          apply computes_guarded_bind (computes_assign16 (offset + 4) (by omega) (by omega))
          cases extension with
          | other other content notServerName =>
              rw [if_neg (by simpa [Extension.kind] using notServerName)]
              simp only [Extension.body] at below later ⊢
              apply computes_guarded_bind
                (computes_assign16 (offset + (4 + content.length)) (by omega) (by omega))
              have next := ih iterations later (by omega)
              rw [Nat.add_assoc] at next
              simpa only [List.take_succ_cons, List.findSome?_cons, Extension.name?] using next
          | serverName nameType name more =>
              rw [if_pos (by rfl)]
              simp only [Extension.body, holds_append, be16_length, List.length_append,
                List.length_cons, List.length_nil] at below body
              obtain ⟨⟨⟨-, nameLength⟩, nameHere⟩, -⟩ := body
              apply computes_guarded_bind
                (computes_assign16 (offset + 7) (by omega) (by omega))
              exact computes_extractedName nameLength nameHere (by omega) small

/-- A list of extensions, from its length on. -/
theorem computes_extensionList (extensions : List Extension) {offset : Nat}
    (holds : Holds memory offset (be16 (extensions.flatMap Extension.encode).length ++
      extensions.flatMap Extension.encode))
    (below : offset + 2 + (extensions.flatMap Extension.encode).length ≤ limit)
    (small : limit < 65536) :
    Computes memory limit
      (do
        let extentionsLength ← fromU8be offset
        let extentionOffset ← assign16 (2 + offset)
        let endOfExtentions ← assign16 (extentionOffset + extentionsLength)
        extractSniLoopExact 50 extentionOffset endOfExtentions :
          OptionT ByteReader (Option Bytes)).run
      (some (((extensions.take 50).findSome? Extension.name?).map (List.take domainLength))) := by
  rw [holds_append, be16_length] at holds
  apply computes_guarded_bind (computes_guarded_lift
    (computes_fromU8be holds.1 (by omega) (by omega)))
  apply computes_guarded_bind (computes_assign16 (offset + 2) (by omega) (by omega))
  apply computes_guarded_bind (computes_assign16
    (offset + 2 + (extensions.flatMap Extension.encode).length) (by omega) (by omega))
  exact computes_extractSniLoopExact 50 extensions holds.2 below small

variable {hello : ClientHello}

theorem holds_fixedFields (holds : Holds memory 0 hello.record) :
    memory 0 = 0x16 ∧ memory 5 = 0x01 ∧
      Holds memory 3 (be16 (hello.message.length + hello.rest.length)) ∧
      Holds memory 43 hello.variableBytes := by
  simp only [ClientHello.record, ClientHello.message, holds_append, holds_cons, holds_nil,
    List.length_append, List.length_cons, List.length_nil, be16_length, hello.randomLength]
    at holds
  obtain ⟨⟨⟨⟨contentType, -⟩, length⟩, ⟨⟨⟨⟨⟨handshakeType, -⟩, -⟩, -⟩, -⟩, fields⟩⟩, -⟩ := holds
  exact ⟨contentType, handshakeType, by simpa [ClientHello.message_length] using length, fields⟩

theorem holds_variableFields (holds : Holds memory 43 hello.variableBytes) :
    memory 43 = UInt8.ofNat hello.sessionId.length ∧
      Holds memory (44 + hello.sessionId.length) (be16 hello.cipherSuites.length) ∧
      memory (46 + hello.sessionId.length + hello.cipherSuites.length) =
        UInt8.ofNat hello.compressionMethods.length ∧
      Holds memory (47 + hello.sessionId.length + hello.cipherSuites.length +
        hello.compressionMethods.length) hello.extensionsBytes := by
  simp only [ClientHello.variableBytes, holds_append, holds_cons, List.length_append,
    List.length_cons, be16_length] at holds
  obtain ⟨⟨⟨⟨⟨sessionIdLength, -⟩, cipherLength⟩, -⟩, compressionLength, -⟩, extensions⟩ := holds
  refine ⟨sessionIdLength, ?_, ?_, ?_⟩
  · rwa [show 44 + hello.sessionId.length = 43 + (hello.sessionId.length + 1) by omega]
  · rw [← compressionLength]
    congr 1
    omega
  · convert extensions using 1
    omega

/-- The two length bytes, read by a parser that sees `limit` bytes of memory. -/
theorem computes_lengthBytes (holds : Holds memory 43 hello.variableBytes)
    (present : 43 + hello.variableBytes.length ≤ limit) :
    Computes memory limit (byte 43) hello.sessionId.length ∧
      Computes memory limit (byte (46 + hello.sessionId.length + hello.cipherSuites.length))
        hello.compressionMethods.length := by
  have variableLength := hello.variableBytes_length
  obtain ⟨sessionIdLength, -, compressionLength, -⟩ := holds_variableFields holds
  have sessionIdBound := hello.sessionIdLength
  have compressionBound := hello.compressionMethodsLength
  constructor
  · simpa [UInt8.toNat_ofNat_of_lt' (by omega : hello.sessionId.length < 256)] using
      computes_byte sessionIdLength (by omega : 43 < limit)
  · simpa [UInt8.toNat_ofNat_of_lt' compressionBound] using computes_byte compressionLength
      (by omega : 46 + hello.sessionId.length + hello.cipherSuites.length < limit)

theorem computes_extractSniHelloExact (payloadLength : Nat) (holds : Holds memory 0 hello.record)
    (present : hello.record.length ≤ payloadLength) (small : hello.record.length < 65536) :
    Computes memory hello.record.length
      (extractSniHelloExact payloadLength (hello.message.length + hello.rest.length)).run
      (some (hello.serverName.map (List.take domainLength))) := by
  have total := hello.record_length
  have messageLength := hello.message_length
  have variableLength := hello.variableBytes_length
  obtain ⟨-, -, -, fields⟩ := holds_fixedFields holds
  obtain ⟨-, cipherLength, -, extensions⟩ := holds_variableFields fields
  obtain ⟨sessionIdRead, compressionRead⟩ :=
    computes_lengthBytes fields (by omega : _ ≤ hello.record.length)
  -- too short for an extension, the ClientHello has no server name
  have nameless (short : hello.extensionsBytes.length + hello.rest.length < 5) :
      Computes memory hello.record.length (pure none : OptionT ByteReader (Option Bytes)).run
        (some (hello.serverName.map (List.take domainLength))) := by
    rw [hello.serverName_eq_none (by omega)]
    exact computes_guarded_pure none
  unfold extractSniHelloExact
  rw [if_neg (by omega)]
  apply computes_guarded_bind (computes_guarded_lift sessionIdRead)
  by_cases session : hello.sessionId.length + 43 + 2 > hello.message.length + hello.rest.length
  · rw [if_pos session]
    exact nameless (by omega)
  rw [if_neg session]
  apply computes_guarded_bind
    (computes_assign16 (44 + hello.sessionId.length) (by omega) (by omega))
  apply computes_guarded_bind (computes_guarded_lift
    (computes_fromU8be cipherLength (by omega) (by omega)))
  apply computes_guarded_bind (computes_assign16
    (45 + hello.sessionId.length + hello.cipherSuites.length) (by omega) (by omega))
  by_cases ciphers : 45 + hello.sessionId.length + hello.cipherSuites.length >
      hello.message.length + hello.rest.length
  · rw [if_pos ciphers]
    exact nameless (by omega)
  rw [if_neg ciphers, show 45 + hello.sessionId.length + hello.cipherSuites.length + 1 =
    46 + hello.sessionId.length + hello.cipherSuites.length by omega]
  apply computes_guarded_bind (computes_guarded_lift compressionRead)
  apply computes_guarded_bind (computes_assign16 (47 + hello.sessionId.length +
    hello.cipherSuites.length + hello.compressionMethods.length) (by omega) (by omega))
  by_cases compression : 47 + hello.sessionId.length + hello.cipherSuites.length +
      hello.compressionMethods.length > hello.message.length + hello.rest.length
  · rw [if_pos compression]
    exact nameless (by omega)
  rw [if_neg compression]
  cases listed : hello.extensions with
  | none =>
      have restLength : hello.rest.length = 0 := by simp [hello.restAbsent listed]
      have nothing : hello.extensionsBytes.length = 0 := by
        simp [ClientHello.extensionsBytes, listed]
      omega
  | some list =>
      have whole : hello.extensionsBytes =
          be16 (list.flatMap Extension.encode).length ++ list.flatMap Extension.encode := by
        simp [ClientHello.extensionsBytes, listed]
      have wholeLength := congrArg List.length whole
      rw [List.length_append, be16_length] at wholeLength
      rw [whole] at extensions
      have walk := computes_extensionList list extensions
        (by omega : _ ≤ hello.record.length) small
      simpa only [ClientHello.serverName, listed, Option.getD_some] using walk

/-- `extract_sni` finds the server name of a record that begins the memory it
is given with exact offsets, and looks at that record only. -/
theorem computes_extractSniExact (payloadLength : Nat) (holds : Holds memory 0 hello.record)
    (present : hello.record.length ≤ payloadLength) (small : hello.record.length < 65536) :
    Computes memory hello.record.length (extractSniExact payloadLength).run
      (some (hello.serverName.map (List.take domainLength))) := by
  have total := hello.record_length
  have messageLength := hello.message_length
  obtain ⟨contentType, handshakeType, length, -⟩ := holds_fixedFields holds
  unfold extractSniExact
  rw [if_neg (by omega)]
  apply computes_guarded_bind (computes_guarded_lift (computes_byte contentType (by omega)))
  rw [if_neg (by decide)]
  apply computes_guarded_bind (computes_guarded_lift (computes_byte handshakeType (by omega)))
  rw [if_neg (by decide)]
  apply computes_guarded_bind (computes_guarded_lift
    (computes_fromU8be length (by omega) (by omega)))
  rw [if_neg (by omega)]
  exact computes_extractSniHelloExact payloadLength holds present small

theorem computes_extractSni (payloadLength : Nat) (holds : Holds memory 0 hello.record)
    (present : hello.record.length ≤ payloadLength) (small : hello.record.length < 65536) :
    Computes memory hello.record.length (extractSni payloadLength)
      (hello.serverName.map (List.take domainLength)) :=
  (follows_extractSni payloadLength).computes
    (computes_extractSniExact payloadLength holds present small)

end Reading

end Uwebfilter
