import Uwebfilter.AccessPolicy
import Uwebfilter.CloudLog
import Uwebfilter.DottedQuad
import Uwebfilter.QueryServer

/-!
# The wire format of logs

The daemon writes a batch of records as a JSON document, the collector reads it
with `LogBase.UnmarshalJSON` into `LogV1` values.  The two sides agree on every
record that `check_access` fills.
-/

namespace Uwebfilter

open CStrings

/-! ## Documents on the wire -/

/-- All texts of a document, its keys among them, are valid UTF-8. -/
inductive Json.ValidText : Json → Prop
  | null : ValidText .null
  | bool (value : Bool) : ValidText (.bool value)
  | int (value : Int) : ValidText (.int value)
  | double {text : Bytes} (valid : ValidUtf8 text) : ValidText (.double text)
  | string {value : Bytes} (valid : ValidUtf8 value) : ValidText (.string value)
  | array {elements : List Json} (each : ∀ element ∈ elements, ValidText element) :
      ValidText (.array elements)
  | object {members : List (Bytes × Json)} (keys : ∀ member ∈ members, ValidUtf8 member.1)
      (each : ∀ member ∈ members, ValidText member.2) : ValidText (.object members)

/-- What `encoding/json` reads of what json-c prints, laid down for valid UTF-8
only. -/
structure Wire where
  carry : Json → Json
  carry_of_valid : ∀ document, document.ValidText → carry document = document

/-! ## Addresses -/

/-- The bytes of an address in the memory of a little-endian host. -/
def addressBytes (address : Nat) : Bytes :=
  [UInt8.ofNat (address % 256), UInt8.ofNat (address / 256 % 256),
    UInt8.ofNat (address / 65536 % 256), UInt8.ofNat (address / 16777216 % 256)]

theorem uintToString_eq {number : Nat} (small : number < 256) :
    uintToString number = DottedQuad.field (UInt8.ofNat number) ++ [dot] := by
  have value : (UInt8.ofNat number).toNat = number := by
    rw [UInt8.toNat_ofNat']
    omega
  have hundreds : number / 10 / 10 = number / 100 := by omega
  simp only [uintToString, DottedQuad.field, DottedQuad.fieldDigits, value, hundreds]
  split
  · rfl
  · split
    · rfl
    · rfl

/-- The text of an address is its dotted quad. -/
theorem ipaddrUint32ToString_eq (address : Nat) :
    ipaddrUint32ToString address = DottedQuad.print (addressBytes address) := by
  have small : ∀ number : Nat, number % 256 < 256 := fun number => Nat.mod_lt number (by decide)
  simp only [ipaddrUint32ToString, uintToString_eq (small _), addressBytes, DottedQuad.print,
    List.map_cons, List.map_nil, List.intercalate_cons_cons, List.intercalate_singleton]
  simp only [← List.append_assoc, List.dropLast_concat]

/-! ## The collector's decoder -/

/-- `LogV1`, whose addresses are slices. -/
structure LogV1 where
  srcIP : Bytes := []
  dstIP : Bytes := []
  srcPort : Nat := 0
  dstPort : Nat := 0
  proto : Bytes := []
  domain : Bytes := []
  path : Bytes := []
  action : Bytes := []
  category : Int := 0
  application : Int := 0
  blockType : Int := 0
  logTime : Nat := 0
  deriving DecidableEq

/-- The prefix that makes four bytes a `net.IP` of sixteen. -/
def v4InV6Prefix : Bytes := List.replicate 10 0 ++ [255, 255]

section Decoder

-- how `net.ParseIP` reads what is not a dotted quad
variable (parseIPv6 : Bytes → Option Bytes)

def parseIP (text : Bytes) : Option Bytes :=
  match DottedQuad.parse text with
  | some bytes => some (v4InV6Prefix ++ bytes)
  | none => parseIPv6 text

def decodeIP : Json → Option Bytes
  | .null => some []
  | .string text => if text = [] then some [] else parseIP parseIPv6 (Utf8.coerce text)
  | _ => none

def decodeUint16 (before : Nat) : Json → Option Nat
  | .null => some before
  | .int value => if 0 ≤ value ∧ value < 65536 then some value.toNat else none
  | _ => none

open QueryServer in
def decodeLogMember (log : LogV1) (member : Bytes × Json) : Option LogV1 :=
  if foldName member.1 = LogKeys.srcip then
    (decodeIP parseIPv6 member.2).map fun value => { log with srcIP := value }
  else if foldName member.1 = LogKeys.dstip then
    (decodeIP parseIPv6 member.2).map fun value => { log with dstIP := value }
  else if foldName member.1 = LogKeys.srcport then
    (decodeUint16 log.srcPort member.2).map fun value => { log with srcPort := value }
  else if foldName member.1 = LogKeys.dstport then
    (decodeUint16 log.dstPort member.2).map fun value => { log with dstPort := value }
  else if foldName member.1 = LogKeys.proto then
    (decodeString log.proto member.2).map fun value => { log with proto := value }
  else if foldName member.1 = LogKeys.domain then
    (decodeString log.domain member.2).map fun value => { log with domain := value }
  else if foldName member.1 = LogKeys.path then
    (decodeString log.path member.2).map fun value => { log with path := value }
  else if foldName member.1 = LogKeys.action then
    (decodeString log.action member.2).map fun value => { log with action := value }
  else if foldName member.1 = LogKeys.category then
    (decodeInt log.category member.2).map fun value => { log with category := value }
  else if foldName member.1 = LogKeys.application then
    (decodeInt log.application member.2).map fun value => { log with application := value }
  else if foldName member.1 = LogKeys.blocktype then
    (decodeInt log.blockType member.2).map fun value => { log with blockType := value }
  else if foldName member.1 = LogKeys.logtime then
    (decodeUint log.logTime member.2).map fun value => { log with logTime := value }
  else some log

/-- `json.Unmarshal` into a `LogV1`. -/
def unmarshalLogV1 : Json → Option LogV1
  | .null => some {}
  | .object members => members.foldlM (decodeLogMember parseIPv6) {}
  | _ => none

/-- `json.Unmarshal` into a `[]LogV1`. -/
def unmarshalLogsV1 : Json → Option (List LogV1)
  | .null => some []
  | .array elements => elements.mapM (unmarshalLogV1 parseIPv6)
  | _ => none

def logVersion1 : Nat := 1

/-- The `aux` of `LogBase.UnmarshalJSON`: the version, and what `logs` holds
undecoded. -/
structure LogAux where
  version : Nat := 0
  logs : Option Json := none

def decodeAuxMember (aux : LogAux) (member : Bytes × Json) : Option LogAux :=
  if QueryServer.foldName member.1 = LogKeys.version then
    (QueryServer.decodeUint aux.version member.2).map fun value => { aux with version := value }
  else if QueryServer.foldName member.1 = LogKeys.logs then some { aux with logs := some member.2 }
  else some aux

def unmarshalAux : Json → Option LogAux
  | .null => some {}
  | .object members => members.foldlM decodeAuxMember {}
  | _ => none

structure LogBase where
  version : Nat
  logs : List LogV1
  deriving DecidableEq

/-- `LogBase.UnmarshalJSON`. -/
def unmarshalLogBase (data : Json) : Option LogBase := do
  let aux ← unmarshalAux data
  if aux.version = logVersion1 then do
    let auxLogs ← aux.logs
    let logs ← unmarshalLogsV1 parseIPv6 auxLogs
    some ⟨aux.version, logs⟩
  else none

end Decoder

/-! ## Round trip -/

/-- A record as `check_access` fills it, for a packet between two addresses. -/
structure FilledLog where
  log : Uwebfilterlog
  saddr : Nat
  daddr : Nat
  proto : Proto
  action : Action
  srcip : log.srcip = ipaddrUint32ToString saddr
  dstip : log.dstip = ipaddrUint32ToString daddr
  srcport : log.srcport < 65536
  dstport : log.dstport < 65536
  hasProto : log.proto = some proto
  hasAction : log.action = some action
  category : -2147483648 ≤ log.category ∧ log.category ≤ 2147483647
  application : -2147483648 ≤ log.application ∧ log.application ≤ 2147483647
  blocktype : -2147483648 ≤ log.blocktype ∧ log.blocktype ≤ 2147483647
  logtime : 0 ≤ log.logtime ∧ log.logtime < 9223372036854775808
  domainNulFree : 0 ∉ log.domain
  pathNulFree : 0 ∉ log.path
  domainValid : ValidUtf8 log.domain
  pathValid : ValidUtf8 log.path

namespace FilledLog

/-- The record as the collector should have it. -/
def received (record : FilledLog) : LogV1 where
  srcIP := v4InV6Prefix ++ addressBytes record.saddr
  dstIP := v4InV6Prefix ++ addressBytes record.daddr
  srcPort := record.log.srcport
  dstPort := record.log.dstport
  proto := record.proto.text
  domain := record.log.domain
  path := record.log.path
  action := record.action.text
  category := record.log.category
  application := record.log.application
  blockType := record.log.blocktype
  logTime := record.log.logtime.toNat

end FilledLog

theorem ipaddrUint32ToString_nulFree (address : Nat) : 0 ∉ ipaddrUint32ToString address := by
  intro member
  rw [ipaddrUint32ToString_eq] at member
  exact absurd (DottedQuad.print_bounds member).1 (by decide)

theorem validUtf8_ipaddr (address : Nat) :
    ValidUtf8 (cString (ipaddrUint32ToString address)) := by
  rw [cString_of_nulFree (ipaddrUint32ToString_nulFree address), ipaddrUint32ToString_eq]
  apply validUtf8_of_lt
  intro byte member
  have below := (DottedQuad.print_bounds member).2
  omega

theorem Proto.validUtf8_text (proto : Proto) : ValidUtf8 proto.text := by
  apply validUtf8_of_all
  cases proto with
  | tcp => decide
  | udp => decide

theorem Action.validUtf8_text (action : Action) : ValidUtf8 action.text := by
  apply validUtf8_of_all
  cases action with
  | allow => decide
  | block => decide

theorem decodeUint16_port {port : Nat} (small : port < 65536) (before : Nat) :
    decodeUint16 before (.int port) = some port := by
  have inside : (0 : Int) ≤ port ∧ (port : Int) < 65536 := by omega
  rw [decodeUint16, if_pos inside, Int.toNat_natCast]

section Decoding

variable (parseIPv6 : Bytes → Option Bytes)

theorem decodeIP_ipaddr (address : Nat) :
    decodeIP parseIPv6 (.string (cString (ipaddrUint32ToString address))) =
      some (v4InV6Prefix ++ addressBytes address) := by
  have parsed := DottedQuad.parse_print (show (addressBytes address).length = 4 from rfl)
  have nonempty : DottedQuad.print (addressBytes address) ≠ [] := by
    intro empty
    rw [empty] at parsed
    cases parsed
  have valid := validUtf8_ipaddr address
  rw [cString_of_nulFree (ipaddrUint32ToString_nulFree address), ipaddrUint32ToString_eq]
    at valid ⊢
  rw [decodeIP, if_neg nonempty, Utf8.coerce_of_valid valid, parseIP, parsed]

/-- The keys are distinct, so a member reaches the field of its own key. -/
theorem decodeLogMember_key (log : LogV1) (value : Json) :
    decodeLogMember parseIPv6 log (LogKeys.srcip, value) =
        (decodeIP parseIPv6 value).map (fun read => { log with srcIP := read }) ∧
    decodeLogMember parseIPv6 log (LogKeys.dstip, value) =
        (decodeIP parseIPv6 value).map (fun read => { log with dstIP := read }) ∧
    decodeLogMember parseIPv6 log (LogKeys.srcport, value) =
        (decodeUint16 log.srcPort value).map (fun read => { log with srcPort := read }) ∧
    decodeLogMember parseIPv6 log (LogKeys.dstport, value) =
        (decodeUint16 log.dstPort value).map (fun read => { log with dstPort := read }) ∧
    decodeLogMember parseIPv6 log (LogKeys.proto, value) =
        (QueryServer.decodeString log.proto value).map (fun read => { log with proto := read }) ∧
    decodeLogMember parseIPv6 log (LogKeys.domain, value) =
        (QueryServer.decodeString log.domain value).map (fun read => { log with domain := read }) ∧
    decodeLogMember parseIPv6 log (LogKeys.path, value) =
        (QueryServer.decodeString log.path value).map (fun read => { log with path := read }) ∧
    decodeLogMember parseIPv6 log (LogKeys.action, value) =
        (QueryServer.decodeString log.action value).map (fun read => { log with action := read }) ∧
    decodeLogMember parseIPv6 log (LogKeys.category, value) =
        (QueryServer.decodeInt log.category value).map (fun read => { log with category := read }) ∧
    decodeLogMember parseIPv6 log (LogKeys.application, value) =
        (QueryServer.decodeInt log.application value).map (fun read => { log with application := read }) ∧
    decodeLogMember parseIPv6 log (LogKeys.blocktype, value) =
        (QueryServer.decodeInt log.blockType value).map (fun read => { log with blockType := read }) ∧
    decodeLogMember parseIPv6 log (LogKeys.logtime, value) =
        (QueryServer.decodeUint log.logTime value).map (fun read => { log with logTime := read }) :=
  ⟨rfl, rfl, rfl, rfl, rfl, rfl, rfl, rfl, rfl, rfl, rfl, rfl⟩

/-- Members in the order the daemon writes them, each with a value of its field. -/
theorem foldlM_decodeLogMember (received : LogV1) {source destination : Json}
    {sourcePort destinationPort proto domain path action : Json}
    {category application blocktype logtime : Json}
    (srcIP : decodeIP parseIPv6 source = some received.srcIP)
    (dstIP : decodeIP parseIPv6 destination = some received.dstIP)
    (srcPort : decodeUint16 0 sourcePort = some received.srcPort)
    (dstPort : decodeUint16 0 destinationPort = some received.dstPort)
    (protoRead : QueryServer.decodeString [] proto = some received.proto)
    (domainRead : QueryServer.decodeString [] domain = some received.domain)
    (pathRead : QueryServer.decodeString [] path = some received.path)
    (actionRead : QueryServer.decodeString [] action = some received.action)
    (categoryRead : QueryServer.decodeInt 0 category = some received.category)
    (applicationRead : QueryServer.decodeInt 0 application = some received.application)
    (blocktypeRead : QueryServer.decodeInt 0 blocktype = some received.blockType)
    (logtimeRead : QueryServer.decodeUint 0 logtime = some received.logTime) :
    [(LogKeys.srcip, source), (LogKeys.dstip, destination), (LogKeys.srcport, sourcePort),
      (LogKeys.dstport, destinationPort), (LogKeys.proto, proto), (LogKeys.domain, domain),
      (LogKeys.path, path), (LogKeys.action, action), (LogKeys.category, category),
      (LogKeys.application, application), (LogKeys.blocktype, blocktype),
      (LogKeys.logtime, logtime)].foldlM (decodeLogMember parseIPv6) {} = some received := by
  simp only [List.foldlM_cons, List.foldlM_nil, decodeLogMember_key, srcIP, dstIP, srcPort,
    dstPort, protoRead, domainRead, pathRead, actionRead, categoryRead, applicationRead,
    blocktypeRead, logtimeRead, Option.map_some, Option.bind_eq_bind, Option.bind_some]
  rfl

theorem decodeInt_of_int32 {value : Int} (before : Int)
    (inside : -2147483648 ≤ value ∧ value ≤ 2147483647) :
    QueryServer.decodeInt before (.int value) = some value := by
  apply if_pos
  omega

theorem decodeUint_of_timeT {value : Int} (before : Nat)
    (inside : 0 ≤ value ∧ value < 9223372036854775808) :
    QueryServer.decodeUint before (.int value) = some value.toNat := by
  apply if_pos
  omega

/-- The members of a filled record: none is left out, and no text is cut. -/
theorem uwebfilterlogToJsonObject_filled (record : FilledLog) :
    uwebfilterlogToJsonObject record.log =
      .object [(LogKeys.srcip, .string (cString (ipaddrUint32ToString record.saddr))),
        (LogKeys.dstip, .string (cString (ipaddrUint32ToString record.daddr))),
        (LogKeys.srcport, .int record.log.srcport), (LogKeys.dstport, .int record.log.dstport),
        (LogKeys.proto, .string record.proto.text), (LogKeys.domain, .string record.log.domain),
        (LogKeys.path, .string record.log.path), (LogKeys.action, .string record.action.text),
        (LogKeys.category, .int record.log.category),
        (LogKeys.application, .int record.log.application),
        (LogKeys.blocktype, .int record.log.blocktype),
        (LogKeys.logtime, .int record.log.logtime)] := by
  rw [uwebfilterlogToJsonObject, record.hasProto, record.hasAction, record.srcip, record.dstip,
    cString_of_nulFree record.domainNulFree, cString_of_nulFree record.pathNulFree]
  rfl

theorem unmarshalLogV1_filled (record : FilledLog) :
    unmarshalLogV1 parseIPv6 (uwebfilterlogToJsonObject record.log) = some record.received := by
  rw [uwebfilterlogToJsonObject_filled, unmarshalLogV1]
  apply foldlM_decodeLogMember parseIPv6 record.received
  · exact decodeIP_ipaddr parseIPv6 record.saddr
  · exact decodeIP_ipaddr parseIPv6 record.daddr
  · exact decodeUint16_port record.srcport 0
  · exact decodeUint16_port record.dstport 0
  · exact QueryServer.decodeString_of_valid record.proto.validUtf8_text []
  · exact QueryServer.decodeString_of_valid record.domainValid []
  · exact QueryServer.decodeString_of_valid record.pathValid []
  · exact QueryServer.decodeString_of_valid record.action.validUtf8_text []
  · exact decodeInt_of_int32 0 record.category
  · exact decodeInt_of_int32 0 record.application
  · exact decodeInt_of_int32 0 record.blocktype
  · exact decodeUint_of_timeT 0 record.logtime

theorem unmarshalAux_logsPayload (elements : List Json) :
    unmarshalAux (logsPayload elements) = some ⟨1, some (.array elements)⟩ := by
  rfl

theorem unmarshalLogBase_logsPayload {elements : List Json} {logs : List LogV1}
    (decoded : elements.mapM (unmarshalLogV1 parseIPv6) = some logs) :
    unmarshalLogBase parseIPv6 (logsPayload elements) = some ⟨1, logs⟩ := by
  rw [unmarshalLogBase, unmarshalAux_logsPayload, Option.bind_eq_bind, Option.bind_some,
    if_pos (show (1 : Nat) = logVersion1 from rfl), Option.bind_eq_bind, Option.bind_some,
    unmarshalLogsV1, decoded]
  rfl

theorem mapM_unmarshalLogV1_filled (records : List FilledLog) :
    (records.map fun record => uwebfilterlogToJsonObject record.log).mapM
      (unmarshalLogV1 parseIPv6) = some (records.map FilledLog.received) := by
  induction records with
  | nil => rfl
  | cons record records ih =>
      rw [List.map_cons, List.mapM_cons, unmarshalLogV1_filled, ih]
      rfl

end Decoding

/-! ## Valid texts -/

theorem validUtf8_logKeys :
    ∀ key ∈ [LogKeys.srcip, LogKeys.dstip, LogKeys.srcport, LogKeys.dstport, LogKeys.proto,
      LogKeys.domain, LogKeys.path, LogKeys.action, LogKeys.category, LogKeys.application,
      LogKeys.blocktype, LogKeys.logtime, LogKeys.version, LogKeys.logs], ValidUtf8 key := by
  intro key member
  apply validUtf8_of_all
  revert key
  decide

/-- A member of an object whose texts are all valid. -/
def ValidMember (member : Bytes × Json) : Prop := ValidUtf8 member.1 ∧ member.2.ValidText

theorem validText_object {members : List (Bytes × Json)}
    (valid : ∀ member ∈ members, ValidMember member) : (Json.object members).ValidText :=
  .object (fun member inside => (valid member inside).1) fun member inside =>
    (valid member inside).2

theorem validMember_optionalMember {key : Bytes} {text : Option Bytes} (validKey : ValidUtf8 key)
    (validText : ∀ value ∈ text, ValidUtf8 value) :
    ∀ member ∈ optionalMember key text, ValidMember member := by
  cases text with
  | none => exact fun member inside => absurd inside List.not_mem_nil
  | some value =>
      intro member inside
      obtain rfl := List.mem_singleton.mp inside
      exact ⟨validKey, .string (validText value rfl)⟩

theorem validText_uwebfilterlogToJsonObject {log : Uwebfilterlog}
    (srcip : ValidUtf8 (cString log.srcip)) (dstip : ValidUtf8 (cString log.dstip))
    (domain : ValidUtf8 (cString log.domain)) (path : ValidUtf8 (cString log.path)) :
    (uwebfilterlogToJsonObject log).ValidText := by
  have keys := validUtf8_logKeys
  simp only [List.forall_mem_cons] at keys
  obtain ⟨keySrcip, keyDstip, keySrcport, keyDstport, keyProto, keyDomain, keyPath, keyAction,
    keyCategory, keyApplication, keyBlocktype, keyLogtime, -⟩ := keys
  apply validText_object
  simp only [List.forall_mem_append, List.forall_mem_cons, List.not_mem_nil, false_implies,
    implies_true, and_true]
  refine ⟨⟨⟨⟨?_, ?_⟩, ?_⟩, ?_⟩, ?_⟩
  · exact ⟨⟨keySrcip, .string srcip⟩, ⟨keyDstip, .string dstip⟩, ⟨keySrcport, .int _⟩,
      ⟨keyDstport, .int _⟩⟩
  · apply validMember_optionalMember keyProto
    intro value member
    obtain ⟨proto, -, rfl⟩ := Option.map_eq_some_iff.mp member
    exact proto.validUtf8_text
  · exact ⟨⟨keyDomain, .string domain⟩, ⟨keyPath, .string path⟩⟩
  · apply validMember_optionalMember keyAction
    intro value member
    obtain ⟨action, -, rfl⟩ := Option.map_eq_some_iff.mp member
    exact action.validUtf8_text
  · exact ⟨⟨keyCategory, .int _⟩, ⟨keyApplication, .int _⟩, ⟨keyBlocktype, .int _⟩,
      ⟨keyLogtime, .int _⟩⟩

theorem validText_logsPayload {elements : List Json}
    (each : ∀ element ∈ elements, element.ValidText) : (logsPayload elements).ValidText := by
  apply validText_object
  simp only [List.forall_mem_cons, List.not_mem_nil, false_implies, implies_true, and_true]
  exact ⟨⟨validUtf8_logKeys _ (by simp), .int _⟩, validUtf8_logKeys _ (by simp), .array each⟩

theorem validText_filledLog (record : FilledLog) :
    (uwebfilterlogToJsonObject record.log).ValidText := by
  apply validText_uwebfilterlogToJsonObject
  · rw [record.srcip]
    exact validUtf8_ipaddr record.saddr
  · rw [record.dstip]
    exact validUtf8_ipaddr record.daddr
  · rw [cString_of_nulFree record.domainNulFree]
    exact record.domainValid
  · rw [cString_of_nulFree record.pathNulFree]
    exact record.pathValid

/-! ## What the collector decodes -/

/-- The records of a batch as the array holds them. -/
def filledLogs (records : List FilledLog) : List Json :=
  records.map fun record => uwebfilterlogToJsonObject record.log

/-- The records, each with what its send returns, as they are written. -/
def filledWrites (writes : List (FilledLog × Bool)) : List LogWrite :=
  writes.map fun write => ⟨write.1.log, write.2⟩

section RoundTrip

variable (wire : Wire) (parseIPv6 : Bytes → Option Bytes)

theorem unmarshalLogBase_filledLogs (records : List FilledLog) :
    unmarshalLogBase parseIPv6 (wire.carry (logsPayload (filledLogs records))) =
      some ⟨logVersion1, records.map FilledLog.received⟩ := by
  have valid : (logsPayload (filledLogs records)).ValidText := by
    apply validText_logsPayload
    intro element member
    obtain ⟨record, -, rfl⟩ := List.mem_map.mp member
    exact validText_filledLog record
  rw [wire.carry_of_valid _ valid]
  exact unmarshalLogBase_logsPayload parseIPv6 (mapM_unmarshalLogV1_filled parseIPv6 records)

/-- What is posted in a run is one batch of the records after the other. -/
theorem posted_batches (writes : List (FilledLog × Bool)) :
    ∃ (batches : List (List FilledLog)) (kept : List FilledLog),
      (logPosts (filledWrites writes)).map Post.payload =
          batches.map (fun batch => logsPayload (filledLogs batch)) ∧
        (logbufferAfter (filledWrites writes)).array = filledLogs kept ∧
        batches.flatten ++ kept = writes.map Prod.fst := by
  induction writes using List.reverseRecOn with
  | nil => exact ⟨[], [], rfl, rfl, rfl⟩
  | append_singleton writes write ih =>
      obtain ⟨batches, kept, posted, array, all⟩ := ih
      have written : filledWrites (writes ++ [write]) =
          filledWrites writes ++ [⟨write.1.log, write.2⟩] := by
        simp [filledWrites]
      have posts : logPosts (filledWrites (writes ++ [write])) =
          logPosts (filledWrites writes) ++
            (uwebfilterlogSendtoCloud (logbufferAfter (filledWrites writes))
              ⟨write.1.log, write.2⟩).2 := by
        simp [written, logPosts, logbufferAfter]
      have next : logbufferAfter (filledWrites (writes ++ [write])) =
          (uwebfilterlogSendtoCloud (logbufferAfter (filledWrites writes))
            ⟨write.1.log, write.2⟩).1 := by
        simp [written, logbufferAfter]
      have longer : filledLogs kept ++ [uwebfilterlogToJsonObject write.1.log] =
          filledLogs (kept ++ [write.1]) := by
        simp [filledLogs]
      rw [posts, next, uwebfilterlogSendtoCloud, array, longer]
      split
      · -- the batch is posted, and the array starts anew
        refine ⟨batches ++ [kept ++ [write.1]], [], ?_, rfl, ?_⟩
        · simp [posted]
        · simp [← all]
      · refine ⟨batches, kept ++ [write.1], ?_, rfl, ?_⟩
        · simp [posted]
        · simp [← all]

/-- The collector decodes a payload to its records; and in every run of the daemon
what is posted decodes to one batch of the records after the other, which with those
kept in the array are the records written. -/
theorem logs_roundTrip :
    (∀ records : List FilledLog,
      unmarshalLogBase parseIPv6 (wire.carry (logsPayload (filledLogs records))) =
        some ⟨logVersion1, records.map FilledLog.received⟩) ∧
    ∀ writes : List (FilledLog × Bool), ∃ (batches : List (List FilledLog))
        (kept : List FilledLog),
      batches.flatten ++ kept = writes.map Prod.fst ∧
      (logbufferAfter (filledWrites writes)).array = filledLogs kept ∧
      (logPosts (filledWrites writes)).map
          (fun post => unmarshalLogBase parseIPv6 (wire.carry post.payload)) =
        batches.map fun batch => some ⟨logVersion1, batch.map FilledLog.received⟩ := by
  refine ⟨unmarshalLogBase_filledLogs wire parseIPv6, fun writes => ?_⟩
  obtain ⟨batches, kept, posted, array, all⟩ := posted_batches writes
  refine ⟨batches, kept, all, array, ?_⟩
  have decoded := congrArg
    (List.map fun payload => unmarshalLogBase parseIPv6 (wire.carry payload)) posted
  simpa [Function.comp_def, unmarshalLogBase_filledLogs] using decoded

end RoundTrip

def plainWire : Wire := ⟨id, fun _ _ => rfl⟩

/-- A record of an allowed connection to `b.c`. -/
def filledBc : FilledLog where
  log :=
    { srcip := ipaddrUint32ToString 0x0100000a
      dstip := ipaddrUint32ToString 0x0200000a
      srcport := 1000
      dstport := 443
      proto := some .tcp
      domain := ascii ['b', '.', 'c']
      action := some .allow
      logtime := 1700000000 }
  saddr := 0x0100000a
  daddr := 0x0200000a
  proto := .tcp
  action := .allow
  srcip := rfl
  dstip := rfl
  srcport := by decide
  dstport := by decide
  hasProto := rfl
  hasAction := rfl
  category := by decide
  application := by decide
  blocktype := by decide
  logtime := by decide
  domainNulFree := by decide
  pathNulFree := by decide
  domainValid := validUtf8_of_all (by decide)
  pathValid := validUtf8_of_all (by decide)

/-- Of two records written at once the first is posted and decoded, the second kept. -/
theorem logs_roundTrip_filledBc :
    let writes := filledWrites [(filledBc, true), (filledBc, true)]
    (logPosts writes).map (fun post => unmarshalLogBase (fun _ => none) post.payload) =
        [some ⟨logVersion1, [filledBc.received]⟩] ∧
      (logbufferAfter writes).array = filledLogs [filledBc] := by
  intro writes
  obtain ⟨batches, kept, all, array, decoded⟩ :=
    (logs_roundTrip plainWire fun _ => none).2 [(filledBc, true), (filledBc, true)]
  have posts : (logPosts writes).length = 1 := by decide
  have keeps : (logbufferAfter writes).array.length = 1 := by decide
  have one : batches.length = 1 := by
    have lengths := congrArg List.length decoded
    rwa [List.length_map, List.length_map, posts, eq_comm] at lengths
  obtain ⟨batch, rfl⟩ := List.length_eq_one_iff.mp one
  obtain ⟨last, rfl⟩ : ∃ last, kept = [last] := by
    rw [← List.length_eq_one_iff, ← keeps, array, filledLogs, List.length_map]
  obtain ⟨rfl, rfl⟩ : batch = [filledBc] ∧ last = filledBc := by
    have split : batch ++ [last] = [filledBc] ++ [filledBc] := by simpa using all
    simpa using List.append_inj' split rfl
  exact ⟨decoded, array⟩

end Uwebfilter
