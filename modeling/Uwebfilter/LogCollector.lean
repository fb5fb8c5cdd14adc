import Uwebfilter.LogWire
import Uwebfilter.PacketHandle

/-!
# The collector's table of logs

`IngestPOST` decodes a batch and inserts its logs one by one into `logs_v1`; an
insertion that fails is logged and passed over.  A batch the daemon writes is
stored whole exactly where every record names a domain and its time fits the
column.
-/

namespace Uwebfilter

open CStrings

/-! ## The records the daemon writes -/

/-- A record `check_access` writes for a packet that an extractor accepts.  The
categories are of C's `int`, the clock is a `time_t`. -/
inductive Emitted (emitted : Uwebfilterlog) : Prop
  | intro {σ : Type} (access : CheckAccess σ) (daemon : Daemon σ) (arrival : Arrival)
      (config : Config)
      (domainLookup : DomainResponse → Bytes → Except Fault (DomainResponse × σ)) (now : Int)
      (state : σ) {log : Uwebfilterlog} {verdict : Verdict}
      (checked : Event.checkAccess log verdict ∈ (packetHandle access daemon arrival).2)
      (written : checkAccess config domainLookup now log arrival.packet.saddr
        arrival.packet.daddr = .ok (verdict, emitted, state))
      (category : -2147483648 ≤ emitted.category ∧ emitted.category ≤ 2147483647)
      (application : -2147483648 ≤ emitted.application ∧ emitted.application ≤ 2147483647)
      (clock : -9223372036854775808 ≤ now ∧ now < 9223372036854775808)

structure ValidTexts (log : Uwebfilterlog) : Prop where
  domain : ValidUtf8 (cString log.domain)
  path : ValidUtf8 (cString log.path)

/-- A record as its texts are read. -/
def Uwebfilterlog.asRead (log : Uwebfilterlog) : Uwebfilterlog :=
  { log with domain := cString log.domain, path := cString log.path }

theorem uwebfilterlogToJsonObject_asRead (log : Uwebfilterlog) :
    uwebfilterlogToJsonObject log.asRead = uwebfilterlogToJsonObject log := by
  simp only [uwebfilterlogToJsonObject, Uwebfilterlog.asRead,
    cString_of_nulFree (cString_nulFree _)]

/-- What is emitted is filled in every field. -/
theorem Emitted.exists_filledLog {log : Uwebfilterlog} (emitted : Emitted log)
    (valid : ValidTexts log) (clock : 0 ≤ log.logtime) :
    ∃ record : FilledLog, record.log = log.asRead := by
  obtain ⟨access, daemon, arrival, config, domainLookup, now, state, checked, written, category,
    application, bounds⟩ := emitted
  obtain ⟨proto, domain, path, rfl⟩ := checked_packetHandle access checked
  obtain ⟨blocktype, action, blocktypeBounds, filled⟩ := checkAccess_writes written
  have ports := u16be_lt arrival.packet.payload
  have time : log.logtime = now := by rw [filled]
  refine ⟨⟨log.asRead, arrival.packet.saddr, arrival.packet.daddr, proto, action, ?_, ?_, ?_, ?_,
    ?_, ?_, category, application, ?_, ⟨clock, ?_⟩, cString_nulFree _, cString_nulFree _,
    valid.domain, valid.path⟩, rfl⟩
  · rw [filled]
    rfl
  · rw [filled]
    rfl
  · rw [filled]
    exact ports _
  · rw [filled]
    exact ports _
  · rw [filled]
    rfl
  · rw [filled]
    rfl
  · have same : log.asRead.blocktype = blocktype := by
      rw [filled]
      rfl
    omega
  · show log.logtime < _
    omega

/-! ## `logs_v1` -/

/-- A row of `logs_v1`, `none` for `NULL`. -/
structure LogsV1Row where
  userId : Option Bytes
  srcip : Option Bytes
  dstip : Option Bytes
  srcport : Option Int
  dstport : Option Int
  proto : Option Bytes
  domain : Option Bytes
  path : Option Bytes
  action : Option Bytes
  category : Option Int
  application : Option Int
  blocktype : Option Int
  logtime : Option Int
  deriving DecidableEq

/-- `NOT NULL CHECK (… <> '')`. -/
def NonEmptyColumn (column : Option Bytes) : Prop := column ≠ none ∧ column ≠ some []

/-- What a column of type `TEXT` can hold of valid UTF-8. -/
def TextColumn (column : Option Bytes) : Prop := ∀ text ∈ column, 0 ∉ text

/-- What a column of type `INTEGER` can hold. -/
def IntegerColumn (column : Option Int) : Prop :=
  ∀ number ∈ column, -2147483648 ≤ number ∧ number ≤ 2147483647

instance (column : Option Bytes) : Decidable (NonEmptyColumn column) :=
  inferInstanceAs (Decidable (_ ∧ _))

instance (column : Option Bytes) : Decidable (TextColumn column) :=
  inferInstanceAs (Decidable (∀ text ∈ column, 0 ∉ text))

instance (column : Option Int) : Decidable (IntegerColumn column) :=
  inferInstanceAs (Decidable (∀ number ∈ column, _ ∧ _))

/-- The database: the ids of `users` and the rows of `logs_v1`. -/
structure LogsDb where
  users : List Bytes
  logsV1 : List LogsV1Row

namespace LogsV1Row

variable (row : LogsV1Row)

/-- The `NOT NULL` and `CHECK` constraints of `logs_v1`. -/
def SatisfiesChecks : Prop :=
  NonEmptyColumn row.srcip ∧ NonEmptyColumn row.dstip ∧ NonEmptyColumn row.proto ∧
    NonEmptyColumn row.domain ∧ row.path ≠ none ∧ NonEmptyColumn row.action

/-- The types of the columns, and the reference to `users`. -/
def FitsColumns (users : List Bytes) : Prop :=
  (∀ user ∈ row.userId, user ∈ users) ∧
    TextColumn row.srcip ∧ TextColumn row.dstip ∧ TextColumn row.proto ∧
    TextColumn row.domain ∧ TextColumn row.path ∧ TextColumn row.action ∧
    IntegerColumn row.srcport ∧ IntegerColumn row.dstport ∧ IntegerColumn row.category ∧
    IntegerColumn row.application ∧ IntegerColumn row.blocktype ∧ IntegerColumn row.logtime

instance : Decidable row.SatisfiesChecks := inferInstanceAs (Decidable (_ ∧ _))

instance (users : List Bytes) : Decidable (row.FitsColumns users) :=
  inferInstanceAs (Decidable (_ ∧ _))

end LogsV1Row

/-- `INSERT INTO logs_v1`, which answers nothing where it raises an error. -/
def insertIntoLogsV1 (db : LogsDb) (row : LogsV1Row) : Option LogsDb :=
  if row.SatisfiesChecks ∧ row.FitsColumns db.users then
    some { db with logsV1 := db.logsV1 ++ [row] }
  else none

/-! ## The collector -/

def ipTo4 (ip : Bytes) : Option Bytes :=
  if ip.length = 4 then some ip
  else if ip.length = 16 ∧ ip.take 12 = v4InV6Prefix then some (ip.drop 12)
  else none

section Collector

-- how `net.ParseIP` reads and `net.IP.String` writes what is not a dotted quad
variable (parseIPv6 : Bytes → Option Bytes) (ipv6String : Bytes → Bytes)

/-- `net.IP.String`. -/
def ipString (ip : Bytes) : Bytes :=
  if ip = [] then ascii ['<', 'n', 'i', 'l', '>']
  else
    match ipTo4 ip with
    | some bytes => DottedQuad.print bytes
    | none => ipv6String ip

/-- The arguments of the `INSERT` of a log. -/
def logV1Row (userID : Bytes) (log : LogV1) : LogsV1Row where
  userId := some userID
  srcip := some (ipString ipv6String log.srcIP)
  dstip := some (ipString ipv6String log.dstIP)
  srcport := some log.srcPort
  dstport := some log.dstPort
  proto := some log.proto
  domain := some log.domain
  path := some log.path
  action := some log.action
  category := some log.category
  application := some log.application
  blocktype := some log.blockType
  logtime := some log.logTime

/-- An insertion that fails is logged, and the loop goes on. -/
def postgresInsertLogsV1 (userID : Bytes) (logs : List LogV1) (db : LogsDb) : LogsDb :=
  logs.foldl (fun db log => (insertIntoLogsV1 db (logV1Row ipv6String userID log)).getD db) db

def logsSaveToDB (userID : Bytes) (logs : LogBase) (db : LogsDb) : LogsDb :=
  if logs.version = logVersion1 then postgresInsertLogsV1 ipv6String userID logs.logs db else db

/-- `IngestPOST` for the user of the token: the status and the database after. -/
def ingestPOST (userID : Bytes) (body : Json) (db : LogsDb) : Nat × LogsDb :=
  match unmarshalLogBase parseIPv6 body with
  | none => (400, db)
  | some logs => (201, logsSaveToDB ipv6String userID logs db)

/-! ## What is stored -/

/-- An insertion of the row succeeds. -/
def LogsV1Row.isAccepted (users : List Bytes) (row : LogsV1Row) : Bool :=
  decide (row.SatisfiesChecks ∧ row.FitsColumns users)

/-- The loop stores the accepted rows, in order. -/
theorem postgresInsertLogsV1_eq (userID : Bytes) (logs : List LogV1) (db : LogsDb) :
    postgresInsertLogsV1 ipv6String userID logs db =
      { db with
        logsV1 := db.logsV1 ++
          (logs.map (logV1Row ipv6String userID)).filter (LogsV1Row.isAccepted db.users) } := by
  induction logs generalizing db with
  | nil => simp [postgresInsertLogsV1]
  | cons log logs ih =>
      have rest := ih ((insertIntoLogsV1 db (logV1Row ipv6String userID log)).getD db)
      rw [postgresInsertLogsV1] at rest ⊢
      rw [List.foldl_cons, rest]
      by_cases accepted : (logV1Row ipv6String userID log).SatisfiesChecks ∧
          (logV1Row ipv6String userID log).FitsColumns db.users
      · simp [insertIntoLogsV1, accepted, LogsV1Row.isAccepted]
      · simp [insertIntoLogsV1, accepted, LogsV1Row.isAccepted]

/-- The row of a record. -/
def storedRow (userID : Bytes) (log : Uwebfilterlog) : LogsV1Row where
  userId := some userID
  srcip := some (cString log.srcip)
  dstip := some (cString log.dstip)
  srcport := some log.srcport
  dstport := some log.dstport
  proto := log.proto.map Proto.text
  domain := some (cString log.domain)
  path := some (cString log.path)
  action := log.action.map Action.text
  category := some log.category
  application := some log.application
  blocktype := some log.blocktype
  logtime := some log.logtime

theorem ipString_v4InV6 (address : Nat) :
    ipString ipv6String (v4InV6Prefix ++ addressBytes address) =
      ipaddrUint32ToString address := by
  rw [ipaddrUint32ToString_eq]
  rfl

theorem logV1Row_received (userID : Bytes) (record : FilledLog) :
    logV1Row ipv6String userID record.received = storedRow userID record.log := by
  have time : (record.log.logtime.toNat : Int) = record.log.logtime :=
    Int.toNat_of_nonneg record.logtime.1
  simp only [logV1Row, storedRow, FilledLog.received, ipString_v4InV6, record.hasProto,
    record.hasAction, record.srcip, record.dstip, time, Option.map_some,
    cString_of_nulFree record.domainNulFree, cString_of_nulFree record.pathNulFree,
    cString_of_nulFree (ipaddrUint32ToString_nulFree _)]

theorem storedRow_asRead (userID : Bytes) (log : Uwebfilterlog) :
    storedRow userID log.asRead = storedRow userID log := by
  simp only [storedRow, Uwebfilterlog.asRead, cString_of_nulFree (cString_nulFree _)]

theorem textColumn_some {text : Bytes} : TextColumn (some text) ↔ 0 ∉ text := by
  simp [TextColumn]

theorem integerColumn_some {number : Int} :
    IntegerColumn (some number) ↔ -2147483648 ≤ number ∧ number ≤ 2147483647 := by
  simp [IntegerColumn]

theorem nonEmptyColumn_some {text : Bytes} : NonEmptyColumn (some text) ↔ text ≠ [] := by
  simp [NonEmptyColumn]

theorem ipaddrUint32ToString_ne_nil (address : Nat) : ipaddrUint32ToString address ≠ [] := by
  intro empty
  have parsed := DottedQuad.parse_print (show (addressBytes address).length = 4 from rfl)
  rw [← ipaddrUint32ToString_eq, empty] at parsed
  cases parsed

/-- The checks of the table leave out the records without a domain. -/
theorem satisfiesChecks_storedRow (userID : Bytes) (record : FilledLog) :
    (storedRow userID record.log).SatisfiesChecks ↔ record.log.domain ≠ [] := by
  have proto : record.proto.text ≠ [] := by cases record.proto <;> decide
  have action : record.action.text ≠ [] := by cases record.action <;> decide
  simp only [LogsV1Row.SatisfiesChecks, storedRow, record.hasProto, record.hasAction,
    record.srcip, record.dstip, Option.map_some, nonEmptyColumn_some,
    cString_of_nulFree record.domainNulFree,
    cString_of_nulFree (ipaddrUint32ToString_nulFree _), ne_eq, ipaddrUint32ToString_ne_nil,
    proto, action, reduceCtorEq, not_false_eq_true, true_and, and_true]

/-- The columns leave out the records with a later time than they can hold. -/
theorem fitsColumns_storedRow {userID : Bytes} {users : List Bytes} (known : userID ∈ users)
    (record : FilledLog) :
    (storedRow userID record.log).FitsColumns users ↔ record.log.logtime ≤ 2147483647 := by
  have proto : 0 ∉ record.proto.text := by cases record.proto <;> decide
  have action : 0 ∉ record.action.text := by cases record.action <;> decide
  have srcport := record.srcport
  have dstport := record.dstport
  have logtime := record.logtime
  simp only [LogsV1Row.FitsColumns, storedRow, record.hasProto, record.hasAction,
    Option.map_some, textColumn_some, integerColumn_some, cString_nulFree, proto, action,
    record.category, record.application, record.blocktype, Option.mem_def, Option.some.injEq,
    forall_eq', known, not_false_eq_true, true_and, and_self]
  omega

theorem isAccepted_storedRow {userID : Bytes} {users : List Bytes} (known : userID ∈ users)
    (record : FilledLog) :
    (storedRow userID record.log).isAccepted users = true ↔
      record.log.domain ≠ [] ∧ record.log.logtime ≤ 2147483647 := by
  rw [LogsV1Row.isAccepted, decide_eq_true_eq, satisfiesChecks_storedRow,
    fitsColumns_storedRow known]

end Collector

/-! ## Batches -/

theorem Emitted.addresses {log : Uwebfilterlog} (emitted : Emitted log) :
    ∃ saddr daddr, log.srcip = ipaddrUint32ToString saddr ∧
      log.dstip = ipaddrUint32ToString daddr := by
  obtain ⟨access, daemon, arrival, config, domainLookup, now, state, checked, written⟩ := emitted
  obtain ⟨blocktype, action, -, filled⟩ := checkAccess_writes written
  exact ⟨_, _, congrArg Uwebfilterlog.srcip filled, congrArg Uwebfilterlog.dstip filled⟩

theorem Emitted.validText {log : Uwebfilterlog} (emitted : Emitted log) (valid : ValidTexts log) :
    (uwebfilterlogToJsonObject log).ValidText := by
  obtain ⟨saddr, daddr, srcip, dstip⟩ := emitted.addresses
  apply validText_uwebfilterlogToJsonObject
  · rw [srcip]
    exact validUtf8_ipaddr saddr
  · rw [dstip]
    exact validUtf8_ipaddr daddr
  · exact valid.domain
  · exact valid.path

/-- The document the daemon posts for a batch. -/
def batchPayload (batch : List Uwebfilterlog) : Json :=
  logsPayload (batch.map uwebfilterlogToJsonObject)

section Batch

variable (wire : Wire) (parseIPv6 : Bytes → Option Bytes) (ipv6String : Bytes → Bytes)
variable {batch : List Uwebfilterlog} {userID : Bytes} {db : LogsDb}

theorem carry_batchPayload (emitted : ∀ log ∈ batch, Emitted log)
    (valid : ∀ log ∈ batch, ValidTexts log) :
    wire.carry (batchPayload batch) = batchPayload batch := by
  apply wire.carry_of_valid
  apply validText_logsPayload
  intro element member
  obtain ⟨log, inside, rfl⟩ := List.mem_map.mp member
  exact (emitted log inside).validText (valid log inside)

theorem exists_filledLogs (emitted : ∀ log ∈ batch, Emitted log)
    (valid : ∀ log ∈ batch, ValidTexts log) (clock : ∀ log ∈ batch, 0 ≤ log.logtime) :
    ∃ records : List FilledLog,
      records.map FilledLog.log = batch.map Uwebfilterlog.asRead := by
  induction batch with
  | nil => exact ⟨[], rfl⟩
  | cons log batch ih =>
      rw [List.forall_mem_cons] at emitted valid clock
      obtain ⟨record, same⟩ := emitted.1.exists_filledLog valid.1 clock.1
      obtain ⟨records, rest⟩ := ih emitted.2 valid.2 clock.2
      exact ⟨record :: records, by rw [List.map_cons, List.map_cons, same, rest]⟩

/-- A batch is decoded to its records, as their texts are read. -/
theorem unmarshalLogBase_batch {records : List FilledLog}
    (same : records.map FilledLog.log = batch.map Uwebfilterlog.asRead) :
    unmarshalLogBase parseIPv6 (batchPayload batch) =
      some ⟨logVersion1, records.map FilledLog.received⟩ := by
  have documents : filledLogs records = batch.map uwebfilterlogToJsonObject := by
    have mapped := congrArg (List.map uwebfilterlogToJsonObject) same
    simpa [filledLogs, Function.comp_def, uwebfilterlogToJsonObject_asRead] using mapped
  rw [batchPayload, ← documents]
  exact unmarshalLogBase_logsPayload parseIPv6 (mapM_unmarshalLogV1_filled parseIPv6 records)

theorem rows_batch {records : List FilledLog} (userID : Bytes)
    (same : records.map FilledLog.log = batch.map Uwebfilterlog.asRead) :
    (records.map FilledLog.received).map (logV1Row ipv6String userID) =
      batch.map (storedRow userID) := by
  have mapped := congrArg (List.map (storedRow userID)) same
  simpa [Function.comp_def, storedRow_asRead, logV1Row_received] using mapped

/-- A log whose time is negative is not decoded. -/
theorem unmarshalLogV1_negative {log : Uwebfilterlog} (negative : log.logtime < 0) :
    unmarshalLogV1 parseIPv6 (uwebfilterlogToJsonObject log) = none := by
  obtain ⟨members, same⟩ : ∃ members, uwebfilterlogToJsonObject log =
      .object (members ++ [(LogKeys.category, .int log.category),
        (LogKeys.application, .int log.application), (LogKeys.blocktype, .int log.blocktype),
        (LogKeys.logtime, .int log.logtime)]) := ⟨_, rfl⟩
  have refused (before : LogV1) :
      decodeLogMember parseIPv6 before (LogKeys.logtime, .int log.logtime) = none := by
    have outside : ¬ (0 ≤ log.logtime ∧ log.logtime < 18446744073709551616) := by omega
    simp [decodeLogMember_key, QueryServer.decodeUint, outside]
  rw [same, unmarshalLogV1, List.foldlM_append]
  simp [refused]

/-- A batch with a log of negative time is not decoded. -/
theorem unmarshalLogBase_negative {log : Uwebfilterlog} (member : log ∈ batch)
    (negative : log.logtime < 0) : unmarshalLogBase parseIPv6 (batchPayload batch) = none := by
  have refused : (batch.map uwebfilterlogToJsonObject).mapM (unmarshalLogV1 parseIPv6) = none := by
    rw [List.mapM_map]
    induction batch with
    | nil => exact absurd member List.not_mem_nil
    | cons first rest ih =>
        rw [List.mapM_cons]
        rcases List.mem_cons.mp member with rfl | inside
        · simp [unmarshalLogV1_negative parseIPv6 negative]
        · simp [ih inside]
  rw [unmarshalLogBase, batchPayload, unmarshalAux_logsPayload, Option.bind_eq_bind,
    Option.bind_some, if_pos (show (1 : Nat) = logVersion1 from rfl), Option.bind_eq_bind,
    Option.bind_some, unmarshalLogsV1, refused]
  rfl

/-- What `IngestPOST` does with a batch whose times are not negative. -/
theorem ingestPOST_batch (emitted : ∀ log ∈ batch, Emitted log)
    (valid : ∀ log ∈ batch, ValidTexts log) (clock : ∀ log ∈ batch, 0 ≤ log.logtime) :
    ingestPOST parseIPv6 ipv6String userID (wire.carry (batchPayload batch)) db =
      (201, { db with
        logsV1 := db.logsV1 ++
          (batch.map (storedRow userID)).filter (LogsV1Row.isAccepted db.users) }) := by
  obtain ⟨records, same⟩ := exists_filledLogs emitted valid clock
  rw [carry_batchPayload wire emitted valid, ingestPOST, unmarshalLogBase_batch parseIPv6 same]
  show (201, postgresInsertLogsV1 ipv6String userID (records.map FilledLog.received) db) = _
  rw [postgresInsertLogsV1_eq, rows_batch ipv6String userID same]

/-- The collector stores a batch: what it decodes meets the constraints of the
table, one row is inserted for each record, and 201 says no less. -/
structure StoresBatch (userID : Bytes) (batch : List Uwebfilterlog) (db : LogsDb) : Prop where
  satisfied : ∃ logs, unmarshalLogBase parseIPv6 (wire.carry (batchPayload batch)) = some logs ∧
    ∀ log ∈ logs.logs, (logV1Row ipv6String userID log).SatisfiesChecks
  stored : (ingestPOST parseIPv6 ipv6String userID (wire.carry (batchPayload batch)) db).2.logsV1 =
    db.logsV1 ++ batch.map (storedRow userID)
  created : (ingestPOST parseIPv6 ipv6String userID (wire.carry (batchPayload batch)) db).1 = 201 →
    (ingestPOST parseIPv6 ipv6String userID (wire.carry (batchPayload batch)) db).2.logsV1 =
      db.logsV1 ++ batch.map (storedRow userID)

/-- The record names a domain, and its time fits the column. -/
def Storable (log : Uwebfilterlog) : Prop :=
  cString log.domain ≠ [] ∧ 0 ≤ log.logtime ∧ log.logtime ≤ 2147483647

theorem isAccepted_emitted {log : Uwebfilterlog} (emitted : Emitted log) (valid : ValidTexts log)
    (clock : 0 ≤ log.logtime) (user : userID ∈ db.users) :
    (storedRow userID log).isAccepted db.users = true ↔ Storable log := by
  obtain ⟨record, same⟩ := emitted.exists_filledLog valid clock
  rw [← storedRow_asRead, ← same, isAccepted_storedRow user, same]
  simp [Storable, Uwebfilterlog.asRead, clock]

/-- The rows of storable records meet the constraints. -/
theorem satisfiesChecks_decoded (emitted : ∀ log ∈ batch, Emitted log)
    (valid : ∀ log ∈ batch, ValidTexts log) (storable : ∀ log ∈ batch, Storable log) :
    ∃ logs, unmarshalLogBase parseIPv6 (wire.carry (batchPayload batch)) = some logs ∧
      ∀ log ∈ logs.logs, (logV1Row ipv6String userID log).SatisfiesChecks := by
  obtain ⟨records, same⟩ :=
    exists_filledLogs emitted valid fun log member => (storable log member).2.1
  refine ⟨⟨logVersion1, records.map FilledLog.received⟩, ?_, ?_⟩
  · rw [carry_batchPayload wire emitted valid]
    exact unmarshalLogBase_batch parseIPv6 same
  · rw [List.forall_mem_map]
    intro record member
    rw [logV1Row_received, satisfiesChecks_storedRow]
    have inside : record.log ∈ batch.map Uwebfilterlog.asRead :=
      same ▸ List.mem_map_of_mem member
    obtain ⟨log, logMember, read⟩ := List.mem_map.mp inside
    rw [← read]
    exact (storable log logMember).1

/-- The collector stores a batch of emitted records exactly where all of them
are storable. -/
theorem storesBatch_iff (emitted : ∀ log ∈ batch, Emitted log)
    (valid : ∀ log ∈ batch, ValidTexts log) (user : userID ∈ db.users) :
    StoresBatch wire parseIPv6 ipv6String userID batch db ↔ ∀ log ∈ batch, Storable log := by
  by_cases clock : ∀ log ∈ batch, 0 ≤ log.logtime
  · have answer : ingestPOST parseIPv6 ipv6String userID (wire.carry (batchPayload batch)) db =
        (201, _) := ingestPOST_batch wire parseIPv6 ipv6String emitted valid clock
    have accepts : (batch.map (storedRow userID)).filter (LogsV1Row.isAccepted db.users) =
        batch.map (storedRow userID) ↔ ∀ log ∈ batch, Storable log := by
      rw [List.filter_eq_self, List.forall_mem_map]
      apply forall₂_congr
      intro log member
      exact isAccepted_emitted (emitted log member) (valid log member) (clock log member) user
    constructor
    · intro stores
      have stored := stores.stored
      rw [answer, List.append_right_inj] at stored
      exact accepts.mp stored
    · intro storable
      have stored : (ingestPOST parseIPv6 ipv6String userID
          (wire.carry (batchPayload batch)) db).2.logsV1 =
            db.logsV1 ++ batch.map (storedRow userID) := by
        rw [answer, List.append_right_inj]
        exact accepts.mpr storable
      exact ⟨satisfiesChecks_decoded wire parseIPv6 ipv6String emitted valid storable, stored,
        fun _ => stored⟩
  · -- a negative time: the whole batch is refused
    rw [not_forall₂] at clock
    obtain ⟨log, member, negative⟩ := clock
    constructor
    · intro stores
      obtain ⟨logs, decoded, -⟩ := stores.satisfied
      rw [carry_batchPayload wire emitted valid,
        unmarshalLogBase_negative parseIPv6 member (Int.not_le.mp negative)] at decoded
      cases decoded
    · intro storable
      exact absurd (storable log member).2.1 negative

end Batch

/-! ## Two questions -/

/-- A captured DNS packet that asks for some labels. -/
def questionPacket (labels : Bytes) : PacketInfo :=
  let length := labels.length + 45
  { id := 0
    payload :=
      [0x45, 0, 0, UInt8.ofNat length, 0, 0, 0x40, 0, 64, 17, 0, 0, 10, 0, 0, 1, 10, 0, 0, 2] ++
      [3, 232, 0, 53, 0, UInt8.ofNat (labels.length + 25), 0, 0] ++
      [0, 1, 1, 0, 0, 1, 0, 0, 0, 0, 0, 0] ++ labels ++ [0, 0, 1, 0, 1]
    payloadLength := length }

/-- The record of a question, where nothing is blocked. -/
def questionLog (domain : Bytes) : Uwebfilterlog where
  srcip := ascii ['1', '0', '.', '0', '.', '0', '.', '1']
  dstip := ascii ['1', '0', '.', '0', '.', '0', '.', '2']
  srcport := 1000
  dstport := 53
  proto := some .udp
  domain := domain
  action := some .allow
  logtime := 1700000000

def acceptEvery : CheckAccess Unit := fun _ _ _ _ => (.nfAccept, ())

def uncategorized (_ : DomainResponse) (_ : Bytes) : Except Fault (DomainResponse × Unit) :=
  .ok (⟨0, 0⟩, ())

theorem emitted_questionOfBc : Emitted (questionLog [98, 46, 99]) := by
  refine .intro acceptEvery (daemonStart ())
    (plainArrival 1700000000 (questionPacket [1, 98, 1, 99])) {} uncategorized 1700000000 ()
    List.mem_cons_self ?_ ?_ ?_ ?_
  · rfl
  · decide
  · decide
  · decide

theorem emitted_rootQuestion : Emitted (questionLog []) := by
  refine .intro acceptEvery (daemonStart ()) (plainArrival 1700000000 (questionPacket [])) {}
    uncategorized 1700000000 () List.mem_cons_self ?_ ?_ ?_ ?_
  · rfl
  · decide
  · decide
  · decide

/-- The collector stores the question for `b.c`. -/
theorem storesBatch_iff_questionOfBc :
    StoresBatch ⟨id, fun _ _ => rfl⟩ (fun _ => none) (fun _ => []) [117]
        [questionLog [98, 46, 99]] ⟨[[117]], []⟩ ↔
      ∀ log ∈ [questionLog [98, 46, 99]], Storable log := by
  apply storesBatch_iff
  · rw [List.forall_mem_singleton]
    exact emitted_questionOfBc
  · rw [List.forall_mem_singleton]
    exact ⟨validUtf8_of_all (by decide), validUtf8_of_all (by decide)⟩
  · decide

/-- The question for the root names no domain, and is not stored. -/
theorem not_storesBatch_rootQuestion :
    Emitted (questionLog []) ∧
      (ingestPOST (fun _ => none) (fun _ => []) [117] (batchPayload [questionLog []])
        ⟨[[117]], []⟩) = (201, ⟨[[117]], []⟩) ∧
      ¬ StoresBatch ⟨id, fun _ _ => rfl⟩ (fun _ => none) (fun _ => []) [117]
        [questionLog []] ⟨[[117]], []⟩ := by
  refine ⟨emitted_rootQuestion, rfl, ?_⟩
  intro stores
  cases stores.stored

end Uwebfilter
