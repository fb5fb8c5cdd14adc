import Uwebfilter.AccessPolicy
import Uwebfilter.AuthHeader
import Uwebfilter.CacheProvenance
import Uwebfilter.CloudLog

/-!
# Runs of access checks

`check_access` with everything behind it: the domain cache, the table of
`uwebfilterlog_db.c`, the array of `uwebfilterlog_cloud.c` and its authorization
header.  Over every run each check follows the configuration's document about an
answer of the server that is still good, and what is decided is what is logged.
-/

namespace Uwebfilter

open CStrings

/-! ## The code -/

/-- A row of the table `logs`; a text that is `NULL` stays so. -/
structure LogRow where
  srcip : Bytes
  srcport : Nat
  dstip : Bytes
  dstport : Nat
  proto : Option Bytes
  domain : Bytes
  path : Bytes
  action : Option Bytes
  category : Int
  application : Int
  blocktype : Int
  logtime : Int

/-- The `int` a value is converted to. -/
def toInt (value : Int) : Int := (value + 2147483648) % 4294967296 - 2147483648

/-- What `_uwebfilterlog_insert` binds, the time as an `int`. -/
def uwebfilterlogInsert (uwebfilterlog : Uwebfilterlog) : LogRow where
  srcip := cString uwebfilterlog.srcip
  srcport := uwebfilterlog.srcport
  dstip := cString uwebfilterlog.dstip
  dstport := uwebfilterlog.dstport
  proto := uwebfilterlog.proto.map Proto.text
  domain := cString uwebfilterlog.domain
  path := cString uwebfilterlog.path
  action := uwebfilterlog.action.map Action.text
  category := uwebfilterlog.category
  application := uwebfilterlog.application
  blocktype := uwebfilterlog.blocktype
  logtime := toInt uwebfilterlog.logtime

/-- What one check reads outside the daemon: what the lookup reads, the clock,
whether `sqlite3_step` inserts, and the cloud server's side. -/
structure AccessReading where
  surroundings : Surroundings
  time : Int
  inserted : Bool
  auth : AuthCall
  sent : Bool

/-- A call of `check_access`, with the two addresses of the IP header. -/
structure AccessCall where
  log : Uwebfilterlog
  saddr : Nat
  daddr : Nat
  reading : AccessReading

/-- The static variables behind `check_access`, and the table. -/
structure AccessState where
  cache : DomainInfoCache
  logs : List LogRow
  logbuffer : Logbuffer
  authheader : Authheader

def AccessState.initial : AccessState := ⟨.initial, [], logbufferInit, authheaderInit⟩

/-- A post with its authorization header. -/
structure CloudPost where
  header : Bytes
  post : Post

/-- What a check comes to: its verdict, the record as it is written, and what is
posted. -/
structure Checked where
  verdict : Verdict
  record : Uwebfilterlog
  posts : List CloudPost

section Code

variable (jsonC : JsonC)

/-- The header is asked for where there is something to post. -/
def logsSendToCloudServer (authheader : Authheader) (auth : AuthCall) :
    List Post → Authheader × List CloudPost
  | [] => (authheader, [])
  | post :: posts =>
      let (authheader, result) := authheaderGet jsonC authheader auth
      (authheader, (post :: posts).map fun post => ⟨result.header, post⟩)

def uwebfilterlogWrite (state : AccessState) (reading : AccessReading)
    (uwebfilterlog : Uwebfilterlog) : AccessState × List CloudPost :=
  let logs :=
    if reading.inserted then state.logs ++ [uwebfilterlogInsert uwebfilterlog] else state.logs
  let (logbuffer, posts) := uwebfilterlogSendtoCloud state.logbuffer ⟨uwebfilterlog, reading.sent⟩
  let (authheader, posts) := logsSendToCloudServer jsonC state.authheader reading.auth posts
  ({ state with logs := logs, logbuffer := logbuffer, authheader := authheader }, posts)

/-- `domain_lookup` as `check_access` calls it. -/
def lookupResponse (size : Nat) (surroundings : Surroundings) (cache : DomainInfoCache)
    (response : DomainResponse) (domain : Bytes) :
    Except Fault (DomainResponse × DomainInfoCache) :=
  (domainLookup jsonC size surroundings cache response domain).map fun found =>
    (found.1.response, found.2)

def accessStep (size : Nat) (config : Config) (state : AccessState) (call : AccessCall) :
    Except Fault (AccessState × Checked) := do
  let reading := call.reading
  let (verdict, record, cache) ← checkAccess config
    (lookupResponse jsonC size reading.surroundings state.cache) reading.time call.log call.saddr
    call.daddr
  let (state, posts) := uwebfilterlogWrite jsonC { state with cache := cache } reading record
  .ok (state, ⟨verdict, record, posts⟩)

end Code

/-! ## Where responses come from -/

def AccessCall.lookup (call : AccessCall) : LookupCall where
  surroundings := call.reading.surroundings
  response := ⟨0, 0⟩
  domain := cString call.log.domain

/-- A response is that of a first lookup, or one that an earlier lookup's reply
or failure gave, for a name the domain is under, and not over. -/
def Sourced (earlier : List LookupCall) (call : LookupCall) (response : DomainResponse) : Prop :=
  response = ⟨0, 0⟩ ∨
    ∃ source ∈ earlier, ∃ name deadline, Backs source name response deadline ∧
      DottedSuffix.Under dot call.domain name ∧ call.surroundings.now < deadline

/-- A check follows a document about a response that has a source, and logs it. -/
def Justified (root : Json) (earlier : List AccessCall) (call : AccessCall) (checked : Checked) :
    Prop :=
  ∃ response, Sourced (earlier.map AccessCall.lookup) call.lookup response ∧
    FollowsPolicy (ListsNumber root keyApplications response.application)
      (ListsNumber root keyCategories response.category)
      (ListsDomain root keyDomainsBlacklist (cString call.log.domain))
      (ListsDomain root keyDomainsWhitelist (cString call.log.domain))
      ⟨checked.verdict, checked.record.action, checked.record.blocktype⟩ ∧
    checked.record =
      { call.log with
        srcip := ipaddrUint32ToString call.saddr
        dstip := ipaddrUint32ToString call.daddr
        category := response.category
        application := response.application
        blocktype := checked.record.blocktype
        logtime := call.reading.time
        action := checked.record.action }

section Step

variable {jsonC : JsonC} {size : Nat} {config : Config} {root : Json}
variable {earlier : List LookupCall} {state : DomainInfoCache}

theorem sourced_of_returned {call : LookupCall} {result : LookupResult} {after : DomainInfoCache}
    (invariant : ArenaInvariant size state)
    (backed : ∀ entry ∈ state.view.entries, Backed earlier entry.2) (zero : call.response = ⟨0, 0⟩)
    (returned : domainLookup jsonC size call.surroundings state call.response call.domain =
      .ok (result, after)) : Sourced earlier call result.response := by
  obtain ⟨response, fetched⟩ := result
  cases fetched with
  | false => exact .inr (answered_of_backed invariant backed returned)
  | true =>
      left
      have looks := (domainLookup_looks invariant returned).2
      generalize after.view = view at looks
      cases looks with
      | fetch kept _ names info missed entries stores => exact zero

theorem checkAccess_record {σ : Type} {log record : Uwebfilterlog} {now : Int}
    {saddr daddr : Nat} {verdict : Verdict} {reached final : σ} {response : DomainResponse}
    {domainLookup : DomainResponse → Bytes → Except Fault (DomainResponse × σ)}
    (answered : domainLookup ⟨0, 0⟩ (cString log.domain) = .ok (response, reached))
    (checked : checkAccess config domainLookup now log saddr daddr = .ok (verdict, record, final)) :
    record =
      { log with
        srcip := ipaddrUint32ToString saddr
        dstip := ipaddrUint32ToString daddr
        category := response.category
        application := response.application
        blocktype := record.blocktype
        logtime := now
        action := record.action } := by
  simp only [checkAccess, answered, bind, Except.bind, Except.ok.injEq, Prod.mk.injEq] at checked
  obtain ⟨-, rfl, -⟩ := checked
  rfl

variable (jsonC) in
/-- What the lookup of a check comes to. -/
theorem lookupResponse_spec (invariant : ArenaInvariant size state)
    (backed : ∀ entry ∈ state.view.entries, Backed earlier entry.2) {call : AccessCall}
    (plain : PlainCall call.lookup) :
    ∃ response after, lookupResponse jsonC size call.reading.surroundings state ⟨0, 0⟩
        (cString call.log.domain) = .ok (response, after) ∧
      Sourced earlier call.lookup response ∧ ArenaInvariant size after ∧
      ∀ entry ∈ after.view.entries, Backed (earlier ++ [call.lookup]) entry.2 := by
  obtain ⟨result, after, returned⟩ := domainLookup_returns invariant
    (shortNames_of_plainCall jsonC plain) ⟨0, 0⟩
  refine ⟨result.response, after, ?_, sourced_of_returned invariant backed rfl returned,
    (domainLookup_looks invariant returned).1, lookup_backed invariant backed plain returned⟩
  have same : domainLookup jsonC size call.reading.surroundings state ⟨0, 0⟩
      (cString call.log.domain) = .ok (result, after) := returned
  rw [lookupResponse, same]
  rfl

theorem posts_logsSendToCloudServer (authheader : Authheader) (auth : AuthCall)
    (posts : List Post) :
    (logsSendToCloudServer jsonC authheader auth posts).2.map CloudPost.post = posts := by
  cases posts <;> simp [logsSendToCloudServer, Function.comp_def]

variable (jsonC) in
/-- The array, the table and the posts after a record is written. -/
theorem uwebfilterlogWrite_spec (state : AccessState) (reading : AccessReading)
    (record : Uwebfilterlog) :
    (uwebfilterlogWrite jsonC state reading record).1.cache = state.cache ∧
      (uwebfilterlogWrite jsonC state reading record).1.logs = state.logs ++
        (if reading.inserted then [uwebfilterlogInsert record] else []) ∧
      (uwebfilterlogWrite jsonC state reading record).1.logbuffer =
        (uwebfilterlogSendtoCloud state.logbuffer ⟨record, reading.sent⟩).1 ∧
      (uwebfilterlogWrite jsonC state reading record).2.map CloudPost.post =
        (uwebfilterlogSendtoCloud state.logbuffer ⟨record, reading.sent⟩).2 := by
  refine ⟨rfl, ?_, rfl, ?_⟩
  · cases inserted : reading.inserted <;> simp [uwebfilterlogWrite, inserted]
  · exact posts_logsSendToCloudServer state.authheader reading.auth _

end Step

/-! ## Runs -/

/-- What holds after some checks: of the cache, of each check, and of the two
logs. -/
structure Supervises (size : Nat) (root : Json) (calls : List AccessCall)
    (checks : List Checked) (state : AccessState) : Prop where
  arena : ArenaInvariant size state.cache
  backed : ∀ entry ∈ state.cache.view.entries, Backed (calls.map AccessCall.lookup) entry.2
  justified : MachineRun.EachAnswer (Justified root) calls checks
  table : state.logs = (calls.zip checks).flatMap fun made =>
    if made.1.reading.inserted then [uwebfilterlogInsert made.2.record] else []
  accounts : Accounts (checks.map fun checked => uwebfilterlogToJsonObject checked.record)
    (checks.flatMap fun checked => checked.posts.map CloudPost.post) state.logbuffer

/-- One check returns, and what holds goes on to hold. -/
theorem Supervises.step (jsonC : JsonC) {size : Nat} {config : Config} {root : Json}
    {calls : List AccessCall} {checks : List Checked} {state : AccessState}
    (supervises : Supervises size root calls checks state) (implements : Implements config root)
    {call : AccessCall} (plain : PlainCall call.lookup) :
    ∃ after checked, accessStep jsonC size config state call = .ok (after, checked) ∧
      Supervises size root (calls ++ [call]) (checks ++ [checked]) after := by
  obtain ⟨arena, backed, justified, table, accounts⟩ := supervises
  obtain ⟨response, cache, looked, sourced, arenaAfter, backedAfter⟩ :=
    lookupResponse_spec jsonC arena backed plain
  obtain ⟨verdict, record, checked, follows⟩ :=
    @checkAccess_follows _ _ _ implements _ call.reading.time _ call.saddr call.daddr _ _ looked
  obtain ⟨sameCache, sameLogs, sameBuffer, samePosts⟩ :=
    uwebfilterlogWrite_spec jsonC { state with cache := cache } call.reading record
  set written := uwebfilterlogWrite jsonC { state with cache := cache } call.reading record
  refine ⟨written.1, ⟨verdict, record, written.2⟩, by simp only [accessStep, checked]; rfl, ?_⟩
  constructor
  · rw [sameCache]
    exact arenaAfter
  · rw [sameCache, List.map_append]
    exact backedAfter
  · exact justified.snoc ⟨response, sourced, follows, checkAccess_record looked checked⟩
  · rw [sameLogs, List.zip_append justified.1.symm, List.flatMap_append, ← table]
    simp
  · rw [sameBuffer, List.map_append, List.flatMap_append]
    simpa [samePosts] using accounts.step ⟨record, call.reading.sent⟩

/-! ## The two logs -/

/-- The object the cloud is sent for a row. -/
def LogRow.toJson (row : LogRow) : Json :=
  .object
    ([(LogKeys.srcip, .string row.srcip),
      (LogKeys.dstip, .string row.dstip),
      (LogKeys.srcport, .int row.srcport),
      (LogKeys.dstport, .int row.dstport)] ++
    optionalMember LogKeys.proto row.proto ++
    [(LogKeys.domain, .string row.domain),
      (LogKeys.path, .string row.path)] ++
    optionalMember LogKeys.action row.action ++
    [(LogKeys.category, .int row.category),
      (LogKeys.application, .int row.application),
      (LogKeys.blocktype, .int row.blocktype),
      (LogKeys.logtime, .int row.logtime)])

theorem toInt_eq_iff {value : Int} :
    toInt value = value ↔ -2147483648 ≤ value ∧ value < 2147483648 := by
  unfold toInt
  omega

/-- A row is the object sent exactly where the time is an `int`. -/
theorem toJson_uwebfilterlogInsert {record : Uwebfilterlog} :
    (uwebfilterlogInsert record).toJson = uwebfilterlogToJsonObject record ↔
      -2147483648 ≤ record.logtime ∧ record.logtime < 2147483648 := by
  rw [← toInt_eq_iff]
  simp [LogRow.toJson, uwebfilterlogInsert, uwebfilterlogToJsonObject]

theorem Supervises.logtime {size : Nat} {root : Json} {calls : List AccessCall}
    {checks : List Checked} {state : AccessState}
    (supervises : Supervises size root calls checks state) {made : AccessCall × Checked}
    (member : made ∈ calls.zip checks) : made.2.record.logtime = made.1.reading.time := by
  obtain ⟨index, inside, rfl⟩ := List.mem_iff_getElem.mp member
  rw [List.length_zip] at inside
  obtain ⟨response, -, -, record⟩ := supervises.justified.2 index calls[index] checks[index]
    (by simp) (by simp)
  rw [List.getElem_zip, record]

/-- Where every insertion succeeds, the table holds what the cloud was sent and
is still to be sent, exactly where every check is at a time that is an `int`. -/
theorem Supervises.logs_agree_iff {size : Nat} {root : Json} {calls : List AccessCall}
    {checks : List Checked} {state : AccessState}
    (supervises : Supervises size root calls checks state)
    (inserted : ∀ call ∈ calls, call.reading.inserted = true) :
    state.logs.map LogRow.toJson =
        (checks.flatMap fun checked => checked.posts.map CloudPost.post).flatMap Post.logs ++
          state.logbuffer.array ↔
      ∀ call ∈ calls, -2147483648 ≤ call.reading.time ∧ call.reading.time < 2147483648 := by
  have length := supervises.justified.1
  have table : state.logs = (calls.zip checks).map fun made =>
      uwebfilterlogInsert made.2.record := by
    rw [supervises.table, List.map_eq_flatMap]
    apply List.flatMap_congr
    intro made member
    rw [if_pos (inserted made.1 (List.of_mem_zip member).1)]
  have records : checks.map (fun checked => uwebfilterlogToJsonObject checked.record) =
      (calls.zip checks).map fun made => uwebfilterlogToJsonObject made.2.record := by
    conv_lhs => rw [← List.map_snd_zip length.le, List.map_map]
    rfl
  rw [supervises.accounts.logs, table, records, List.map_map, List.map_inj_left]
  have each : ∀ made ∈ calls.zip checks,
      ((LogRow.toJson ∘ fun made : AccessCall × Checked => uwebfilterlogInsert made.2.record) made =
        uwebfilterlogToJsonObject made.2.record ↔
      -2147483648 ≤ made.1.reading.time ∧ made.1.reading.time < 2147483648) := by
    intro made member
    rw [← supervises.logtime member]
    exact toJson_uwebfilterlogInsert
  constructor
  · intro same call member
    rw [← List.map_fst_zip length.ge, List.mem_map] at member
    obtain ⟨made, inside, rfl⟩ := member
    exact (each made inside).mp (same made inside)
  · intro early made member
    exact (each made member).mpr (early made.1 (List.of_mem_zip member).1)

end Uwebfilter
