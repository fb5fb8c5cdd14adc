import Mathlib.Data.List.Dedup
import Uwebfilter.DomainMirror

/-!
# The domain service

The database `domainsdb` and Redis with everyone who uses them: the query server,
which counts each query and answers it from a replica of Redis, `manage.py`, and
the scraper.  Whatever is done in whatever order, the server answers with records
that `domain-add` was given, their `ttl` raised by whole minutes.
-/

namespace Uwebfilter

open CStrings QueryServer TransactionScript

/-! ## The database -/

/-- A row of `hitcount`, its time in microseconds. -/
structure Hit where
  domain : Bytes
  datetime : Int

/-- `INTERVAL '1 DAY'` -/
def intervalDay : Int := 86400000000

/-- The tables of `domainsdb`.  `domains_provisional` has the columns of `domains`. -/
structure DomainsDb where
  domains : Domains
  provisional : Domains
  failed : List Bytes
  hitcount : List Hit

/-- The hits of a domain in the day before a time. -/
def dayHits (hitcount : List Hit) (now : Int) (domain : Bytes) : Nat :=
  hitcount.countP fun hit => decide (hit.domain = domain ∧ now - intervalDay < hit.datetime)

def hitCount (hitcount : List Hit) (domain : Bytes) : Nat :=
  hitcount.countP fun hit => decide (hit.domain = domain)

/-- The groups of `view_domains_without_categories`, in no particular order. -/
def DomainsDb.withoutCategories (db : DomainsDb) : List Bytes :=
  (db.hitcount.map Hit.domain).dedup.filter fun domain =>
    decide (domain ∉ db.domains ∧ domain ∉ db.provisional ∧ db.failed.contains domain = false)

/-- An order in which groups with the same count are returned. -/
structure NameOrder where
  arrange : List Bytes → List Bytes
  perm : ∀ names, (arrange names).Perm names

def viewDomainsWithoutCategories (order : NameOrder) (db : DomainsDb) : List Bytes :=
  (order.arrange db.withoutCategories).mergeSort fun first second =>
    decide (hitCount db.hitcount second ≤ hitCount db.hitcount first)

/-- `recorded` is false where the statement fails for a reason of its own. -/
def postgresUpdateDomainHitCount (now : Int) (recorded : Bool) (domain : Bytes)
    (db : DomainsDb) : DomainsDb :=
  if recorded = true ∧ domain ≠ [] ∧ 0 ∉ domain then
    { db with hitcount := db.hitcount ++ [⟨domain, now⟩] }
  else db

/-! ## The scraper -/

/-- The texts a visit of a URL hands to the handler, and whether it fails. -/
structure PageVisit where
  texts : List Bytes
  fails : Bool

def scrapeDomain (https http : PageVisit) : Option (List Bytes) :=
  if https.fails = false then some https.texts
  else if http.fails = false then some (https.texts ++ http.texts)
  else none

def categoryToInt (_category : Bytes) : Int := 0

/-- `arrive` is the number of rows that are read before the connection fails. -/
def postgresSelectDomainsWithoutCategories (limit arrive : Nat) (order : NameOrder)
    (db : DomainsDb) : List Bytes :=
  ((viewDomainsWithoutCategories order db).take limit).take arrive

section Code

-- the ids in the tables `categories` and `application`
variable (categories applications : List Int32)

/-- The columns that are not given have their defaults. -/
def postgresInsertDomain (inserts : Bool) (domain : Bytes) (category : Int)
    (db : DomainsDb) : Option DomainsDb :=
  if inserts = true then
    (insertIntoDomains categories applications ⟨domain, 300, category, 0, []⟩ db.provisional).map
      fun provisional => { db with provisional := provisional }
  else none

def postgresInsertDomainFailed (inserts : Bool) (domain : Bytes) (db : DomainsDb) :
    Option DomainsDb :=
  if inserts = true ∧ domain ≠ [] ∧ 0 ∉ domain ∧ db.failed.contains domain = false then
    some { db with failed := db.failed ++ [domain] }
  else none

/-- The scraper's loop about one domain. -/
def settle (domain : Bytes) (text : Option (List Bytes)) (prediction : Bytes) (inserts : Bool)
    (db : DomainsDb) : Option DomainsDb :=
  match text with
  | none => postgresInsertDomainFailed inserts domain db
  | some _ =>
      postgresInsertDomain categories applications inserts domain (categoryToInt prediction) db

/-! ## Everyone together -/

/-- The database, what Redis holds and has held, the latest first, and the domains
each scraper still has to visit. -/
structure DomainService where
  db : DomainsDb
  redis : RedisKeys
  past : List RedisKeys
  scrapers : Nat → List Bytes

namespace DomainService

def initial : DomainService where
  db := ⟨∅, ∅, [], []⟩
  redis := fun _ => none
  past := []
  scrapers := fun _ => []

/-- What the replica holds of each key that lags behind by some changes. -/
def replica (service : DomainService) (lag : Bytes → Nat) : RedisKeys := fun key =>
  (service.redis :: service.past)[lag key]?.bind fun keys => keys key

end DomainService

/-- `RedisGetDomainInfos` -/
def redisMGet (keys : RedisKeys) (answers : Bool) (domains : List Bytes) : List (Option Json) :=
  if answers = true then domains.map keys else []

/-- The response of `QueryPOST` from the values of the keys. -/
def responseFrom (keys : RedisKeys) (answers : Bool) (domain : Bytes) : QueryResponse :=
  match firstDomainInfo (redisMGet keys answers (getAllSubdomains domain)) with
  | none => ⟨0, 0, 0, none⟩
  | some info => ⟨info.category, info.application, info.ttl, info.cacheDomains⟩

/-- A command of `manage.py`, which counts the hits itself. -/
inductive ServiceCommand
  | ttlsUpdate (first second : RowOrder)
  | domainAdd (args : DomainArgs)
  | domainDel (domain : Bytes)
  | dbDumpToRedis (order : RowOrder)

def ServiceCommand.command (hits : Bytes → Nat) : ServiceCommand → Command
  | .ttlsUpdate first second => .ttlsUpdate hits first second
  | .domainAdd args => .domainAdd args
  | .domainDel domain => .domainDel domain
  | .dbDumpToRedis order => .dbDumpToRedis order

/-- A request to the server, a run of `manage.py`, a scraper that selects its
domains, and one that visits the next of them.  A scraper that is started again has
been stopped before. -/
inductive ServiceEvent
  | query (now : Int) (recorded answers : Bool) (lag : Bytes → Nat) (body : Json)
  | manage (now : Int) (command : ServiceCommand) (raisesAt : Option Nat)
  | select (scraper arrive : Nat) (order : NameOrder)
  | visit (scraper : Nat) (https http : PageVisit) (prediction : Bytes) (inserts : Bool)

inductive ServiceAnswer
  | sent (answer : Sent)
  | ended (completed : Bool)
  | selected (domains : List Bytes)
  | visited (domain : Bytes) (stored : Bool)
  | idle

namespace DomainService

def queryPost (service : DomainService) (now : Int) (recorded answers : Bool)
    (lag : Bytes → Nat) (body : Json) : DomainService × Sent :=
  match bodyParser body with
  | none =>
      (service,
        .text 400 (ascii ['i', 'n', 'v', 'a', 'l', 'i', 'd', ' ', 'q', 'u', 'e', 'r', 'y']))
  | some domain =>
      if domain = [] then
        (service,
          .text 400 (ascii ['d', 'o', 'm', 'a', 'i', 'n', ' ', 'e', 'm', 'p', 't', 'y']))
      else
        ({ service with db := postgresUpdateDomainHitCount now recorded domain service.db },
          .json 200 (responseFrom (service.replica lag) answers domain).toJson)

def manage (service : DomainService) (now : Int) (command : ServiceCommand)
    (raisesAt : Option Nat) : DomainService × Bool :=
  let (stores, completed) :=
    Uwebfilter.manage categories applications (service.db.domains, service.redis)
      ⟨command.command (dayHits service.db.hitcount now), raisesAt⟩
  ({ service with
      db := { service.db with domains := stores.1 }
      redis := stores.2
      past := service.redis :: service.past }, completed)

def select (service : DomainService) (scraper arrive : Nat) (order : NameOrder) :
    DomainService × List Bytes :=
  let domains := postgresSelectDomainsWithoutCategories 10 arrive order service.db
  ({ service with scrapers := Function.update service.scrapers scraper domains }, domains)

def visit (service : DomainService) (scraper : Nat) (https http : PageVisit) (prediction : Bytes)
    (inserts : Bool) : DomainService × ServiceAnswer :=
  match service.scrapers scraper with
  | [] => (service, .idle)
  | domain :: rest =>
      let scrapers := Function.update service.scrapers scraper rest
      match settle categories applications domain (scrapeDomain https http) prediction inserts
          service.db with
      | none => ({ service with scrapers := scrapers }, .visited domain false)
      | some db => ({ service with db := db, scrapers := scrapers }, .visited domain true)

end DomainService

def serviceStep (service : DomainService) : ServiceEvent → DomainService × ServiceAnswer
  | .query now recorded answers lag body =>
      let (after, answer) := service.queryPost now recorded answers lag body
      (after, .sent answer)
  | .manage now command raisesAt =>
      let (after, completed) := service.manage categories applications now command raisesAt
      (after, .ended completed)
  | .select scraper arrive order =>
      let (after, domains) := service.select scraper arrive order
      (after, .selected domains)
  | .visit scraper https http prediction inserts =>
      service.visit categories applications scraper https http prediction inserts

def serviceAfter (events : List ServiceEvent) : DomainService :=
  MachineRun.after (serviceStep categories applications) .initial events

def serviceAnswers (events : List ServiceEvent) : List ServiceAnswer :=
  MachineRun.outputs (serviceStep categories applications) .initial events

end Code

/-! ## What a command can write -/

/-- Another record of the same columns, with `seconds` more in `ttl`. -/
structure RaisedBy (seconds : Nat) (before after : StoredRecord) : Prop where
  category : after.category = before.category
  application : after.application = before.application
  cacheDomains : after.cacheDomains = before.cacheDomains
  ttl : after.ttl.toInt = before.ttl.toInt + seconds

theorem raisedBy_refl (record : StoredRecord) : RaisedBy 0 record record :=
  ⟨rfl, rfl, rfl, by simp⟩

theorem RaisedBy.trans {first second : Nat} {before middle after : StoredRecord}
    (earlier : RaisedBy first before middle) (later : RaisedBy second middle after) :
    RaisedBy (first + second) before after := by
  constructor
  · rw [later.category, earlier.category]
  · rw [later.application, earlier.application]
  · rw [later.cacheDomains, earlier.cacheDomains]
  · rw [later.ttl, earlier.ttl]
    omega

theorem raisedBy_withTtl {record after : StoredRecord} {seconds : Nat}
    (raised : record.withTtl (record.ttl.toInt + seconds) = some after) :
    RaisedBy seconds record after := by
  obtain ⟨ttl, read, taken⟩ := Option.bind_eq_some_iff.mp raised
  split at taken
  · obtain rfl := Option.some.inj taken
    exact ⟨rfl, rfl, rfl, toInteger_eq_some read⟩
  · cases taken

theorem dvd_ttlIncrement (count : Nat) : 60 ∣ ttlIncrement clientCount count :=
  Nat.dvd_mul_left 60 _

theorem ttlIncrement_le (count : Nat) : ttlIncrement clientCount count ≤ 2 * count := by
  show count / 30 * 60 ≤ 2 * count
  omega

/-- The hits a command looks at. -/
def Command.hits : Command → Bytes → Nat
  | .ttlsUpdate hits _ _ => hits
  | _ => fun _ => 0

section Comes

variable (categories applications : List Int32)

/-- Where a record that a command writes comes from: a row of the table, raised
once at most, or the command's arguments, whose `INSERT` the table takes and which
are written to Redis. -/
inductive Comes (table : Domains) (invocation : Invocation) (key : Bytes)
    (record : StoredRecord) : Prop
  | kept {before : StoredRecord} {seconds : Nat} (found : table.lookup key = some before)
      (raised : RaisedBy seconds before record)
      (once : seconds = 0 ∨ seconds = ttlIncrement clientCount (invocation.command.hits key))
  | added {args : DomainArgs} (adds : invocation.command = .domainAdd args)
      (named : args.domain = key) (taken : args.record categories applications = some record)
      (accepted : (insertIntoDomains categories applications args table).isSome = true)
      (written : ∀ left ∈ invocation.raisesAt, 2 ≤ left)

/-- Every row of the table comes from somewhere. -/
def TableComes (table : Domains) (invocation : Invocation) (after : Domains) : Prop :=
  ∀ key record, after.lookup key = some record →
    Comes categories applications table invocation key record

/-- Every value of Redis was there, or is a record that comes from somewhere. -/
def RedisComes (table : Domains) (redis : RedisKeys) (invocation : Invocation)
    (after : RedisKeys) : Prop :=
  ∀ key value, after key = some value → redis key = some value ∨
    ∃ record : StoredRecord, value = record.jsonDumps ∧
      Comes categories applications table invocation key record

variable {categories applications} {table working after : Domains} {redis store : RedisKeys}
variable {invocation : Invocation}

theorem comes_of_found {key : Bytes} {record : StoredRecord}
    (found : table.lookup key = some record) :
    Comes categories applications table invocation key record :=
  .kept found (raisedBy_refl record) (.inl rfl)

theorem tableComes_self : TableComes categories applications table invocation table :=
  fun _ _ found => comes_of_found found

theorem redisComes_self : RedisComes categories applications table redis invocation redis :=
  fun _ _ held => .inl held

theorem TableComes.insert {key : Bytes} {record : StoredRecord}
    (comes : TableComes categories applications table invocation working)
    (new : Comes categories applications table invocation key record) :
    TableComes categories applications table invocation (working.insert key record) := by
  intro other found held
  by_cases same : other = key
  · subst same
    rw [AList.lookup_insert, Option.some.injEq] at held
    rwa [← held]
  · rw [AList.lookup_insert_ne same] at held
    exact comes other found held

theorem TableComes.erase (key : Bytes)
    (comes : TableComes categories applications table invocation working) :
    TableComes categories applications table invocation (working.erase key) := by
  intro other found held
  by_cases same : other = key
  · subst same
    simp at held
  · rw [AList.lookup_erase_ne same] at held
    exact comes other found held

theorem RedisComes.set {key : Bytes} {record : StoredRecord}
    (comes : RedisComes categories applications table redis invocation store)
    (new : Comes categories applications table invocation key record) :
    RedisComes categories applications table redis invocation
      (redisSet key record.jsonDumps store) := by
  intro other value held
  by_cases same : other = key
  · subst same
    rw [redisSet, Function.update_self, Option.some.injEq] at held
    exact .inr ⟨record, held.symm, new⟩
  · rw [redisSet, Function.update_of_ne same] at held
    exact comes other value held

/-- A row that is inserted has the record of the arguments, which is what is
written to Redis. -/
theorem insertIntoDomains_record {args : DomainArgs}
    (accepted : insertIntoDomains categories applications args table = some after) :
    ∃ record, args.record categories applications = some record ∧
      after = table.insert args.domain record ∧
      record.jsonDumps = domainObject args.category args.application args.ttl
        (.array (args.cacheDomains.map .string)) := by
  obtain ⟨written, -, inserted, dumps⟩ :=
    insertIntoDomains_eq_some categories applications accepted
  unfold insertIntoDomains at accepted
  split at accepted
  · obtain ⟨record, built, rfl⟩ := Option.map_eq_some_iff.mp accepted
    have same := congrArg (AList.lookup args.domain) inserted
    rw [AList.lookup_insert, AList.lookup_insert, Option.some.injEq] at same
    exact ⟨record, built, rfl, same ▸ dumps⟩
  · cases accepted

/-! ### The commands -/

variable (categories applications table redis invocation)

/-- What holds at every moment of a command. -/
def Writes : Assertion Domains RedisKeys := fun committed working store =>
  TableComes categories applications table invocation committed ∧
    TableComes categories applications table invocation working ∧
    RedisComes categories applications table redis invocation store

variable {categories applications table redis invocation}

theorem ensures_setRows {rows : List DomainRow}
    (comes : ∀ row ∈ rows, Comes categories applications table invocation row.1 row.2) :
    Ensures (Writes categories applications table redis invocation) (setRows rows)
      (fun _ => Writes categories applications table redis invocation)
      (Writes categories applications table redis invocation) := by
  apply ensures_writeAll
  intro change member committed working store writes
  obtain ⟨row, inside, rfl⟩ := List.mem_map.mp member
  exact ⟨writes.1, writes.2.1, writes.2.2.set (comes row inside)⟩

theorem ensures_commit_writes :
    Ensures (Writes categories applications table redis invocation) commit
      (fun _ => Writes categories applications table redis invocation)
      (Writes categories applications table redis invocation) :=
  ensures_commit (fun _ _ _ writes => writes) fun _ _ _ writes =>
    ⟨writes.2.1, writes.2.1, writes.2.2⟩

theorem ensures_dbDomainDel (domain : Bytes) :
    Ensures (Writes categories applications table redis invocation) (dbDomainDel domain)
      (fun _ => Writes categories applications table redis invocation)
      (Writes categories applications table redis invocation) := by
  apply Ensures.bind _ fun _ => ensures_commit_writes
  apply ensures_execute (fun _ _ _ writes => writes)
  intro committed working store after writes erased
  obtain rfl := Option.some.inj erased
  exact ⟨writes.1, writes.2.1.erase domain, writes.2.2⟩

/-- Rows that are read from the table come as it does. -/
theorem ensures_select {select : Domains → List DomainRow}
    (inTable : ∀ table, ∀ row ∈ select table, table.lookup row.1 = some row.2) :
    Ensures (Writes categories applications table redis invocation) (query select)
      (fun rows committed working store =>
        Writes categories applications table redis invocation committed working store ∧
          ∀ row ∈ rows, Comes categories applications table invocation row.1 row.2)
      (Writes categories applications table redis invocation) := by
  apply ensures_query (fun _ _ _ writes => writes)
  intro committed working store writes
  exact ⟨writes, fun row member => writes.2.1 row.1 row.2 (inTable working row member)⟩

theorem ensures_dbDumpToRedis (order : RowOrder) :
    Ensures (Writes categories applications table redis invocation) (dbDumpToRedis order)
      (fun _ => Writes categories applications table redis invocation)
      (Writes categories applications table redis invocation) := by
  apply (ensures_select fun _ => arrange_inTable).bind
  intro rows session both
  exact ensures_setRows both.2 session both.1

section TtlsUpdate

variable {first second : RowOrder}

/-- The loop of `ttls_update` raises rows that it has not raised before. -/
theorem ensures_updateTtls {rows : List DomainRow} (distinct : (rows.map Sigma.fst).Nodup)
    (inTable : ∀ row ∈ rows, table.lookup row.1 = some row.2) :
    Ensures
      (fun committed working store =>
        Writes categories applications table redis invocation committed working store ∧
          ∀ row ∈ rows, working.lookup row.1 = some row.2)
      (updateTtls clientCount (hitRows invocation.command.hits rows))
      (fun _ => Writes categories applications table redis invocation)
      (Writes categories applications table redis invocation) := by
  induction rows with
  | nil => exact ensures_pure fun _ _ _ both => both.1
  | cons row rows ih =>
      obtain ⟨found, rest⟩ := List.forall_mem_cons.mp inTable
      rw [List.map_cons, List.nodup_cons] at distinct
      by_cases due : 0 < ttlIncrement clientCount (invocation.command.hits row.1)
      · rw [updateTtls_cons_of_pos clientCount _ due]
        apply Ensures.bind _ fun _ => (ih distinct.2 rest).bind fun updated => by
          exact ensures_pure fun _ _ _ writes => writes
        apply ensures_execute (fun _ _ _ both => both.1)
        rintro committed working store after ⟨writes, unraised⟩ accepted
        obtain ⟨here, others⟩ := List.forall_mem_cons.mp unraised
        rw [updateTtl, here] at accepted
        obtain ⟨record, raised, rfl⟩ := Option.map_eq_some_iff.mp accepted
        refine ⟨⟨writes.1, writes.2.1.insert ?_, writes.2.2⟩, ?_⟩
        · exact .kept found (raisedBy_withTtl raised) (.inr rfl)
        · exact lookup_insert_of_absent distinct.1 others record
      · rw [updateTtls_cons_of_neg clientCount _ due]
        intro session both
        exact ih distinct.2 rest session ⟨both.1, (List.forall_mem_cons.mp both.2).2⟩

variable (invocation) in
theorem ensures_ttlsUpdate :
    Ensures (fun committed working store => committed = table ∧ working = table ∧ store = redis)
      (ttlsUpdate clientCount invocation.command.hits first second)
      (fun _ => Writes categories applications table redis invocation)
      (Writes categories applications table redis invocation) := by
  have start : ∀ committed working store,
      committed = table ∧ working = table ∧ store = redis →
      Writes categories applications table redis invocation committed working store := by
    rintro _ _ _ ⟨rfl, rfl, rfl⟩
    exact ⟨tableComes_self, tableComes_self, redisComes_self⟩
  have reads : Ensures
      (fun committed working store => committed = table ∧ working = table ∧ store = redis)
      (query fun table => hitRows invocation.command.hits (first.arrange table.entries))
      (fun results committed working store =>
        results = hitRows invocation.command.hits (first.arrange table.entries) ∧
          (Writes categories applications table redis invocation committed working store ∧
            ∀ row ∈ first.arrange table.entries, working.lookup row.1 = some row.2))
      (Writes categories applications table redis invocation) := by
    apply ensures_query start
    rintro committed working store ⟨rfl, rfl, rfl⟩
    exact ⟨rfl, start _ _ _ ⟨rfl, rfl, rfl⟩, arrange_inTable⟩
  apply reads.bind
  rintro results session ⟨rfl, unraised⟩
  refine ((ensures_updateTtls arrange_distinct arrange_inTable).bind fun updated => ?_) session
    unraised
  apply (ensures_select fun _ => selected_inTable).bind
  intro rows session both
  exact ((ensures_setRows both.2).bind fun _ => ensures_commit_writes) session both.1

end TtlsUpdate

variable (categories applications table redis)

/-- `domain-add` is taken or refused as a whole, where it is not interrupted
between its write to Redis and the commit. -/
theorem domainAdd_comes (args : DomainArgs) (raisesAt : Option Nat) :
    TableComes categories applications table ⟨.domainAdd args, raisesAt⟩
        (manage categories applications (table, redis) ⟨.domainAdd args, raisesAt⟩).1.1 ∧
      RedisComes categories applications table redis ⟨.domainAdd args, raisesAt⟩
        (manage categories applications (table, redis) ⟨.domainAdd args, raisesAt⟩).1.2 := by
  simp only [manage, Command.script, dbDomainAdd, outcome_execute_write_commit]
  cases inserted : insertIntoDomains categories applications args table with
  | none => exact ⟨tableComes_self, redisComes_self⟩
  | some after =>
      obtain ⟨record, built, rfl, dumps⟩ := insertIntoDomains_record inserted
      have new (reaches : ∀ left ∈ raisesAt, 2 ≤ left) :
          Comes categories applications table ⟨.domainAdd args, raisesAt⟩ args.domain record :=
        .added rfl rfl built (by rw [inserted]; rfl) reaches
      rw [← dumps]
      rcases raisesAt with _ | _ | _ | _ | left
      · have added := new (by simp)
        exact ⟨tableComes_self.insert added, redisComes_self.set added⟩
      · exact ⟨tableComes_self, redisComes_self⟩
      · exact ⟨tableComes_self, redisComes_self⟩
      · exact ⟨tableComes_self, redisComes_self.set (new (by simp))⟩
      · have added := new (by simp)
        exact ⟨tableComes_self.insert added, redisComes_self.set added⟩

/-- However a run of `manage.py` ends, what it leaves behind comes from the table,
from what Redis held, or from its arguments. -/
theorem manage_comes (invocation : Invocation) :
    TableComes categories applications table invocation
        (manage categories applications (table, redis) invocation).1.1 ∧
      RedisComes categories applications table redis invocation
        (manage categories applications (table, redis) invocation).1.2 := by
  have start : ∀ committed working store,
      committed = table ∧ working = table ∧ store = redis →
      Writes categories applications table redis invocation committed working store := by
    rintro _ _ _ ⟨rfl, rfl, rfl⟩
    exact ⟨tableComes_self, tableComes_self, redisComes_self⟩
  have same : ∀ committed working store,
      Writes categories applications table redis invocation committed working store →
      Writes categories applications table redis invocation committed working store :=
    fun _ _ _ writes => writes
  have leaves (ends : Ensures
      (fun committed working store => committed = table ∧ working = table ∧ store = redis)
      (invocation.command.script categories applications)
      (fun _ => Writes categories applications table redis invocation)
      (Writes categories applications table redis invocation)) :
      TableComes categories applications table invocation
          (manage categories applications (table, redis) invocation).1.1 ∧
        RedisComes categories applications table redis invocation
          (manage categories applications (table, redis) invocation).1.2 := by
    have left : Ensures
        (fun committed working store => committed = table ∧ working = table ∧ store = redis)
        (invocation.command.script categories applications)
        (fun _ committed _ store => TableComes categories applications table invocation committed ∧
          RedisComes categories applications table redis invocation store)
        (fun committed _ store => TableComes categories applications table invocation committed ∧
          RedisComes categories applications table redis invocation store) :=
      ends.mono (fun _ _ _ pre => pre) (fun _ _ _ _ writes => ⟨writes.1, writes.2.2⟩)
        fun _ _ _ writes => ⟨writes.1, writes.2.2⟩
    exact left.outcome
  obtain ⟨command, raisesAt⟩ := invocation
  cases command with
  | ttlsUpdate hits first second =>
      exact leaves (ensures_ttlsUpdate ⟨.ttlsUpdate hits first second, raisesAt⟩)
  | domainAdd args => exact domainAdd_comes categories applications table redis args raisesAt
  | domainDel domain =>
      exact leaves ((ensures_dbDomainDel domain).mono start (fun _ => same) same)
  | dbDumpToRedis order =>
      exact leaves ((ensures_dbDumpToRedis order).mono start (fun _ => same) same)

end Comes

/-! ## What an event does -/

section Effects

variable {categories applications : List Int32} {service : DomainService}

/-- The hit that a query leaves behind, if it does. -/
theorem queryPost_effect (now : Int) (recorded answers : Bool) (lag : Bytes → Nat) (body : Json) :
    (service.queryPost now recorded answers lag body).1 = service ∨
      ∃ domain, bodyParser body = some domain ∧ domain ≠ [] ∧ 0 ∉ domain ∧
        (service.queryPost now recorded answers lag body).1 = { service with
          db := { service.db with hitcount := service.db.hitcount ++ [⟨domain, now⟩] } } := by
  unfold DomainService.queryPost
  cases read : bodyParser body with
  | none => exact .inl rfl
  | some domain =>
      by_cases empty : domain = []
      · simp [empty]
      · simp only [if_neg empty, postgresUpdateDomainHitCount]
        split
        · rename_i inserted
          exact .inr ⟨domain, rfl, empty, inserted.2.2, rfl⟩
        · exact .inl rfl

/-- A domain is stored in one of the two tables, where it was not. -/
theorem settle_effect {domain : Bytes} {text : Option (List Bytes)} {prediction : Bytes}
    {inserts : Bool} {db after : DomainsDb}
    (stored : settle categories applications domain text prediction inserts db = some after) :
    (domain ∉ db.failed ∧ after = { db with failed := db.failed ++ [domain] }) ∨
      (domain ∉ db.provisional ∧ after = { db with
        provisional := db.provisional.insert domain .default }) := by
  cases text with
  | none =>
      simp only [settle, postgresInsertDomainFailed] at stored
      split at stored
      · rename_i inserted
        exact .inl ⟨by simpa using inserted.2.2.2, (Option.some.inj stored).symm⟩
      · cases stored
  | some texts =>
      simp only [settle, postgresInsertDomain, categoryToInt] at stored
      split at stored
      · obtain ⟨provisional, accepted, rfl⟩ := Option.map_eq_some_iff.mp stored
        obtain ⟨record, built, rfl, -⟩ := insertIntoDomains_record accepted
        obtain ⟨_, absent, -⟩ := insertIntoDomains_eq_some categories applications accepted
        have defaults : record = .default := by
          simp only [DomainArgs.record, Option.bind_eq_some_iff] at built
          obtain ⟨category, ⟨⟩, application, ⟨⟩, ttl, ⟨⟩, taken⟩ := built
          split at taken
          · exact (Option.some.inj taken).symm
          · cases taken
        rw [defaults]
        exact .inr ⟨absent, rfl⟩
      · cases stored

/-- A scraper that has domains left visits the next, and stores it if it can. -/
theorem visit_effect (scraper : Nat) (https http : PageVisit) (prediction : Bytes)
    (inserts : Bool) :
    (service.scrapers scraper = [] ∧
      service.visit categories applications scraper https http prediction inserts =
        (service, .idle)) ∨
    ∃ domain rest, service.scrapers scraper = domain :: rest ∧
      ((settle categories applications domain (scrapeDomain https http) prediction inserts
            service.db = none ∧
          service.visit categories applications scraper https http prediction inserts =
            ({ service with scrapers := Function.update service.scrapers scraper rest },
              .visited domain false)) ∨
        ∃ db, settle categories applications domain (scrapeDomain https http) prediction inserts
            service.db = some db ∧
          service.visit categories applications scraper https http prediction inserts =
            ({ service with
              db := db
              scrapers := Function.update service.scrapers scraper rest },
              .visited domain true)) := by
  unfold DomainService.visit
  cases left : service.scrapers scraper with
  | nil => exact .inl ⟨rfl, rfl⟩
  | cons domain rest =>
      refine .inr ⟨domain, rest, rfl, ?_⟩
      cases stored : settle categories applications domain (scrapeDomain https http) prediction
          inserts service.db with
      | none => exact .inl ⟨rfl, by simp only [stored]⟩
      | some db => exact .inr ⟨db, rfl, by simp only [stored]⟩

end Effects

/-! ## Provenance -/

section Provenance

variable (categories applications : List Int32)

/-- An event adds the record under the name: the table it finds takes the row, and
it is written to Redis at least. -/
def Added (events : List ServiceEvent) (key : Bytes) (base : StoredRecord) : Prop :=
  ∃ earlier now args raisesAt,
    earlier ++ [ServiceEvent.manage now (.domainAdd args) raisesAt] <+: events ∧
    args.domain = key ∧ args.record categories applications = some base ∧
    (insertIntoDomains categories applications args
      (serviceAfter categories applications earlier).db.domains).isSome = true ∧
    ∀ left ∈ raisesAt, 2 ≤ left

variable (Within : Bytes → Nat → Prop)

/-- The record was added under the name, and raised since by seconds within some
limits. -/
def Derived (events : List ServiceEvent) (key : Bytes) (record : StoredRecord) : Prop :=
  ∃ base seconds, Added categories applications events key base ∧
    RaisedBy seconds base record ∧ Within key seconds

/-- What the table has and what Redis holds or has held was added. -/
structure Administered (events : List ServiceEvent) (service : DomainService) : Prop where
  domains : ∀ key record, service.db.domains.lookup key = some record →
    Derived categories applications Within events key record
  redis : ∀ keys ∈ service.redis :: service.past, ∀ key value, keys key = some value →
    ∃ record : StoredRecord, value = record.jsonDumps ∧
      Derived categories applications Within events key record

/-- Limits that allow what others do, and what hits add to it. -/
structure Extends (hits : Bytes → Nat) (Wider : Bytes → Nat → Prop) : Prop where
  zero : ∀ key, Wider key 0
  wider : ∀ key seconds, Within key seconds → Wider key seconds
  raised : ∀ key seconds, Within key seconds →
    Wider key (seconds + ttlIncrement clientCount (hits key))

variable {categories applications Within} {events : List ServiceEvent} {service : DomainService}
variable {Wider : Bytes → Nat → Prop}

theorem administered_initial :
    Administered categories applications Within [] .initial := by
  constructor
  · intro key record found
    cases found
  · intro keys member key value held
    obtain rfl := List.mem_singleton.mp member
    cases held

theorem Added.snoc {key : Bytes} {base : StoredRecord} (event : ServiceEvent)
    (added : Added categories applications events key base) :
    Added categories applications (events ++ [event]) key base := by
  obtain ⟨earlier, now, args, raisesAt, prior, rest⟩ := added
  exact ⟨earlier, now, args, raisesAt, prior.trans (List.prefix_append _ _), rest⟩

theorem Derived.snoc {key : Bytes} {record : StoredRecord} (event : ServiceEvent)
    (wider : ∀ key seconds, Within key seconds → Wider key seconds)
    (derived : Derived categories applications Within events key record) :
    Derived categories applications Wider (events ++ [event]) key record := by
  obtain ⟨base, seconds, added, raised, within⟩ := derived
  exact ⟨base, seconds, added.snoc event, raised, wider key seconds within⟩

theorem Administered.derived_of_comes {key : Bytes} {record : StoredRecord} {now : Int}
    {command : ServiceCommand} {raisesAt : Option Nat} {hits : Bytes → Nat}
    (administered : Administered categories applications Within events service)
    (reached : service = serviceAfter categories applications events)
    (limits : Extends Within (command.command hits).hits Wider)
    (comes : Comes categories applications service.db.domains ⟨command.command hits, raisesAt⟩ key
      record) :
    Derived categories applications Wider (events ++ [.manage now command raisesAt]) key
      record := by
  cases comes with
  | kept found raised once =>
      obtain ⟨base, seconds, added, earlier, within⟩ := administered.domains _ _ found
      refine ⟨base, _, added.snoc _, earlier.trans raised, ?_⟩
      rcases once with rfl | rfl
      · exact limits.wider key seconds within
      · exact limits.raised key seconds within
  | added adds named taken accepted written =>
      cases command with
      | domainAdd args =>
          cases adds
          rw [reached] at accepted
          exact ⟨record, 0, ⟨events, now, _, raisesAt, List.prefix_rfl, named, taken, accepted,
            written⟩, raisedBy_refl record, limits.zero key⟩
      | ttlsUpdate first second => cases adds
      | domainDel domain => cases adds
      | dbDumpToRedis order => cases adds

theorem Administered.manage {now : Int} {command : ServiceCommand} {raisesAt : Option Nat}
    (administered : Administered categories applications Within events service)
    (reached : service = serviceAfter categories applications events)
    (limits : Extends Within (command.command (dayHits service.db.hitcount now)).hits Wider) :
    Administered categories applications Wider (events ++ [.manage now command raisesAt])
      (service.manage categories applications now command raisesAt).1 := by
  have comes := manage_comes categories applications service.db.domains service.redis
    ⟨command.command (dayHits service.db.hitcount now), raisesAt⟩
  constructor
  · intro key record found
    exact administered.derived_of_comes reached limits (comes.1 key record found)
  · intro keys member key value held
    rcases List.mem_cons.mp member with rfl | earlier
    · rcases comes.2 key value held with before | ⟨record, dumps, written⟩
      · obtain ⟨record, dumps, derived⟩ :=
          administered.redis _ List.mem_cons_self key value before
        exact ⟨record, dumps, derived.snoc _ limits.wider⟩
      · exact ⟨record, dumps, administered.derived_of_comes reached limits written⟩
    · obtain ⟨record, dumps, derived⟩ := administered.redis _ earlier key value held
      exact ⟨record, dumps, derived.snoc _ limits.wider⟩

/-- An event that leaves `domains` and Redis. -/
theorem Administered.keep {after : DomainService} (event : ServiceEvent)
    (wider : ∀ key seconds, Within key seconds → Wider key seconds)
    (administered : Administered categories applications Within events service)
    (domains : after.db.domains = service.db.domains) (redis : after.redis = service.redis)
    (past : after.past = service.past) :
    Administered categories applications Wider (events ++ [event]) after := by
  constructor
  · intro key record found
    rw [domains] at found
    exact (administered.domains key record found).snoc event wider
  · intro keys member key value held
    rw [redis, past] at member
    obtain ⟨record, dumps, derived⟩ := administered.redis keys member key value held
    exact ⟨record, dumps, derived.snoc event wider⟩

/-- The hits an event looks at. -/
def ServiceEvent.hits (hitcount : List Hit) : ServiceEvent → Bytes → Nat
  | .manage now command _ => (command.command (dayHits hitcount now)).hits
  | _ => fun _ => 0

theorem Administered.step (event : ServiceEvent)
    (administered : Administered categories applications Within events service)
    (reached : service = serviceAfter categories applications events)
    (limits : Extends Within (event.hits service.db.hitcount) Wider) :
    Administered categories applications Wider (events ++ [event])
      (serviceStep categories applications service event).1 := by
  cases event with
  | query now recorded answers lag body =>
      simp only [serviceStep]
      rcases queryPost_effect now recorded answers lag body with same | ⟨domain, -, -, -, same⟩
      · rw [same]
        exact administered.keep _ limits.wider rfl rfl rfl
      · rw [same]
        exact administered.keep _ limits.wider rfl rfl rfl
  | manage now command raisesAt => exact administered.manage reached limits
  | select scraper arrive order => exact administered.keep _ limits.wider rfl rfl rfl
  | visit scraper https http prediction inserts =>
      simp only [serviceStep]
      rcases visit_effect scraper https http prediction inserts with
        ⟨-, same⟩ | ⟨domain, rest, -, ⟨-, same⟩ | ⟨db, stored, same⟩⟩
      · rw [same]
        exact administered.keep _ limits.wider rfl rfl rfl
      · rw [same]
        exact administered.keep _ limits.wider rfl rfl rfl
      · rw [same]
        rcases settle_effect stored with ⟨-, rfl⟩ | ⟨-, rfl⟩
        · exact administered.keep _ limits.wider rfl rfl rfl
        · exact administered.keep _ limits.wider rfl rfl rfl

/-- Whole minutes stay whole. -/
theorem extends_minutes (hits : Bytes → Nat) :
    Extends (fun _ seconds => 60 ∣ seconds) hits fun _ seconds => 60 ∣ seconds :=
  ⟨fun _ => Nat.dvd_zero 60, fun _ _ minutes => minutes,
    fun _ _ minutes => Nat.dvd_add minutes (dvd_ttlIncrement _)⟩

variable (categories applications) in
theorem administered_run (events : List ServiceEvent) :
    Administered categories applications (fun _ seconds => 60 ∣ seconds) events
      (serviceAfter categories applications events) := by
  induction events using List.reverseRecOn with
  | nil => exact administered_initial
  | append_singleton events event ih =>
      have next := ih.step event rfl (extends_minutes _)
      simpa [serviceAfter] using next

/-! ## Answers -/

/-- From values that are records the server answers as over the records. -/
theorem responseFrom_eq {keys : RedisKeys} {record : Bytes → Option StoredRecord}
    (values : ∀ key, keys key = (record key).map StoredRecord.jsonDumps) (answers : Bool)
    (domain : Bytes) :
    responseFrom keys answers domain = queryResponse ⟨answers, record⟩ domain := by
  have same : redisMGet keys answers (getAllSubdomains domain) =
      redisGetDomainInfos ⟨answers, record⟩ (getAllSubdomains domain) := by
    rw [redisMGet, redisGetDomainInfos, funext values]
  rw [responseFrom, same]
  rfl

/-- The replica holds records that were added. -/
theorem Administered.replica (lag : Bytes → Nat)
    (administered : Administered categories applications Within events service) :
    ∃ record : Bytes → Option StoredRecord,
      (∀ key, service.replica lag key = (record key).map StoredRecord.jsonDumps) ∧
        ∀ key stored, record key = some stored →
          Derived categories applications Within events key stored := by
  have each : ∀ key, ∃ found : Option StoredRecord,
      service.replica lag key = found.map StoredRecord.jsonDumps ∧
        ∀ stored, found = some stored →
          Derived categories applications Within events key stored := by
    intro key
    cases held : service.replica lag key with
    | none => exact ⟨none, rfl, fun stored found => by cases found⟩
    | some value =>
        obtain ⟨keys, reached, same⟩ := Option.bind_eq_some_iff.mp held
        obtain ⟨record, dumps, derived⟩ :=
          administered.redis keys (List.mem_of_getElem? reached) key value same
        refine ⟨some record, by rw [dumps]; rfl, fun stored found => ?_⟩
        exact Option.some.inj found ▸ derived
  choose record values derived using each
  exact ⟨record, values, derived⟩

theorem queryPost_answer {body : Json} {domain : Bytes} (asks : bodyParser body = some domain)
    (named : domain ≠ []) (now : Int) (recorded answers : Bool) (lag : Bytes → Nat) :
    (service.queryPost now recorded answers lag body).2 =
      .json 200 (responseFrom (service.replica lag) answers domain).toJson := by
  simp only [DomainService.queryPost, asks, if_neg named]

variable (categories applications Within) in
/-- What the replica answers about a domain: the record of the longest name over
it that the replica has, which was added and raised since, or zeros where it has
none or is not read. -/
def AnswersAdded (events : List ServiceEvent) (keys : RedisKeys) (answers : Bool)
    (domain : Bytes) (response : QueryResponse) : Prop :=
  response = ⟨0, 0, 0, none⟩ ∧
      (answers = true → ∀ key, DottedSuffix.Under dot domain key → keys key = none) ∨
    ∃ key base stored seconds, answers = true ∧ DottedSuffix.Under dot domain key ∧
      keys key = some (StoredRecord.jsonDumps stored) ∧
      (∀ longer, DottedSuffix.Under dot domain longer → key.length < longer.length →
        keys longer = none) ∧
      Added categories applications events key base ∧ RaisedBy seconds base stored ∧
      Within key seconds ∧ response = stored.response

theorem Administered.response
    (administered : Administered categories applications Within events service)
    (lag : Bytes → Nat) (answers : Bool) (domain : Bytes) :
    (responseFrom (service.replica lag) answers domain).Storable ∧
      AnswersAdded categories applications Within events (service.replica lag) answers domain
        (responseFrom (service.replica lag) answers domain) := by
  obtain ⟨record, values, derived⟩ := administered.replica lag
  rw [responseFrom_eq values]
  refine ⟨storable_queryResponse _ domain, ?_⟩
  unfold queryResponse
  rw [getDomainInfo_eq, nearestRecord]
  by_cases reads : answers = true
  · rw [if_pos reads]
    cases found : DottedSuffix.walk dot record domain with
    | none =>
        refine .inl ⟨rfl, fun _ key under => ?_⟩
        rw [values, DottedSuffix.walk_eq_none.mp found key under]
        rfl
    | some stored =>
        obtain ⟨key, under, here, longest⟩ := DottedSuffix.walk_eq_some found
        obtain ⟨base, seconds, added, raised, within⟩ := derived key stored here
        refine .inr ⟨key, base, stored, seconds, reads, under, ?_, ?_, added, raised, within, rfl⟩
        · rw [values, here]
          rfl
        · intro longer underLonger exceeds
          rw [values, longest longer underLonger exceeds]
          rfl
  · rw [if_neg reads]
    exact .inl ⟨rfl, fun answered => absurd answered reads⟩

/-- In every run the server answers a query with the record of the longest name
over the domain that the replica has, which was added, its `ttl` raised by whole
minutes since, or with zeros where it has none or does not answer. -/
theorem answers_administered (categories applications : List Int32) (events : List ServiceEvent)
    (now : Int) (recorded answers : Bool) (lag : Bytes → Nat) (body : Json) (domain : Bytes)
    (asks : bodyParser body = some domain) (named : domain ≠ []) :
    ∃ response : QueryResponse,
      (serviceStep categories applications (serviceAfter categories applications events)
        (.query now recorded answers lag body)).2 = .sent (.json 200 response.toJson) ∧
      AnswersAdded categories applications (fun _ seconds => 60 ∣ seconds) events
        ((serviceAfter categories applications events).replica lag) answers domain response :=
  ⟨_, congrArg ServiceAnswer.sent (queryPost_answer asks named now recorded answers lag),
    ((administered_run categories applications events).response lag answers domain).2⟩

/-- `domain-add b.c` in the database as it is initialized. -/
def addedBc : List ServiceEvent :=
  [.manage 0 (.domainAdd ⟨ascii ['b', '.', 'c'], 300, 0, 0, []⟩) none]

/-- A name under `b.c` is answered as it was added. -/
theorem answers_administered_addedBc :
    ∃ key base stored seconds, Added [0] [0] addedBc key base ∧ RaisedBy seconds base stored ∧
      (serviceAfter [0] [0] addedBc).replica (fun _ => 0) key = some stored.jsonDumps ∧
      (serviceStep [0] [0] (serviceAfter [0] [0] addedBc)
        (.query 0 true true (fun _ => 0)
          (domainRequestToJsonObject (ascii ['a', '.', 'b', '.', 'c'])))).2 =
        .sent (.json 200 stored.response.toJson) := by
  obtain ⟨response, answer, cases⟩ := answers_administered [0] [0] addedBc 0 true true
    (fun _ => 0) (domainRequestToJsonObject (ascii ['a', '.', 'b', '.', 'c']))
    (ascii ['a', '.', 'b', '.', 'c']) rfl (by decide)
  rcases cases with ⟨-, unknown⟩ |
    ⟨key, base, stored, seconds, -, -, here, -, added, raised, -, rfl⟩
  · have absent := unknown rfl (ascii ['b', '.', 'c']) (by decide)
    have present : (serviceAfter [0] [0] addedBc).replica (fun _ => 0) (ascii ['b', '.', 'c']) ≠
        none := by decide
    exact absurd absent present
  · exact ⟨key, base, stored, seconds, added, raised, here, answer⟩

end Provenance

end Uwebfilter
