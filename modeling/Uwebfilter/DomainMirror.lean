import Mathlib.Data.List.AList
import Uwebfilter.MachineRun
import Uwebfilter.QueryServer
import Uwebfilter.TransactionScript

/-!
# Redis as a mirror of `domains`

The commands of `manage.py` that change the table `domains` or Redis, each a
process of its own whose database and Redis calls may raise.  Redis mirrors the
table in every run without a deletion and without an interruption between a
write to Redis and the commit.
-/

namespace Uwebfilter

open CStrings QueryServer TransactionScript

/-- The table `domains`: its rows by their unique name, without the serial
number. -/
abbrev Domains := AList fun _ : Bytes => StoredRecord

abbrev DomainRow := Sigma fun _ : Bytes => StoredRecord

abbrev RedisKeys := Bytes → Option Json

abbrev ManageScript := TransactionScript Domains RedisKeys

/-- An order in which a `SELECT` without one returns its rows. -/
structure RowOrder where
  arrange : List DomainRow → List DomainRow
  perm : ∀ rows, (arrange rows).Perm rows

/-! ## Statements -/

/-- A value of a column of type `INTEGER`. -/
def toInteger (value : Int) : Option Int32 :=
  if -2147483648 ≤ value ∧ value ≤ 2147483647 then some (Int32.ofInt value) else none

/-- The record with another `ttl`, where the column and its check take it. -/
def QueryServer.StoredRecord.withTtl (record : StoredRecord) (ttl : Int) : Option StoredRecord :=
  (toInteger ttl).bind fun ttl =>
    if positive : 0 < ttl.toInt then some { record with ttl := ttl, positive := positive }
    else none

/-- The arguments of `domain-add`. -/
structure DomainArgs where
  domain : Bytes
  ttl : Int
  category : Int
  application : Int
  cacheDomains : List Bytes

-- the ids in the tables `categories` and `application`
variable (categories applications : List Int32)

/-- The record of the arguments, where the columns, their checks and their
references take it. -/
def DomainArgs.record (args : DomainArgs) : Option StoredRecord :=
  (toInteger args.category).bind fun category =>
    (toInteger args.application).bind fun application =>
      (toInteger args.ttl).bind fun ttl =>
        if valid : (0 < ttl.toInt ∧ (∀ name ∈ args.cacheDomains, 0 ∉ name) ∧
            ∀ name ∈ args.cacheDomains, ValidUtf8 name) ∧
            category ∈ categories ∧ application ∈ applications then
          some ⟨category, application, ttl, args.cacheDomains, valid.1.1, valid.1.2.1,
            valid.1.2.2⟩
        else none

/-- The `INSERT` of `domain-add`. -/
def insertIntoDomains (args : DomainArgs) (table : Domains) : Option Domains :=
  if args.domain ≠ [] ∧ (0 ∉ args.domain ∧ ValidUtf8 args.domain) ∧ args.domain ∉ table then
    (args.record categories applications).map fun record => table.insert args.domain record
  else none

/-- `UPDATE domains SET ttl = ttl + inc`. -/
def updateTtl (domain : Bytes) (inc : Nat) (table : Domains) : Option Domains :=
  match table.lookup domain with
  | none => some table
  | some record =>
      (record.withTtl (record.ttl.toInt + inc)).map fun record => table.insert domain record

/-! ## Commands -/

def redisSet (key : Bytes) (value : Json) (redis : RedisKeys) : RedisKeys :=
  Function.update redis key (some value)

def clientCount : Nat := 1

/-- The seconds some hits add to a `ttl`, with `CLIENT_COUNT` clients. -/
def ttlIncrement (clients count : Nat) : Nat :=
  let minutes := count / (30 * clients)
  minutes * 60

/-- The rows of `domains` that have hits, with their number. -/
def hitRows (hits : Bytes → Nat) (rows : List DomainRow) : List (Bytes × Nat × Int) :=
  rows.filterMap fun row =>
    if 0 < hits row.1 then some (row.1, hits row.1, row.2.ttl.toInt) else none

/-- The loop of `ttls_update`, which returns `updated`. -/
def updateTtls (clients : Nat) : List (Bytes × Nat × Int) → ManageScript (List Bytes)
  | [] => pure []
  | (domain, count, _) :: results =>
      let inc := ttlIncrement clients count
      if inc > 0 then do
        execute (updateTtl domain inc)
        let updated ← updateTtls clients results
        pure (domain :: updated)
      else updateTtls clients results

/-- The loop that writes rows to Redis. -/
def setRows (rows : List DomainRow) : ManageScript Unit :=
  writeAll (rows.map fun row => redisSet row.1 row.2.jsonDumps)

def ttlsUpdate (clients : Nat) (hits : Bytes → Nat) (first second : RowOrder) :
    ManageScript Unit := do
  let results ← query fun table => hitRows hits (first.arrange table.entries)
  let updated ← updateTtls clients results
  let result ← query fun table =>
    second.arrange (table.entries.filter fun row => decide (row.1 ∈ updated))
  setRows result
  commit

def dbDomainAdd (args : DomainArgs) : ManageScript Unit := do
  execute (insertIntoDomains categories applications args)
  write (redisSet args.domain (domainObject args.category args.application args.ttl
    (.array (args.cacheDomains.map .string))))
  commit

def dbDomainDel (domain : Bytes) : ManageScript Unit := do
  execute fun table => some (table.erase domain)
  commit

def dbDumpToRedis (order : RowOrder) : ManageScript Unit := do
  let result ← query fun table => order.arrange table.entries
  setRows result

inductive Command
  | ttlsUpdate (hits : Bytes → Nat) (first second : RowOrder)
  | domainAdd (args : DomainArgs)
  | domainDel (domain : Bytes)
  | dbDumpToRedis (order : RowOrder)

def Command.script : Command → ManageScript Unit
  | .ttlsUpdate hits first second => Uwebfilter.ttlsUpdate clientCount hits first second
  | .domainAdd args => dbDomainAdd categories applications args
  | .domainDel domain => dbDomainDel domain
  | .dbDumpToRedis order => Uwebfilter.dbDumpToRedis order

/-- A command with the number of its calls before one raises, if any does. -/
structure Invocation where
  command : Command
  raisesAt : Option Nat

/-- The table and Redis. -/
abbrev Stores := Domains × RedisKeys

def noDomains : Stores := (∅, fun _ => none)

/-- A run of `manage.py`: what it leaves behind, and whether it completed. -/
def manage (stores : Stores) (invocation : Invocation) : Stores × Bool :=
  outcome (invocation.command.script categories applications) invocation.raisesAt stores.1 stores.2

def storesAfter (invocations : List Invocation) : Stores :=
  MachineRun.after (manage categories applications) noDomains invocations

/-- Redis has the keys of the table, and the record of each. -/
def Mirrors (stores : Stores) : Prop :=
  ∀ domain, stores.2 domain = (stores.1.lookup domain).map StoredRecord.jsonDumps

/-! ## Single rows -/

theorem toInteger_eq_some {value : Int} {number : Int32} (read : toInteger value = some number) :
    number.toInt = value := by
  unfold toInteger at read
  split at read
  · rename_i bounds
    obtain rfl := Option.some.inj read
    exact Int32.toInt_ofInt_of_le (by omega) (by omega)
  · cases read

theorem toInteger_eq_none {value : Int} (above : -2147483648 ≤ value) :
    toInteger value = none ↔ 2147483647 < value := by
  unfold toInteger
  split
  · simp
    omega
  · simp
    omega

/-- An accepted row is new, and its record is what is written to Redis. -/
theorem insertIntoDomains_eq_some {args : DomainArgs} {table after : Domains}
    (accepted : insertIntoDomains categories applications args table = some after) :
    ∃ record : StoredRecord, args.domain ∉ table ∧ after = table.insert args.domain record ∧
      record.jsonDumps = domainObject args.category args.application args.ttl
        (.array (args.cacheDomains.map .string)) := by
  unfold insertIntoDomains at accepted
  split at accepted
  · rename_i fresh
    obtain ⟨record, built, rfl⟩ := Option.map_eq_some_iff.mp accepted
    refine ⟨record, fresh.2.2, rfl, ?_⟩
    simp only [DomainArgs.record, Option.bind_eq_some_iff] at built
    obtain ⟨category, categoryRead, application, applicationRead, ttl, ttlRead, taken⟩ := built
    split at taken
    · obtain rfl := Option.some.inj taken
      rw [StoredRecord.jsonDumps, toInteger_eq_some categoryRead,
        toInteger_eq_some applicationRead, toInteger_eq_some ttlRead]
    · cases taken
  · cases accepted

theorem QueryServer.StoredRecord.jsonDumps_ttl {first second : StoredRecord}
    (same : first.jsonDumps = second.jsonDumps) : first.ttl.toInt = second.ttl.toInt := by
  simp only [StoredRecord.jsonDumps, domainObject, Json.object.injEq, List.cons.injEq,
    Prod.mk.injEq, Json.int.injEq, true_and] at same
  exact same.2.2.1

theorem mirrors_noDomains : Mirrors noDomains := fun _ => rfl

section Rows

variable {table : Domains} {redis : RedisKeys} {domain : Bytes}

theorem Mirrors.insert (mirrors : Mirrors (table, redis)) (record : StoredRecord) :
    Mirrors (table.insert domain record, redisSet domain record.jsonDumps redis) := by
  intro other
  by_cases same : other = domain
  · subst same
    simp [redisSet]
  · simpa [redisSet, same, AList.lookup_insert_ne same] using mirrors other

theorem not_mirrors_set (absent : domain ∉ table) (value : Json) :
    ¬ Mirrors (table, redisSet domain value redis) := by
  intro mirrors
  have atDomain := mirrors domain
  simp [redisSet, AList.lookup_eq_none.mpr absent] at atDomain

theorem Mirrors.erase (mirrors : Mirrors (table, redis)) (absent : domain ∉ table) :
    Mirrors (table.erase domain, redis) := by
  intro other
  by_cases same : other = domain
  · subst same
    rw [mirrors other]
    simp [AList.lookup_eq_none.mpr absent]
  · simpa [AList.lookup_erase_ne same] using mirrors other

theorem Mirrors.not_erase (mirrors : Mirrors (table, redis)) (present : domain ∈ table) :
    ¬ Mirrors (table.erase domain, redis) := by
  intro erased
  have before := mirrors domain
  rw [erased domain] at before
  obtain ⟨record, found⟩ := Option.isSome_iff_exists.mp (AList.lookup_isSome.mpr present)
  simp [found] at before

end Rows

/-! ## The loop of `ttls_update` -/

section Loop

variable (clients : Nat) (hits : Bytes → Nat)

/-- The rows whose `ttl` the loop raises. -/
def dueRows (rows : List DomainRow) : List DomainRow :=
  rows.filter fun row => decide (0 < ttlIncrement clients (hits row.1))

/-- The column takes the raised `ttl`. -/
def FitsTtl (row : DomainRow) : Prop :=
  row.2.ttl.toInt + ttlIncrement clients (hits row.1) ≤ 2147483647

theorem mem_dueRows {rows : List DomainRow} {row : DomainRow} :
    row ∈ dueRows clients hits rows ↔ row ∈ rows ∧ 0 < ttlIncrement clients (hits row.1) := by
  simp [dueRows]

theorem dueRows_cons_of_pos {rows : List DomainRow} {row : DomainRow}
    (due : 0 < ttlIncrement clients (hits row.1)) :
    dueRows clients hits (row :: rows) = row :: dueRows clients hits rows :=
  List.filter_cons_of_pos (by simpa using due)

theorem dueRows_cons_of_neg {rows : List DomainRow} {row : DomainRow}
    (kept : ¬ 0 < ttlIncrement clients (hits row.1)) :
    dueRows clients hits (row :: rows) = dueRows clients hits rows :=
  List.filter_cons_of_neg (by simpa using kept)

theorem exists_withTtl {row : DomainRow} (fits : FitsTtl clients hits row) :
    ∃ record, row.2.withTtl (row.2.ttl.toInt + ttlIncrement clients (hits row.1)) = some record ∧
      record.ttl.toInt = row.2.ttl.toInt + ttlIncrement clients (hits row.1) := by
  have positive := row.2.positive
  cases read : toInteger (row.2.ttl.toInt + ttlIncrement clients (hits row.1)) with
  | none =>
      unfold FitsTtl at fits
      rw [toInteger_eq_none (by omega)] at read
      omega
  | some ttl =>
      have value := toInteger_eq_some read
      have stillPositive : 0 < ttl.toInt := by omega
      refine ⟨{ row.2 with ttl := ttl, positive := stillPositive }, ?_, value⟩
      simp [StoredRecord.withTtl, read, stillPositive]

theorem withTtl_of_not_fits {row : DomainRow} (exceeds : ¬ FitsTtl clients hits row) :
    row.2.withTtl (row.2.ttl.toInt + ttlIncrement clients (hits row.1)) = none := by
  have positive := row.2.positive
  have read : toInteger (row.2.ttl.toInt + ttlIncrement clients (hits row.1)) = none := by
    rw [toInteger_eq_none (by omega)]
    unfold FitsTtl at exceeds
    omega
  simp [StoredRecord.withTtl, read]

theorem hitRows_cons_of_pos {row : DomainRow} {rows : List DomainRow} (asked : 0 < hits row.1) :
    hitRows hits (row :: rows) = (row.1, hits row.1, row.2.ttl.toInt) :: hitRows hits rows := by
  rw [hitRows, List.filterMap_cons, if_pos asked]
  rfl

theorem hitRows_cons_of_zero {row : DomainRow} {rows : List DomainRow}
    (unasked : hits row.1 = 0) : hitRows hits (row :: rows) = hitRows hits rows := by
  rw [hitRows, List.filterMap_cons, if_neg (by omega)]
  rfl

theorem updateTtls_cons_of_pos {row : DomainRow} {rows : List DomainRow}
    (due : 0 < ttlIncrement clients (hits row.1)) :
    updateTtls clients (hitRows hits (row :: rows)) = (do
      execute (updateTtl row.1 (ttlIncrement clients (hits row.1)))
      let updated ← updateTtls clients (hitRows hits rows)
      pure (row.1 :: updated)) := by
  have asked : 0 < hits row.1 := by
    by_contra none
    have zero : hits row.1 = 0 := by omega
    rw [zero, ttlIncrement, Nat.zero_div] at due
    exact absurd due (by decide)
  rw [hitRows_cons_of_pos hits asked]
  exact if_pos due

theorem updateTtls_cons_of_neg {row : DomainRow} {rows : List DomainRow}
    (kept : ¬ 0 < ttlIncrement clients (hits row.1)) :
    updateTtls clients (hitRows hits (row :: rows)) = updateTtls clients (hitRows hits rows) := by
  rcases Nat.eq_zero_or_pos (hits row.1) with unasked | asked
  · rw [hitRows_cons_of_zero hits unasked]
  · rw [hitRows_cons_of_pos hits asked]
    exact if_neg kept

theorem updateTtl_of_fits {table : Domains} {row : DomainRow}
    (found : table.lookup row.1 = some row.2) (fits : FitsTtl clients hits row) :
    ∃ record, updateTtl row.1 (ttlIncrement clients (hits row.1)) table =
        some (table.insert row.1 record) ∧
      record.ttl.toInt = row.2.ttl.toInt + ttlIncrement clients (hits row.1) := by
  obtain ⟨record, raised, ttl⟩ := exists_withTtl clients hits fits
  refine ⟨record, ?_, ttl⟩
  rw [updateTtl, found]
  simp only [raised, Option.map_some]

theorem updateTtl_of_not_fits {table : Domains} {row : DomainRow}
    (found : table.lookup row.1 = some row.2) (exceeds : ¬ FitsTtl clients hits row) :
    updateTtl row.1 (ttlIncrement clients (hits row.1)) table = none := by
  rw [updateTtl, found]
  simp only [withTtl_of_not_fits clients hits exceeds, Option.map_none]

/-- The other rows are not touched by an update of one. -/
theorem lookup_insert_of_absent {table : Domains} {row : DomainRow} {rows : List DomainRow}
    (absent : row.1 ∉ rows.map Sigma.fst)
    (inTable : ∀ other ∈ rows, table.lookup other.1 = some other.2) (record : StoredRecord) :
    ∀ other ∈ rows, (table.insert row.1 record).lookup other.1 = some other.2 := by
  intro other member
  have differs : other.1 ≠ row.1 := fun same => absent (same ▸ List.mem_map_of_mem member)
  rw [AList.lookup_insert_ne differs]
  exact inTable other member

/-- The table after the loop. -/
structure Raised (rows : List DomainRow) (before after : Domains) : Prop where
  due : ∀ row ∈ dueRows clients hits rows, ∃ record, after.lookup row.1 = some record ∧
    record.ttl.toInt = row.2.ttl.toInt + ttlIncrement clients (hits row.1)
  others : ∀ domain ∉ (dueRows clients hits rows).map Sigma.fst,
    after.lookup domain = before.lookup domain

variable {clients hits} {rows : List DomainRow} {session : Session Domains RedisKeys}

/-- A due row in front is raised before the others are. -/
theorem Raised.cons_of_pos {row : DomainRow} {record : StoredRecord} {before after : Domains}
    (due : 0 < ttlIncrement clients (hits row.1)) (absent : row.1 ∉ rows.map Sigma.fst)
    (ttl : record.ttl.toInt = row.2.ttl.toInt + ttlIncrement clients (hits row.1))
    (raised : Raised clients hits rows (before.insert row.1 record) after) :
    Raised clients hits (row :: rows) before after := by
  have headAbsent : row.1 ∉ (dueRows clients hits rows).map Sigma.fst := fun member =>
    absent (List.map_subset _ (List.filter_subset_self _) member)
  constructor
  · rw [dueRows_cons_of_pos clients hits due, List.forall_mem_cons]
    refine ⟨⟨record, ?_, ttl⟩, raised.due⟩
    rw [raised.others _ headAbsent]
    exact AList.lookup_insert _
  · rw [dueRows_cons_of_pos clients hits due]
    intro domain others
    rw [List.map_cons, List.mem_cons, not_or] at others
    rw [raised.others _ others.2]
    exact AList.lookup_insert_ne others.1

theorem Raised.cons_of_neg {row : DomainRow} {before after : Domains}
    (kept : ¬ 0 < ttlIncrement clients (hits row.1))
    (raised : Raised clients hits rows before after) :
    Raised clients hits (row :: rows) before after := by
  constructor
  · rw [dueRows_cons_of_neg clients hits kept]
    exact raised.due
  · rw [dueRows_cons_of_neg clients hits kept]
    exact raised.others

theorem run_updateTtls (distinct : (rows.map Sigma.fst).Nodup)
    (inTable : ∀ row ∈ rows, session.working.lookup row.1 = some row.2)
    (fits : ∀ row ∈ dueRows clients hits rows, FitsTtl clients hits row)
    (allows : session.Allows (dueRows clients hits rows).length) :
    ∃ after, Raised clients hits rows session.working after ∧
      (updateTtls clients (hitRows hits rows)).run session =
        (some ((dueRows clients hits rows).map Sigma.fst),
          ({ session with working := after } : Session Domains RedisKeys).spend
            (dueRows clients hits rows).length) := by
  induction rows generalizing session with
  | nil =>
      refine ⟨session.working, ⟨by simp [dueRows], fun _ _ => rfl⟩, ?_⟩
      simp [hitRows, dueRows, updateTtls]
  | cons row rows ih =>
      obtain ⟨found, rest⟩ := List.forall_mem_cons.mp inTable
      rw [List.map_cons, List.nodup_cons] at distinct
      by_cases due : 0 < ttlIncrement clients (hits row.1)
      · rw [dueRows_cons_of_pos clients hits due] at fits allows ⊢
        obtain ⟨headFits, restFit⟩ := List.forall_mem_cons.mp fits
        obtain ⟨record, accepted, ttl⟩ := updateTtl_of_fits clients hits found headFits
        rw [List.length_cons, Nat.add_comm] at allows
        have first := allows.of_le (Nat.le_add_right 1 _)
        have restInTable := lookup_insert_of_absent distinct.1 rest record
        have restAllows : (({ session with working := session.working.insert row.1 record } :
            Session Domains RedisKeys).spend 1).Allows (dueRows clients hits rows).length :=
          (Session.allows_spend first).mpr allows
        obtain ⟨after, raised, returned⟩ := ih distinct.2 restInTable restFit restAllows
        refine ⟨after, raised.cons_of_pos due distinct.1 ttl, ?_⟩
        rw [updateTtls_cons_of_pos clients hits due,
          run_bind_of_some (run_execute_of_some first accepted), run_bind_of_some returned]
        rw [List.length_cons, Nat.add_comm _ 1, ← Session.spend_spend]
        rfl
      · rw [dueRows_cons_of_neg clients hits due] at fits allows ⊢
        obtain ⟨after, raised, returned⟩ := ih distinct.2 rest fits allows
        refine ⟨after, raised.cons_of_neg due, ?_⟩
        rw [updateTtls_cons_of_neg clients hits due, returned]

/-- Where a row does not fit or a call raises, the loop does not return. -/
theorem run_updateTtls_raises (distinct : (rows.map Sigma.fst).Nodup)
    (inTable : ∀ row ∈ rows, session.working.lookup row.1 = some row.2)
    (blocked : ¬ ((∀ row ∈ dueRows clients hits rows, FitsTtl clients hits row) ∧
      session.Allows (dueRows clients hits rows).length)) :
    ∃ after, (updateTtls clients (hitRows hits rows)).run session = (none, after) ∧
      after.committed = session.committed ∧ after.store = session.store := by
  induction rows generalizing session with
  | nil => exact absurd ⟨by simp [dueRows], by simp [dueRows]⟩ blocked
  | cons row rows ih =>
      obtain ⟨found, rest⟩ := List.forall_mem_cons.mp inTable
      rw [List.map_cons, List.nodup_cons] at distinct
      by_cases due : 0 < ttlIncrement clients (hits row.1)
      · rw [updateTtls_cons_of_pos clients hits due]
        rw [dueRows_cons_of_pos clients hits due, List.forall_mem_cons] at blocked
        by_cases made : FitsTtl clients hits row ∧ session.Allows 1
        · obtain ⟨record, accepted, -⟩ := updateTtl_of_fits clients hits found made.1
          have restInTable := lookup_insert_of_absent distinct.1 rest record
          have restBlocked : ¬ ((∀ row ∈ dueRows clients hits rows, FitsTtl clients hits row) ∧
              (({ session with working := session.working.insert row.1 record } :
                Session Domains RedisKeys).spend 1).Allows (dueRows clients hits rows).length) := by
            rintro ⟨fits, allows⟩
            refine blocked ⟨⟨made.1, fits⟩, ?_⟩
            rw [List.length_cons, Nat.add_comm]
            exact (Session.allows_spend made.2).mp allows
          obtain ⟨after, returned, committed, store⟩ := ih distinct.2 restInTable restBlocked
          refine ⟨after, ?_, committed, store⟩
          rw [run_bind_of_some (run_execute_of_some made.2 accepted), run_bind_of_none returned]
        · refine ⟨session, ?_, rfl, rfl⟩
          apply run_bind_of_none
          apply run_execute_of_none
          intro allows
          exact updateTtl_of_not_fits clients hits found fun fits => made ⟨fits, allows⟩
      · rw [updateTtls_cons_of_neg clients hits due]
        rw [dueRows_cons_of_neg clients hits due] at blocked
        exact ih distinct.2 rest blocked

end Loop

/-! ## Rows written to Redis -/

/-- Redis after some rows have been written. -/
def setAll (rows : List DomainRow) (redis : RedisKeys) : RedisKeys :=
  changed (rows.map fun row => redisSet row.1 row.2.jsonDumps) redis

theorem setAll_cons (row : DomainRow) (rows : List DomainRow) (redis : RedisKeys) :
    setAll (row :: rows) redis = setAll rows (redisSet row.1 row.2.jsonDumps redis) := rfl

theorem setAll_of_not_mem {rows : List DomainRow} {redis : RedisKeys} {domain : Bytes}
    (absent : domain ∉ rows.map Sigma.fst) : setAll rows redis domain = redis domain := by
  induction rows generalizing redis with
  | nil => rfl
  | cons row rows ih =>
      rw [List.map_cons, List.mem_cons, not_or] at absent
      rw [setAll_cons, ih absent.2, redisSet, Function.update_of_ne absent.1]

theorem setAll_of_mem {table : Domains} {rows : List DomainRow} {redis : RedisKeys}
    {domain : Bytes} (inTable : ∀ row ∈ rows, table.lookup row.1 = some row.2)
    (member : domain ∈ rows.map Sigma.fst) :
    setAll rows redis domain = (table.lookup domain).map StoredRecord.jsonDumps := by
  induction rows generalizing redis with
  | nil => exact absurd member List.not_mem_nil
  | cons row rows ih =>
      obtain ⟨found, rest⟩ := List.forall_mem_cons.mp inTable
      rw [setAll_cons]
      by_cases later : domain ∈ rows.map Sigma.fst
      · exact ih rest later
      · rw [List.map_cons, List.mem_cons, or_iff_left later] at member
        subst member
        rw [setAll_of_not_mem later, redisSet, Function.update_self, found]
        rfl

/-- Writing rows of the table again leaves the mirror. -/
theorem Mirrors.setAll {table : Domains} {redis : RedisKeys} {rows : List DomainRow}
    (mirrors : Mirrors (table, redis)) (inTable : ∀ row ∈ rows, table.lookup row.1 = some row.2) :
    Mirrors (table, Uwebfilter.setAll rows redis) := by
  intro domain
  by_cases member : domain ∈ rows.map Sigma.fst
  · exact setAll_of_mem inTable member
  · exact (setAll_of_not_mem member).trans (mirrors domain)

/-! ## `ttls_update` -/

section TtlsUpdate

variable {clients : Nat} {hits : Bytes → Nat} {first second order : RowOrder} {table : Domains}
variable {redis : RedisKeys} {raisesAt : Option Nat}

theorem arrange_distinct : ((order.arrange table.entries).map Sigma.fst).Nodup := by
  have same := (order.perm table.entries).map Sigma.fst
  exact same.nodup_iff.mpr table.keys_nodup

theorem arrange_inTable : ∀ row ∈ order.arrange table.entries,
    table.lookup row.1 = some row.2 := by
  intro row member
  exact AList.mem_lookup_iff.mpr ((order.perm table.entries).mem_iff.mp member)

theorem dueRows_perm {rows others : List DomainRow} (perm : rows.Perm others) :
    (dueRows clients hits rows).Perm (dueRows clients hits others) :=
  perm.filter _

theorem Raised.of_perm {rows others : List DomainRow} {after : Domains}
    (raised : Raised clients hits rows table after) (perm : rows.Perm others) :
    Raised clients hits others table after := by
  have due : (dueRows clients hits rows).Perm (dueRows clients hits others) := dueRows_perm perm
  constructor
  · intro row member
    exact raised.due row (due.mem_iff.mpr member)
  · intro domain absent
    apply raised.others
    rwa [(due.map Sigma.fst).mem_iff]

/-- The rows selected after the loop are those it has raised. -/
theorem selected_perm {rows : List DomainRow} {after : Domains}
    (raised : Raised clients hits rows table after) (distinct : (rows.map Sigma.fst).Nodup) :
    ((second.arrange (after.entries.filter fun row =>
        decide (row.1 ∈ (dueRows clients hits rows).map Sigma.fst))).map Sigma.fst).Perm
      ((dueRows clients hits rows).map Sigma.fst) := by
  refine ((second.perm _).map Sigma.fst).trans ?_
  have keys : (after.entries.map Sigma.fst).Nodup := after.keys_nodup
  apply (List.perm_ext_iff_of_nodup ?_ ?_).mpr
  · intro domain
    constructor
    · intro member
      obtain ⟨row, inside, rfl⟩ := List.mem_map.mp member
      exact of_decide_eq_true (List.mem_filter.mp inside).2
    · intro member
      obtain ⟨row, due, rfl⟩ := List.mem_map.mp member
      obtain ⟨record, found, -⟩ := raised.due row due
      refine List.mem_map.mpr ⟨⟨row.1, record⟩, List.mem_filter.mpr ⟨?_, ?_⟩, rfl⟩
      · exact AList.mem_lookup_iff.mp found
      · exact decide_eq_true member
  · exact keys.sublist (List.filter_sublist.map Sigma.fst)
  · exact distinct.sublist (List.filter_sublist.map Sigma.fst)

theorem selected_inTable {after : Domains} {updated : List Bytes} :
    ∀ row ∈ second.arrange (after.entries.filter fun row => decide (row.1 ∈ updated)),
      after.lookup row.1 = some row.2 := by
  intro row member
  have inside := (second.perm _).mem_iff.mp member
  exact AList.mem_lookup_iff.mpr (List.mem_filter.mp inside).1

/-- The number of rows whose `ttl` is raised. -/
def dueCount (clients : Nat) (hits : Bytes → Nat) (table : Domains) : Nat :=
  (dueRows clients hits table.entries).length

theorem length_dueRows_arrange :
    (dueRows clients hits (order.arrange table.entries)).length = dueCount clients hits table :=
  (dueRows_perm (order.perm table.entries)).length_eq

/-- The update ends before its first write to Redis: a `ttl` no longer fits, or
a call raises. -/
theorem outcome_ttlsUpdate_blocked
    (blocked : ¬ ((∀ row ∈ dueRows clients hits table.entries, FitsTtl clients hits row) ∧
      ∀ left ∈ raisesAt, dueCount clients hits table + 2 ≤ left)) :
    outcome (ttlsUpdate clients hits first second) raisesAt table redis =
      ((table, redis), false) := by
  set start : Session Domains RedisKeys := ⟨table, table, redis, raisesAt⟩ with startEq
  suffices ∃ after, (ttlsUpdate clients hits first second).run start = (none, after) ∧
      after.committed = table ∧ after.store = redis by
    obtain ⟨after, returned, committed, store⟩ := this
    rw [outcome, ← startEq, returned]
    exact Prod.ext (Prod.ext committed store) rfl
  by_cases reads : start.Allows 1
  · have inTable : ∀ row ∈ first.arrange table.entries,
        (start.spend 1).working.lookup row.1 = some row.2 := arrange_inTable
    unfold ttlsUpdate
    by_cases loops : (∀ row ∈ dueRows clients hits (first.arrange table.entries),
          FitsTtl clients hits row) ∧
        (start.spend 1).Allows (dueRows clients hits (first.arrange table.entries)).length
    · obtain ⟨after, -, returned⟩ := run_updateTtls arrange_distinct inTable loops.1 loops.2
      have stops : ¬ (({ start.spend 1 with working := after } :
          Session Domains RedisKeys).spend
            (dueRows clients hits (first.arrange table.entries)).length).Allows 1 := by
        intro more
        have whole := (Session.allows_spend reads).mp ((Session.allows_spend loops.2).mp more)
        rw [length_dueRows_arrange] at whole
        refine blocked ⟨fun row member => ?_, fun left member => ?_⟩
        · exact loops.1 row ((dueRows_perm (first.perm _)).mem_iff.mpr member)
        · have enough : 1 + (dueCount clients hits table + 1) ≤ left := whole left member
          omega
      exact ⟨_, (run_bind_of_some (run_query _ reads)).trans ((run_bind_of_some returned).trans
        (run_bind_of_none (run_query_of_not stops))), rfl, rfl⟩
    · obtain ⟨after, returned, committed, store⟩ :=
        run_updateTtls_raises arrange_distinct inTable loops
      refine ⟨after, ?_, committed, store⟩
      rw [run_bind_of_some (run_query _ reads), run_bind_of_none returned]
  · exact ⟨start, run_bind_of_none (run_query_of_not reads), rfl, rfl⟩

/-- An update that reaches its writes to Redis has raised the due rows, and
selected them. -/
theorem run_ttlsUpdate {start : Session Domains RedisKeys} (first second : RowOrder)
    (fits : ∀ row ∈ dueRows clients hits start.working.entries, FitsTtl clients hits row)
    (reaches : start.Allows (dueCount clients hits start.working + 2)) :
    ∃ after selected, Raised clients hits start.working.entries start.working after ∧
      (∀ row ∈ selected, after.lookup row.1 = some row.2) ∧
      (selected.map Sigma.fst).Perm ((dueRows clients hits start.working.entries).map Sigma.fst) ∧
      (ttlsUpdate clients hits first second).run start =
        (do setRows selected; commit).run
          (({ start with working := after } : Session Domains RedisKeys).spend
            (dueCount clients hits start.working + 2)) := by
  have due : (dueRows clients hits (first.arrange start.working.entries)).Perm
      (dueRows clients hits start.working.entries) := dueRows_perm (first.perm _)
  have count := due.length_eq
  have reads : start.Allows 1 := reaches.of_le (by omega)
  have inTable : ∀ row ∈ first.arrange start.working.entries,
      (start.spend 1).working.lookup row.1 = some row.2 := arrange_inTable
  have loops : (start.spend 1).Allows
      (dueRows clients hits (first.arrange start.working.entries)).length := by
    rw [Session.allows_spend reads, count]
    exact reaches.of_le (show 1 + dueCount clients hits start.working ≤ _ by omega)
  obtain ⟨after, raised, returned⟩ := run_updateTtls arrange_distinct inTable
    (fun row member => fits row (due.mem_iff.mp member)) loops
  have again : (({ start.spend 1 with working := after } : Session Domains RedisKeys).spend
      (dueRows clients hits (first.arrange start.working.entries)).length).Allows 1 := by
    apply (Session.allows_spend loops).mpr
    apply (Session.allows_spend reads).mpr
    rw [count]
    exact reaches.of_le (show 1 + (dueCount clients hits start.working + 1) ≤ _ by omega)
  have spent : (({ start.spend 1 with working := after } : Session Domains RedisKeys).spend
      (dueRows clients hits (first.arrange start.working.entries)).length).spend 1 =
        ({ start with working := after } : Session Domains RedisKeys).spend
          (dueCount clients hits start.working + 2) := by
    have one : ({ start.spend 1 with working := after } : Session Domains RedisKeys) =
        ({ start with working := after } : Session Domains RedisKeys).spend 1 := rfl
    rw [one, Session.spend_spend, Session.spend_spend, count]
    exact congrArg _ (show 1 + dueCount clients hits start.working + 1 = _ by omega)
  refine ⟨after, second.arrange (after.entries.filter fun row => decide (row.1 ∈
    (dueRows clients hits (first.arrange start.working.entries)).map Sigma.fst)),
    raised.of_perm (first.perm _), selected_inTable,
    (selected_perm raised arrange_distinct).trans (due.map Sigma.fst), ?_⟩
  rw [ttlsUpdate, run_bind_of_some (run_query _ reads), run_bind_of_some returned,
    run_bind_of_some (run_query _ again), spent]
  rfl

/-- What the update leaves behind once it has selected the raised rows: all of
it, or what was written to Redis before a call raised. -/
theorem outcome_ttlsUpdate (first second : RowOrder) (redis : RedisKeys)
    (fits : ∀ row ∈ dueRows clients hits table.entries, FitsTtl clients hits row)
    (reaches : ∀ left ∈ raisesAt, dueCount clients hits table + 2 ≤ left) :
    ∃ after selected, Raised clients hits table.entries table after ∧
      (∀ row ∈ selected, after.lookup row.1 = some row.2) ∧
      (selected.map Sigma.fst).Perm ((dueRows clients hits table.entries).map Sigma.fst) ∧
      ((∀ left ∈ raisesAt, 2 * dueCount clients hits table + 3 ≤ left) →
        outcome (ttlsUpdate clients hits first second) raisesAt table redis =
          ((after, setAll selected redis), true)) ∧
      ∀ left, raisesAt = some left → left ≤ 2 * dueCount clients hits table + 2 →
        outcome (ttlsUpdate clients hits first second) raisesAt table redis =
          ((table, setAll (selected.take (left - (dueCount clients hits table + 2))) redis),
            false) := by
  have enough : (⟨table, table, redis, raisesAt⟩ : Session Domains RedisKeys).Allows
      (dueCount clients hits table + 2) := reaches
  obtain ⟨after, selected, raised, inTable, perm, run⟩ := run_ttlsUpdate first second fits enough
  have length : (selected.map fun row => redisSet row.1 row.2.jsonDumps).length =
      dueCount clients hits table := by
    rw [List.length_map]
    simpa [dueCount] using perm.length_eq
  refine ⟨after, selected, raised, inTable, perm, ?_, ?_⟩
  · intro unbroken
    have allows : ((⟨table, after, redis, raisesAt⟩ : Session Domains RedisKeys).spend
        (dueCount clients hits table + 2)).Allows
          ((selected.map fun row => redisSet row.1 row.2.jsonDumps).length + 1) := by
      rw [length]
      apply (Session.allows_spend enough).mpr
      intro left member
      have late := unbroken left member
      omega
    obtain ⟨final, finished, committed, store⟩ := run_writeAll_commit allows
    rw [outcome, run, setRows, finished]
    exact Prod.ext (Prod.ext committed store) rfl
  · intro left raises early
    have reached := reaches left raises
    subst raises
    have short : left - (dueCount clients hits table + 2) ≤
        (selected.map fun row => redisSet row.1 row.2.jsonDumps).length := by
      rw [length]
      omega
    have remaining : ((⟨table, after, redis, some left⟩ : Session Domains RedisKeys).spend
        (dueCount clients hits table + 2)).remaining =
          some (left - (dueCount clients hits table + 2)) := rfl
    obtain ⟨final, finished, committed, store⟩ := run_writeAll_commit_of_le remaining short
    rw [outcome, run, setRows, finished, setAll, List.map_take]
    exact Prod.ext (Prod.ext committed store) rfl

/-- An update that completes has raised the due rows. -/
theorem raised_of_completed
    (completed : (outcome (ttlsUpdate clients hits first second) raisesAt table redis).2 = true) :
    Raised clients hits table.entries table
      (outcome (ttlsUpdate clients hits first second) raisesAt table redis).1.1 := by
  by_cases ready : (∀ row ∈ dueRows clients hits table.entries, FitsTtl clients hits row) ∧
      ∀ left ∈ raisesAt, dueCount clients hits table + 2 ≤ left
  · obtain ⟨after, selected, raised, -, -, whole, interrupted⟩ :=
      outcome_ttlsUpdate first second redis ready.1 ready.2
    by_cases unbroken : ∀ left ∈ raisesAt, 2 * dueCount clients hits table + 3 ≤ left
    · rw [whole unbroken]
      exact raised
    · obtain ⟨left, raises, early⟩ := exists_lt_of_not_allows unbroken
      rw [interrupted left raises (by omega)] at completed
      cases completed
  · rw [outcome_ttlsUpdate_blocked ready] at completed
    cases completed

end TtlsUpdate

/-! ## What one command can do to the mirror -/

/-- The command changes one of the stores only: it deletes a row, is interrupted
between its write to Redis and the commit of the row it adds, or is interrupted
once it has written a raised `ttl` to Redis. -/
def ChangesOneStore (stores : Stores) (invocation : Invocation) : Prop :=
  match invocation.command with
  | .ttlsUpdate hits _ _ =>
      (∀ row ∈ dueRows clientCount hits stores.1.entries, FitsTtl clientCount hits row) ∧
        ∃ left, invocation.raisesAt = some left ∧ dueCount clientCount hits stores.1 + 3 ≤ left ∧
          left ≤ 2 * dueCount clientCount hits stores.1 + 2
  | .domainAdd args =>
      (insertIntoDomains categories applications args stores.1).isSome = true ∧
        invocation.raisesAt = some 2
  | .domainDel domain => domain ∈ stores.1 ∧ ∀ left ∈ invocation.raisesAt, 2 ≤ left
  | .dbDumpToRedis _ => False

section Step

variable {table : Domains} {redis : RedisKeys} {raisesAt : Option Nat}

theorem domainAdd_mirrors_iff (mirrors : Mirrors (table, redis)) (args : DomainArgs) :
    Mirrors (manage categories applications (table, redis) ⟨.domainAdd args, raisesAt⟩).1 ↔
      ¬ ChangesOneStore categories applications (table, redis) ⟨.domainAdd args, raisesAt⟩ := by
  simp only [manage, Command.script, dbDomainAdd, outcome_execute_write_commit, ChangesOneStore]
  cases inserted : insertIntoDomains categories applications args table with
  | none => simpa using mirrors
  | some after =>
      obtain ⟨record, absent, rfl, written⟩ :=
        insertIntoDomains_eq_some categories applications inserted
      rw [← written]
      rcases raisesAt with _ | _ | _ | _ | left
      · simpa using mirrors.insert record
      · simpa using mirrors
      · simpa using mirrors
      · simpa using not_mirrors_set absent record.jsonDumps
      · simpa using mirrors.insert record

theorem domainDel_mirrors_iff (mirrors : Mirrors (table, redis)) (domain : Bytes) :
    Mirrors (manage categories applications (table, redis) ⟨.domainDel domain, raisesAt⟩).1 ↔
      ¬ ChangesOneStore categories applications (table, redis) ⟨.domainDel domain, raisesAt⟩ := by
  simp only [manage, Command.script, dbDomainDel, outcome_execute_commit, ChangesOneStore]
  have erased : Mirrors (table.erase domain, redis) ↔ domain ∉ table :=
    ⟨fun after present => mirrors.not_erase present after, mirrors.erase⟩
  rcases raisesAt with _ | _ | _ | left
  · simpa using erased
  · simpa using mirrors
  · simpa using mirrors
  · simpa using erased

theorem outcome_dbDumpToRedis (order : RowOrder) (raisesAt : Option Nat) (table : Domains)
    (redis : RedisKeys) :
    ∃ written : List DomainRow, (∀ row ∈ written, table.lookup row.1 = some row.2) ∧
      (outcome (dbDumpToRedis order) raisesAt table redis).1 = (table, setAll written redis) := by
  set start : Session Domains RedisKeys := ⟨table, table, redis, raisesAt⟩ with startEq
  have inTable : ∀ row ∈ order.arrange table.entries, table.lookup row.1 = some row.2 :=
    arrange_inTable
  by_cases reads : start.Allows 1
  · obtain ⟨value, after, count, finished, committed, store⟩ := exists_run_writeAll
      ((order.arrange table.entries).map fun row => redisSet row.1 row.2.jsonDumps)
      (start.spend 1)
    refine ⟨(order.arrange table.entries).take count,
      fun row member => inTable row (List.mem_of_mem_take member), ?_⟩
    have run : (dbDumpToRedis order).run start = (value, after) :=
      (run_bind_of_some (run_query _ reads)).trans finished
    rw [outcome, ← startEq, run, setAll, List.map_take]
    exact Prod.ext committed store
  · refine ⟨[], by simp, ?_⟩
    rw [outcome, ← startEq, dbDumpToRedis, run_bind_of_none (run_query_of_not reads)]
    rfl

/-- What an interrupted update has written to Redis is not in the table. -/
theorem not_mirrors_raised {hits : Bytes → Nat} {after : Domains} {selected : List DomainRow}
    {count : Nat} (raised : Raised clientCount hits table.entries table after)
    (inTable : ∀ row ∈ selected, after.lookup row.1 = some row.2)
    (perm : (selected.map Sigma.fst).Perm ((dueRows clientCount hits table.entries).map Sigma.fst))
    (due : 0 < selected.length) (written : 0 < count) :
    ¬ Mirrors (table, setAll (selected.take count) redis) := by
  intro mirrors
  obtain ⟨row, rest, rfl⟩ := List.exists_cons_of_length_pos due
  have headDue : row.1 ∈ (dueRows clientCount hits table.entries).map Sigma.fst :=
    perm.mem_iff.mp List.mem_cons_self
  obtain ⟨before, beforeDue, same⟩ := List.mem_map.mp headDue
  obtain ⟨record, found, ttl⟩ := raised.due before beforeDue
  obtain ⟨inEntries, positive⟩ := (mem_dueRows clientCount hits).mp beforeDue
  have stays : table.lookup row.1 = some before.2 := by
    rw [← same]
    exact AList.mem_lookup_iff.mpr inEntries
  have headWritten : row.1 ∈ ((row :: rest).take count).map Sigma.fst := by
    rw [List.take_cons written]
    exact List.mem_cons_self
  have atRow : setAll ((row :: rest).take count) redis row.1 =
      (table.lookup row.1).map StoredRecord.jsonDumps := mirrors row.1
  rw [setAll_of_mem (fun other member => inTable other (List.mem_of_mem_take member)) headWritten,
    ← same, found, same, stays] at atRow
  have sameTtl := StoredRecord.jsonDumps_ttl (Option.some.inj atRow)
  omega

theorem ttlsUpdate_mirrors_iff (mirrors : Mirrors (table, redis)) (hits : Bytes → Nat)
    (first second : RowOrder) :
    Mirrors (manage categories applications (table, redis)
        ⟨.ttlsUpdate hits first second, raisesAt⟩).1 ↔
      ¬ ChangesOneStore categories applications (table, redis)
        ⟨.ttlsUpdate hits first second, raisesAt⟩ := by
  simp only [manage, Command.script, ChangesOneStore]
  by_cases ready : (∀ row ∈ dueRows clientCount hits table.entries, FitsTtl clientCount hits row) ∧
      ∀ left ∈ raisesAt, dueCount clientCount hits table + 2 ≤ left
  · obtain ⟨fits, reaches⟩ := ready
    obtain ⟨after, selected, raised, inTable, perm, whole, interrupted⟩ :=
      outcome_ttlsUpdate first second redis fits reaches
    by_cases unbroken : ∀ left ∈ raisesAt, 2 * dueCount clientCount hits table + 3 ≤ left
    · rw [whole unbroken]
      apply iff_of_true
      · intro domain
        by_cases member : domain ∈ selected.map Sigma.fst
        · exact setAll_of_mem inTable member
        · have kept := raised.others domain fun due => member (perm.mem_iff.mpr due)
          show setAll selected redis domain = (after.lookup domain).map StoredRecord.jsonDumps
          rw [setAll_of_not_mem member, kept]
          exact mirrors domain
      · rintro ⟨-, left, raises, -, early⟩
        have late := unbroken left raises
        omega
    · obtain ⟨left, raises, early⟩ := exists_lt_of_not_allows unbroken
      have reached := reaches left raises
      rw [interrupted left raises (by omega)]
      have length : selected.length = dueCount clientCount hits table := by
        simpa [dueCount] using perm.length_eq
      by_cases none : left = dueCount clientCount hits table + 2
      · rw [none, Nat.sub_self, List.take_zero]
        apply iff_of_true
        · exact mirrors
        · rintro ⟨-, other, otherRaises, late, -⟩
          rw [raises, Option.some.injEq] at otherRaises
          omega
      · apply iff_of_false
        · exact not_mirrors_raised raised inTable perm (by omega) (by omega)
        · exact not_not.mpr ⟨fits, left, raises, by omega, by omega⟩
  · rw [outcome_ttlsUpdate_blocked ready]
    apply iff_of_true
    · exact mirrors
    · rintro ⟨fits, left, raises, late, -⟩
      refine ready ⟨fits, fun other member => ?_⟩
      rw [raises, Option.mem_def, Option.some.injEq] at member
      omega

/-- A command keeps the mirror exactly where it does not change one store only. -/
theorem manage_mirrors_iff {stores : Stores} (mirrors : Mirrors stores)
    (invocation : Invocation) :
    Mirrors (manage categories applications stores invocation).1 ↔
      ¬ ChangesOneStore categories applications stores invocation := by
  obtain ⟨table, redis⟩ := stores
  obtain ⟨command, raisesAt⟩ := invocation
  cases command with
  | ttlsUpdate hits first second =>
      exact ttlsUpdate_mirrors_iff categories applications mirrors hits first second
  | domainAdd args => exact domainAdd_mirrors_iff categories applications mirrors args
  | domainDel domain => exact domainDel_mirrors_iff categories applications mirrors domain
  | dbDumpToRedis order =>
      obtain ⟨written, inTable, after⟩ :=
        outcome_dbDumpToRedis order raisesAt table redis
      simp only [manage, Command.script, after]
      exact iff_of_true (mirrors.setAll inTable) id

end Step

/-! ## Runs -/

/-- In every run Redis mirrors the table after every command exactly where no
command changes one of the stores only. -/
theorem mirrors_throughout_iff (invocations : List Invocation) :
    (∀ earlier, earlier <+: invocations → Mirrors (storesAfter categories applications earlier)) ↔
      MachineRun.EveryStep (manage categories applications) noDomains
        (fun stores invocation => ¬ ChangesOneStore categories applications stores invocation)
        invocations := by
  apply MachineRun.throughout_iff _ _ mirrors_noDomains
  intro earlier invocation mirrors _
  have after : storesAfter categories applications (earlier ++ [invocation]) =
      (manage categories applications (storesAfter categories applications earlier)
        invocation).1 := by
    simp [storesAfter]
  rw [after]
  exact manage_mirrors_iff categories applications mirrors invocation

/-- `domain-add b.c`. -/
def addOfBc : Invocation := ⟨.domainAdd ⟨[98, 46, 99], 300, 0, 0, []⟩, none⟩

/-- A domain that is added and deleted keeps its key in Redis. -/
theorem not_mirrors_deleted :
    ¬ ∀ earlier, earlier <+: [addOfBc, ⟨.domainDel [98, 46, 99], none⟩] →
      Mirrors (storesAfter [0] [0] earlier) := by
  intro throughout
  have added : Mirrors (storesAfter [0] [0] [addOfBc]) := throughout _ ⟨[_], rfl⟩
  have deleted := throughout _ List.prefix_rfl
  refine (manage_mirrors_iff [0] [0] added ⟨.domainDel [98, 46, 99], none⟩).mp deleted ⟨?_, ?_⟩
  · decide
  · simp

end Uwebfilter
