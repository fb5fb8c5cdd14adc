import Uwebfilter.DomainLookupView
import Uwebfilter.Simulation
import Uwebfilter.UthashRefinement

/-!
# The domain cache in its hash table

`domain_lookup.c` with the macros of `uthash.h` as they are: a slot of the arena
carries the handle of the table, and the table may end the daemon for want of
memory.  Every run of lookups is one of those on the list of the cached slots,
for some choice among the entries of one name.
-/

namespace Uwebfilter

open CStrings Simulation

/-- What ends a lookup: a fault of its own, or a macro that stops. -/
inductive Halt
  | fault (fault : Fault)
  | stop (stop : Uthash.Stop)
  deriving DecidableEq, Repr

/-- The static variables, with the table of the cached slots. -/
structure HashedCache where
  arena : Nat → DomainInfo
  arenaPtr : Nat → Nat
  arenaIndex : Int
  cache : Uthash.Hash Nat
  lastgc : Int

/-- A call of `domain_lookup`, and what it reads outside the cache: `malloc`
answers for the table in each insertion. -/
structure HashedCall where
  now : Int
  fetch : Option Json
  insertion : Nat → Insertion
  malloc : Nat → Nat → Bool
  response : DomainResponse
  domain : Bytes

namespace HashedCache

def initial : HashedCache where
  arena := fun _ => .cleared
  arenaPtr := id
  arenaIndex := 0
  cache := ⟨⟨fun _ => none, fun _ => none⟩, ⟨fun _ => none, fun _ => none⟩, fun _ => [],
    fun _ => 0, none⟩
  lastgc := 0

section Arena

variable (size : Nat)

def domainInfoAllocate (state : HashedCache) : Except Halt (Option Nat × HashedCache) :=
  if ¬ state.arenaIndex ≥ 0 then .error (.fault .assertion)
  else if state.arenaIndex ≥ size then .ok (none, state)
  else
    let slot := state.arenaPtr state.arenaIndex.toNat
    .ok (some slot,
      { state with
        arenaIndex := state.arenaIndex + 1
        arena := fun place => if place = slot then .cleared else state.arena place
        cache := state.cache.clearCell slot })

def domainInfoDeallocate (state : HashedCache) (slot : Nat) : Except Halt HashedCache :=
  if ¬ state.arenaIndex > 0 then .error (.fault .assertion)
  else
    let arenaIndex := state.arenaIndex - 1
    .ok
      { state with
        arenaIndex := arenaIndex
        arenaPtr := fun place => if place = arenaIndex.toNat then slot else state.arenaPtr place }

def domainInfoCreate (state : HashedCache) (info : DomainInfo) :
    Except Halt (Option Nat × HashedCache) := do
  match ← domainInfoAllocate size state with
  | (none, state) => .ok (none, state)
  | (some slot, state) =>
      if info.domain.length ≥ domainLength then .error (.fault .overrun)
      else
        .ok (some slot,
          { state with arena := fun place => if place = slot then info else state.arena place })

end Arena

section Cache

-- the hash function of the table, and the size of the arena, which no list of
-- the table exceeds
variable (hashFcn : Bytes → Nat) (size : Nat)

/-- `HASH_FIND_STR` -/
def hashFindStr (state : HashedCache) (ptr : Bytes) : Except Halt (Option Nat) :=
  (Uthash.hashFind hashFcn (size + 1) ptr state.cache).mapError .stop

/-- The loop of `domain_info_cache_lookup` behind its first search. -/
def lookupTails (state : HashedCache) : Bytes → Except Halt (Option Nat)
  | [] => .ok none
  | letter :: rest =>
      if letter = dot then do
        match ← hashFindStr hashFcn size state rest with
        | some slot => .ok (some slot)
        | none => lookupTails state rest
      else lookupTails state rest

def domainInfoCacheLookup (state : HashedCache) (domain : Bytes) : Except Halt (Option Nat) := do
  match ← hashFindStr hashFcn size state domain with
  | some slot => .ok (some slot)
  | none => lookupTails hashFcn size state domain

def domainInfoCacheDelete (state : HashedCache) (slot : Nat) : Except Halt HashedCache := do
  let cache ← (Uthash.hashDelete slot state.cache).mapError Halt.stop
  .ok { state with cache := cache }

/-- The body of the collector's loop. -/
def gcVisit (insertion : Insertion) (slot : Nat) (state : HashedCache) :
    Except Halt HashedCache :=
  if gcRemoves insertion state.arena slot then do
    let state ← domainInfoCacheDelete state slot
    domainInfoDeallocate state slot
  else .ok state

/-- The `HASH_ITER` loop of `domain_info_cache_insert`. -/
def domainInfoCacheGc (insertion : Insertion) (state : HashedCache) : Except Halt HashedCache :=
  let head := state.cache.root.map Uthash.Root.head
  IntrusiveList.iterate (fun state => state.cache.app.next) (gcVisit insertion)
    (.stop .outOfFuel) (size + 1) head (head.bind state.cache.app.next) state

/-- `HASH_ADD_STR` -/
def hashAddStr (malloc : Nat → Bool) (state : HashedCache) (slot : Nat) :
    Except Halt HashedCache := do
  let cache ← (Uthash.hashAdd hashFcn malloc (size + 1) slot (state.arena slot).domain
    state.cache).mapError Halt.stop
  .ok { state with cache := cache }

def domainInfoCacheInsert (malloc : Nat → Bool) (insertion : Insertion) (state : HashedCache)
    (slot : Nat) : Except Halt HashedCache := do
  let state ←
    if state.lastgc < insertion.now - domainInfoCacheGcinterval then do
      let state ← domainInfoCacheGc size insertion state
      .ok { state with lastgc := insertion.now }
    else .ok state
  hashAddStr hashFcn size malloc state slot

/-- Create an entry and insert it, or leave it where the arena is exhausted. -/
def domainInfoStore (malloc : Nat → Bool) (insertion : Insertion) (state : HashedCache)
    (info : DomainInfo) : Except Halt HashedCache := do
  match ← domainInfoCreate size state info with
  | (none, state) => .ok state
  | (some slot, state) => domainInfoCacheInsert hashFcn size malloc insertion state slot

def domainInfoStoreAll (malloc : Nat → Nat → Bool) (insertion : Nat → Insertion)
    (info : Bytes → DomainInfo) : List Bytes → HashedCache → Except Halt HashedCache
  | [], state => .ok state
  | domain :: rest, state => do
      let state ← domainInfoStore hashFcn size (malloc 0) (insertion 0) state (info domain)
      domainInfoStoreAll (fun index => malloc (index + 1)) (fun index => insertion (index + 1))
        info rest state

/-- `domain_lookup` behind the cache hit. -/
def domainLookupFetch (jsonC : JsonC) (call : HashedCall) (state : HashedCache) :
    Except Halt HashedCache := do
  let (names, info) ← (storedEntries jsonC call.now call.domain
    (call.fetch.bind Json.nonNull)).mapError Halt.fault
  domainInfoStoreAll hashFcn size call.malloc call.insertion info names state

def domainLookup (jsonC : JsonC) (call : HashedCall) (state : HashedCache) :
    Except Halt (LookupResult × HashedCache) := do
  match ← domainInfoCacheLookup hashFcn size state call.domain with
  | some slot =>
      let info := state.arena slot
      if info.expire > call.now then
        .ok (⟨⟨info.category, info.application⟩, false⟩, state)
      else do
        let state ← domainInfoCacheDelete state slot
        let state ← domainInfoDeallocate state slot
        let state ← domainLookupFetch hashFcn size jsonC call state
        .ok (⟨call.response, true⟩, state)
  | none => do
      let state ← domainLookupFetch hashFcn size jsonC call state
      .ok (⟨call.response, true⟩, state)

def lookupStep (jsonC : JsonC) (state : HashedCache) (call : HashedCall) :
    Except Halt (HashedCache × LookupResult) :=
  (domainLookup hashFcn size jsonC call state).map Prod.swap

/-- The static variables and the results after a sequence of calls. -/
def lookupRun (jsonC : JsonC) (calls : List HashedCall) :
    Except Halt (HashedCache × List LookupResult) :=
  MachineRun.run (lookupStep hashFcn size jsonC) .initial calls

end Cache

/-! ## The list of the cached slots -/

/-- The same variables over a list of slots. -/
def listed (state : HashedCache) (cells : List Nat) : DomainInfoCache where
  arena := state.arena
  arenaPtr := state.arenaPtr
  arenaIndex := state.arenaIndex
  cache := cells
  lastgc := state.lastgc

/-- The table is that of the cached slots, each under its name, and these and
some slots more are those in use. -/
structure Caches (hashFcn : Bytes → Nat) (size : Nat) (pending : List Nat) (state : HashedCache)
    (cells : List Nat) : Prop where
  represents : Uthash.Represents hashFcn state.cache cells
  keyed : ∀ slot ∈ cells, state.cache.key slot = (state.arena slot).domain
  owns : SlotFreeList.Owns size state.arenaPtr state.arenaIndex (cells ++ pending)

/-- A state and the one over a list it stands for. -/
def Lists (hashFcn : Bytes → Nat) (size : Nat) (pending : List Nat) (state : HashedCache)
    (list : DomainInfoCache) : Prop :=
  ∃ cells, Caches hashFcn size pending state cells ∧ list = state.listed cells

/-- The one failure of the table: no memory. -/
def OutOfMemory (halt : Halt) : Prop := halt = .stop .outOfMemory

/-- A call on the list: it reads what the call on the table reads, and reaches
entries of the names as some choice tells. -/
def Chooses (call : HashedCall) (other : LookupCall) : Prop :=
  ∃ choice, other = ⟨⟨call.now, choice, call.fetch, call.insertion⟩, call.response, call.domain⟩

section Refinement

variable {hashFcn : Bytes → Nat} {size : Nat} {pending cells : List Nat} {state : HashedCache}

theorem Caches.length_le (caches : Caches hashFcn size pending state cells) :
    cells.length ≤ size := by
  have all := caches.owns.held_le
  rw [List.length_append] at all
  omega

theorem domainInfoCreate_refines (caches : Caches hashFcn size [] state cells)
    (info : DomainInfo) :
    Refines OutOfMemory Halt.fault
      (fun first second => first.1 = second.1 ∧
        Lists hashFcn size first.1.toList first.2 second.2)
      (domainInfoCreate size state info)
      (Uwebfilter.domainInfoCreate size (state.listed cells) info) := by
  obtain ⟨represents, keyed, owns⟩ := caches
  have count := owns.count
  rw [List.append_nil] at owns count
  have listed : SlotFreeList.Owns size (state.listed cells).arenaPtr (state.listed cells).arenaIndex
    cells := owns
  by_cases full : size ≤ cells.length
  · have fixed : domainInfoCreate size state info = .ok (none, state) := by
      simp only [domainInfoCreate, domainInfoAllocate]
      rw [if_neg (by omega), if_pos (by omega)]
      rfl
    rw [fixed, domainInfoCreate_of_full listed full]
    refine .returned ⟨rfl, cells, ⟨represents, keyed, ?_⟩, rfl⟩
    rwa [Option.toList_none, List.append_nil]
  · have room : state.arenaIndex < size := by omega
    have fresh := owns.fresh room
    rw [domainInfoCreate_of_room listed (by omega)]
    simp only [domainInfoCreate, domainInfoAllocate]
    rw [if_neg (by omega), if_neg (by omega)]
    simp only [bind, Except.bind]
    split
    · exact .failed Fault.overrun
    · have other : ∀ slot ∈ cells, slot ≠ state.arenaPtr state.arenaIndex.toNat := by
        rintro slot member rfl
        exact fresh member
      refine .returned ⟨rfl, cells, ⟨represents.clearCell fresh, ?_, owns.take room⟩, ?_⟩
      · intro slot member
        have ne := other slot member
        simp only [Uthash.Hash.clearCell, Function.update_of_ne ne, if_neg ne]
        exact keyed slot member
      · have arena : (fun place => if place = state.arenaPtr state.arenaIndex.toNat then info
            else if place = state.arenaPtr state.arenaIndex.toNat then DomainInfo.cleared
              else state.arena place) =
            fun place => if place = state.arenaPtr state.arenaIndex.toNat then info
              else state.arena place := by
          funext place
          by_cases same : place = state.arenaPtr state.arenaIndex.toNat <;> simp [same]
        simp only [arena]
        rfl

/-- Deleting a cached slot and giving it back. -/
theorem delete_spec (caches : Caches hashFcn size pending state cells) {slot : Nat}
    (member : slot ∈ cells) :
    ∃ between after, domainInfoCacheDelete state slot = .ok between ∧
      domainInfoDeallocate between slot = .ok after ∧
      Caches hashFcn size pending after (cells.erase slot) ∧
      Uwebfilter.domainInfoDeallocate (Uwebfilter.domainInfoCacheDelete (state.listed cells) slot)
        slot = .ok (after.listed (cells.erase slot)) := by
  obtain ⟨represents, keyed, owns⟩ := caches
  obtain ⟨cache, deleted, deletedRepresents, keys⟩ := Uthash.hashDelete_spec represents member
  have count := owns.count
  have positive : 0 < cells.length := List.length_pos_of_mem member
  rw [List.length_append] at count
  have given := owns.give (List.mem_append_left pending member)
  rw [List.erase_append_left _ member] at given
  refine ⟨{ state with cache := cache }, _, ?_, if_neg (by simp; omega), ⟨deletedRepresents, ?_,
    given⟩, if_neg (by simp [Uwebfilter.domainInfoCacheDelete, listed]; omega)⟩
  · simp [domainInfoCacheDelete, deleted, Except.mapError, bind, Except.bind]
  · intro other inside
    rw [keys]
    exact keyed other (List.mem_of_mem_erase inside)

/-- The collector's loop removes what it removes from the list. -/
theorem domainInfoCacheGc_lists (caches : Caches hashFcn size pending state cells)
    (insertion : Insertion) :
    ∃ after rest, domainInfoCacheGc size insertion state = .ok after ∧
      Caches hashFcn size pending after rest ∧
      Uwebfilter.domainInfoCacheGc insertion cells (state.listed cells) =
        .ok (after.listed rest) := by
  -- what is left to visit is the end of the list, and the list's loop is as far
  let Inv (rest : List Nat) (reached : HashedCache) : Prop :=
    ∃ passed, Caches hashFcn size pending reached (passed ++ rest) ∧
      Uwebfilter.domainInfoCacheGc insertion cells (state.listed cells) =
        Uwebfilter.domainInfoCacheGc insertion rest (reached.listed (passed ++ rest))
  have onward : ∀ el rest reached, Inv (el :: rest) reached →
      reached.cache.app.next el = rest.head? := by
    rintro el rest reached ⟨passed, held, -⟩
    exact held.represents.linked.neighbours.2
  have preserved : ∀ el rest reached, Inv (el :: rest) reached →
      ∃ after, gcVisit insertion el reached = .ok after ∧ Inv rest after := by
    rintro el rest reached ⟨passed, held, same⟩
    cases removes : gcRemoves insertion reached.arena el with
    | true =>
        obtain ⟨between, after, deleted, deallocated, left, listDeleted⟩ :=
          delete_spec held (show el ∈ passed ++ el :: rest by simp)
        have absent : el ∉ passed := by
          have nodup := held.represents.linked.nodup
          rw [List.nodup_append] at nodup
          exact fun inside => nodup.2.2 el inside el List.mem_cons_self rfl
        rw [List.erase_append_right _ absent, List.erase_cons_head] at left listDeleted
        refine ⟨after, ?_, passed, left, ?_⟩
        · simp [gcVisit, removes, deleted, deallocated, bind, Except.bind]
        · rw [same, Uwebfilter.domainInfoCacheGc, if_pos (by exact removes), listDeleted]
          rfl
    | false =>
        refine ⟨reached, by simp [gcVisit, removes], passed ++ [el], ?_, ?_⟩
        · rwa [List.append_assoc]
        · rw [same, Uwebfilter.domainInfoCacheGc, if_neg (by exact Bool.eq_false_iff.mp removes),
            List.append_assoc]
          rfl
  have enough : cells.length ≤ size + 1 := by
    have bound := caches.length_le
    omega
  obtain ⟨after, looped, passed, left, ran⟩ := IntrusiveList.iterate_spec
    (Halt.stop .outOfFuel) Inv onward preserved
    (show Inv cells state from ⟨[], caches, rfl⟩) enough
  rw [List.append_nil] at left ran
  refine ⟨after, passed, ?_, left, ran⟩
  rw [domainInfoCacheGc, caches.represents.head]
  exact looped

/-- A pending slot goes to the end of the list. -/
theorem hashAddStr_refines {slot : Nat} (caches : Caches hashFcn size [slot] state cells)
    {malloc : Nat → Bool} (limit : malloc 68719476736 = false) :
    Refines OutOfMemory Halt.fault (Lists hashFcn size [])
      (hashAddStr hashFcn size malloc state slot)
      (.ok { state.listed cells with cache := cells ++ [slot] }) := by
  obtain ⟨represents, keyed, owns⟩ := caches
  have bound := owns.held_le
  rw [List.length_append, List.length_singleton] at bound
  have fresh : slot ∉ cells := by
    have nodup := owns.held_nodup
    rw [List.nodup_append] at nodup
    exact fun inside => nodup.2.2 slot inside slot (List.mem_singleton_self slot) rfl
  rcases Uthash.hashAdd_spec represents limit (show cells.length < size + 1 by omega) fresh
    (state.arena slot).domain with failed | ⟨after, added, representsAfter, keys⟩
  · rw [hashAddStr, failed]
    exact .gaveUp (show OutOfMemory (.stop .outOfMemory) from rfl) _
  · rw [hashAddStr, added]
    refine .returned ⟨cells ++ [slot], ⟨representsAfter, ?_, ?_⟩, rfl⟩
    · intro other member
      rw [keys]
      rcases List.mem_append.mp member with old | new
      · have ne : other ≠ slot := by
          rintro rfl
          exact fresh old
        rw [Function.update_of_ne ne]
        exact keyed other old
      · obtain rfl := List.mem_singleton.mp new
        rw [Function.update_self]
    · rw [List.append_nil]
      exact owns

theorem domainInfoCacheInsert_refines {slot : Nat}
    (caches : Caches hashFcn size [slot] state cells) {malloc : Nat → Bool}
    (limit : malloc 68719476736 = false) (insertion : Insertion) :
    Refines OutOfMemory Halt.fault (Lists hashFcn size [])
      (domainInfoCacheInsert hashFcn size malloc insertion state slot)
      (Uwebfilter.domainInfoCacheInsert insertion (state.listed cells) slot) := by
  by_cases due : state.lastgc < insertion.now - domainInfoCacheGcinterval
  · obtain ⟨after, rest, ran, left, listRan⟩ := domainInfoCacheGc_lists caches insertion
    have swept : Caches hashFcn size [slot] { after with lastgc := insertion.now } rest :=
      ⟨left.represents, left.keyed, left.owns⟩
    have listDue : (state.listed cells).lastgc < insertion.now - domainInfoCacheGcinterval := due
    have listGc : Uwebfilter.domainInfoCacheGc insertion (state.listed cells).cache
        (state.listed cells) = .ok (after.listed rest) := listRan
    simp only [domainInfoCacheInsert, Uwebfilter.domainInfoCacheInsert, if_pos due,
      if_pos listDue, ran, listGc, bind, Except.bind]
    exact hashAddStr_refines swept limit
  · have listIdle : ¬ (state.listed cells).lastgc <
        insertion.now - domainInfoCacheGcinterval := due
    simp only [domainInfoCacheInsert, Uwebfilter.domainInfoCacheInsert, if_neg due,
      if_neg listIdle, bind, Except.bind]
    exact hashAddStr_refines caches limit

theorem domainInfoStore_refines (caches : Caches hashFcn size [] state cells)
    {malloc : Nat → Bool} (limit : malloc 68719476736 = false) (insertion : Insertion)
    (info : DomainInfo) :
    Refines OutOfMemory Halt.fault (Lists hashFcn size [])
      (domainInfoStore hashFcn size malloc insertion state info)
      (Uwebfilter.domainInfoStore size insertion (state.listed cells) info) := by
  refine (domainInfoCreate_refines caches info).bind ?_
  rintro ⟨_ | slot, reached⟩ ⟨_, list⟩ ⟨rfl, rest, held, rfl⟩
  · exact .returned ⟨rest, held, rfl⟩
  · exact domainInfoCacheInsert_refines held limit insertion

theorem domainInfoStoreAll_refines {malloc : Nat → Nat → Bool}
    (limit : ∀ index, malloc index 68719476736 = false) (insertion : Nat → Insertion)
    (info : Bytes → DomainInfo) (names : List Bytes)
    (caches : Caches hashFcn size [] state cells) :
    Refines OutOfMemory Halt.fault (Lists hashFcn size [])
      (domainInfoStoreAll hashFcn size malloc insertion info names state)
      (Uwebfilter.domainInfoStoreAll size insertion info names (state.listed cells)) := by
  induction names generalizing state cells malloc insertion with
  | nil => exact .returned ⟨cells, caches, rfl⟩
  | cons name names ih =>
      refine (domainInfoStore_refines caches (limit 0) (insertion 0) (info name)).bind ?_
      rintro reached _ ⟨rest, held, rfl⟩
      exact ih (fun index => limit (index + 1)) _ held

theorem refines_mapError {α : Type} (outcome : Except Fault α) :
    Refines OutOfMemory Halt.fault Eq (outcome.mapError Halt.fault) outcome := by
  cases outcome with
  | error fault => exact .failed fault
  | ok value => exact .returned rfl

theorem domainLookupFetch_refines (caches : Caches hashFcn size [] state cells)
    {call : HashedCall} (limit : ∀ index, call.malloc index 68719476736 = false)
    (jsonC : JsonC) (choice : Bytes → Nat) :
    Refines OutOfMemory Halt.fault (Lists hashFcn size [])
      (domainLookupFetch hashFcn size jsonC call state)
      (Uwebfilter.domainLookupFetch jsonC size
        ⟨call.now, choice, call.fetch, call.insertion⟩ (state.listed cells) call.domain) := by
  refine (refines_mapError _).bind ?_
  rintro ⟨names, info⟩ _ rfl
  exact domainInfoStoreAll_refines limit call.insertion info names caches

/-- The loop over the suffixes of a name, where every search returns. -/
theorem domainInfoCacheLookup_walk {find : Bytes → Option Nat}
    (finds : ∀ ptr, hashFindStr hashFcn size state ptr = .ok (find ptr)) (domain : Bytes) :
    domainInfoCacheLookup hashFcn size state domain = .ok (DottedSuffix.walk dot find domain) := by
  have tails (name : Bytes) : lookupTails hashFcn size state name =
      .ok (DottedSuffix.walkTails dot find name) := by
    induction name with
    | nil => rfl
    | cons letter rest ih =>
        rw [lookupTails, DottedSuffix.walkTails, finds, ih]
        by_cases separator : letter = dot
        · rw [if_pos separator, if_pos separator]
          cases find rest <;> rfl
        · rw [if_neg separator, if_neg separator]
  rw [domainInfoCacheLookup, finds, tails, DottedSuffix.walk]
  cases find domain <;> rfl

/-- A search in the table is one in the list, by some choice. -/
theorem domainInfoCacheLookup_lists (caches : Caches hashFcn size pending state cells)
    (domain : Bytes) :
    ∃ choice, domainInfoCacheLookup hashFcn size state domain =
      .ok (Uwebfilter.domainInfoCacheLookup choice (state.listed cells) domain) := by
  have bound := caches.length_le
  have searches (ptr : Bytes) : ∃ choice, hashFindStr hashFcn size state ptr =
      .ok ((HashTable.find choice (fun slot => decide ((state.arena slot).domain = ptr)) cells).map
        Prod.snd) := by
    obtain ⟨choice, found⟩ := Uthash.hashFind_spec caches.represents
      (show cells.length ≤ size + 1 by omega) ptr
    have named : ∀ slot ∈ cells, decide (state.cache.key slot = ptr) =
        decide ((state.arena slot).domain = ptr) := by
      intro slot member
      rw [caches.keyed slot member]
    refine ⟨choice, ?_⟩
    rw [hashFindStr, found, HashTable.find_congr choice named]
    rfl
  choose choice finds using searches
  exact ⟨choice, domainInfoCacheLookup_walk finds domain⟩

/-- What follows a miss. -/
theorem fetchResult_refines (jsonC : JsonC) (caches : Caches hashFcn size [] state cells)
    {call : HashedCall} (limit : ∀ index, call.malloc index 68719476736 = false)
    (choice : Bytes → Nat) :
    Refines OutOfMemory Halt.fault
      (fun first second => first.1 = second.1 ∧ Lists hashFcn size [] first.2 second.2)
      (do
        let state ← domainLookupFetch hashFcn size jsonC call state
        .ok (⟨call.response, true⟩, state))
      (do
        let state ← Uwebfilter.domainLookupFetch jsonC size
          ⟨call.now, choice, call.fetch, call.insertion⟩ (state.listed cells) call.domain
        .ok ((⟨call.response, true⟩ : LookupResult), state)) :=
  (domainLookupFetch_refines caches limit jsonC choice).bind fun _ _ lists =>
    .returned ⟨rfl, lists⟩

/-- A call on the table refines one on the list. -/
theorem domainLookup_refines (jsonC : JsonC) (caches : Caches hashFcn size [] state cells)
    {call : HashedCall} (limit : ∀ index, call.malloc index 68719476736 = false) :
    ∃ choice, Refines OutOfMemory Halt.fault
      (fun first second => first.1 = second.1 ∧ Lists hashFcn size [] first.2 second.2)
      (domainLookup hashFcn size jsonC call state)
      (Uwebfilter.domainLookup jsonC size ⟨call.now, choice, call.fetch, call.insertion⟩
        (state.listed cells) call.response call.domain) := by
  obtain ⟨choice, looked⟩ := domainInfoCacheLookup_lists caches call.domain
  refine ⟨choice, ?_⟩
  rw [domainLookup, looked, Uwebfilter.domainLookup]
  cases found : Uwebfilter.domainInfoCacheLookup choice (state.listed cells) call.domain with
  | none => exact fetchResult_refines jsonC caches limit choice
  | some slot =>
      by_cases fresh : (state.arena slot).expire > call.now
      · have listFresh : ((state.listed cells).arena slot).expire > call.now := fresh
        simp only [bind, Except.bind, if_pos fresh, if_pos listFresh]
        have lists : Lists hashFcn size [] state (state.listed cells) := ⟨cells, caches, rfl⟩
        exact .returned (And.intro rfl lists)
      · have cached := (domainInfoCacheLookup_nearest found).1
        have member : slot ∈ cells := (DomainInfoCache.mem_view.mp cached).1
        obtain ⟨between, after, deleted, deallocated, left, listDeleted⟩ :=
          delete_spec caches member
        have listStale : ¬ ((state.listed cells).arena slot).expire > call.now := fresh
        simp only [bind, Except.bind, if_neg fresh, if_neg listStale, deleted, deallocated,
          listDeleted]
        exact fetchResult_refines jsonC left limit choice

theorem caches_initial (hashFcn : Bytes → Nat) (size : Nat) :
    Caches hashFcn size [] .initial [] where
  represents := Uthash.represents_empty hashFcn _ _ _ _
  keyed _ member := absurd member List.not_mem_nil
  owns := SlotFreeList.owns_initial size

/-- Whatever the hash function, a run of lookups on the table ends for want of
memory, or returns and fails as the run of the same lookups on the list of the
cached slots, for some choices among entries of one name. -/
theorem lookupRun_refines (jsonC : JsonC) (hashFcn : Bytes → Nat) (size : Nat)
    (calls : List HashedCall)
    (limit : ∀ call ∈ calls, ∀ index, call.malloc index 68719476736 = false) :
    ∃ others, List.Forall₂ Chooses calls others ∧
      Refines OutOfMemory Halt.fault
        (fun first second => Lists hashFcn size [] first.1 second.1 ∧ first.2 = second.2)
        (lookupRun hashFcn size jsonC calls) (Uwebfilter.lookupRun jsonC size others) := by
  apply Refines.run (Lists hashFcn size []) Chooses
  · intro call
    exact ⟨_, fun _ => 0, rfl⟩
  · rintro state _ call ⟨cells, caches, rfl⟩ limit
    obtain ⟨choice, refines⟩ := domainLookup_refines jsonC caches limit
    refine ⟨_, ⟨choice, rfl⟩, refines.map ?_⟩
    rintro _ _ ⟨result, lists⟩
    exact ⟨lists, result⟩
  · exact limit
  · exact ⟨[], caches_initial hashFcn size, rfl⟩

end Refinement

/-- A lookup of `a.b.c` whose server lists `b.c` and `c`, where no block of 64
GiB is to be had. -/
def listingCall (now : Int) : HashedCall where
  now := now
  fetch := some listingReply
  insertion := fun _ => ⟨now, fun _ => 1⟩
  malloc := fun _ bytes => decide (bytes < 68719476736)
  response := ⟨0, 0⟩
  domain := ascii ['a', '.', 'b', '.', 'c']

theorem lookupRun_refines_twoCalls :
    ∃ others, List.Forall₂ Chooses [listingCall 1700000000, listingCall 1700001000] others ∧
      Refines OutOfMemory Halt.fault
        (fun first second => Lists Uthash.hashJen domainInfoArenaSize [] first.1 second.1 ∧
          first.2 = second.2)
        (lookupRun Uthash.hashJen domainInfoArenaSize plainJsonC
          [listingCall 1700000000, listingCall 1700001000])
        (Uwebfilter.lookupRun plainJsonC domainInfoArenaSize others) := by
  apply lookupRun_refines
  intro call member _
  rcases List.mem_pair.mp member with rfl | rfl <;> rfl

end HashedCache

end Uwebfilter
