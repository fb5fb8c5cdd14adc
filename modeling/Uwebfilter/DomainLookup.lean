import Uwebfilter.CapturedPacket
import Uwebfilter.DottedSuffix
import Uwebfilter.HashTable
import Uwebfilter.JsonTree

/-!
# Domain lookup

`domain_lookup.c`: the arena of `domain_info_t` slots with its free list, the
hash table of cached slots, and `domain_lookup` itself.  A slot is its index in
the arena, the table is the list of its slots in application order.
-/

namespace Uwebfilter

open CStrings

/-- What ends the daemon or takes it out of its memory: a failed assertion of
its own or of json-c, a `NULL` string, a name that does not fit its buffer. -/
inductive Fault
  | assertion
  | null
  | overrun
  deriving DecidableEq, Repr

structure DomainInfo where
  domain : Bytes
  application : Int
  category : Int
  expire : Int
  deriving DecidableEq, Repr

namespace DomainInfo

def cleared : DomainInfo := ⟨[], 0, 0, 0⟩

end DomainInfo

structure DomainResponse where
  category : Int
  application : Int
  deriving DecidableEq, Repr

def domainInfoArenaSize : Nat := 65536

def domainInfoCacheGcinterval : Int := 5 * 60
def domainInfoCacheDefaultTtl : Int := 1 * 60
def domainInfoCacheDefaultCategory : Int := 0
def domainInfoCacheDefaultApplication : Int := 0

/-- The static variables: the arena with its free list, and the cache. -/
structure DomainInfoCache where
  arena : Nat → DomainInfo
  arenaPtr : Nat → Nat
  arenaIndex : Int
  cache : List Nat
  lastgc : Int

namespace DomainInfoCache

def initial : DomainInfoCache := ⟨fun _ => .cleared, id, 0, [], 0⟩

end DomainInfoCache

/-- What one insertion reads outside the cache: the clock, and `rand` as it
answers for a slot the collector asks about. -/
structure Insertion where
  now : Int
  rand : Nat → Nat

/-- What one lookup reads outside the cache: the clock, the entry `HASH_FIND`
reaches among those with a name, what the server's reply parses to, and what
the insertions of the reply read. -/
structure Surroundings where
  now : Int
  choice : Bytes → Nat
  fetch : Option Json
  insertion : Nat → Insertion

/-- The value a `time_t` holds after an assignment. -/
def timeT (value : Int) : Int := (value + 9223372036854775808) % 18446744073709551616 -
  9223372036854775808

theorem timeT_of_bounds {value : Int} (above : -9223372036854775808 ≤ value)
    (below : value < 9223372036854775808) : timeT value = value := by
  unfold timeT
  omega

theorem timeT_le {now seconds : Int} (clock : timeT now = now) (positive : 0 ≤ seconds) :
    timeT (now + seconds) ≤ now + seconds := by
  unfold timeT at *
  omega

section Arena

variable (size : Nat)

/-- `domain_info_allocate` from an arena of some size. -/
def domainInfoAllocate (state : DomainInfoCache) :
    Except Fault (Option Nat × DomainInfoCache) :=
  if ¬ state.arenaIndex ≥ 0 then .error .assertion
  else if state.arenaIndex ≥ size then .ok (none, state)
  else
    let slot := state.arenaPtr state.arenaIndex.toNat
    .ok (some slot,
      { state with
        arenaIndex := state.arenaIndex + 1
        arena := fun place => if place = slot then .cleared else state.arena place })

def domainInfoDeallocate (state : DomainInfoCache) (slot : Nat) :
    Except Fault DomainInfoCache :=
  if ¬ state.arenaIndex > 0 then .error .assertion
  else
    let arenaIndex := state.arenaIndex - 1
    .ok
      { state with
        arenaIndex := arenaIndex
        arenaPtr := fun place => if place = arenaIndex.toNat then slot else state.arenaPtr place }

/-- `domain_info_create`, whose copy has no bound of its own. -/
def domainInfoCreate (state : DomainInfoCache) (info : DomainInfo) :
    Except Fault (Option Nat × DomainInfoCache) := do
  match ← domainInfoAllocate size state with
  | (none, state) => .ok (none, state)
  | (some slot, state) =>
      if info.domain.length ≥ domainLength then .error .overrun
      else
        .ok (some slot,
          { state with arena := fun place => if place = slot then info else state.arena place })

end Arena

def domainInfoCacheLookup (choice : Bytes → Nat) (state : DomainInfoCache) (domain : Bytes) :
    Option Nat :=
  DottedSuffix.walk dot
    (fun ptr =>
      (HashTable.find (choice ptr) (fun slot => decide ((state.arena slot).domain = ptr))
        state.cache).map Prod.snd)
    domain

def domainInfoCacheDelete (state : DomainInfoCache) (slot : Nat) : DomainInfoCache :=
  { state with cache := state.cache.erase slot }

/-- The condition under which the collector removes a slot: `rand() < 0.2`
holds of zero only. -/
def gcRemoves (insertion : Insertion) (arena : Nat → DomainInfo) (slot : Nat) : Bool :=
  decide ((arena slot).expire < insertion.now ∨ insertion.rand slot * 5 < 1)

/-- The `HASH_ITER` loop of `domain_info_cache_insert`. -/
def domainInfoCacheGc (insertion : Insertion) :
    List Nat → DomainInfoCache → Except Fault DomainInfoCache
  | [], state => .ok state
  | slot :: rest, state =>
      if gcRemoves insertion state.arena slot then do
        let state ← domainInfoDeallocate (domainInfoCacheDelete state slot) slot
        domainInfoCacheGc insertion rest state
      else domainInfoCacheGc insertion rest state

def domainInfoCacheInsert (insertion : Insertion) (state : DomainInfoCache) (slot : Nat) :
    Except Fault DomainInfoCache := do
  let state ←
    if state.lastgc < insertion.now - domainInfoCacheGcinterval then do
      let state ← domainInfoCacheGc insertion state.cache state
      .ok { state with lastgc := insertion.now }
    else .ok state
  .ok { state with cache := state.cache ++ [slot] }

/-- Create an entry and insert it, or leave it where the arena is exhausted. -/
def domainInfoStore (size : Nat) (insertion : Insertion) (state : DomainInfoCache)
    (info : DomainInfo) : Except Fault DomainInfoCache := do
  match ← domainInfoCreate size state info with
  | (none, state) => .ok state
  | (some slot, state) => domainInfoCacheInsert insertion state slot

section Lookup

variable (jsonC : JsonC)

/-- The fields of a reply as `domain_lookup` reads them, `application` only
where there is a `category`. -/
structure Reply where
  category : Int
  application : Int
  ttl : Int
  cacheDomains : Option Json

def parseReply (obj : Json) : Reply :=
  let category := obj.objectGet (ascii ['c', 'a', 't', 'e', 'g', 'o', 'r', 'y'])
  let application := obj.objectGet
    (ascii ['a', 'p', 'p', 'l', 'i', 'c', 'a', 't', 'i', 'o', 'n'])
  let ttl := obj.objectGet (ascii ['t', 't', 'l'])
  { category := (category.map jsonC.getInt).getD 0
    application := if category.isSome then (application.map jsonC.getInt).getD 0 else 0
    ttl := match ttl with
      | none => 0
      | some ttl =>
          let seconds := jsonC.getInt64 ttl
          if seconds = 0 then domainInfoCacheDefaultTtl else seconds
    cacheDomains := obj.objectGet
      (ascii ['c', 'a', 'c', 'h', 'e', '_', 'd', 'o', 'm', 'a', 'i', 'n', 's']) }

/-- The names among the elements of `cache_domains`. -/
def cacheDomainNames (elements : List Json) : List Bytes :=
  elements.filterMap fun element => element.nonNull.map jsonC.getString

/-- The loop over `cache_domains`, each turn with an insertion of its own. -/
def domainInfoStoreAll (size : Nat) (insertion : Nat → Insertion) (info : Bytes → DomainInfo) :
    List Bytes → DomainInfoCache → Except Fault DomainInfoCache
  | [], state => .ok state
  | domain :: rest, state => do
      let state ← domainInfoStore size (insertion 0) state (info domain)
      domainInfoStoreAll size (fun index => insertion (index + 1)) info rest state

/-- The entry stored for a name where the server gives no answer. -/
def defaultInfo (now : Int) (name : Bytes) : DomainInfo where
  domain := name
  application := domainInfoCacheDefaultApplication
  category := domainInfoCacheDefaultCategory
  expire := timeT (now + domainInfoCacheDefaultTtl)

/-- The entry stored for a name where the server answers. -/
def replyInfo (now : Int) (reply : Reply) (name : Bytes) : DomainInfo where
  domain := name
  application := reply.application
  category := reply.category
  expire := timeT (now + reply.ttl)

/-- The names a lookup stores for what the server's reply parses to, with the
entry stored for each. -/
def storedEntries (now : Int) (domain : Bytes) :
    Option Json → Except Fault (List Bytes × (Bytes → DomainInfo))
  | none => .ok ([domain], defaultInfo now)
  | some obj =>
      let reply := parseReply jsonC obj
      match reply.cacheDomains with
      | none => .ok ([domain], replyInfo now reply)
      | some cacheDomains =>
          match cacheDomains.arrayElements with
          | none => .error .assertion
          | some elements => .ok (cacheDomainNames jsonC elements, replyInfo now reply)

theorem storedEntries_of_absent {now : Int} {domain : Bytes} {obj : Json}
    (absent : (parseReply jsonC obj).cacheDomains = none) :
    storedEntries jsonC now domain (some obj) =
      .ok ([domain], replyInfo now (parseReply jsonC obj)) := by
  simp only [storedEntries, absent]

theorem storedEntries_of_array {now : Int} {domain : Bytes} {obj cacheDomains : Json}
    {elements : List Json} (listed : (parseReply jsonC obj).cacheDomains = some cacheDomains)
    (array : cacheDomains.arrayElements = some elements) :
    storedEntries jsonC now domain (some obj) =
      .ok (cacheDomainNames jsonC elements, replyInfo now (parseReply jsonC obj)) := by
  simp only [storedEntries, listed, array]

/-- What `domain_lookup` leaves: the response, and whether the server was asked. -/
structure LookupResult where
  response : DomainResponse
  fetched : Bool
  deriving DecidableEq, Repr

/-- `domain_lookup` behind the cache hit. -/
def domainLookupFetch (size : Nat) (surroundings : Surroundings) (state : DomainInfoCache)
    (domain : Bytes) : Except Fault DomainInfoCache := do
  let (names, info) ← storedEntries jsonC surroundings.now domain
    (surroundings.fetch.bind Json.nonNull)
  domainInfoStoreAll size surroundings.insertion info names state

def domainLookup (size : Nat) (surroundings : Surroundings) (state : DomainInfoCache)
    (response : DomainResponse) (domain : Bytes) :
    Except Fault (LookupResult × DomainInfoCache) :=
  match domainInfoCacheLookup surroundings.choice state domain with
  | some slot =>
      let info := state.arena slot
      if info.expire > surroundings.now then
        .ok (⟨⟨info.category, info.application⟩, false⟩, state)
      else do
        let state ← domainInfoDeallocate (domainInfoCacheDelete state slot) slot
        let state ← domainLookupFetch jsonC size surroundings state domain
        .ok (⟨response, true⟩, state)
  | none => do
      let state ← domainLookupFetch jsonC size surroundings state domain
      .ok (⟨response, true⟩, state)

end Lookup

end Uwebfilter
