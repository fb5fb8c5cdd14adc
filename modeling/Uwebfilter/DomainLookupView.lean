import Uwebfilter.DomainArena
import Uwebfilter.MachineRun

/-!
# Lookups on the view of the domain cache

`domain_lookup` on a state of the arena invariant returns, keeps the invariant
and is a lookup on the state's view: it answers from a nearest entry, or stores
the server's reply.
-/

namespace Uwebfilter

open CStrings

namespace DomainView

/-- An entry whose name is the longest among those a domain is under. -/
def Nearest (domain : Bytes) (entry : Nat × DomainInfo) (view : DomainView) : Prop :=
  entry ∈ view.entries ∧ DottedSuffix.Under dot domain entry.2.domain ∧
    ∀ other ∈ view.entries, DottedSuffix.Under dot domain other.2.domain →
      other.2.domain.length ≤ entry.2.domain.length

/-- What is left of the view when a lookup of a domain at some time reaches the
server: everything, or all but an expired entry. -/
inductive Misses (now : Int) (domain : Bytes) (before : DomainView) : DomainView → Prop
  | absent (none : ∀ entry ∈ before.entries,
      ¬ DottedSuffix.Under dot domain entry.2.domain) : Misses now domain before before
  | expired (entry : Nat × DomainInfo) (nearest : before.Nearest domain entry)
      (old : entry.2.expire ≤ now) : Misses now domain before (before.remove entry.1)

theorem Misses.subset {now : Int} {domain : Bytes} {before kept : DomainView}
    (misses : before.Misses now domain kept) : kept.entries ⊆ before.entries := by
  cases misses with
  | absent => exact List.Subset.refl _
  | expired => exact List.filter_sublist.subset

/-- A lookup on the view: its result and the view it leaves. -/
inductive Looks (jsonC : JsonC) (size : Nat) (surroundings : Surroundings)
    (response : DomainResponse) (domain : Bytes) (before : DomainView) :
    LookupResult → DomainView → Prop
  | hit (entry : Nat × DomainInfo) (nearest : before.Nearest domain entry)
      (fresh : surroundings.now < entry.2.expire) :
      Looks jsonC size surroundings response domain before
        ⟨⟨entry.2.category, entry.2.application⟩, false⟩ before
  | fetch (kept after : DomainView) (names : List Bytes) (info : Bytes → DomainInfo)
      (misses : before.Misses surroundings.now domain kept)
      (entries : storedEntries jsonC surroundings.now domain
        (surroundings.fetch.bind Json.nonNull) = .ok (names, info))
      (stores : StoresAll size info surroundings.insertion names kept after) :
      Looks jsonC size surroundings response domain before ⟨response, true⟩ after

end DomainView

section Lookups

variable {size : Nat} {state after : DomainInfoCache} {choice : Bytes → Nat} {domain : Bytes}

theorem domainInfoCacheLookup_eq_none :
    domainInfoCacheLookup choice state domain = none ↔
      ∀ entry ∈ state.view.entries,
        ¬ DottedSuffix.Under dot domain entry.2.domain := by
  rw [domainInfoCacheLookup, DottedSuffix.walk_eq_none]
  constructor
  · rintro nothing ⟨slot, info⟩ member under
    obtain ⟨cached, rfl⟩ := DomainInfoCache.mem_view.mp member
    have absent := nothing _ under
    rw [Option.map_eq_none_iff, HashTable.find_eq_none] at absent
    simpa using absent slot cached
  · intro none ancestor under
    rw [Option.map_eq_none_iff, HashTable.find_eq_none]
    intro slot cached
    by_contra same
    have named : (state.arena slot).domain = ancestor := by simpa using same
    exact none _ (DomainInfoCache.mem_view.mpr ⟨cached, rfl⟩) (named ▸ under)

theorem domainInfoCacheLookup_nearest {slot : Nat}
    (found : domainInfoCacheLookup choice state domain = some slot) :
    state.view.Nearest domain (slot, state.arena slot) := by
  obtain ⟨ancestor, under, here, longer⟩ := DottedSuffix.walk_eq_some found
  obtain ⟨⟨position, other⟩, located, rfl⟩ := Option.map_eq_some_iff.mp here
  obtain ⟨present, named⟩ := HashTable.find_eq_some located
  have name : (state.arena other).domain = ancestor := by simpa using named
  refine ⟨DomainInfoCache.mem_view.mpr ⟨List.mem_of_getElem? present, rfl⟩, name ▸ under, ?_⟩
  rintro ⟨otherSlot, info⟩ member otherUnder
  obtain ⟨cached, rfl⟩ := DomainInfoCache.mem_view.mp member
  by_contra exceeds
  have absent := longer _ otherUnder (by rw [← name]; exact Nat.not_le.mp exceeds)
  rw [Option.map_eq_none_iff, HashTable.find_eq_none] at absent
  simpa using absent otherSlot cached

/-- Any of the nearest entries may be the one that is found. -/
theorem exists_domainInfoCacheLookup {entry : Nat × DomainInfo}
    (nearest : state.view.Nearest domain entry) :
    ∃ choice, domainInfoCacheLookup choice state domain = some entry.1 := by
  obtain ⟨slot, info⟩ := entry
  obtain ⟨member, under, longest⟩ := nearest
  obtain ⟨cached, rfl⟩ := DomainInfoCache.mem_view.mp member
  obtain ⟨pick, position, found⟩ := HashTable.exists_find
    (fun other => decide ((state.arena other).domain = (state.arena slot).domain)) cached (by simp)
  refine ⟨fun _ => pick, ?_⟩
  cases result : domainInfoCacheLookup (fun _ => pick) state domain with
  | none => exact absurd under (domainInfoCacheLookup_eq_none.mp result _ member)
  | some reached =>
      have reachedNearest := domainInfoCacheLookup_nearest result
      have sameLength := Nat.le_antisymm (longest _ reachedNearest.1 reachedNearest.2.1)
        (reachedNearest.2.2 _ member under)
      have sameName := reachedNearest.2.1.eq_of_length under sameLength
      obtain ⟨ancestor, -, here, -⟩ := DottedSuffix.walk_eq_some result
      obtain ⟨⟨reachedPosition, other⟩, located, same⟩ := Option.map_eq_some_iff.mp here
      obtain rfl : other = reached := same
      have name : (state.arena other).domain = ancestor := by
        simpa using (HashTable.find_eq_some located).2
      rw [← name, sameName, found, Option.some.injEq, Prod.mk.injEq] at located
      rw [located.2]

theorem domainInfoDelete_spec (invariant : ArenaInvariant size state) {slot : Nat}
    (member : slot ∈ state.cache) :
    ∃ freed, domainInfoDeallocate (domainInfoCacheDelete state slot) slot = .ok freed ∧
      ArenaInvariant size freed ∧ freed.view = state.view.remove slot := by
  obtain ⟨freed, deallocated, cache, arena, lastgc, owns⟩ :=
    domainInfoDeallocate_of_held (domainInfoCacheDelete state slot) invariant member
  refine ⟨freed, deallocated, ?_, ?_⟩
  · rw [ArenaInvariant, cache]
    exact owns
  · have erased : state.cache.erase slot = state.cache.filter fun other => other != slot :=
      invariant.held_nodup.erase_eq_filter slot
    have kept : (state.cache.map fun slot => (slot, state.arena slot)).filter
        (fun entry => decide (entry.1 ≠ slot)) =
        (state.cache.erase slot).map fun slot => (slot, state.arena slot) := by
      rw [erased, List.filter_map]
      congr 1
      apply List.filter_congr
      intro other _
      by_cases same : other = slot <;> simp [same]
    simp only [DomainInfoCache.view, DomainView.remove, cache, arena, lastgc]
    rw [kept]
    rfl

section Fetch

variable {jsonC : JsonC} {surroundings : Surroundings}

theorem domainLookupFetch_stores (invariant : ArenaInvariant size state)
    (fetched : domainLookupFetch jsonC size surroundings state domain = .ok after) :
    ∃ names info, storedEntries jsonC surroundings.now domain
        (surroundings.fetch.bind Json.nonNull) = .ok (names, info) ∧
      ArenaInvariant size after ∧
      DomainView.StoresAll size info surroundings.insertion names state.view after.view := by
  rw [domainLookupFetch, except_bind_eq_ok] at fetched
  obtain ⟨⟨names, info⟩, entries, stored⟩ := fetched
  obtain ⟨afterInvariant, stores⟩ := domainInfoStoreAll_stores names invariant stored
  exact ⟨names, info, entries, afterInvariant, stores⟩

/-- `domain_lookup` on a state of the invariant is a lookup on its view. -/
theorem domainLookup_looks {response : DomainResponse} {result : LookupResult}
    (invariant : ArenaInvariant size state)
    (returned : domainLookup jsonC size surroundings state response domain =
      .ok (result, after)) :
    ArenaInvariant size after ∧
      DomainView.Looks jsonC size surroundings response domain state.view result after.view := by
  unfold domainLookup at returned
  cases found : domainInfoCacheLookup surroundings.choice state domain with
  | none =>
      simp only [found, except_bind_eq_ok, Except.ok.injEq, Prod.mk.injEq] at returned
      obtain ⟨_, fetched, rfl, rfl⟩ := returned
      obtain ⟨names, info, entries, afterInvariant, stores⟩ :=
        domainLookupFetch_stores invariant fetched
      exact ⟨afterInvariant,
        .fetch _ _ names info (.absent (domainInfoCacheLookup_eq_none.mp found)) entries stores⟩
  | some slot =>
      have nearest := domainInfoCacheLookup_nearest found
      simp only [found] at returned
      by_cases fresh : (state.arena slot).expire > surroundings.now
      · rw [if_pos fresh, Except.ok.injEq, Prod.mk.injEq] at returned
        obtain ⟨rfl, rfl⟩ := returned
        exact ⟨invariant, .hit _ nearest fresh⟩
      · obtain ⟨freed, deleted, freedInvariant, view⟩ :=
          domainInfoDelete_spec invariant (DomainInfoCache.mem_view.mp nearest.1).1
        simp only [if_neg fresh, deleted, except_bind_eq_ok, Except.ok.injEq,
          Prod.mk.injEq] at returned
        obtain ⟨_, rfl, _, fetched, rfl, rfl⟩ := returned
        obtain ⟨names, info, entries, afterInvariant, stores⟩ :=
          domainLookupFetch_stores freedInvariant fetched
        rw [view] at stores
        exact ⟨afterInvariant,
          .fetch _ _ names info (.expired _ nearest (by simpa using fresh)) entries stores⟩

/-- A reply whose `cache_domains`, if there are any, form an array of names that
fit their buffer. -/
def WellFormedReply (jsonC : JsonC) (obj : Json) : Prop :=
  ∀ cacheDomains, (parseReply jsonC obj).cacheDomains = some cacheDomains →
    ∃ elements, cacheDomains.arrayElements = some elements ∧
      ∀ name ∈ cacheDomainNames jsonC elements, name.length < domainLength

theorem wellFormedReply_of_array {obj : Json} {elements : List Json}
    (listed : (parseReply jsonC obj).cacheDomains = some (.array elements))
    (short : ∀ name ∈ cacheDomainNames jsonC elements, name.length < domainLength) :
    WellFormedReply jsonC obj := by
  intro cacheDomains same
  rw [listed, Option.some.injEq] at same
  subst same
  exact ⟨elements, rfl, short⟩

/-- The names a call handles fit their buffer. -/
def ShortNames (jsonC : JsonC) (surroundings : Surroundings) (domain : Bytes) : Prop :=
  domain.length < domainLength ∧
    ∀ obj, surroundings.fetch.bind Json.nonNull = some obj → WellFormedReply jsonC obj

theorem storedEntries_of_shortNames (names : ShortNames jsonC surroundings domain) :
    ∃ stored info, storedEntries jsonC surroundings.now domain
        (surroundings.fetch.bind Json.nonNull) = .ok (stored, info) ∧
      ∀ name ∈ stored, (info name).domain.length < domainLength := by
  obtain ⟨domainShort, replyShort⟩ := names
  cases fetched : surroundings.fetch.bind Json.nonNull with
  | none => exact ⟨_, _, rfl, by simpa [defaultInfo] using domainShort⟩
  | some obj =>
      have wellFormed := replyShort obj fetched
      cases listed : (parseReply jsonC obj).cacheDomains with
      | none =>
          refine ⟨[domain], _, storedEntries_of_absent jsonC listed, ?_⟩
          simpa [replyInfo] using domainShort
      | some cacheDomains =>
          obtain ⟨elements, array, short⟩ := wellFormed cacheDomains listed
          exact ⟨_, _, storedEntries_of_array jsonC listed array, short⟩

theorem domainLookupFetch_returns (invariant : ArenaInvariant size state)
    (names : ShortNames jsonC surroundings domain) :
    ∃ after, domainLookupFetch jsonC size surroundings state domain = .ok after := by
  obtain ⟨stored, info, entries, short⟩ := storedEntries_of_shortNames names
  obtain ⟨after, returns⟩ :=
    domainInfoStoreAll_returns stored short invariant surroundings.insertion
  refine ⟨after, ?_⟩
  rw [domainLookupFetch, except_bind_eq_ok]
  exact ⟨_, entries, returns⟩

theorem domainLookup_returns (invariant : ArenaInvariant size state)
    (names : ShortNames jsonC surroundings domain) (response : DomainResponse) :
    ∃ result after, domainLookup jsonC size surroundings state response domain =
      .ok (result, after) := by
  unfold domainLookup
  cases found : domainInfoCacheLookup surroundings.choice state domain with
  | none =>
      obtain ⟨after, fetched⟩ := domainLookupFetch_returns invariant names
      exact ⟨⟨response, true⟩, after, by simp [fetched, bind, Except.bind]⟩
  | some slot =>
      by_cases fresh : (state.arena slot).expire > surroundings.now
      · exact ⟨_, state, if_pos fresh⟩
      · have nearest := domainInfoCacheLookup_nearest found
        obtain ⟨freed, deleted, freedInvariant, -⟩ :=
          domainInfoDelete_spec invariant (DomainInfoCache.mem_view.mp nearest.1).1
        obtain ⟨after, fetched⟩ := domainLookupFetch_returns freedInvariant names
        exact ⟨⟨response, true⟩, after, by simp [fresh, deleted, fetched, bind, Except.bind]⟩

end Fetch

end Lookups

/-! ## Runs -/

structure LookupCall where
  surroundings : Surroundings
  response : DomainResponse
  domain : Bytes

def lookupStep (jsonC : JsonC) (size : Nat) (state : DomainInfoCache) (call : LookupCall) :
    Except Fault (DomainInfoCache × LookupResult) :=
  (domainLookup jsonC size call.surroundings state call.response call.domain).map Prod.swap

/-- The static variables and the results after a sequence of calls. -/
def lookupRun (jsonC : JsonC) (size : Nat) (calls : List LookupCall) :
    Except Fault (DomainInfoCache × List LookupResult) :=
  MachineRun.run (lookupStep jsonC size) .initial calls

theorem lookupStep_returns {jsonC : JsonC} {size : Nat} {state : DomainInfoCache}
    {call : LookupCall} (invariant : ArenaInvariant size state)
    (names : ShortNames jsonC call.surroundings call.domain) :
    ∃ after result, lookupStep jsonC size state call = .ok (after, result) ∧
      domainLookup jsonC size call.surroundings state call.response call.domain =
        .ok (result, after) := by
  obtain ⟨result, after, returned⟩ := domainLookup_returns invariant names call.response
  refine ⟨after, result, ?_, returned⟩
  rw [lookupStep, returned]
  rfl

theorem exists_lookupRun (jsonC : JsonC) (size : Nat) (calls : List LookupCall)
    (names : ∀ call ∈ calls, ShortNames jsonC call.surroundings call.domain) :
    ∃ reached results, lookupRun jsonC size calls = .ok (reached, results) ∧
      ArenaInvariant size reached := by
  apply MachineRun.run_invariant (lookupStep jsonC size) .initial
    (fun _ state => ArenaInvariant size state)
    (fun call => ShortNames jsonC call.surroundings call.domain) (arenaInvariant_initial size) _
    calls names
  intro _ state call invariant short
  obtain ⟨after, result, stepped, returned⟩ := lookupStep_returns invariant short
  exact ⟨after, result, stepped, (domainLookup_looks invariant returned).1⟩

/-- Over every run no assertion fails, the arena invariant holds afterwards, and
the next slot handed out is not one of a cached entry. -/
theorem lookupRun_arenaInvariant (jsonC : JsonC) (size : Nat) (calls : List LookupCall)
    (names : ∀ call ∈ calls, ShortNames jsonC call.surroundings call.domain) :
    ∃ reached results, lookupRun jsonC size calls = .ok (reached, results) ∧
      reached.arenaIndex = reached.cache.length ∧
      ((List.range' reached.arenaIndex.toNat (size - reached.arenaIndex.toNat)).map
        reached.arenaPtr ++ reached.cache).Perm (List.range size) ∧
      ∀ slot taken, domainInfoAllocate size reached = .ok (some slot, taken) →
        slot ∉ reached.cache := by
  obtain ⟨reached, results, ran, invariant⟩ := exists_lookupRun jsonC size calls names
  refine ⟨reached, results, ran, invariant.count, invariant.slots, ?_⟩
  intro slot taken allocated
  have count := invariant.count
  unfold domainInfoAllocate at allocated
  split at allocated
  · cases allocated
  split at allocated
  · cases allocated
  · rename_i room
    cases allocated
    exact invariant.fresh (by omega)

/-- A reply of category 7 and application 9 that lists `b.c` and `c`. -/
def listingReply : Json :=
  .object
    [(ascii ['c', 'a', 't', 'e', 'g', 'o', 'r', 'y'], .int 7),
      (ascii ['a', 'p', 'p', 'l', 'i', 'c', 'a', 't', 'i', 'o', 'n'], .int 9),
      (ascii ['t', 't', 'l'], .int 300),
      (ascii ['c', 'a', 'c', 'h', 'e', '_', 'd', 'o', 'm', 'a', 'i', 'n', 's'],
        .array [.string (ascii ['b', '.', 'c']), .null, .string (ascii ['c'])])]

/-- A call for `a.b.c` at some time, with a given reply. -/
def callForAbc (now : Int) (fetch : Option Json) : LookupCall where
  surroundings :=
    { now := now
      choice := fun _ => 0
      fetch := fetch
      insertion := fun _ => ⟨now, fun _ => 1⟩ }
  response := ⟨0, 0⟩
  domain := ascii ['a', '.', 'b', '.', 'c']

theorem shortNames_callForAbc {now : Int} :
    ShortNames plainJsonC (callForAbc now (some listingReply)).surroundings
      (callForAbc now none).domain := by
  have short : (ascii ['a', '.', 'b', '.', 'c']).length < domainLength := by decide
  refine ⟨short, fun obj fetched => ?_⟩
  obtain rfl := Option.some.inj fetched
  exact wellFormedReply_of_array rfl (by decide)

theorem lookupRun_arenaInvariant_twoCalls :
    ∃ reached results,
      lookupRun plainJsonC domainInfoArenaSize
          [callForAbc 1700000000 (some listingReply), callForAbc 1700001000 none] =
        .ok (reached, results) ∧ reached.arenaIndex = reached.cache.length := by
  obtain ⟨reached, results, ran, count, -⟩ :=
    lookupRun_arenaInvariant plainJsonC domainInfoArenaSize
      [callForAbc 1700000000 (some listingReply), callForAbc 1700001000 none] (by
        intro call member
        rcases List.mem_pair.mp member with rfl | rfl
        · exact shortNames_callForAbc
        · exact ⟨by decide, fun obj fetched => by cases fetched⟩)
  exact ⟨reached, results, ran, count⟩

end Uwebfilter
