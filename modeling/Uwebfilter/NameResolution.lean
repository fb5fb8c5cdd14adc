import Uwebfilter.CacheTransparency

/-!
# Resolving a name

The daemon walks along the separators of a name with pointers into it, the
server splits the name and joins what is left of it.  Both look at the same
strings in the same order, so a cache and a store of the same records answer
with the record of the same key.  The server decodes the name first, which
changes one that is not UTF-8.
-/

namespace Uwebfilter

open CStrings QueryServer

/-- The strings `domain_info_cache_lookup` hands to `HASH_FIND_STR`. -/
def domainInfoCacheProbes (choice : Bytes → Nat) (state : DomainInfoCache) (domain : Bytes) :
    List Bytes :=
  (DottedSuffix.walkProbes dot
    (fun ptr =>
      (HashTable.find (choice ptr) (fun slot => decide ((state.arena slot).domain = ptr))
        state.cache).map Prod.snd)
    domain).2

/-- The entries of a cache are the records of a store. -/
structure HoldsRecords (redis : Redis) (state : DomainInfoCache) : Prop where
  recorded : ∀ slot ∈ state.cache, ∃ record,
    redis.record (state.arena slot).domain = some record ∧ (state.arena slot).pair = record.pair
  cached : ∀ key record, redis.record key = some record →
    ∃ slot ∈ state.cache, (state.arena slot).domain = key

/-- The longest of the keys that a domain is under. -/
structure LongestKey (redis : Redis) (domain key : Bytes) (record : StoredRecord) : Prop where
  stored : redis.record key = some record
  under : DottedSuffix.Under dot domain key
  longest : ∀ other found, redis.record other = some found →
    DottedSuffix.Under dot domain other → other.length ≤ key.length

section Resolution

variable {redis : Redis} {state : DomainInfoCache} {domain : Bytes} {choice : Bytes → Nat}

theorem longestKey_of_nearestRecord (answers : redis.answers = true) {record : StoredRecord}
    (nearest : nearestRecord redis domain = some record) :
    ∃ key, LongestKey redis domain key record := by
  rw [nearestRecord, if_pos answers] at nearest
  obtain ⟨key, under, stored, longer⟩ := DottedSuffix.walk_eq_some nearest
  refine ⟨key, stored, under, fun other found otherStored otherUnder => ?_⟩
  by_contra exceeds
  rw [longer other otherUnder (Nat.not_le.mp exceeds)] at otherStored
  cases otherStored

/-- The probes are those of the search that answers the lookup. -/
theorem walkProbes_lookup (choice : Bytes → Nat) (state : DomainInfoCache) (domain : Bytes) :
    (DottedSuffix.walkProbes dot
      (fun ptr =>
        (HashTable.find (choice ptr) (fun slot => decide ((state.arena slot).domain = ptr))
          state.cache).map Prod.snd)
      domain).1 = domainInfoCacheLookup choice state domain :=
  DottedSuffix.walkProbes_fst domain

theorem domainInfoCacheProbes_eq (nothing : domainInfoCacheLookup choice state domain = none) :
    domainInfoCacheProbes choice state domain = getAllSubdomains domain := by
  rw [getAllSubdomains_eq]
  exact DottedSuffix.walkProbes_snd nothing

/-- The cache answers with the entry of the longest key. -/
theorem lookup_longestKey (holds : HoldsRecords redis state) {key : Bytes}
    {record : StoredRecord} (longest : LongestKey redis domain key record) :
    ∃ slot, domainInfoCacheLookup choice state domain = some slot ∧
      (state.arena slot).domain = key ∧ (state.arena slot).pair = record.pair := by
  obtain ⟨place, cached, named⟩ := holds.cached key record longest.stored
  have placed : (place, state.arena place) ∈ state.view.entries :=
    DomainInfoCache.mem_view.mpr ⟨cached, rfl⟩
  cases found : domainInfoCacheLookup choice state domain with
  | none =>
      apply absurd longest.under
      rw [← named]
      exact domainInfoCacheLookup_eq_none.mp found _ placed
  | some slot =>
      obtain ⟨member, under, longestEntry⟩ := domainInfoCacheLookup_nearest found
      obtain ⟨other, stored, pair⟩ := holds.recorded slot (DomainInfoCache.mem_view.mp member).1
      have shorter := longest.longest _ other stored under
      have longer := longestEntry _ placed (by rw [named]; exact longest.under)
      simp only [named] at longer
      have same := under.eq_of_length longest.under (Nat.le_antisymm shorter longer)
      simp only at same
      rw [same, longest.stored, Option.some.injEq] at stored
      exact ⟨slot, rfl, same, by rw [pair, stored]⟩

theorem lookup_none (holds : HoldsRecords redis state)
    (absent : ∀ key, DottedSuffix.Under dot domain key → redis.record key = none) :
    domainInfoCacheLookup choice state domain = none := by
  rw [domainInfoCacheLookup_eq_none]
  rintro ⟨slot, info⟩ member under
  obtain ⟨cached, rfl⟩ := DomainInfoCache.mem_view.mp member
  obtain ⟨record, stored, -⟩ := holds.recorded slot cached
  rw [absent _ under] at stored
  cases stored

end Resolution

/-- The server answers about a domain with the record the cache finds, that of
the longest key the domain is under, or with zeros where there is none. -/
def ResolveAlike (choice : Bytes → Nat) (redis : Redis) (state : DomainInfoCache)
    (domain : Bytes) : Prop :=
  (∃ key record, LongestKey redis domain key record ∧
    queryPost redis (domainRequestToJsonObject domain) = .json 200 record.response.toJson ∧
    ∃ slot, domainInfoCacheLookup choice state domain = some slot ∧
      (state.arena slot).domain = key ∧ (state.arena slot).pair = record.pair) ∨
  ((∀ key, DottedSuffix.Under dot domain key → redis.record key = none) ∧
    queryPost redis (domainRequestToJsonObject domain) =
      .json 200 (QueryResponse.toJson ⟨0, 0, 0, none⟩) ∧
    domainInfoCacheLookup choice state domain = none)

/-- The server asks for the strings the daemon probes, and both answer with the
record of the longest key a domain of UTF-8 is under, or with none. -/
theorem resolves_alike (redis : Redis) (answers : redis.answers = true) (domain : Bytes)
    (named : domain ≠ []) :
    (∀ choice state, domainInfoCacheLookup choice state domain = none →
      domainInfoCacheProbes choice state domain = getAllSubdomains domain) ∧
    (ValidUtf8 domain → ∀ choice state, HoldsRecords redis state →
      ResolveAlike choice redis state domain) := by
  constructor
  · intro choice state nothing
    exact domainInfoCacheProbes_eq nothing
  · intro valid choice state holds
    rw [ResolveAlike, queryPost_of_ne_nil redis named, answerAbout_of_valid redis valid,
      queryResponse_eq]
    cases nearest : nearestRecord redis domain with
    | none =>
        right
        rw [nearestRecord, if_pos answers, DottedSuffix.walk_eq_none] at nearest
        exact ⟨nearest, rfl, lookup_none holds nearest⟩
    | some record =>
        left
        obtain ⟨key, longest⟩ := longestKey_of_nearestRecord answers nearest
        exact ⟨key, record, longest, rfl, lookup_longestKey holds longest⟩

/-- A cache with an entry for one name. -/
def cacheOf (name : Bytes) : DomainInfoCache where
  arena _ := ⟨name, 9, 7, 1700000300⟩
  arenaPtr := id
  arenaIndex := 1
  cache := [0]
  lastgc := 1700000000

theorem holdsRecords_cacheOf (name : Bytes) :
    HoldsRecords (singleRecord name recordOfBc) (cacheOf name) := by
  constructor
  · intro slot member
    exact ⟨recordOfBc, if_pos rfl, rfl⟩
  · intro key record stored
    refine ⟨0, List.mem_singleton_self 0, ?_⟩
    by_contra other
    have absent : (singleRecord name recordOfBc).record key = none :=
      if_neg fun same => other same.symm
    rw [absent] at stored
    cases stored

/-- A name of one byte that is not UTF-8: the cache finds its record, the server
asks for the replacement of the byte. -/
theorem not_resolveAlike_invalid :
    HoldsRecords (singleRecord [0xFF] recordOfBc) (cacheOf [0xFF]) ∧
      ¬ ResolveAlike (fun _ => 0) (singleRecord [0xFF] recordOfBc) (cacheOf [0xFF]) [0xFF] := by
  refine ⟨holdsRecords_cacheOf [0xFF], ?_⟩
  have zeros : queryPost (singleRecord [0xFF] recordOfBc) (domainRequestToJsonObject [0xFF]) =
      .json 200 (QueryResponse.toJson ⟨0, 0, 0, none⟩) := rfl
  rintro (⟨key, record, longest, sent, -⟩ | ⟨-, -, missed⟩)
  · obtain ⟨same, rfl⟩ : [0xFF] = key ∧ recordOfBc = record := by
      have stored := longest.stored
      simp only [singleRecord] at stored
      split at stored
      · rename_i same
        exact ⟨same.symm, Option.some.inj stored⟩
      · cases stored
    rw [zeros, Sent.json.injEq] at sent
    have categories : some (Json.int 0) = some (.int 7) :=
      congrArg (fun document => document.objectGet categoryKey) sent.2
    cases categories
  · cases missed

theorem resolves_alike_cacheOfBc :
    ResolveAlike (fun _ => 0) (singleRecord (ascii ['b', '.', 'c']) recordOfBc)
      (cacheOf (ascii ['b', '.', 'c'])) (ascii ['a', '.', 'b', '.', 'c']) :=
  (resolves_alike (singleRecord (ascii ['b', '.', 'c']) recordOfBc) rfl
    (ascii ['a', '.', 'b', '.', 'c']) (by decide)).2 (by decide) _ _ (holdsRecords_cacheOf _)

end Uwebfilter
