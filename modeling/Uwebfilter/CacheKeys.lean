import Uwebfilter.CachedReplies

/-!
# The keys of the domain cache

Before a reply is stored only the one expired entry the lookup found is deleted,
and storing a name does not look for what the cache still holds of it.  A
failed fetch and a reply without a list store the domain itself, which the walk
has shown to be absent.  So keys stay unique exactly in the runs where no name
that a reply lists is left in the cache.
-/

namespace Uwebfilter

open CStrings

namespace DomainView

def keys (view : DomainView) : List Bytes := (view.entries.map Prod.snd).map DomainInfo.domain

/-- The table holds at most one entry per name. -/
def UniqueKeys (view : DomainView) : Prop := view.keys.Nodup

instance (view : DomainView) : Decidable view.UniqueKeys :=
  inferInstanceAs (Decidable view.keys.Nodup)

instance (now : Int) (view : DomainView) : Decidable (view.Idle now) :=
  inferInstanceAs (Decidable (¬ view.lastgc < now - domainInfoCacheGcinterval))

/-- The names of a reply that are stored: as many as there is room for, or
possibly all of them where the collector is due a second time. -/
def admitted (size : Nat) (insertion : Nat → Insertion) (names : List Bytes)
    (view : DomainView) : List Bytes :=
  if size ≤ view.entries.length then []
  else if ∀ index < names.length, (view.settled (insertion 0) names).Idle (insertion index).now then
    names.take (size - (view.settled (insertion 0) names).entries.length)
  else names

theorem keys_add (slot : Nat) (info : DomainInfo) (view : DomainView) :
    (view.add slot info).keys = view.keys ++ [info.domain] := by
  simp [keys, add]

theorem keys_sublist {first second : DomainView}
    (kept : first.entries.Sublist second.entries) : first.keys.Sublist second.keys :=
  (kept.map Prod.snd).map DomainInfo.domain

theorem UniqueKeys.of_sublist {first second : DomainView} (unique : second.UniqueKeys)
    (kept : first.entries.Sublist second.entries) : first.UniqueKeys :=
  List.Nodup.sublist (keys_sublist kept) unique

/-- Entries of one name are one entry. -/
theorem UniqueKeys.eq {view : DomainView} (unique : view.UniqueKeys)
    {first second : Nat × DomainInfo} (firstMember : first ∈ view.entries)
    (secondMember : second ∈ view.entries) (same : first.2.domain = second.2.domain) :
    first = second := by
  have names : (view.entries.map fun entry => entry.2.domain).Nodup := by
    have mapped := unique
    rwa [UniqueKeys, keys, List.map_map] at mapped
  exact List.inj_on_of_nodup_map names firstMember secondMember same

theorem collect_sublist (insertion : Insertion) (view : DomainView) :
    (view.collect insertion).entries.Sublist view.entries := by
  unfold collect
  split
  · exact List.filter_sublist
  · exact List.Sublist.refl _

theorem settled_sublist (insertion : Insertion) (names : List Bytes) (view : DomainView) :
    (view.settled insertion names).entries.Sublist view.entries := by
  unfold settled
  split
  · exact List.Sublist.refl _
  · exact collect_sublist insertion view

section Storing

variable {size : Nat} {info : Bytes → DomainInfo} {insertion : Nat → Insertion}
variable {names : List Bytes} {before after : DomainView}
variable (named : ∀ name, (info name).domain = name)

include named

theorem Admits.keys (admits : Admits size info names before after) :
    after.keys = before.keys ++ names.take (size - before.entries.length) := by
  have same : DomainInfo.domain ∘ info = id := funext named
  rw [DomainView.keys, admits.infos, List.map_append, List.map_map (l := names.take _), same,
    List.map_id, DomainView.keys]

theorem StoresAll.uniqueKeys_of_disjoint
    (stores : StoresAll size info insertion names before after) (distinct : names.Nodup)
    (unique : before.UniqueKeys) (fresh : names.Disjoint before.keys) : after.UniqueKeys := by
  induction stores with
  | nil => exact unique
  | @cons insertion name names before between after first rest ih =>
      obtain ⟨notAmong, restDistinct⟩ := List.nodup_cons.mp distinct
      obtain ⟨absent, restFresh⟩ := List.disjoint_cons_left.mp fresh
      cases first with
      | full exhausted => exact ih restDistinct unique restFresh
      | added slot room _ short =>
          have kept := collect_sublist (insertion 0) before
          have keys := keys_add slot (info name) (before.collect (insertion 0))
          rw [named] at keys
          apply ih restDistinct
          · rw [UniqueKeys, keys, List.nodup_append]
            refine ⟨unique.of_sublist kept, List.nodup_singleton _, ?_⟩
            rintro other left _ (_ | ⟨_, ⟨⟩⟩) rfl
            exact absent ((keys_sublist kept).subset left)
          · rw [keys]
            intro other listed left
            rcases List.mem_append.mp left with old | new
            · exact restFresh listed ((keys_sublist kept).subset old)
            · rw [List.mem_singleton.mp new] at listed
              exact notAmong listed

omit named in
theorem StoresAll.eq_of_full (stores : StoresAll size info insertion names before after)
    (full : size ≤ before.entries.length) : after = before := by
  induction stores with
  | nil => rfl
  | cons first rest ih =>
      cases first with
      | full => exact ih full
      | added slot room => omega

/-- Keys stay unique where the names stored are not among those left. -/
theorem StoresAll.uniqueKeys (stores : StoresAll size info insertion names before after)
    (distinct : names.Nodup) (unique : before.UniqueKeys)
    (fresh : (before.admitted size insertion names).Disjoint
      (before.settled (insertion 0) names).keys) : after.UniqueKeys := by
  have left := unique.of_sublist (settled_sublist (insertion 0) names before)
  unfold admitted at fresh
  split at fresh
  · rename_i full
    rwa [stores.eq_of_full full]
  · rename_i room
    split at fresh
    · rename_i once
      rw [UniqueKeys, (stores.admits once (by omega)).keys named, List.nodup_append]
      refine ⟨left, distinct.sublist (List.take_sublist _ _), ?_⟩
      rintro name old _ stored rfl
      exact fresh stored old
    · exact (stores.settled (by omega)).uniqueKeys_of_disjoint named distinct left fresh

theorem StoresAll.disjoint_of_uniqueKeys
    (stores : StoresAll size info insertion names before after)
    (once : ∀ index < names.length,
      (before.settled (insertion 0) names).Idle (insertion index).now)
    (unique : after.UniqueKeys) :
    (before.admitted size insertion names).Disjoint
      (before.settled (insertion 0) names).keys := by
  unfold admitted
  split
  · exact List.disjoint_nil_left _
  · rename_i room
    rw [UniqueKeys, (stores.admits once (by omega)).keys named, List.nodup_append] at unique
    intro name stored old
    exact unique.2.2 name old name stored rfl

end Storing

end DomainView

/-! ## One lookup -/

section Lookup

variable (jsonC : JsonC) (size : Nat)

/-- The names of the `cache_domains` of a reply, where it has a list of them. -/
def listedNames (fetch : Option Json) : Option (List Bytes) := do
  let obj ← fetch.bind Json.nonNull
  let cacheDomains ← (parseReply jsonC obj).cacheDomains
  let elements ← cacheDomains.arrayElements
  some (cacheDomainNames jsonC elements)

/-- A reply lists no name twice. -/
def DistinctNames (surroundings : Surroundings) : Prop :=
  ∀ names, listedNames jsonC surroundings.fetch = some names → names.Nodup

/-- Where the lookup reaches the server and the reply lists names, none of those
stored is the name of an entry left: not the expired one found, nor one the
collector removes. -/
def ListsFreshNames (state : DomainInfoCache) (call : LookupCall) : Prop :=
  MissesCache call.surroundings state call.domain →
    ∀ names, listedNames jsonC call.surroundings.fetch = some names →
      ((missedView call.surroundings.choice state call.domain).admitted size
          call.surroundings.insertion names).Disjoint
        (survivors call.surroundings state call.domain names).keys

variable {jsonC size} {surroundings : Surroundings} {state after : DomainInfoCache}
variable {response : DomainResponse} {domain : Bytes} {result : LookupResult}

theorem storedEntries_listed {now : Int} {names : List Bytes} {info : Bytes → DomainInfo}
    (entries : storedEntries jsonC now domain (surroundings.fetch.bind Json.nonNull) =
      .ok (names, info)) :
    (∀ name, (info name).domain = name) ∧
      (listedNames jsonC surroundings.fetch = some names ∨
        listedNames jsonC surroundings.fetch = none ∧ names = [domain]) := by
  unfold listedNames
  cases fetched : surroundings.fetch.bind Json.nonNull with
  | none =>
      rw [fetched] at entries
      cases entries
      exact ⟨fun _ => rfl, .inr ⟨rfl, rfl⟩⟩
  | some obj =>
      rw [fetched] at entries
      obtain rfl := storedEntries_info entries
      refine ⟨fun _ => rfl, ?_⟩
      cases listed : (parseReply jsonC obj).cacheDomains with
      | none =>
          rw [storedEntries_of_absent jsonC listed] at entries
          cases entries
          exact .inr ⟨by simp [listed], rfl⟩
      | some cacheDomains =>
          cases array : cacheDomains.arrayElements with
          | none => simp [storedEntries, listed, array] at entries
          | some elements =>
              rw [storedEntries_of_array jsonC listed array] at entries
              cases entries
              exact .inl (by simp [listed, array])

/-- A lookup that misses leaves no entry of the domain itself. -/
theorem not_mem_keys_missedView (unique : state.view.UniqueKeys) (choice : Bytes → Nat) :
    domain ∉ (missedView choice state domain).keys := by
  intro member
  rw [DomainView.keys, List.map_map] at member
  obtain ⟨entry, left, rfl⟩ := List.mem_map.mp member
  unfold missedView at left
  cases found : domainInfoCacheLookup choice state entry.2.domain with
  | none =>
      simp only [Function.comp_apply, found] at left
      exact domainInfoCacheLookup_eq_none.mp found entry left (DottedSuffix.under_refl _)
  | some slot =>
      simp only [Function.comp_apply, found, DomainView.remove, List.mem_filter] at left
      obtain ⟨nearestMember, under, longest⟩ := domainInfoCacheLookup_nearest found
      have longer := longest entry left.1 (DottedSuffix.under_refl _)
      have named := (DottedSuffix.under_refl entry.2.domain).eq_of_length under
        (Nat.le_antisymm longer under.length_le)
      have same := unique.eq left.1 nearestMember named
      simp [same] at left

theorem lookup_fetched (invariant : ArenaInvariant size state)
    (misses : MissesCache surroundings state domain)
    (returned : domainLookup jsonC size surroundings state response domain =
      .ok (result, after)) :
    ∃ names info, storedEntries jsonC surroundings.now domain
        (surroundings.fetch.bind Json.nonNull) = .ok (names, info) ∧
      DomainView.StoresAll size info surroundings.insertion names
        (missedView surroundings.choice state domain) after.view := by
  obtain ⟨kept, keptInvariant, keptView, looks⟩ := domainLookup_of_misses jsonC invariant misses
  rw [looks] at returned
  obtain ⟨reached, fetched, same⟩ := except_map_eq_ok.mp returned
  cases same
  obtain ⟨names, info, entries, -, stores⟩ := domainLookupFetch_stores keptInvariant fetched
  rw [keptView] at stores
  exact ⟨names, info, entries, stores⟩

theorem lookup_hit (hits : ¬ MissesCache surroundings state domain)
    (returned : domainLookup jsonC size surroundings state response domain =
      .ok (result, after)) : after = state := by
  unfold MissesCache at hits
  push Not at hits
  obtain ⟨slot, found, fresh⟩ := hits
  rw [domainLookup_of_hit found fresh, Except.ok.injEq, Prod.mk.injEq] at returned
  exact returned.2.symm

end Lookup

section Step

variable {jsonC : JsonC} {size : Nat} {state after : DomainInfoCache} {call : LookupCall}
variable {result : LookupResult}

theorem missedView_sublist (choice : Bytes → Nat) (state : DomainInfoCache) (domain : Bytes) :
    (missedView choice state domain).entries.Sublist state.view.entries := by
  unfold missedView
  split
  · exact List.Sublist.refl _
  · exact List.filter_sublist

theorem lookup_uniqueKeys (invariant : ArenaInvariant size state)
    (unique : state.view.UniqueKeys) (distinct : DistinctNames jsonC call.surroundings)
    (fresh : ListsFreshNames jsonC size state call)
    (returned : domainLookup jsonC size call.surroundings state call.response call.domain =
      .ok (result, after)) : after.view.UniqueKeys := by
  by_cases misses : MissesCache call.surroundings state call.domain
  · obtain ⟨names, info, entries, stores⟩ := lookup_fetched invariant misses returned
    obtain ⟨named, listed⟩ := storedEntries_listed entries
    have left := unique.of_sublist
      (missedView_sublist call.surroundings.choice state call.domain)
    rcases listed with listed | ⟨-, rfl⟩
    · exact stores.uniqueKeys named (distinct names listed) left (fresh misses names listed)
    · apply stores.uniqueKeys_of_disjoint named (List.nodup_singleton _) left
      apply List.singleton_disjoint.mpr
      exact not_mem_keys_missedView unique call.surroundings.choice
  · rwa [lookup_hit misses returned]

theorem listsFreshNames_of_uniqueKeys (invariant : ArenaInvariant size state)
    {now : Int} (clock : ∀ index, (call.surroundings.insertion index).now = now)
    (returned : domainLookup jsonC size call.surroundings state call.response call.domain =
      .ok (result, after)) (unique : after.view.UniqueKeys) :
    ListsFreshNames jsonC size state call := by
  intro misses names listed
  obtain ⟨stored, info, entries, stores⟩ := lookup_fetched invariant misses returned
  obtain ⟨named, same | ⟨none, -⟩⟩ := storedEntries_listed entries
  · rw [listed, Option.some.injEq] at same
    subst same
    exact stores.disjoint_of_uniqueKeys named (DomainView.idle_settled clock _ _) unique
  · rw [listed] at none
    cases none

end Step

/-! ## Runs -/

/-- The states a run of calls passes through have unique keys. -/
def UniqueThroughout (jsonC : JsonC) (size : Nat) (calls : List LookupCall) : Prop :=
  ∀ prior, prior <+: calls →
    ∃ reached results, lookupRun jsonC size prior = .ok (reached, results) ∧
      reached.view.UniqueKeys

section Runs

variable {jsonC : JsonC} {size : Nat} {calls : List LookupCall}
variable (names : ∀ call ∈ calls, ShortNames jsonC call.surroundings call.domain)

include names

theorem uniqueThroughout_of_listsFreshNames
    (distinct : ∀ call ∈ calls, DistinctNames jsonC call.surroundings)
    (every : MachineRun.EveryRunStep (lookupStep jsonC size) .initial
      (ListsFreshNames jsonC size) calls) : UniqueThroughout jsonC size calls := by
  intro prior inside
  obtain ⟨reached, results, ran, -, unique⟩ :=
    MachineRun.run_invariant_of_steps (lookupStep jsonC size) .initial
      (fun _ state => ArenaInvariant size state ∧ state.view.UniqueKeys)
      (fun state call => ShortNames jsonC call.surroundings call.domain ∧
        DistinctNames jsonC call.surroundings ∧ ListsFreshNames jsonC size state call)
      ⟨arenaInvariant_initial size, List.nodup_nil⟩
      (by
        rintro _ state call ⟨invariant, unique⟩ ⟨short, distinct, fresh⟩
        obtain ⟨after, result, stepped, returned⟩ := lookupStep_returns invariant short
        exact ⟨after, result, stepped, (domainLookup_looks invariant returned).1,
          lookup_uniqueKeys invariant unique distinct fresh returned⟩)
      prior
      (by
        intro earlier call more state produced ran
        have member : call ∈ calls := inside.subset (more.subset (by simp))
        exact ⟨names call member, distinct call member,
          every earlier call (more.trans inside) state produced ran⟩)
  exact ⟨reached, results, ran, unique⟩

theorem listsFreshNames_of_uniqueThroughout
    (clock : ∀ call ∈ calls, ∃ now, ∀ index, (call.surroundings.insertion index).now = now)
    (throughout : UniqueThroughout jsonC size calls) :
    MachineRun.EveryRunStep (lookupStep jsonC size) .initial (ListsFreshNames jsonC size)
      calls := by
  intro earlier call more state produced ran
  have member : call ∈ calls := more.subset (by simp)
  obtain ⟨reached, results, whole, unique⟩ := throughout _ more
  obtain ⟨output, stepped⟩ := MachineRun.step_of_run_snoc (lookupStep jsonC size) .initial ran whole
  obtain ⟨_, returned, same⟩ := except_map_eq_ok.mp stepped
  cases same
  obtain ⟨state', produced', ran', invariant⟩ := exists_lookupRun jsonC size earlier
    fun other inside => names other (more.subset (List.mem_append_left _ inside))
  rw [lookupRun, ran, Except.ok.injEq, Prod.mk.injEq] at ran'
  obtain ⟨now, reads⟩ := clock call member
  rw [← ran'.1] at invariant
  exact listsFreshNames_of_uniqueKeys invariant reads returned unique

end Runs

/-- Keys are unique throughout a run where no call stores a listed name that an
entry left still has; where the clock stands still during each call, only there. -/
theorem uniqueThroughout_listsFreshNames (jsonC : JsonC) (size : Nat) (calls : List LookupCall)
    (names : ∀ call ∈ calls, ShortNames jsonC call.surroundings call.domain)
    (distinct : ∀ call ∈ calls, DistinctNames jsonC call.surroundings) :
    (MachineRun.EveryRunStep (lookupStep jsonC size) .initial (ListsFreshNames jsonC size)
        calls → UniqueThroughout jsonC size calls) ∧
      ((∀ call ∈ calls, ∃ now, ∀ index, (call.surroundings.insertion index).now = now) →
        UniqueThroughout jsonC size calls →
          MachineRun.EveryRunStep (lookupStep jsonC size) .initial (ListsFreshNames jsonC size)
            calls) :=
  ⟨uniqueThroughout_of_listsFreshNames names distinct,
    listsFreshNames_of_uniqueThroughout names⟩

theorem distinctNames_callForAbc {now : Int} :
    DistinctNames plainJsonC (callForAbc now (some listingReply)).surroundings := by
  intro names listed
  obtain rfl := Option.some.inj listed
  decide

/-- When the entry of `b.c` has expired, `c` is stored a second time. -/
theorem not_uniqueThroughout_listingReply :
    let calls := [callForAbc 1700000000 (some listingReply),
      callForAbc 1700000300 (some listingReply)]
    (∀ call ∈ calls, ShortNames plainJsonC call.surroundings call.domain ∧
      DistinctNames plainJsonC call.surroundings) ∧
    ¬ UniqueThroughout plainJsonC domainInfoArenaSize calls := by
  constructor
  · intro call member
    rcases List.mem_pair.mp member with rfl | rfl
    · exact ⟨shortNames_callForAbc, distinctNames_callForAbc⟩
    · exact ⟨shortNames_callForAbc, distinctNames_callForAbc⟩
  · intro throughout
    obtain ⟨reached, results, ran, unique⟩ := throughout _ List.prefix_rfl
    cases ran
    revert unique
    decide

/-- A second later the collector runs first and removes both. -/
theorem uniqueThroughout_listsFreshNames_twoCalls :
    UniqueThroughout plainJsonC domainInfoArenaSize
      [callForAbc 1700000000 (some listingReply), callForAbc 1700000301 (some listingReply)] := by
  apply (uniqueThroughout_listsFreshNames plainJsonC domainInfoArenaSize _ _ _).1
  · show MachineRun.EveryRunStep (lookupStep plainJsonC domainInfoArenaSize) .initial
      (ListsFreshNames plainJsonC domainInfoArenaSize)
      ([] ++ [callForAbc 1700000000 (some listingReply)] ++
        [callForAbc 1700000301 (some listingReply)])
    rw [MachineRun.everyRunStep_snoc, MachineRun.everyRunStep_snoc]
    refine ⟨⟨MachineRun.everyRunStep_nil _ _ _, ?_⟩, ?_⟩
    · rintro state produced ⟨⟩ - names ⟨⟩
      exact List.disjoint_nil_right _
    · rintro state produced ⟨⟩ - names ⟨⟩
      exact List.disjoint_nil_right _
  · intro call member
    rcases List.mem_pair.mp member with rfl | rfl
    · exact shortNames_callForAbc
    · exact shortNames_callForAbc
  · intro call member
    rcases List.mem_pair.mp member with rfl | rfl
    · exact distinctNames_callForAbc
    · exact distinctNames_callForAbc

end Uwebfilter
