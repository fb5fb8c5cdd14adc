import Uwebfilter.DomainLookup
import Uwebfilter.SlotFreeList

/-!
# The arena of the domain cache

Between two lookups the free list of the arena and the cached slots share the
slots of the arena among them.  In such a state the operations of the cache are
those of a list of entries of bounded length, which is what the view of a state
keeps.
-/

namespace Uwebfilter

open CStrings

/-- The free slots and the cached ones are all the slots, each once. -/
def ArenaInvariant (size : Nat) (state : DomainInfoCache) : Prop :=
  SlotFreeList.Owns size state.arenaPtr state.arenaIndex state.cache

/-- The cache without its arena: entries with their slots, in application order. -/
structure DomainView where
  entries : List (Nat × DomainInfo)
  lastgc : Int

namespace DomainView

def removed (insertion : Insertion) (entry : Nat × DomainInfo) : Bool :=
  decide (entry.2.expire < insertion.now ∨ insertion.rand entry.1 * 5 < 1)

def collect (insertion : Insertion) (view : DomainView) : DomainView :=
  if view.lastgc < insertion.now - domainInfoCacheGcinterval then
    { entries := view.entries.filter fun entry => !removed insertion entry
      lastgc := insertion.now }
  else view

theorem collect_of_due {insertion : Insertion} {view : DomainView}
    (due : view.lastgc < insertion.now - domainInfoCacheGcinterval) :
    view.collect insertion =
      { entries := view.entries.filter fun entry => !removed insertion entry
        lastgc := insertion.now } :=
  if_pos due

theorem collect_of_idle {insertion : Insertion} {view : DomainView}
    (idle : ¬ view.lastgc < insertion.now - domainInfoCacheGcinterval) :
    view.collect insertion = view :=
  if_neg idle

def add (slot : Nat) (info : DomainInfo) (view : DomainView) : DomainView :=
  { view with entries := view.entries ++ [(slot, info)] }

def remove (slot : Nat) (view : DomainView) : DomainView :=
  { view with entries := view.entries.filter fun entry => decide (entry.1 ≠ slot) }

end DomainView

namespace DomainInfoCache

def view (state : DomainInfoCache) : DomainView where
  entries := state.cache.map fun slot => (slot, state.arena slot)
  lastgc := state.lastgc

@[simp] theorem view_lastgc (state : DomainInfoCache) : state.view.lastgc = state.lastgc := rfl

theorem view_length (state : DomainInfoCache) :
    state.view.entries.length = state.cache.length := by
  simp [view]

theorem mem_view {state : DomainInfoCache} {slot : Nat} {info : DomainInfo} :
    (slot, info) ∈ state.view.entries ↔ slot ∈ state.cache ∧ state.arena slot = info := by
  simp only [view, List.mem_map, Prod.mk.injEq]
  constructor
  · rintro ⟨other, member, rfl, same⟩
    exact ⟨member, same⟩
  · rintro ⟨member, same⟩
    exact ⟨slot, member, rfl, same⟩

end DomainInfoCache

theorem arenaInvariant_initial (size : Nat) : ArenaInvariant size .initial :=
  SlotFreeList.owns_initial size

section Operations

variable {size : Nat} {state : DomainInfoCache} {held : List Nat}

theorem domainInfoCreate_of_full
    (owns : SlotFreeList.Owns size state.arenaPtr state.arenaIndex held)
    (full : size ≤ held.length) (info : DomainInfo) :
    domainInfoCreate size state info = .ok (none, state) := by
  have count := owns.count
  have allocated : domainInfoAllocate size state = .ok (none, state) := by
    rw [domainInfoAllocate, if_neg (by omega), if_pos (by omega)]
  simp [domainInfoCreate, allocated, bind, Except.bind]

theorem domainInfoCreate_of_room
    (owns : SlotFreeList.Owns size state.arenaPtr state.arenaIndex held)
    (room : held.length < size) (info : DomainInfo) :
    domainInfoCreate size state info =
      if info.domain.length ≥ domainLength then .error .overrun
      else
        .ok (some (state.arenaPtr state.arenaIndex.toNat),
          { state with
            arenaIndex := state.arenaIndex + 1
            arena := fun place =>
              if place = state.arenaPtr state.arenaIndex.toNat then info
              else state.arena place }) := by
  have count := owns.count
  have cleared : (fun place => if place = state.arenaPtr state.arenaIndex.toNat then info
      else if place = state.arenaPtr state.arenaIndex.toNat then DomainInfo.cleared
        else state.arena place) =
      fun place => if place = state.arenaPtr state.arenaIndex.toNat then info
        else state.arena place := by
    funext place
    by_cases same : place = state.arenaPtr state.arenaIndex.toNat <;> simp [same]
  simp only [domainInfoCreate, domainInfoAllocate]
  rw [if_neg (by omega), if_neg (by omega)]
  simp only [bind, Except.bind, cleared]

theorem domainInfoDeallocate_of_held (state : DomainInfoCache)
    (owns : SlotFreeList.Owns size state.arenaPtr state.arenaIndex held) {slot : Nat}
    (member : slot ∈ held) :
    ∃ after, domainInfoDeallocate state slot = .ok after ∧ after.cache = state.cache ∧
      after.arena = state.arena ∧ after.lastgc = state.lastgc ∧
      SlotFreeList.Owns size after.arenaPtr after.arenaIndex (held.erase slot) := by
  have count := owns.count
  have positive : 0 < held.length := List.length_pos_of_mem member
  refine ⟨{ state with
    arenaIndex := state.arenaIndex - 1
    arenaPtr := fun place =>
      if place = (state.arenaIndex - 1).toNat then slot else state.arenaPtr place },
    ?_, rfl, rfl, rfl, owns.give member⟩
  rw [domainInfoDeallocate, if_neg (by omega)]

/-- The collector's loop, with the slots it has passed and those held outside
the cache. -/
theorem domainInfoCacheGc_spec (insertion : Insertion) (pending : List Nat) (visit : List Nat)
    {state : DomainInfoCache} {passed : List Nat} (cache : state.cache = passed ++ visit)
    (owns : SlotFreeList.Owns size state.arenaPtr state.arenaIndex (state.cache ++ pending)) :
    ∃ after, domainInfoCacheGc insertion visit state = .ok after ∧
      after.cache = passed ++ visit.filter (fun slot => !gcRemoves insertion state.arena slot) ∧
      after.arena = state.arena ∧ after.lastgc = state.lastgc ∧
      SlotFreeList.Owns size after.arenaPtr after.arenaIndex (after.cache ++ pending) := by
  induction visit generalizing state passed with
  | nil => exact ⟨state, rfl, by simpa using cache, rfl, rfl, owns⟩
  | cons slot visit ih =>
      by_cases removed : gcRemoves insertion state.arena slot = true
      · have member : slot ∈ state.cache := by simp [cache]
        have nodup : (state.cache ++ pending).Nodup := owns.held_nodup
        have notPassed : slot ∉ passed := by
          rw [cache, List.append_assoc, List.nodup_append] at nodup
          exact fun inside => nodup.2.2 slot inside slot (by simp) rfl
        have erased : state.cache.erase slot = passed ++ visit := by
          rw [cache, List.erase_append_right _ notPassed, List.erase_cons_head]
        obtain ⟨freed, deallocated, sameCache, sameArena, sameGc, freedOwns⟩ :=
          domainInfoDeallocate_of_held (domainInfoCacheDelete state slot) owns
            (List.mem_append_left _ member)
        rw [List.erase_append_left _ member] at freedOwns
        obtain ⟨after, ran, afterCache, afterArena, afterGc, afterOwns⟩ :=
          ih (sameCache.trans erased) (by rw [sameCache]; exact freedOwns)
        refine ⟨after, ?_, ?_, afterArena.trans sameArena, afterGc.trans sameGc, afterOwns⟩
        · simp only [domainInfoCacheGc, removed, if_true, deallocated, bind, Except.bind, ran]
        · rw [afterCache, sameArena, List.filter_cons_of_neg (by simp [removed])]
          rfl
      · have passedSlot : state.cache = passed ++ [slot] ++ visit := by simpa using cache
        obtain ⟨after, ran, afterCache, afterRest⟩ := ih passedSlot owns
        refine ⟨after, ?_, ?_, afterRest⟩
        · rw [domainInfoCacheGc, if_neg removed]
          exact ran
        · rw [afterCache, List.filter_cons_of_pos (by simpa using removed)]
          simp

theorem view_congr {first second : DomainInfoCache} (cache : first.cache = second.cache)
    (arena : ∀ slot ∈ second.cache, first.arena slot = second.arena slot)
    (lastgc : first.lastgc = second.lastgc) : first.view = second.view := by
  simp only [DomainInfoCache.view, cache, lastgc, DomainView.mk.injEq, and_true]
  exact List.map_congr_left fun slot member => by rw [arena slot member]

theorem domainInfoCacheInsert_spec (insertion : Insertion) (state : DomainInfoCache) {slot : Nat}
    (owns : SlotFreeList.Owns size state.arenaPtr state.arenaIndex (state.cache ++ [slot])) :
    ∃ after, domainInfoCacheInsert insertion state slot = .ok after ∧
      ArenaInvariant size after ∧
      after.view = (state.view.collect insertion).add slot (state.arena slot) := by
  by_cases due : state.lastgc < insertion.now - domainInfoCacheGcinterval
  · obtain ⟨swept, ran, cache, arena, -, sweptOwns⟩ :=
      domainInfoCacheGc_spec insertion [slot] state.cache (List.nil_append _).symm owns
    refine ⟨{ swept with lastgc := insertion.now, cache := swept.cache ++ [slot] }, ?_,
      sweptOwns, ?_⟩
    · simp [domainInfoCacheInsert, due, ran, bind, Except.bind]
    · rw [List.nil_append] at cache
      have kept : state.view.entries.filter (fun entry => !DomainView.removed insertion entry) =
          (state.cache.filter fun slot => !gcRemoves insertion state.arena slot).map
            fun slot => (slot, state.arena slot) :=
        List.filter_map
      rw [DomainView.collect_of_due due, kept, ← cache]
      simp [DomainInfoCache.view, DomainView.add, arena]
  · refine ⟨{ state with cache := state.cache ++ [slot] }, ?_, owns, ?_⟩
    · simp [domainInfoCacheInsert, due, bind, Except.bind]
    · rw [DomainView.collect_of_idle due]
      simp [DomainInfoCache.view, DomainView.add]

theorem domainInfoStore_of_full (invariant : ArenaInvariant size state)
    (full : size ≤ state.cache.length) (insertion : Insertion) (info : DomainInfo) :
    domainInfoStore size insertion state info = .ok state := by
  simp [domainInfoStore, domainInfoCreate_of_full invariant full, bind, Except.bind]

theorem domainInfoStore_of_long (invariant : ArenaInvariant size state)
    (room : state.cache.length < size) (insertion : Insertion) {info : DomainInfo}
    (long : domainLength ≤ info.domain.length) :
    domainInfoStore size insertion state info = .error .overrun := by
  simp [domainInfoStore, domainInfoCreate_of_room invariant room, long, bind, Except.bind]

theorem domainInfoStore_of_room (invariant : ArenaInvariant size state)
    (room : state.cache.length < size) (insertion : Insertion) {info : DomainInfo}
    (short : info.domain.length < domainLength) :
    ∃ after slot, domainInfoStore size insertion state info = .ok after ∧
      ArenaInvariant size after ∧ slot ∉ state.cache ∧
      after.view = (state.view.collect insertion).add slot info := by
  have count := invariant.count
  have fresh := invariant.fresh (by omega)
  set slot := state.arenaPtr state.arenaIndex.toNat
  set filled : DomainInfoCache := { state with
    arenaIndex := state.arenaIndex + 1
    arena := fun place => if place = slot then info else state.arena place }
  obtain ⟨after, inserted, afterInvariant, afterView⟩ :=
    domainInfoCacheInsert_spec insertion filled (invariant.take (by omega))
  refine ⟨after, slot, ?_, afterInvariant, fresh, ?_⟩
  · have created := domainInfoCreate_of_room invariant room info
    rw [if_neg (by omega)] at created
    simp only [domainInfoStore, created, bind, Except.bind]
    exact inserted
  · have sameView : filled.view = state.view := by
      refine view_congr rfl (fun other member => ?_) rfl
      exact if_neg fun same => fresh (by rwa [← same])
    have here : filled.arena slot = info := if_pos rfl
    rw [afterView, sameView, here]

end Operations

/-- What storing one entry does to the view. -/
inductive DomainView.Stores (size : Nat) (insertion : Insertion) (info : DomainInfo)
    (before : DomainView) : DomainView → Prop
  | full (exhausted : size ≤ before.entries.length) : Stores size insertion info before before
  | added (slot : Nat) (room : before.entries.length < size)
      (fresh : slot ∉ before.entries.map Prod.fst)
      (short : info.domain.length < domainLength) :
      Stores size insertion info before ((before.collect insertion).add slot info)

/-- What storing some names in turn does to the view. -/
inductive DomainView.StoresAll (size : Nat) (info : Bytes → DomainInfo) :
    (Nat → Insertion) → List Bytes → DomainView → DomainView → Prop
  | nil (insertion : Nat → Insertion) (view : DomainView) :
      StoresAll size info insertion [] view view
  | cons {insertion : Nat → Insertion} {name : Bytes} {names : List Bytes}
      {before between after : DomainView}
      (first : DomainView.Stores size (insertion 0) (info name) before between)
      (rest : StoresAll size info (fun index => insertion (index + 1)) names between after) :
      StoresAll size info insertion (name :: names) before after

theorem DomainView.collect_subset (insertion : Insertion) (view : DomainView) :
    (view.collect insertion).entries ⊆ view.entries := by
  unfold DomainView.collect
  split
  · exact List.filter_sublist.subset
  · exact List.Subset.refl _

theorem DomainView.Stores.mem {size : Nat} {insertion : Insertion} {info : DomainInfo}
    {before after : DomainView} (stores : DomainView.Stores size insertion info before after)
    {entry : Nat × DomainInfo} (member : entry ∈ after.entries) :
    entry ∈ before.entries ∨ entry.2 = info ∧ info.domain.length < domainLength := by
  cases stores with
  | full => exact .inl member
  | added slot room fresh short =>
      rcases List.mem_append.mp member with old | new
      · exact .inl (DomainView.collect_subset insertion before old)
      · rw [List.mem_singleton.mp new]
        exact .inr ⟨rfl, short⟩

theorem DomainView.StoresAll.mem {size : Nat} {insertion : Nat → Insertion}
    {info : Bytes → DomainInfo} {names : List Bytes} {before after : DomainView}
    (stores : DomainView.StoresAll size info insertion names before after)
    {entry : Nat × DomainInfo} (member : entry ∈ after.entries) :
    entry ∈ before.entries ∨
      ∃ name ∈ names, entry.2 = info name ∧ (info name).domain.length < domainLength := by
  induction stores with
  | nil => exact .inl member
  | cons first rest ih =>
      rcases ih member with between | ⟨name, listed, same⟩
      · exact (first.mem between).imp id fun same => ⟨_, List.mem_cons_self, same⟩
      · exact .inr ⟨name, List.mem_cons_of_mem _ listed, same⟩

section Stores

variable {size : Nat} {state after : DomainInfoCache}

theorem not_mem_slots {slot : Nat} (fresh : slot ∉ state.cache) :
    slot ∉ state.view.entries.map Prod.fst := by
  simpa [DomainInfoCache.view] using fresh

theorem domainInfoStore_stores (invariant : ArenaInvariant size state) {insertion : Insertion}
    {info : DomainInfo} (stored : domainInfoStore size insertion state info = .ok after) :
    ArenaInvariant size after ∧
      DomainView.Stores size insertion info state.view after.view := by
  by_cases full : size ≤ state.cache.length
  · rw [domainInfoStore_of_full invariant full, Except.ok.injEq] at stored
    subst stored
    exact ⟨invariant, .full (by rwa [state.view_length])⟩
  · by_cases short : info.domain.length < domainLength
    · obtain ⟨other, slot, otherStored, otherInvariant, fresh, view⟩ :=
        domainInfoStore_of_room invariant (by omega) insertion short
      rw [otherStored, Except.ok.injEq] at stored
      subst stored
      rw [view]
      have view_room : state.view.entries.length < size := by
        rw [state.view_length]
        omega
      exact ⟨otherInvariant, .added slot view_room (not_mem_slots fresh) short⟩
    · rw [domainInfoStore_of_long invariant (by omega) insertion (by omega)] at stored
      cases stored

theorem domainInfoStore_returns (invariant : ArenaInvariant size state) (insertion : Insertion)
    {info : DomainInfo} (short : info.domain.length < domainLength) :
    ∃ after, domainInfoStore size insertion state info = .ok after := by
  by_cases full : size ≤ state.cache.length
  · exact ⟨state, domainInfoStore_of_full invariant full insertion info⟩
  · obtain ⟨after, -, stored, -⟩ :=
      domainInfoStore_of_room invariant (by omega) insertion short
    exact ⟨after, stored⟩

theorem except_bind_eq_ok {ε α β : Type} {first : Except ε α} {next : α → Except ε β} {value : β} :
    (first >>= next) = .ok value ↔ ∃ middle, first = .ok middle ∧ next middle = .ok value := by
  cases first with
  | error fault => simp [bind, Except.bind]
  | ok middle => simp [bind, Except.bind]

theorem except_map_eq_ok {ε α β : Type} {first : Except ε α} {next : α → β} {value : β} :
    first.map next = .ok value ↔ ∃ middle, first = .ok middle ∧ next middle = value := by
  cases first with
  | error fault => simp [Except.map]
  | ok middle => simp [Except.map]

theorem domainInfoStoreAll_stores {info : Bytes → DomainInfo} (names : List Bytes)
    (invariant : ArenaInvariant size state) {insertion : Nat → Insertion}
    (stored : domainInfoStoreAll size insertion info names state = .ok after) :
    ArenaInvariant size after ∧
      DomainView.StoresAll size info insertion names state.view after.view := by
  induction names generalizing state insertion with
  | nil =>
      rw [domainInfoStoreAll, Except.ok.injEq] at stored
      subst stored
      exact ⟨invariant, .nil _ _⟩
  | cons name names ih =>
      rw [domainInfoStoreAll, except_bind_eq_ok] at stored
      obtain ⟨between, first, rest⟩ := stored
      obtain ⟨betweenInvariant, firstStores⟩ := domainInfoStore_stores invariant first
      obtain ⟨afterInvariant, restStores⟩ := ih betweenInvariant rest
      exact ⟨afterInvariant, .cons firstStores restStores⟩

theorem domainInfoStoreAll_cons_returns {insertion : Nat → Insertion} {info : Bytes → DomainInfo}
    {name : Bytes} {names : List Bytes} {between : DomainInfoCache}
    (first : domainInfoStore size (insertion 0) state (info name) = .ok between)
    (rest : ∃ after, domainInfoStoreAll size (fun index => insertion (index + 1)) info names
      between = .ok after) :
    ∃ after, domainInfoStoreAll size insertion info (name :: names) state = .ok after := by
  obtain ⟨after, returns⟩ := rest
  refine ⟨after, ?_⟩
  rw [domainInfoStoreAll, except_bind_eq_ok]
  exact ⟨between, first, returns⟩

theorem domainInfoStoreAll_returns {info : Bytes → DomainInfo} (names : List Bytes)
    (short : ∀ name ∈ names, (info name).domain.length < domainLength)
    (invariant : ArenaInvariant size state) (insertion : Nat → Insertion) :
    ∃ after, domainInfoStoreAll size insertion info names state = .ok after := by
  induction names generalizing state insertion with
  | nil => exact ⟨state, rfl⟩
  | cons name names ih =>
      obtain ⟨between, first⟩ :=
        domainInfoStore_returns invariant (insertion 0) (short name (by simp))
      apply domainInfoStoreAll_cons_returns first
      apply ih
      · exact fun other member => short other (List.mem_cons_of_mem _ member)
      · exact (domainInfoStore_stores invariant first).1

end Stores

end Uwebfilter
