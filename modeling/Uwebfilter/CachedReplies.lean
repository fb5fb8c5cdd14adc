import Mathlib.Data.List.MinMax
import Uwebfilter.ColdLookup
import Uwebfilter.QueryServer

/-!
# What a reply is good for

A lookup that misses stores the reply of the server, and lookups of the same
domain are answered from the cache until the reply's time is over exactly where
the names it had room for, or what the cache was left with, reach the domain.
A reply that lists no names stores nothing.
-/

namespace Uwebfilter

open CStrings

/-! ## Storing at one time -/

namespace DomainView

def Idle (now : Int) (view : DomainView) : Prop :=
  ¬ view.lastgc < now - domainInfoCacheGcinterval

theorem idle_collect (insertion : Insertion) (view : DomainView) :
    (view.collect insertion).Idle insertion.now := by
  by_cases due : view.lastgc < insertion.now - domainInfoCacheGcinterval
  · rw [collect_of_due due]
    simp only [Idle, domainInfoCacheGcinterval]
    omega
  · rw [collect_of_idle due]
    exact due

theorem collect_length_le (insertion : Insertion) (view : DomainView) :
    (view.collect insertion).entries.length ≤ view.entries.length := by
  unfold collect
  split
  · exact List.length_filter_le _ _
  · exact le_rfl

/-- What is left of the view where names are stored. -/
def settled (insertion : Insertion) (names : List Bytes) (view : DomainView) : DomainView :=
  if names = [] then view else view.collect insertion

/-- As many names are appended as there is room for, and these fit. -/
structure Admits (size : Nat) (info : Bytes → DomainInfo) (names : List Bytes)
    (before after : DomainView) : Prop where
  infos : after.entries.map Prod.snd =
    before.entries.map Prod.snd ++ (names.take (size - before.entries.length)).map info
  short : ∀ name ∈ names.take (size - before.entries.length),
    (info name).domain.length < domainLength

variable {size : Nat} {info : Bytes → DomainInfo} {insertion : Nat → Insertion}
variable {names : List Bytes} {before after : DomainView} {now : Int}

theorem take_room (room : before.entries.length < size) (slot : Nat) (added : DomainInfo)
    (name : Bytes) (names : List Bytes) :
    (name :: names).take (size - before.entries.length) =
      name :: names.take (size - (before.add slot added).entries.length) := by
  have oneLess : size - before.entries.length =
      size - (before.add slot added).entries.length + 1 := by
    simp only [add, List.length_append, List.length_singleton]
    omega
  rw [oneLess, List.take_succ_cons]

theorem Admits.cons {slot : Nat} {name : Bytes} (room : before.entries.length < size)
    (short : (info name).domain.length < domainLength)
    (rest : Admits size info names (before.add slot (info name)) after) :
    Admits size info (name :: names) before after := by
  obtain ⟨infos, restShort⟩ := rest
  have taken := take_room room slot (info name) name names
  constructor
  · rw [infos, taken]
    simp [add]
  · rw [taken]
    exact List.forall_mem_cons.mpr ⟨short, restShort⟩

theorem StoresAll.admits_of_idle (stores : StoresAll size info insertion names before after)
    (idle : ∀ index < names.length, before.Idle (insertion index).now) :
    Admits size info names before after := by
  induction stores with
  | nil => exact ⟨by simp, by simp⟩
  | @cons insertion name names before between after first rest ih =>
      have restIdle : ∀ index < names.length, before.Idle (insertion (index + 1)).now := by
        intro index inside
        exact idle (index + 1) (Nat.succ_lt_succ inside)
      cases first with
      | full exhausted =>
          have noRoom : size - before.entries.length = 0 := by omega
          have infos := (ih restIdle).infos
          rw [noRoom] at infos
          constructor
          · rw [infos, noRoom]
            simp
          · simp [noRoom]
      | added slot room fresh short =>
          have uncollected : before.collect (insertion 0) = before :=
            collect_of_idle (idle 0 (Nat.succ_pos _))
          rw [uncollected] at ih
          exact (ih restIdle).cons room short

theorem StoresAll.settled (stores : StoresAll size info insertion names before after)
    (room : before.entries.length < size) :
    StoresAll size info insertion names (before.settled (insertion 0) names) after := by
  cases stores with
  | nil => exact .nil _ _
  | @cons _ name names _ between _ first rest =>
      have collected : before.settled (insertion 0) (name :: names) =
          before.collect (insertion 0) := if_neg (List.cons_ne_nil _ _)
      have again : (before.collect (insertion 0)).collect (insertion 0) =
          before.collect (insertion 0) := collect_of_idle (idle_collect (insertion 0) before)
      have shrinks := collect_length_le (insertion 0) before
      rw [collected]
      cases first with
      | full exhausted => omega
      | added slot _ fresh short =>
          have absent : slot ∉ (before.collect (insertion 0)).entries.map Prod.fst := fun member =>
            fresh (List.map_subset _ (collect_subset (insertion 0) before) member)
          have collectedRoom : (before.collect (insertion 0)).entries.length < size := by omega
          have stored : Stores size (insertion 0) (info name) (before.collect (insertion 0))
              (((before.collect (insertion 0)).collect (insertion 0)).add slot (info name)) :=
            .added slot collectedRoom absent short
          rw [again] at stored
          exact .cons stored rest

/-- The collector runs with the first name, and with no other. -/
theorem StoresAll.admits (stores : StoresAll size info insertion names before after)
    (once : ∀ index < names.length,
      (before.settled (insertion 0) names).Idle (insertion index).now)
    (room : before.entries.length < size) :
    Admits size info names (before.settled (insertion 0) names) after :=
  (stores.settled room).admits_of_idle once

theorem idle_settled (clock : ∀ index, (insertion index).now = now) (names : List Bytes)
    (before : DomainView) :
    ∀ index < names.length, (before.settled (insertion 0) names).Idle (insertion index).now := by
  intro index inside
  have collected : before.settled (insertion 0) names = before.collect (insertion 0) :=
    if_neg (List.ne_nil_of_length_pos (Nat.zero_lt_of_lt inside))
  rw [collected, clock index, ← clock 0]
  exact idle_collect (insertion 0) before

end DomainView

section Returns

variable {size : Nat} {info : Bytes → DomainInfo} {insertion : Nat → Insertion} {now : Int}
variable {state : DomainInfoCache}

theorem domainInfoStoreAll_returns_of_idle (names : List Bytes)
    (invariant : ArenaInvariant size state) (clock : ∀ index, (insertion index).now = now)
    (idle : state.view.Idle now)
    (short : ∀ name ∈ names.take (size - state.view.entries.length),
      (info name).domain.length < domainLength) :
    ∃ after, domainInfoStoreAll size insertion info names state = .ok after := by
  induction names generalizing state insertion with
  | nil => exact ⟨state, rfl⟩
  | cons name names ih =>
      by_cases full : size ≤ state.cache.length
      · have noRoom : size - state.view.entries.length = 0 := by
          rw [state.view_length]
          omega
        apply domainInfoStoreAll_cons_returns (domainInfoStore_of_full invariant full _ _)
        exact ih invariant (fun index => clock (index + 1)) idle (by simp [noRoom])
      · have room : state.view.entries.length < size := by
          rw [state.view_length]
          omega
        have firstShort : (info name).domain.length < domainLength := by
          apply short
          rw [DomainView.take_room room 0 (info name) name names]
          exact List.mem_cons_self
        obtain ⟨between, slot, stored, betweenInvariant, -, view⟩ :=
          domainInfoStore_of_room invariant (by omega) (insertion 0) firstShort
        have uncollected : state.view.collect (insertion 0) = state.view := by
          apply DomainView.collect_of_idle
          rw [clock 0]
          exact idle
        rw [uncollected] at view
        rw [DomainView.take_room room slot (info name) name names, ← view] at short
        have stillIdle : between.view.Idle now := by
          rw [view]
          exact idle
        apply domainInfoStoreAll_cons_returns stored
        exact ih betweenInvariant (fun index => clock (index + 1)) stillIdle
          (List.forall_mem_cons.mp short).2

/-- Storing some names fails exactly where one there is room for does not fit
its buffer. -/
theorem domainInfoStoreAll_returns_iff (info : Bytes → DomainInfo) (names : List Bytes)
    (invariant : ArenaInvariant size state) (clock : ∀ index, (insertion index).now = now)
    (room : state.cache.length < size) :
    (∃ after, domainInfoStoreAll size insertion info names state = .ok after) ↔
      ∀ name ∈ names.take
          (size - (state.view.settled (insertion 0) names).entries.length),
        (info name).domain.length < domainLength := by
  have viewRoom : state.view.entries.length < size := by rwa [state.view_length]
  constructor
  · rintro ⟨after, returned⟩
    have stores := (domainInfoStoreAll_stores names invariant returned).2
    exact (stores.admits (DomainView.idle_settled clock names state.view) viewRoom).short
  · intro short
    cases names with
    | nil => exact ⟨state, rfl⟩
    | cons name names =>
        have collected : state.view.settled (insertion 0) (name :: names) =
            state.view.collect (insertion 0) := if_neg (List.cons_ne_nil _ _)
        have shrinks := DomainView.collect_length_le (insertion 0) state.view
        have settledRoom : (state.view.collect (insertion 0)).entries.length < size := by omega
        rw [collected] at short
        have firstShort : (info name).domain.length < domainLength := by
          apply short
          rw [DomainView.take_room settledRoom 0 (info name) name names]
          exact List.mem_cons_self
        obtain ⟨between, slot, stored, betweenInvariant, -, view⟩ :=
          domainInfoStore_of_room invariant room (insertion 0) firstShort
        have idle : between.view.Idle now := by
          rw [view, ← clock 0]
          exact DomainView.idle_collect (insertion 0) state.view
        rw [DomainView.take_room settledRoom slot (info name) name names, ← view] at short
        apply domainInfoStoreAll_cons_returns stored
        exact domainInfoStoreAll_returns_of_idle names betweenInvariant
          (fun index => clock (index + 1)) idle (List.forall_mem_cons.mp short).2

end Returns

/-! ## The lookup that misses -/

section Misses

variable {jsonC : JsonC} {size : Nat} {surroundings : Surroundings} {state after : DomainInfoCache}
variable {domain : Bytes}

/-- The view without the entry a lookup that misses finds expired. -/
def missedView (choice : Bytes → Nat) (state : DomainInfoCache) (domain : Bytes) : DomainView :=
  match domainInfoCacheLookup choice state domain with
  | none => state.view
  | some slot => state.view.remove slot

theorem domainLookup_of_misses (jsonC : JsonC) (invariant : ArenaInvariant size state)
    (misses : MissesCache surroundings state domain) :
    ∃ kept, ArenaInvariant size kept ∧
      kept.view = missedView surroundings.choice state domain ∧
      ∀ response, domainLookup jsonC size surroundings state response domain =
        (domainLookupFetch jsonC size surroundings kept domain).map fun after =>
          (⟨response, true⟩, after) := by
  unfold missedView domainLookup
  cases found : domainInfoCacheLookup surroundings.choice state domain with
  | none =>
      refine ⟨state, invariant, rfl, fun response => ?_⟩
      cases domainLookupFetch jsonC size surroundings state domain <;> rfl
  | some slot =>
      have old := misses slot found
      have nearest := domainInfoCacheLookup_nearest found
      obtain ⟨freed, deleted, freedInvariant, view⟩ :=
        domainInfoDelete_spec invariant (DomainInfoCache.mem_view.mp nearest.1).1
      refine ⟨freed, freedInvariant, view, fun response => ?_⟩
      simp only [gt_iff_lt, Int.not_lt.mpr old, if_false, deleted]
      cases fetched : domainLookupFetch jsonC size surroundings freed domain <;>
        simp [bind, Except.bind, fetched, Except.map]

theorem missedView_length_le (choice : Bytes → Nat) (state : DomainInfoCache) (domain : Bytes) :
    (missedView choice state domain).entries.length ≤ state.cache.length := by
  unfold missedView
  split
  · exact state.view_length.le
  · rw [← state.view_length]
    exact List.length_filter_le _ _

theorem domainLookup_of_hit {slot : Nat}
    (found : domainInfoCacheLookup surroundings.choice state domain = some slot)
    (fresh : surroundings.now < (state.arena slot).expire) (response : DomainResponse) :
    domainLookup jsonC size surroundings state response domain =
      .ok (⟨(state.arena slot).pair, false⟩, state) := by
  unfold domainLookup
  simp only [found]
  exact if_pos fresh

theorem domainLookup_eq_hit {response : DomainResponse} :
    (∃ answer, domainLookup jsonC size surroundings state response domain =
        .ok (⟨answer, false⟩, state)) ↔
      ∃ slot, domainInfoCacheLookup surroundings.choice state domain = some slot ∧
        surroundings.now < (state.arena slot).expire := by
  constructor
  · rintro ⟨answer, returned⟩
    by_contra missing
    have misses : MissesCache surroundings state domain := by
      intro slot found
      by_contra fresh
      exact missing ⟨slot, found, Int.not_le.mp fresh⟩
    have answered := result_of_misses misses returned
    cases answered
  · rintro ⟨slot, found, fresh⟩
    exact ⟨_, domainLookup_of_hit found fresh response⟩

/-- Lookups of the domain from now until some time are answered from the cache,
whatever `HASH_FIND` reaches. -/
def AnswersUntil (jsonC : JsonC) (size : Nat) (now deadline : Int) (domain : Bytes)
    (state : DomainInfoCache) : Prop :=
  ∀ later : Surroundings, now ≤ later.now → later.now < deadline →
    ∀ response, ∃ answer, domainLookup jsonC size later state response domain =
      .ok (⟨answer, false⟩, state)

/-- There is a nearest entry and the nearest ones last. -/
theorem answersUntil_iff {now deadline : Int} (time : now < deadline) :
    AnswersUntil jsonC size now deadline domain state ↔
      (∃ entry ∈ state.view.entries, DottedSuffix.Under dot domain entry.2.domain) ∧
        ∀ entry, state.view.Nearest domain entry → deadline ≤ entry.2.expire := by
  constructor
  · intro hits
    constructor
    · by_contra nothing
      have absent : domainInfoCacheLookup (fun _ => 0) state domain = none := by
        rw [domainInfoCacheLookup_eq_none]
        intro entry member under
        exact nothing ⟨entry, member, under⟩
      obtain ⟨slot, found, -⟩ := domainLookup_eq_hit.mp
        (hits ⟨now, fun _ => 0, none, fun _ => ⟨now, fun _ => 0⟩⟩ le_rfl time ⟨0, 0⟩)
      rw [absent] at found
      cases found
    · intro entry nearest
      obtain ⟨choice, reached⟩ := exists_domainInfoCacheLookup nearest
      obtain ⟨slot, found, fresh⟩ := domainLookup_eq_hit.mp
        (hits ⟨deadline - 1, choice, none, fun _ => ⟨now, fun _ => 0⟩⟩
          (by simp only; omega) (by simp only; omega) ⟨0, 0⟩)
      rw [reached, Option.some.injEq] at found
      subst found
      have stored := (DomainInfoCache.mem_view.mp nearest.1).2
      rw [stored] at fresh
      simp only at fresh
      omega
  · rintro ⟨⟨entry, member, under⟩, lasting⟩ later - early response
    rw [domainLookup_eq_hit]
    cases found : domainInfoCacheLookup later.choice state domain with
    | none => exact absurd under (domainInfoCacheLookup_eq_none.mp found entry member)
    | some slot =>
        have lasts := lasting _ (domainInfoCacheLookup_nearest found)
        exact ⟨slot, rfl, by simp only at lasts; omega⟩

end Misses

/-! ## Which replies are good until their time is over -/

section Replies

variable {jsonC : JsonC} {size : Nat} {surroundings : Surroundings} {state after : DomainInfoCache}
variable {response : DomainResponse} {domain : Bytes}

/-- The lookup returns, and later ones are answered from the cache until some
time. -/
def CachesReply (jsonC : JsonC) (size : Nat) (surroundings : Surroundings)
    (state : DomainInfoCache) (response : DomainResponse) (domain : Bytes)
    (deadline : Int) : Prop :=
  ∃ result after, domainLookup jsonC size surroundings state response domain =
      .ok (result, after) ∧
    AnswersUntil jsonC size surroundings.now deadline domain after

/-- What a lookup that misses leaves of the cache for the reply to join: not the
entry it found expired, nor what the collector removes where something is
stored. -/
def survivors (surroundings : Surroundings) (state : DomainInfoCache) (domain : Bytes)
    (names : List Bytes) : DomainView :=
  (missedView surroundings.choice state domain).settled (surroundings.insertion 0) names

def storedNames (size : Nat) (surroundings : Surroundings) (state : DomainInfoCache)
    (domain : Bytes) (names : List Bytes) : List Bytes :=
  names.take (size - (survivors surroundings state domain names).entries.length)

/-- Among some names and those of the entries left is one the domain is under,
such that no entry left that is at least as near expires before some time. -/
def LastingName (domain : Bytes) (names : List Bytes) (left : DomainView)
    (deadline : Int) : Prop :=
  ∃ name, DottedSuffix.Under dot domain name ∧
    (name ∈ names ∨ ∃ entry ∈ left.entries, entry.2.domain = name) ∧
    ∀ entry ∈ left.entries, DottedSuffix.Under dot domain entry.2.domain →
      name.length ≤ entry.2.domain.length → deadline ≤ entry.2.expire

/-- The names stored fit their buffer, and they or the names that survive reach
the domain. -/
structure ReachesDomain (size : Nat) (surroundings : Surroundings) (state : DomainInfoCache)
    (domain : Bytes) (names : List Bytes) (deadline : Int) : Prop where
  fits : ∀ name ∈ storedNames size surroundings state domain names, name.length < domainLength
  reaches : LastingName domain (storedNames size surroundings state domain names)
    (survivors surroundings state domain names) deadline

theorem DomainView.exists_nearest {view : DomainView} {entry : Nat × DomainInfo}
    (member : entry ∈ view.entries) (under : DottedSuffix.Under dot domain entry.2.domain) :
    ∃ nearest, view.Nearest domain nearest := by
  let candidates := view.entries.filter fun other =>
    decide (DottedSuffix.Under dot domain other.2.domain)
  let length := fun other : Nat × DomainInfo => other.2.domain.length
  have isCandidate : ∀ other, other ∈ candidates ↔
      other ∈ view.entries ∧ DottedSuffix.Under dot domain other.2.domain := by
    intro other
    simp only [candidates, List.mem_filter, decide_eq_true_eq]
  have candidate := (isCandidate entry).mpr ⟨member, under⟩
  cases longest : candidates.argmax length with
  | none =>
      rw [List.argmax_eq_none.mp longest] at candidate
      cases candidate
  | some nearest =>
      obtain ⟨nearestMember, nearestUnder⟩ := (isCandidate nearest).mp (List.argmax_mem longest)
      refine ⟨nearest, nearestMember, nearestUnder, fun other otherMember otherUnder => ?_⟩
      have otherCandidate := (isCandidate other).mpr ⟨otherMember, otherUnder⟩
      exact List.le_of_mem_argmax (f := length) otherCandidate longest

theorem lasts_iff {before after : DomainView} {info : Bytes → DomainInfo} {names : List Bytes}
    {deadline : Int} (named : ∀ name, (info name).domain = name)
    (lasts : ∀ name, (info name).expire = deadline)
    (infos : after.entries.map Prod.snd = before.entries.map Prod.snd ++ names.map info) :
    ((∃ entry ∈ after.entries, DottedSuffix.Under dot domain entry.2.domain) ∧
        ∀ entry, after.Nearest domain entry → deadline ≤ entry.2.expire) ↔
      LastingName domain names before deadline := by
  have entries : ∀ other : DomainInfo, (∃ slot, (slot, other) ∈ after.entries) ↔
      (∃ slot, (slot, other) ∈ before.entries) ∨ ∃ name ∈ names, info name = other := by
    intro other
    have same := congrArg (fun all => other ∈ all) infos
    simpa using same
  constructor
  · rintro ⟨⟨entry, member, under⟩, lasting⟩
    obtain ⟨⟨slot, nearest⟩, isNearest⟩ := DomainView.exists_nearest member under
    refine ⟨nearest.domain, isNearest.2.1, ?_, ?_⟩
    · rcases (entries nearest).mp ⟨slot, isNearest.1⟩ with ⟨place, survivor⟩ | ⟨name, listed, same⟩
      · exact .inr ⟨_, survivor, rfl⟩
      · rw [← same, named]
        exact .inl listed
    · rintro ⟨place, other⟩ survivor otherUnder longer
      obtain ⟨otherSlot, otherMember⟩ := (entries other).mpr (.inl ⟨place, survivor⟩)
      apply lasting (otherSlot, other)
      refine ⟨otherMember, otherUnder, fun third thirdMember thirdUnder => ?_⟩
      exact (isNearest.2.2 third thirdMember thirdUnder).trans longer
  · rintro ⟨name, under, present, lasting⟩
    have reached : ∃ slot other, (slot, other) ∈ after.entries ∧ other.domain = name := by
      rcases present with listed | ⟨⟨place, other⟩, survivor, same⟩
      · obtain ⟨slot, member⟩ := (entries (info name)).mpr (.inr ⟨name, listed, rfl⟩)
        exact ⟨slot, _, member, named name⟩
      · obtain ⟨slot, member⟩ := (entries other).mpr (.inl ⟨place, survivor⟩)
        exact ⟨slot, other, member, same⟩
    obtain ⟨slot, other, member, rfl⟩ := reached
    refine ⟨⟨(slot, other), member, under⟩, ?_⟩
    rintro ⟨nearestSlot, nearest⟩ ⟨nearestMember, nearestUnder, longest⟩
    rcases (entries nearest).mp ⟨nearestSlot, nearestMember⟩ with ⟨place, survivor⟩ | ⟨_, -, rfl⟩
    · exact lasting (place, nearest) survivor nearestUnder (longest _ member under)
    · exact (lasts _).ge

section Reply

variable {answer : QueryServer.QueryResponse} {result : LookupResult}
variable (invariant : ArenaInvariant size state) (room : state.cache.length < size)
variable (misses : MissesCache surroundings state domain)
variable (fetched : surroundings.fetch = some answer.toJson) (nulFree : answer.NulFree)
variable (clock : ∀ index, (surroundings.insertion index).now = (surroundings.insertion 0).now)

include invariant room misses fetched nulFree

theorem domainLookup_of_reply (jsonC : JsonC) :
    ∃ kept, ArenaInvariant size kept ∧ kept.cache.length < size ∧
      kept.view = missedView surroundings.choice state domain ∧
      ∀ response, domainLookup jsonC size surroundings state response domain =
        (domainInfoStoreAll size surroundings.insertion
          (replyInfo surroundings.now (parseReply jsonC answer.toJson)) (answer.names domain)
          kept).map fun after => (⟨response, true⟩, after) := by
  obtain ⟨kept, keptInvariant, keptView, looks⟩ := domainLookup_of_misses jsonC invariant misses
  have keptRoom : kept.cache.length < size := by
    have shrinks := missedView_length_le surroundings.choice state domain
    rw [← keptView, kept.view_length] at shrinks
    omega
  have reply : surroundings.fetch.bind Json.nonNull = some answer.toJson := by
    rw [fetched]
    rfl
  refine ⟨kept, keptInvariant, keptRoom, keptView, fun response => ?_⟩
  rw [looks, domainLookupFetch, reply, (QueryServer.returns_toJson answer).storedEntries jsonC nulFree]
  rfl

include clock

theorem domainLookup_returns_iff (jsonC : JsonC) (response : DomainResponse) :
    (∃ result after, domainLookup jsonC size surroundings state response domain =
        .ok (result, after)) ↔
      ∀ name ∈ storedNames size surroundings state domain (answer.names domain),
        name.length < domainLength := by
  obtain ⟨kept, keptInvariant, keptRoom, keptView, looks⟩ :=
    domainLookup_of_reply invariant room misses fetched nulFree jsonC
  have fits := domainInfoStoreAll_returns_iff
    (replyInfo surroundings.now (parseReply jsonC answer.toJson)) (answer.names domain)
    keptInvariant clock keptRoom
  rw [keptView] at fits
  apply Iff.trans _ fits
  rw [looks]
  constructor
  · rintro ⟨result, after, returned⟩
    obtain ⟨reached, all, -⟩ := except_map_eq_ok.mp returned
    exact ⟨reached, all⟩
  · rintro ⟨after, all⟩
    exact ⟨_, after, except_map_eq_ok.mpr ⟨after, all, rfl⟩⟩

theorem infos_of_reply
    (returned : domainLookup jsonC size surroundings state response domain =
      .ok (result, after)) :
    after.view.entries.map Prod.snd =
      (survivors surroundings state domain (answer.names domain)).entries.map Prod.snd ++
        (storedNames size surroundings state domain (answer.names domain)).map
          (replyInfo surroundings.now (parseReply jsonC answer.toJson)) := by
  obtain ⟨kept, keptInvariant, keptRoom, keptView, looks⟩ :=
    domainLookup_of_reply invariant room misses fetched nulFree jsonC
  rw [looks] at returned
  obtain ⟨reached, all, same⟩ := except_map_eq_ok.mp returned
  cases same
  have stores := (domainInfoStoreAll_stores _ keptInvariant all).2
  have admits := stores.admits (DomainView.idle_settled clock _ kept.view)
    (by rwa [kept.view_length])
  rw [keptView] at admits
  exact admits.infos

end Reply

theorem replyInfo_expire {answer : QueryServer.QueryResponse} {now : Int} (started : 0 ≤ now)
    (ends : now + answer.seconds < 9223372036854775808) (name : Bytes) :
    (replyInfo now (parseReply jsonC answer.toJson) name).expire = now + answer.seconds := by
  have positive := answer.seconds_pos
  rw [replyInfo, (QueryServer.returns_toJson answer).parseReply_ttl jsonC]
  · exact timeT_of_bounds (by omega) ends
  · unfold QueryServer.QueryResponse.seconds at ends
    split at ends <;> omega

/-- The reply of the server is good for the domain until its time is over
exactly where what it stores, with what the cache was left with, reaches the
domain. -/
theorem cachesReply_iff_reachesDomain {answer : QueryServer.QueryResponse}
    (invariant : ArenaInvariant size state) (room : state.cache.length < size)
    (misses : MissesCache surroundings state domain)
    (fetched : surroundings.fetch = some answer.toJson) (nulFree : answer.NulFree)
    (clock : ∀ index, (surroundings.insertion index).now = (surroundings.insertion 0).now)
    (started : 0 ≤ surroundings.now)
    (ends : surroundings.now + answer.seconds < 9223372036854775808) :
    CachesReply jsonC size surroundings state response domain
        (surroundings.now + answer.seconds) ↔
      ReachesDomain size surroundings state domain (answer.names domain)
        (surroundings.now + answer.seconds) := by
  have positive := answer.seconds_pos
  have returns := domainLookup_returns_iff invariant room misses fetched nulFree clock
    jsonC response
  have answers : ∀ result after, domainLookup jsonC size surroundings state response domain =
      .ok (result, after) → (AnswersUntil jsonC size surroundings.now
        (surroundings.now + answer.seconds) domain after ↔
          LastingName domain (storedNames size surroundings state domain (answer.names domain))
            (survivors surroundings state domain (answer.names domain))
            (surroundings.now + answer.seconds)) := by
    intro result after returned
    have infos := infos_of_reply invariant room misses fetched nulFree clock returned
    apply (answersUntil_iff (by omega)).trans
    exact lasts_iff (fun _ => rfl) (replyInfo_expire started ends) infos
  constructor
  · rintro ⟨result, after, returned, answered⟩
    exact ⟨returns.mp ⟨result, after, returned⟩, (answers result after returned).mp answered⟩
  · rintro ⟨fits, reaches⟩
    obtain ⟨result, after, returned⟩ := returns.mpr fits
    exact ⟨result, after, returned, (answers result after returned).mpr reaches⟩

end Replies

def singleRecord (key : Bytes) (record : QueryServer.StoredRecord) : QueryServer.Redis where
  answers := true
  record name := if name = key then some record else none

/-- What `domain-add` stores with category 7, application 9 and one name in
`--cache-domains`. -/
def listedRecord (name : Bytes) (nulFree : 0 ∉ name) (valid : ValidUtf8 name) :
    QueryServer.StoredRecord :=
  { QueryServer.StoredRecord.default with
    category := 7
    application := 9
    cacheDomains := [name]
    nulFree := by
      intro other member
      rw [List.mem_singleton.mp member]
      exact nulFree
    utf8 := by
      intro other member
      rw [List.mem_singleton.mp member]
      exact valid }

def recordOfBc : QueryServer.StoredRecord :=
  listedRecord (ascii ['b', '.', 'c']) (by decide) (by decide)

/-- A first lookup of `a.b.c` with a server that has a record of `b.c`. -/
def firstCall (record : QueryServer.StoredRecord) : LookupCall :=
  callForAbc 1700000000
    (QueryServer.fetchReply (singleRecord (ascii ['b', '.', 'c']) record)
      (ascii ['a', '.', 'b', '.', 'c']))

/-- After `domain-add b.c` the answer about `a.b.c` is not cached. -/
theorem not_cachesReply_emptyList :
    ¬ CachesReply plainJsonC domainInfoArenaSize (firstCall .default).surroundings .initial
      ⟨0, 0⟩ (firstCall .default).domain 1700000300 := by
  rintro ⟨result, after, returned, hits⟩
  have same : domainLookup plainJsonC domainInfoArenaSize (firstCall .default).surroundings
      .initial ⟨0, 0⟩ (firstCall .default).domain = .ok (⟨⟨0, 0⟩, true⟩, .initial) := rfl
  rw [same, Except.ok.injEq, Prod.mk.injEq] at returned
  obtain ⟨-, rfl⟩ := returned
  obtain ⟨answer, again⟩ :=
    hits (callForAbc 1700000001 none).surroundings (by decide) (by decide) ⟨0, 0⟩
  obtain ⟨slot, found, -⟩ := domainLookup_eq_hit.mp ⟨answer, again⟩
  cases found

theorem cachesReply_iff_reachesDomain_recordOfBc :
    CachesReply plainJsonC domainInfoArenaSize (firstCall recordOfBc).surroundings .initial
      ⟨0, 0⟩ (firstCall recordOfBc).domain 1700000300 := by
  have named : (firstCall recordOfBc).domain ≠ [] := by decide
  have fetched : (firstCall recordOfBc).surroundings.fetch =
      some (QueryServer.answerAbout (singleRecord (ascii ['b', '.', 'c']) recordOfBc)
        (firstCall recordOfBc).domain).toJson :=
    QueryServer.fetchReply_of_ne_nil _ named
  have storable := QueryServer.storable_answerAbout
    (singleRecord (ascii ['b', '.', 'c']) recordOfBc) (firstCall recordOfBc).domain
  have misses : MissesCache (firstCall recordOfBc).surroundings .initial
      (firstCall recordOfBc).domain := by
    intro slot found
    cases found
  apply (cachesReply_iff_reachesDomain (arenaInvariant_initial domainInfoArenaSize) (by decide)
    misses fetched storable.nulFree (fun _ => rfl) (by decide) (by decide)).mpr
  constructor
  · show ∀ name ∈ [ascii ['b', '.', 'c']], name.length < domainLength
    decide
  · refine ⟨ascii ['b', '.', 'c'], by decide, .inl (List.mem_singleton_self _), ?_⟩
    rintro entry ⟨⟩

end Uwebfilter
