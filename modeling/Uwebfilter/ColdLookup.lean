import Uwebfilter.DomainLookupView

/-!
# The first lookup of a domain

A lookup that reaches the server stores what the server answers and leaves the
response of its caller untouched, so the first connection to a domain is
decided as if the domain were unknown.
-/

namespace Uwebfilter

open CStrings

/-- The category and the application of a reply, each zero where it is absent. -/
def objectPair (jsonC : JsonC) (obj : Json) : DomainResponse where
  category :=
    ((obj.objectGet (ascii ['c', 'a', 't', 'e', 'g', 'o', 'r', 'y'])).map jsonC.getInt).getD 0
  application :=
    ((obj.objectGet (ascii ['a', 'p', 'p', 'l', 'i', 'c', 'a', 't', 'i', 'o', 'n'])).map
      jsonC.getInt).getD 0

/-- The pair a hit on an entry answers with. -/
def DomainInfo.pair (info : DomainInfo) : DomainResponse := ⟨info.category, info.application⟩

theorem parseReply_category (jsonC : JsonC) (obj : Json) :
    (parseReply jsonC obj).category = (objectPair jsonC obj).category := rfl

theorem parseReply_application (jsonC : JsonC) (obj : Json) :
    (parseReply jsonC obj).application = (objectPair jsonC obj).application ∨
      (parseReply jsonC obj).application = 0 := by
  simp only [parseReply, objectPair]
  split
  · exact .inl rfl
  · exact .inr rfl

theorem storedEntries_info {jsonC : JsonC} {now : Int} {domain : Bytes} {obj : Json}
    {names : List Bytes} {info : Bytes → DomainInfo}
    (entries : storedEntries jsonC now domain (some obj) = .ok (names, info)) :
    info = replyInfo now (parseReply jsonC obj) := by
  cases listed : (parseReply jsonC obj).cacheDomains with
  | none =>
      rw [storedEntries_of_absent jsonC listed, Except.ok.injEq, Prod.mk.injEq] at entries
      exact entries.2.symm
  | some cacheDomains =>
      cases array : cacheDomains.arrayElements with
      | none => simp [storedEntries, listed, array] at entries
      | some elements =>
          rw [storedEntries_of_array jsonC listed array, Except.ok.injEq, Prod.mk.injEq] at entries
          exact entries.2.symm

section Cold

variable {jsonC : JsonC} {size : Nat} {surroundings : Surroundings} {state after : DomainInfoCache}
variable {response : DomainResponse} {domain : Bytes} {result : LookupResult}

/-- The cache has no unexpired entry for the domain. -/
def MissesCache (surroundings : Surroundings) (state : DomainInfoCache) (domain : Bytes) : Prop :=
  ∀ slot, domainInfoCacheLookup surroundings.choice state domain = some slot →
    (state.arena slot).expire ≤ surroundings.now

theorem result_of_misses (misses : MissesCache surroundings state domain)
    (returned : domainLookup jsonC size surroundings state response domain =
      .ok (result, after)) : result = ⟨response, true⟩ := by
  unfold domainLookup at returned
  cases found : domainInfoCacheLookup surroundings.choice state domain with
  | none =>
      simp only [found, except_bind_eq_ok, Except.ok.injEq, Prod.mk.injEq] at returned
      obtain ⟨_, -, rfl, -⟩ := returned
      rfl
  | some slot =>
      have old := misses slot found
      simp only [found, gt_iff_lt, Int.not_lt.mpr old, if_false, except_bind_eq_ok,
        Except.ok.injEq, Prod.mk.injEq] at returned
      obtain ⟨_, -, _, -, rfl, -⟩ := returned
      rfl

theorem added_of_misses {obj : Json} (invariant : ArenaInvariant size state)
    (misses : MissesCache surroundings state domain)
    (fetched : surroundings.fetch.bind Json.nonNull = some obj)
    (returned : domainLookup jsonC size surroundings state response domain = .ok (result, after))
    {entry : Nat × DomainInfo} (member : entry ∈ after.view.entries)
    (new : entry ∉ state.view.entries) :
    ∃ name, entry.2 = replyInfo surroundings.now (parseReply jsonC obj) name := by
  have answered := result_of_misses misses returned
  have looks := (domainLookup_looks invariant returned).2
  subst answered
  cases looks with
  | fetch kept _ names info missed entries stores =>
      rw [fetched] at entries
      rcases stores.mem member with old | ⟨name, -, same, -⟩
      · exact absurd (missed.subset old) new
      · exact ⟨name, by rw [same, storedEntries_info entries]⟩

/-- The response is the reply's pair, and so is every entry the lookup added. -/
structure ColdAgrees (jsonC : JsonC) (obj : Json) (result : LookupResult)
    (before after : DomainView) : Prop where
  response : result.response = objectPair jsonC obj
  added : ∀ entry ∈ after.entries, entry ∉ before.entries → entry.2.pair = objectPair jsonC obj

/-- A first lookup, with the response `check_access` clears, agrees with the
later ones exactly where the server's pair is the cleared one. -/
theorem coldAgrees_iff_unknown {members : List (Bytes × Json)}
    (invariant : ArenaInvariant size state) (misses : MissesCache surroundings state domain)
    (fetched : surroundings.fetch = some (.object members))
    (returned : domainLookup jsonC size surroundings state ⟨0, 0⟩ domain = .ok (result, after)) :
    ColdAgrees jsonC (.object members) result state.view after.view ↔
      objectPair jsonC (.object members) = ⟨0, 0⟩ := by
  have answered := result_of_misses misses returned
  constructor
  · intro agrees
    rw [← agrees.response, answered]
  · intro unknown
    refine ⟨by rw [answered, unknown], fun entry member new => ?_⟩
    have reply : surroundings.fetch.bind Json.nonNull = some (.object members) := by
      rw [fetched]
      rfl
    obtain ⟨name, same⟩ := added_of_misses invariant misses reply returned member new
    have category := parseReply_category jsonC (.object members)
    have application := parseReply_application jsonC (.object members)
    rw [unknown] at category application ⊢
    rw [same, DomainInfo.pair, replyInfo, category, application.elim id id]

end Cold

/-- The first lookup of `a.b.c` answers with zeros for a reply of category 7 and
application 9. -/
theorem not_coldAgrees_listingReply :
    ∃ result after,
      domainLookup plainJsonC domainInfoArenaSize
          (callForAbc 1700000000 (some listingReply)).surroundings .initial ⟨0, 0⟩
          (callForAbc 1700000000 none).domain = .ok (result, after) ∧
        ¬ ColdAgrees plainJsonC listingReply result DomainInfoCache.initial.view after.view := by
  refine ⟨_, _, rfl, fun agrees => ?_⟩
  have response := agrees.response
  revert response
  decide

theorem coldAgrees_iff_unknown_listingReply :
    ∃ result after,
      domainLookup plainJsonC domainInfoArenaSize
          (callForAbc 1700000000 (some listingReply)).surroundings .initial ⟨0, 0⟩
          (callForAbc 1700000000 none).domain = .ok (result, after) ∧
        (ColdAgrees plainJsonC listingReply result DomainInfoCache.initial.view after.view ↔
          objectPair plainJsonC listingReply = ⟨0, 0⟩) := by
  have invariant := arenaInvariant_initial domainInfoArenaSize
  obtain ⟨result, after, returned⟩ :=
    domainLookup_returns invariant shortNames_callForAbc ⟨0, 0⟩
  refine ⟨result, after, returned, coldAgrees_iff_unknown invariant ?_ rfl returned⟩
  intro slot found
  cases found

end Uwebfilter
