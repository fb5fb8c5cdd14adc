import Uwebfilter.CachedReplies

/-!
# Where cached answers come from

Whatever the collector evicts, whichever slots the arena hands out again and
whichever of several entries of a name a search reaches, each entry of the cache
was stored by an earlier call, under a name of that call's reply and with a
deadline no later than the reply's.  An answer from the cache is the answer of
such an entry, a number beyond an `int` being kept as the nearest one.
-/

namespace Uwebfilter

open CStrings QueryServer

/-- A call stores an answer under a name, good until some time: what is read of
the reply for the names it lists, or zeros for a minute where the fetch failed. -/
inductive BacksAs (read : QueryResponse → DomainResponse) (call : LookupCall) :
    Bytes → DomainResponse → Int → Prop
  | failed (nothing : call.surroundings.fetch.bind Json.nonNull = none) :
      BacksAs read call call.domain ⟨0, 0⟩ (call.surroundings.now + 60)
  | replied {obj : Json} {reply : QueryResponse} {name : Bytes}
      (answered : call.surroundings.fetch.bind Json.nonNull = some obj)
      (returns : Returns obj reply) (listed : name ∈ reply.names call.domain) :
      BacksAs read call name (read reply) (call.surroundings.now + reply.seconds)

/-- A call stores the reply as the daemon reads it. -/
abbrev Backs : LookupCall → Bytes → DomainResponse → Int → Prop :=
  BacksAs QueryResponse.readPair

/-- The clock reads a `time_t`, the fetch fails or returns numbers, with a `ttl`
below 2 ^ 31, and the names fit their buffer. -/
structure PlainCall (call : LookupCall) : Prop where
  clock : timeT call.surroundings.now = call.surroundings.now
  short : call.domain.length < domainLength
  replied : ∀ obj, call.surroundings.fetch.bind Json.nonNull = some obj →
    ∃ reply, Returns obj reply ∧ reply.ttl ≤ 2147483647 ∧ reply.NulFree ∧
      ∀ name ∈ reply.names call.domain, name.length < domainLength

/-- An entry holds an answer that one of some calls stores under its name, and
expires no later. -/
def Backed (calls : List LookupCall) (info : DomainInfo) : Prop :=
  ∃ call ∈ calls, ∃ deadline, Backs call info.domain info.pair deadline ∧ info.expire ≤ deadline

theorem Backed.append {calls : List LookupCall} {info : DomainInfo} (backed : Backed calls info)
    (more : List LookupCall) : Backed (calls ++ more) info := by
  obtain ⟨call, member, backs⟩ := backed
  exact ⟨call, List.mem_append_left more member, backs⟩

section Entries

variable {jsonC : JsonC} {size : Nat} {state after : DomainInfoCache} {call : LookupCall}
variable {names : List Bytes} {info : Bytes → DomainInfo} {result : LookupResult}

theorem backed_of_storedEntries (plain : PlainCall call)
    (entries : storedEntries jsonC call.surroundings.now call.domain
      (call.surroundings.fetch.bind Json.nonNull) = .ok (names, info))
    {name : Bytes} (listed : name ∈ names) : Backed [call] (info name) := by
  refine ⟨call, List.mem_singleton_self call, ?_⟩
  cases fetched : call.surroundings.fetch.bind Json.nonNull with
  | none =>
      rw [fetched] at entries
      cases entries
      obtain rfl := List.mem_singleton.mp listed
      exact ⟨_, .failed fetched, timeT_le plain.clock (by decide)⟩
  | some obj =>
      obtain ⟨reply, returns, below, nulFree, -⟩ := plain.replied obj fetched
      rw [fetched, returns.storedEntries jsonC nulFree] at entries
      cases entries
      obtain ⟨category, application⟩ := returns.parseReply_pair jsonC
      have ttl : (parseReply jsonC obj).ttl = reply.seconds :=
        returns.parseReply_ttl jsonC (by omega)
      have positive := reply.seconds_pos
      have pair : (replyInfo call.surroundings.now (parseReply jsonC obj) name).pair =
          reply.readPair := congrArg₂ DomainResponse.mk category application
      refine ⟨call.surroundings.now + reply.seconds, ?_, ?_⟩
      · rw [pair]
        exact .replied fetched returns listed
      · rw [replyInfo, ttl]
        exact timeT_le plain.clock positive.le

theorem shortNames_of_plainCall (jsonC : JsonC) (plain : PlainCall call) :
    ShortNames jsonC call.surroundings call.domain := by
  refine ⟨plain.short, fun obj fetched cacheDomains listed => ?_⟩
  obtain ⟨reply, returns, -, nulFree, short⟩ := plain.replied obj fetched
  have member : reply.cacheDomains.map (fun names => .array (names.map .string)) =
      some cacheDomains := returns.cacheDomains.symm.trans listed
  obtain ⟨names, same, rfl⟩ := Option.map_eq_some_iff.mp member
  refine ⟨_, rfl, ?_⟩
  rw [cacheDomainNames_strings jsonC (nulFree names same)]
  rwa [QueryResponse.names, same] at short

/-- What a call leaves in the cache was there before, or is its own. -/
theorem lookup_backed {earlier : List LookupCall} (invariant : ArenaInvariant size state)
    (backed : ∀ entry ∈ state.view.entries, Backed earlier entry.2) (plain : PlainCall call)
    (returned : domainLookup jsonC size call.surroundings state call.response call.domain =
      .ok (result, after)) :
    ∀ entry ∈ after.view.entries, Backed (earlier ++ [call]) entry.2 := by
  intro entry member
  have looks := (domainLookup_looks invariant returned).2
  generalize after.view = view at looks member
  cases looks with
  | hit => exact (backed entry member).append [call]
  | fetch kept _ names info missed entries stores =>
      rcases stores.mem member with old | ⟨name, listed, same, -⟩
      · exact (backed entry (missed.subset old)).append [call]
      · obtain ⟨stored, inside, backs⟩ := backed_of_storedEntries plain entries listed
        rw [same]
        exact ⟨stored, List.mem_append_right earlier inside, backs⟩

theorem answered_of_backed {earlier : List LookupCall} (invariant : ArenaInvariant size state)
    (backed : ∀ entry ∈ state.view.entries, Backed earlier entry.2) {answer : DomainResponse}
    (returned : domainLookup jsonC size call.surroundings state call.response call.domain =
      .ok (⟨answer, false⟩, after)) :
    ∃ source ∈ earlier, ∃ name deadline, Backs source name answer deadline ∧
      DottedSuffix.Under dot call.domain name ∧ call.surroundings.now < deadline := by
  have looks := (domainLookup_looks invariant returned).2
  generalize found : (⟨answer, false⟩ : LookupResult) = result at looks
  generalize after.view = view at looks
  cases looks with
  | hit entry nearest fresh =>
      cases found
      obtain ⟨source, member, deadline, backs, expires⟩ := backed entry nearest.1
      exact ⟨source, member, entry.2.domain, deadline, backs, nearest.2.1,
        lt_of_lt_of_le fresh expires⟩
  | fetch => cases found

end Entries

theorem lookupRun_backed (jsonC : JsonC) (size : Nat) (calls : List LookupCall)
    (plain : ∀ call ∈ calls, PlainCall call) :
    ∃ reached results, lookupRun jsonC size calls = .ok (reached, results) ∧
      ArenaInvariant size reached ∧ ∀ entry ∈ reached.view.entries, Backed calls entry.2 := by
  apply MachineRun.run_invariant (lookupStep jsonC size) .initial
    (fun earlier state =>
      ArenaInvariant size state ∧ ∀ entry ∈ state.view.entries, Backed earlier entry.2)
    PlainCall ⟨arenaInvariant_initial size, fun entry member => nomatch member⟩ _ calls plain
  rintro earlier state call ⟨invariant, backed⟩ plain
  obtain ⟨after, result, stepped, returned⟩ :=
    lookupStep_returns invariant (shortNames_of_plainCall jsonC plain)
  exact ⟨after, result, stepped, (domainLookup_looks invariant returned).1,
    lookup_backed invariant backed plain returned⟩

/-- After any calls, an answer from the cache is that of an earlier call's reply
as it was read, or of its failure, for a name the domain is under, and not over. -/
theorem hit_backed (jsonC : JsonC) (size : Nat) (earlier : List LookupCall) (call : LookupCall)
    (plain : ∀ other ∈ earlier ++ [call], PlainCall other) :
    ∃ state results after result, lookupRun jsonC size earlier = .ok (state, results) ∧
      domainLookup jsonC size call.surroundings state call.response call.domain =
        .ok (result, after) ∧
      (result.fetched = false →
        ∃ source ∈ earlier, ∃ name deadline, Backs source name result.response deadline ∧
          DottedSuffix.Under dot call.domain name ∧ call.surroundings.now < deadline) := by
  obtain ⟨state, results, ran, invariant, backed⟩ := lookupRun_backed jsonC size earlier
    fun other member => plain other (List.mem_append_left [call] member)
  obtain ⟨after, result, -, returned⟩ := lookupStep_returns invariant
    (shortNames_of_plainCall jsonC (plain call (by simp)))
  refine ⟨state, results, after, result, ran, returned, fun hit => ?_⟩
  obtain ⟨answer, fetched⟩ := result
  obtain rfl : fetched = false := hit
  exact answered_of_backed invariant backed returned

theorem plainCall_firstCall : PlainCall (firstCall recordOfBc) := by
  refine ⟨by decide, by decide, fun obj fetched => ?_⟩
  have named : (firstCall recordOfBc).domain ≠ [] := by decide
  have answered := fetchReply_of_ne_nil
    (singleRecord (ascii ['b', '.', 'c']) recordOfBc) named
  have same : some obj = fetchReply (singleRecord (ascii ['b', '.', 'c']) recordOfBc)
      (firstCall recordOfBc).domain := fetched.symm
  rw [answered, Option.some.injEq] at same
  subst same
  have storable := storable_answerAbout (singleRecord (ascii ['b', '.', 'c']) recordOfBc)
    (firstCall recordOfBc).domain
  exact ⟨_, returns_toJson _, storable.ttl, storable.nulFree, by decide⟩

theorem plainCall_unanswered : PlainCall (callForAbc 1700000001 none) :=
  ⟨by decide, by decide, fun obj fetched => nomatch fetched⟩

/-- A second lookup of `a.b.c` is answered with what the first one stored for
`b.c`. -/
theorem hit_backed_secondLookup :
    ∃ state results after,
      lookupRun plainJsonC domainInfoArenaSize [firstCall recordOfBc] = .ok (state, results) ∧
      domainLookup plainJsonC domainInfoArenaSize (callForAbc 1700000001 none).surroundings state
        ⟨0, 0⟩ (callForAbc 1700000001 none).domain = .ok (⟨⟨7, 9⟩, false⟩, after) ∧
      ∃ source ∈ [firstCall recordOfBc], ∃ name deadline, Backs source name ⟨7, 9⟩ deadline ∧
        DottedSuffix.Under dot (callForAbc 1700000001 none).domain name ∧
        1700000001 < deadline := by
  obtain ⟨state, results, after, result, ran, returned, backed⟩ :=
    hit_backed plainJsonC domainInfoArenaSize [firstCall recordOfBc] (callForAbc 1700000001 none)
      (by
        intro call member
        rcases List.mem_pair.mp member with rfl | rfl
        · exact plainCall_firstCall
        · exact plainCall_unanswered)
  have hit : result = ⟨⟨7, 9⟩, false⟩ := by
    cases ran
    cases returned
    rfl
  subst hit
  exact ⟨state, results, after, ran, returned, backed rfl⟩

/-- A reply whose category is one more than the largest `int`. -/
def wideReply : QueryResponse := ⟨2147483648, 9, 300, none⟩

theorem plainCall_wideReply : PlainCall (callForAbc 1700000000 (some wideReply.toJson)) := by
  refine ⟨by decide, by decide, fun obj fetched => ?_⟩
  obtain rfl : wideReply.toJson = obj := Option.some.inj fetched
  refine ⟨wideReply, returns_toJson wideReply, by decide, ?_, by decide⟩
  rintro names ⟨⟩

/-- After such a reply the cache answers with a category that no fetch returned. -/
theorem not_hit_backed_exactly :
    (∀ call ∈ [callForAbc 1700000000 (some wideReply.toJson), callForAbc 1700000001 none],
      PlainCall call) ∧
    ∃ state results after,
      lookupRun plainJsonC domainInfoArenaSize
        [callForAbc 1700000000 (some wideReply.toJson)] = .ok (state, results) ∧
      domainLookup plainJsonC domainInfoArenaSize (callForAbc 1700000001 none).surroundings state
        ⟨0, 0⟩ (callForAbc 1700000001 none).domain = .ok (⟨⟨2147483647, 9⟩, false⟩, after) ∧
      ∀ source ∈ [callForAbc 1700000000 (some wideReply.toJson)], ∀ name deadline,
        ¬ BacksAs QueryResponse.pair source name ⟨2147483647, 9⟩ deadline := by
  refine ⟨?_, _, _, _, rfl, rfl, ?_⟩
  · intro call member
    rcases List.mem_pair.mp member with rfl | rfl
    · exact plainCall_wideReply
    · exact plainCall_unanswered
  · intro source member name deadline backs
    obtain rfl := List.mem_singleton.mp member
    generalize answer : (⟨2147483647, 9⟩ : DomainResponse) = response at backs
    cases backs with
    | failed nothing => cases nothing
    | @replied obj reply _ answered returns listed =>
        obtain rfl : wideReply.toJson = obj := Option.some.inj answered
        have category : some (Json.int 2147483648) = some (.int reply.category) :=
          returns.category
        have same := congrArg DomainResponse.category answer
        simp only [Option.some.injEq, Json.int.injEq] at category
        simp only [QueryResponse.pair, ← category] at same
        cases same

end Uwebfilter
