import Uwebfilter.CachedReplies

/-!
# Answers from the cache and answers from the server

The daemon answers for every name below a cached one, the server for every name
below a recorded one with the most specific record.  The two agree over all
sequences of lookups exactly where the server answers alike for all the names
below one that its answer is cached under.
-/

namespace Uwebfilter

open CStrings

namespace QueryServer

/-- The pair of what the daemon's request about a domain comes back as. -/
def replyPair (jsonC : JsonC) (redis : Redis) (domain : Bytes) : Option DomainResponse :=
  (fetchReply redis domain).map (objectPair jsonC)

theorem objectPair_toJson (jsonC : JsonC) {response : QueryResponse}
    (storable : response.Storable) : objectPair jsonC response.toJson = response.pair := by
  rw [← storable.readPair_eq]
  exact congrArg₂ DomainResponse.mk (jsonC.getInt_int response.category)
    (jsonC.getInt_int response.application)

theorem replyPair_of_ne_nil (jsonC : JsonC) (redis : Redis) {domain : Bytes}
    (named : domain ≠ []) :
    replyPair jsonC redis domain = some (answerAbout redis domain).pair := by
  rw [replyPair, fetchReply_of_ne_nil redis named, Option.map_some,
    objectPair_toJson jsonC (storable_answerAbout redis domain)]

end QueryServer

open QueryServer

section Transparency

variable (jsonC : JsonC) (size : Nat) (redis : Redis)

/-- A call with this server, in a state with no expired entry, whose fetch does
not fail. -/
structure ServedCall (state : DomainInfoCache) (call : LookupCall)
    (result : LookupResult) : Prop where
  unexpired : ∀ entry ∈ state.view.entries, call.surroundings.now < entry.2.expire
  served : result.fetched = true →
    ∃ document, call.surroundings.fetch = some document ∧
      fetchReply redis call.domain = some document

/-- The states after such calls, in any order. -/
inductive ServedState : DomainInfoCache → Prop
  | initial : ServedState .initial
  | lookup {state after : DomainInfoCache} {call : LookupCall} {result : LookupResult}
      (reached : ServedState state) (served : ServedCall redis state call result)
      (returned : domainLookup jsonC size call.surroundings state call.response call.domain =
        .ok (result, after)) : ServedState after

/-- What the cache answers is what the server would. -/
def Transparent : Prop :=
  ∀ state, ServedState jsonC size redis state → ∀ call answer after,
    ServedCall redis state call ⟨answer, false⟩ →
    domainLookup jsonC size call.surroundings state call.response call.domain =
      .ok (⟨answer, false⟩, after) →
    replyPair jsonC redis call.domain = some answer

/-- Below every name that an answer about a domain is cached under, the server
answers as it does about the domain. -/
def Uniform : Prop :=
  ∀ domain, domain ≠ [] → ∀ name ∈ (answerAbout redis domain).names domain,
    name.length < domainLength → ∀ below, DottedSuffix.Under dot below name →
      replyPair jsonC redis below = replyPair jsonC redis domain

/-- The lists of all records fit into an empty cache. -/
structure ListsFit : Prop where
  size_pos : 0 < size
  length_le : ∀ key record, redis.record key = some record → record.cacheDomains.length ≤ size
  short : ∀ key record, redis.record key = some record →
    ∀ name ∈ record.cacheDomains, name.length < domainLength

/-- An entry answers for every name below its own as the server does. -/
def Sound (info : DomainInfo) : Prop :=
  ∀ below, DottedSuffix.Under dot below info.domain →
    replyPair jsonC redis below = some info.pair

variable {jsonC size redis}

theorem replyInfo_pair {response : QueryResponse} (storable : response.Storable) (now : Int)
    (name : Bytes) :
    (replyInfo now (parseReply jsonC response.toJson) name).pair = response.pair := by
  obtain ⟨category, application⟩ := (returns_toJson response).parseReply_pair jsonC
  rw [← storable.readPair_eq]
  exact congrArg₂ DomainResponse.mk category application

theorem sound_replyInfo (uniform : Uniform jsonC redis) {domain name : Bytes}
    (named : domain ≠ []) (listed : name ∈ (answerAbout redis domain).names domain)
    (short : name.length < domainLength) (now : Int) :
    Sound jsonC redis
      (replyInfo now (parseReply jsonC (answerAbout redis domain).toJson) name) := by
  intro below under
  have same := uniform domain named name listed short below under
  rw [same, replyPair_of_ne_nil jsonC redis named,
    replyInfo_pair (storable_answerAbout redis domain)]

/-- A call keeps the invariant of the arena and the soundness of the entries. -/
theorem lookup_sound (uniform : Uniform jsonC redis) {state after : DomainInfoCache}
    {call : LookupCall} {result : LookupResult} (invariant : ArenaInvariant size state)
    (sound : ∀ entry ∈ state.view.entries, Sound jsonC redis entry.2)
    (served : ServedCall redis state call result)
    (returned : domainLookup jsonC size call.surroundings state call.response call.domain =
      .ok (result, after)) :
    ArenaInvariant size after ∧ ∀ entry ∈ after.view.entries, Sound jsonC redis entry.2 := by
  obtain ⟨afterInvariant, looks⟩ := domainLookup_looks invariant returned
  refine ⟨afterInvariant, fun entry member => ?_⟩
  have fetches := served.served
  generalize after.view = view at looks member
  cases looks with
  | hit => exact sound entry member
  | fetch kept _ names info missed entries stores =>
      obtain ⟨document, fetched, answered⟩ := fetches rfl
      obtain ⟨named, rfl⟩ := fetchReply_eq_some answered
      have nulFree := (storable_answerAbout redis call.domain).nulFree
      have reply : call.surroundings.fetch.bind Json.nonNull =
          some (answerAbout redis call.domain).toJson := by
        rw [fetched]
        rfl
      rw [reply, (returns_toJson _).storedEntries jsonC nulFree] at entries
      cases entries
      rcases stores.mem member with old | ⟨name, listed, same, short⟩
      · exact sound entry (missed.subset old)
      · rw [same]
        exact sound_replyInfo uniform named listed short _

theorem ServedState.sound (uniform : Uniform jsonC redis) {state : DomainInfoCache}
    (reached : ServedState jsonC size redis state) :
    ArenaInvariant size state ∧ ∀ entry ∈ state.view.entries, Sound jsonC redis entry.2 := by
  induction reached with
  | initial =>
      refine ⟨arenaInvariant_initial size, fun entry member => ?_⟩
      cases member
  | lookup reached served returned ih =>
      exact lookup_sound uniform ih.1 ih.2 served returned

theorem transparent_of_uniform (uniform : Uniform jsonC redis) :
    Transparent jsonC size redis := by
  intro state reached call answer after served returned
  obtain ⟨invariant, sound⟩ := reached.sound uniform
  have looks := (domainLookup_looks invariant returned).2
  generalize found : (⟨answer, false⟩ : LookupResult) = result at looks
  generalize after.view = view at looks
  cases looks with
  | hit entry nearest fresh =>
      cases found
      exact sound entry nearest.1 call.domain nearest.2.1
  | fetch => cases found

/-! ## What transparency asks of the records -/

theorem nearestRecord_stored {domain : Bytes} {record : StoredRecord}
    (nearest : nearestRecord redis domain = some record) :
    ∃ key, redis.record key = some record := by
  unfold nearestRecord at nearest
  split at nearest
  · obtain ⟨key, -, stored, -⟩ := DottedSuffix.walk_eq_some nearest
    exact ⟨key, stored⟩
  · cases nearest

theorem ListsFit.names (fits : ListsFit size redis) {domain name : Bytes}
    (listed : name ∈ (answerAbout redis domain).names domain)
    (short : name.length < domainLength) :
    ((answerAbout redis domain).names domain).length ≤ size ∧
      ∀ stored ∈ (answerAbout redis domain).names domain, stored.length < domainLength := by
  rw [answerAbout_eq] at listed ⊢
  cases nearest : nearestRecord redis (Utf8.coerce domain) with
  | none =>
      rw [nearest] at listed
      have alone : name = domain := List.mem_singleton.mp listed
      subst alone
      constructor
      · exact fits.size_pos
      · intro stored member
        rw [List.mem_singleton.mp member]
        exact short
  | some record =>
      obtain ⟨key, stored⟩ := nearestRecord_stored nearest
      exact ⟨fits.length_le key record stored, fits.short key record stored⟩

theorem missesCache_initial (surroundings : Surroundings) (domain : Bytes) :
    MissesCache surroundings .initial domain := by
  intro slot found
  have nearest := domainInfoCacheLookup_nearest found
  cases nearest.1

theorem survivors_initial (surroundings : Surroundings) (domain : Bytes) (names : List Bytes) :
    (survivors surroundings .initial domain names).entries = [] := by
  have absent : domainInfoCacheLookup surroundings.choice .initial domain = none := by
    rw [domainInfoCacheLookup_eq_none]
    intro entry member
    cases member
  unfold survivors missedView DomainView.settled
  rw [absent]
  split
  · rfl
  · exact List.subset_nil.mp (DomainView.collect_subset _ _)

def atStart (fetch : Option Json) : Surroundings :=
  ⟨0, fun _ => 0, fetch, fun _ => ⟨0, fun _ => 0⟩⟩

theorem seconds_le {response : QueryResponse} (storable : response.Storable) :
    response.seconds ≤ 2147483647 := by
  have below := storable.ttl
  unfold QueryResponse.seconds domainInfoCacheDefaultTtl
  split <;> omega

theorem firstLookup (jsonC : JsonC) (fits : ListsFit size redis) {domain name : Bytes}
    (named : domain ≠ []) (listed : name ∈ (answerAbout redis domain).names domain)
    (short : name.length < domainLength) :
    ∃ after, ServedState jsonC size redis after ∧
      after.view.entries.map Prod.snd = ((answerAbout redis domain).names domain).map
        (replyInfo 0 (parseReply jsonC (answerAbout redis domain).toJson)) := by
  obtain ⟨length, allShort⟩ := fits.names listed short
  have answered := fetchReply_of_ne_nil redis named
  have misses := missesCache_initial (atStart (fetchReply redis domain)) domain
  have nulFree := (storable_answerAbout redis domain).nulFree
  have stored : storedNames size (atStart (fetchReply redis domain)) .initial domain
      ((answerAbout redis domain).names domain) = (answerAbout redis domain).names domain := by
    rw [storedNames, survivors_initial]
    exact List.take_of_length_le length
  have invariant := arenaInvariant_initial size
  obtain ⟨result, after, returned⟩ :=
    (domainLookup_returns_iff invariant fits.size_pos misses answered nulFree (fun _ => rfl)
      jsonC ⟨0, 0⟩).mpr (by rwa [stored])
  have infos :=
    infos_of_reply invariant fits.size_pos misses answered nulFree (fun _ => rfl) returned
  rw [stored, survivors_initial, List.map_nil, List.nil_append] at infos
  have served : ServedCall redis .initial
      ⟨atStart (fetchReply redis domain), ⟨0, 0⟩, domain⟩ result := by
    constructor
    · intro entry member
      cases member
    · exact fun _ => ⟨_, answered, answered⟩
  exact ⟨after, .lookup .initial served returned, infos⟩

theorem uniform_of_transparent (fits : ListsFit size redis)
    (transparent : Transparent jsonC size redis) : Uniform jsonC redis := by
  intro domain named name listed short below under
  obtain ⟨state, reached, infos⟩ := firstLookup jsonC fits named listed short
  have storable := storable_answerAbout redis domain
  have seconds := seconds_le storable
  have positive := (answerAbout redis domain).seconds_pos
  have unexpired : ∀ entry ∈ state.view.entries, 0 < entry.2.expire ∧
      entry.2.pair = (answerAbout redis domain).pair := by
    intro entry member
    have info := List.mem_map_of_mem (f := Prod.snd) member
    rw [infos] at info
    obtain ⟨stored, -, same⟩ := List.mem_map.mp info
    rw [← same, replyInfo_expire le_rfl (by omega), replyInfo_pair storable]
    exact ⟨by omega, rfl⟩
  have present : replyInfo 0 (parseReply jsonC (answerAbout redis domain).toJson) name ∈
      state.view.entries.map Prod.snd := by
    rw [infos]
    exact List.mem_map_of_mem listed
  obtain ⟨entry, member, same⟩ := List.mem_map.mp present
  cases found : domainInfoCacheLookup (atStart none).choice state below with
  | none =>
      apply absurd under
      have absent := domainInfoCacheLookup_eq_none.mp found entry member
      rwa [same] at absent
  | some slot =>
      have reachedEntry := (domainInfoCacheLookup_nearest found).1
      obtain ⟨fresh, pair⟩ := unexpired _ reachedEntry
      have served : ServedCall redis state ⟨atStart none, ⟨0, 0⟩, below⟩
          ⟨(state.arena slot).pair, false⟩ := by
        constructor
        · exact fun other otherMember => (unexpired other otherMember).1
        · intro fetched
          cases fetched
      have agreed := transparent state reached _ _ _ served
        (domainLookup_of_hit found fresh ⟨0, 0⟩)
      rw [replyPair_of_ne_nil jsonC redis named, ← pair]
      exact agreed

end Transparency

/-- What the cache answers is what the server would over all sequences of calls
where the records are uniform, and where their lists fit only then. -/
theorem transparent_uniform (jsonC : JsonC) (size : Nat) (redis : Redis) :
    (Uniform jsonC redis → Transparent jsonC size redis) ∧
      (ListsFit size redis → Transparent jsonC size redis → Uniform jsonC redis) :=
  ⟨transparent_of_uniform, uniform_of_transparent⟩

/-- Every record lists no names or its own key among them. -/
def SelfListed (redis : Redis) : Prop :=
  ∀ key record, redis.record key = some record →
    record.cacheDomains = [] ∨ key ∈ record.cacheDomains

/-- Records of `b.c` and `a.b.c`, each listing its own key, with the default
category for the one. -/
def nestedRecords : Redis where
  answers := true
  record name :=
    if name = ascii ['b', '.', 'c'] then some recordOfBc
    else if name = ascii ['a', '.', 'b', '.', 'c'] then
      some { listedRecord (ascii ['a', '.', 'b', '.', 'c']) (by decide) (by decide) with
        category := 8 }
    else none

/-- After a lookup of `x.b.c` the cache answers for `a.b.c` with the record of
`b.c`. -/
theorem not_transparent_nestedRecords :
    SelfListed nestedRecords ∧ ¬ Transparent plainJsonC domainInfoArenaSize nestedRecords := by
  constructor
  · intro key record stored
    simp only [nestedRecords] at stored
    split at stored
    · subst_vars
      cases stored
      exact .inr (List.mem_singleton_self _)
    · split at stored
      · subst_vars
        cases stored
        exact .inr (List.mem_singleton_self _)
      · cases stored
  · intro transparent
    have answered : fetchReply nestedRecords (ascii ['x', '.', 'b', '.', 'c']) =
        some (answerAbout nestedRecords (ascii ['x', '.', 'b', '.', 'c'])).toJson := rfl
    have first : ServedCall nestedRecords .initial
        ⟨atStart (fetchReply nestedRecords (ascii ['x', '.', 'b', '.', 'c'])), ⟨0, 0⟩,
          ascii ['x', '.', 'b', '.', 'c']⟩ ⟨⟨0, 0⟩, true⟩ := by
      constructor
      · rintro entry ⟨⟩
      · exact fun _ => ⟨_, answered, answered⟩
    have reached : ServedState plainJsonC domainInfoArenaSize nestedRecords _ :=
      .lookup .initial first rfl
    have second := transparent _ reached
      ⟨atStart none, ⟨0, 0⟩, ascii ['a', '.', 'b', '.', 'c']⟩ ⟨7, 9⟩ _
      ⟨by decide, fun fetched => nomatch fetched⟩ rfl
    revert second
    decide

/-! ## Records that are uniform -/

theorem nearestRecord_singleRecord (key : Bytes) (record : StoredRecord) (domain : Bytes) :
    nearestRecord (singleRecord key record) domain =
      if DottedSuffix.Under dot domain key then some record else none := by
  have walks : nearestRecord (singleRecord key record) domain =
      DottedSuffix.walk dot (singleRecord key record).record domain := rfl
  rw [walks]
  split
  · rename_i under
    cases walk : DottedSuffix.walk dot (singleRecord key record).record domain with
    | none =>
        have absent := DottedSuffix.walk_eq_none.mp walk key under
        simp [singleRecord] at absent
    | some found =>
        obtain ⟨ancestor, -, here, -⟩ := DottedSuffix.walk_eq_some walk
        simp only [singleRecord] at here
        split at here
        · exact here.symm
        · cases here
  · rename_i outside
    rw [DottedSuffix.walk_eq_none]
    intro ancestor under
    apply if_neg
    rintro rfl
    exact outside under

/-- A domain is below a key of ASCII letters where the server reads it as below
the key. -/
theorem under_coerce_iff {domain key : Bytes} (small : ∀ letter ∈ key, letter.toNat < 128) :
    DottedSuffix.Under dot (Utf8.coerce domain) key ↔ DottedSuffix.Under dot domain key := by
  have dotted : ∀ letter ∈ dot :: key, letter.toNat < 128 :=
    List.forall_mem_cons.mpr ⟨by decide, small⟩
  constructor
  · rintro (same | ⟨front, same⟩)
    · rw [← List.nil_append key, Utf8.coerce_eq_append_iff small] at same
      obtain ⟨before, rfl, nothing⟩ := same
      rw [Utf8.coerce_eq_nil nothing]
      exact DottedSuffix.under_refl key
    · obtain ⟨before, rfl, -⟩ := (Utf8.coerce_eq_append_iff dotted).mp same
      exact .inr ⟨before, rfl⟩
  · rintro (rfl | ⟨front, rfl⟩)
    · rw [Utf8.coerce_of_valid (validUtf8_of_lt small)]
      exact DottedSuffix.under_refl _
    · exact .inr ⟨Utf8.coerce front, Utf8.coerce_append_small dotted front⟩

/-- The answer of a server whose one record has an ASCII name. -/
theorem answerAbout_singleRecord {key : Bytes} (low : ∀ letter ∈ key, letter.toNat < 128)
    (record : StoredRecord) (domain : Bytes) :
    answerAbout (singleRecord key record) domain =
      if DottedSuffix.Under dot domain key then record.response else ⟨0, 0, 0, none⟩ := by
  rw [answerAbout_eq, nearestRecord_singleRecord]
  by_cases inside : DottedSuffix.Under dot domain key
  · rw [if_pos inside, if_pos ((under_coerce_iff low).mpr inside)]
  · rw [if_neg inside, if_neg fun below => inside ((under_coerce_iff low).mp below)]

theorem uniform_singleRecord (jsonC : JsonC) {key : Bytes} (named : key ≠ [])
    (undotted : dot ∉ key) (nulFree : 0 ∉ key)
    (small : key.all (fun byte => byte.toNat < 128) = true) :
    Uniform jsonC (singleRecord key (listedRecord key nulFree (validUtf8_of_all small))) := by
  set redis := singleRecord key (listedRecord key nulFree (validUtf8_of_all small)) with single
  have low : ∀ letter ∈ key, letter.toNat < 128 := by simpa using small
  have pair : ∀ domain, domain ≠ [] →
      replyPair jsonC redis domain =
        some (if DottedSuffix.Under dot domain key then ⟨7, 9⟩ else ⟨0, 0⟩) := by
    intro domain domainNamed
    rw [replyPair_of_ne_nil jsonC _ domainNamed, single, answerAbout_singleRecord low]
    split <;> rfl
  have names : ∀ domain,
      (answerAbout redis domain).names domain =
        if DottedSuffix.Under dot domain key then [key] else [domain] := by
    intro domain
    rw [single, answerAbout_singleRecord low]
    split <;> rfl
  intro domain domainNamed name listed _ below under
  have longer := under.length_le
  rw [names] at listed
  by_cases inside : DottedSuffix.Under dot domain key
  · rw [if_pos inside, List.mem_singleton] at listed
    subst listed
    have belowNamed : below ≠ [] := List.ne_nil_of_length_pos
      (Nat.lt_of_lt_of_le (List.length_pos_of_ne_nil named) longer)
    rw [pair below belowNamed, pair domain domainNamed, if_pos under, if_pos inside]
  · rw [if_neg inside, List.mem_singleton] at listed
    subst listed
    have belowNamed : below ≠ [] := List.ne_nil_of_length_pos
      (Nat.lt_of_lt_of_le (List.length_pos_of_ne_nil domainNamed) longer)
    have outside : ¬ DottedSuffix.Under dot below key := by
      intro belowKey
      rcases Nat.le_total key.length name.length with shorter | shorter
      · exact inside (belowKey.of_length_le under shorter)
      · rcases under.of_length_le belowKey shorter with rfl | ⟨front, split⟩
        · exact inside (DottedSuffix.under_refl _)
        · exact undotted (by simp [split])
    rw [pair below belowNamed, pair name domainNamed, if_neg outside, if_neg inside]

theorem transparent_uniform_singleRecord :
    Transparent plainJsonC domainInfoArenaSize
      (singleRecord (ascii ['c']) (listedRecord (ascii ['c']) (by decide) (by decide))) :=
  (transparent_uniform plainJsonC domainInfoArenaSize _).1
    (uniform_singleRecord plainJsonC (by decide) (by decide) (by decide) (by decide))

end Uwebfilter
