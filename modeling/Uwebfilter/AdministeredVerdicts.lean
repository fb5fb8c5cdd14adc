import Uwebfilter.DaemonRuns
import Uwebfilter.DomainService

/-!
# Verdicts and their origin

The daemon asks the query server, which answers from what `manage.py` wrote.  Over
every run of the daemon beside every run of the domain service, a verdict follows
zeros, or the category and the application that `domain-add` was given.
-/

namespace Uwebfilter

open CStrings QueryServer

/-! ## Answers of the service -/

section Answers

variable (categories applications : List Int32) (events : List ServiceEvent)

/-- The service answers a request of the daemon about the domain with a document. -/
def AnsweredAbout (domain : Bytes) (document : Json) : Prop :=
  ∃ earlier now recorded answers lag,
    earlier ++ [.query now recorded answers lag (domainRequestToJsonObject domain)] <+: events ∧
    (serviceStep categories applications (serviceAfter categories applications earlier)
      (.query now recorded answers lag (domainRequestToJsonObject domain))).2 =
        .sent (.json 200 document)

/-- The response is zeros, or a record that was added under a name over the domain,
its `ttl` raised since. -/
def AdministeredResponse (domain : Bytes) (response : QueryResponse) : Prop :=
  response = ⟨0, 0, 0, none⟩ ∨
    ∃ key base stored seconds, DottedSuffix.Under dot domain key ∧
      Added categories applications events key base ∧ RaisedBy seconds base stored ∧
      60 ∣ seconds ∧ response = stored.response

variable {categories applications events}

theorem Added.of_prefix {earlier : List ServiceEvent} {key : Bytes} {base : StoredRecord}
    (added : Added categories applications earlier key base) (prior : earlier <+: events) :
    Added categories applications events key base := by
  obtain ⟨before, now, args, raisesAt, within, rest⟩ := added
  exact ⟨before, now, args, raisesAt, within.trans prior, rest⟩

theorem response_of_answered {domain : Bytes} {document : Json}
    (answered : AnsweredAbout categories applications events domain document) :
    ∃ response : QueryResponse, document = response.toJson ∧ response.Storable ∧
      AdministeredResponse categories applications events (Utf8.coerce domain) response := by
  obtain ⟨earlier, now, recorded, answers, lag, prior, sent⟩ := answered
  have asks := bodyParser_request domain
  by_cases named : Utf8.coerce domain = []
  · simp [serviceStep, DomainService.queryPost, asks, named] at sent
  · simp only [serviceStep, queryPost_answer asks named, ServiceAnswer.sent.injEq,
      Sent.json.injEq, true_and] at sent
    obtain ⟨storable, response⟩ :=
      (administered_run categories applications earlier).response lag answers (Utf8.coerce domain)
    refine ⟨_, sent.symm, storable, ?_⟩
    rcases response with
      ⟨zeros, -⟩ | ⟨key, base, stored, seconds, -, under, -, -, added, raised, minutes, same⟩
    · exact .inl zeros
    · exact .inr ⟨key, base, stored, seconds, under,
        added.of_prefix ((List.prefix_append _ _).trans prior), raised, minutes, same⟩

end Answers

/-- What a document returns is one response. -/
theorem QueryServer.Returns.unique {obj : Json} {first second : QueryResponse}
    (one : Returns obj first) (other : Returns obj second) : first = second := by
  have category := one.category.symm.trans other.category
  have application := one.application.symm.trans other.application
  have ttl := one.ttl.symm.trans other.ttl
  have names := one.cacheDomains.symm.trans other.cacheDomains
  obtain ⟨firstCategory, firstApplication, firstTtl, firstNames⟩ := first
  obtain ⟨secondCategory, secondApplication, secondTtl, secondNames⟩ := second
  simp only [Option.some.injEq, Json.int.injEq, Int.natCast_inj] at category application ttl
  have same : firstNames = secondNames := by
    refine Option.map_injective (fun some other equal => ?_) names
    exact List.map_injective_iff.mpr (fun _ _ => Json.string.inj) (Json.array.inj equal)
  rw [category, application, ttl, same]

/-! ## Where verdicts come from -/

section Verdicts

variable (categories applications : List Int32) (events : List ServiceEvent)

/-- The response is zeros, or the category and the application added under a name
over one that was checked before, as the server read it, for a name that covers the
domain, and not older than the `ttl` of the document that the earlier lookup read. -/
def AdministeredPair (earlier : List AccessCall) (call : AccessCall) (response : DomainResponse) :
    Prop :=
  response = ⟨0, 0⟩ ∨
    ∃ source ∈ earlier, ∃ document key base, ∃ seconds : Nat, ∃ name ∈ base.cacheDomains,
      source.reading.surroundings.fetch = some document ∧
      document.objectGet ttlKey = some (.int (base.ttl.toInt + seconds)) ∧
      DottedSuffix.Under dot (Utf8.coerce (cString source.log.domain)) key ∧
      Added categories applications events key base ∧ 60 ∣ seconds ∧
      response = ⟨base.category.toInt, base.application.toInt⟩ ∧
      DottedSuffix.Under dot (cString call.log.domain) name ∧
      call.reading.surroundings.now <
        source.reading.surroundings.now + (base.ttl.toInt + seconds)

/-- A check follows the document about an administered pair. -/
def AdministeredCheck (root : Json) (earlier : List AccessCall) (call : AccessCall)
    (checked : Checked) : Prop :=
  ∃ response, AdministeredPair categories applications events earlier call response ∧
    FollowsPolicy (ListsNumber root keyApplications response.application)
      (ListsNumber root keyCategories response.category)
      (ListsDomain root keyDomainsBlacklist (cString call.log.domain))
      (ListsDomain root keyDomainsWhitelist (cString call.log.domain))
      ⟨checked.verdict, checked.record.action, checked.record.blocktype⟩ ∧
    checked.record.category = response.category ∧
    checked.record.application = response.application

/-- What the lookups of the daemon read: a clock that is a `time_t`, and either
nothing or what the service answers about the domain that is asked. -/
structure ReadsService (asked : Nat → Bytes) (readings : Nat → AccessReading) : Prop where
  clock : ∀ index,
    timeT (readings index).surroundings.now = (readings index).surroundings.now
  answered : ∀ index document, (readings index).surroundings.fetch = some document →
    AnsweredAbout categories applications events (asked index) document

/-- The names that are added fit their buffers. -/
def ShortCacheDomains : Prop :=
  ∀ key base, Added categories applications events key base →
    ∀ name ∈ base.cacheDomains, name.length < domainLength

variable {categories applications events} {asked : Nat → Bytes} {readings : Nat → AccessReading}

theorem ReadsService.plain (reads : ReadsService categories applications events asked readings)
    (short : ShortCacheDomains categories applications events) (index : Nat) :
    PlainReading (readings index) := by
  intro domain fits
  refine ⟨reads.clock index, fits, fun obj fetched => ?_⟩
  obtain ⟨document, read, nonNull⟩ := Option.bind_eq_some_iff.mp fetched
  obtain ⟨response, rfl, storable, administered⟩ :=
    response_of_answered (reads.answered index document read)
  obtain rfl := Option.some.inj ((nonNull_toJson response).symm.trans nonNull)
  refine ⟨response, returns_toJson response, storable.ttl, storable.nulFree,
    fun name listed => ?_⟩
  rcases administered with rfl | ⟨key, base, stored, seconds, -, added, raised, -, rfl⟩
  · obtain rfl := List.mem_singleton.mp listed
    exact fits
  · apply short key base added name
    rw [← raised.cacheDomains]
    exact listed

/-- What the answer about a row gives the daemon. -/
theorem response_of_raised {base stored : StoredRecord} {seconds : Nat}
    (raised : RaisedBy seconds base stored) (storable : stored.response.Storable) :
    stored.response.readPair = ⟨base.category.toInt, base.application.toInt⟩ ∧
      stored.response.seconds = base.ttl.toInt + seconds ∧
      stored.response.toJson.objectGet ttlKey = some (.int (base.ttl.toInt + seconds)) := by
  have positive := base.positive
  have ttl : (stored.response.ttl : Int) = base.ttl.toInt + seconds := by
    show (stored.ttl.toInt.toNat : Int) = base.ttl.toInt + seconds
    rw [raised.ttl]
    omega
  refine ⟨?_, ?_, ?_⟩
  · rw [storable.readPair_eq, ← raised.category, ← raised.application]
    rfl
  · rw [QueryResponse.seconds, if_neg (by omega), ttl]
  · rw [(returns_toJson stored.response).ttl, ttl]

/-- What an earlier reply of the service stored. -/
theorem administeredPair_of_backs {earlier : List AccessCall} {source call : AccessCall}
    {name : Bytes} {response : DomainResponse} {deadline : Int} (member : source ∈ earlier)
    (answered : ∀ document, source.reading.surroundings.fetch = some document →
      AnsweredAbout categories applications events (cString source.log.domain) document)
    (backs : Backs source.lookup name response deadline)
    (under : DottedSuffix.Under dot (cString call.log.domain) name)
    (live : call.reading.surroundings.now < deadline) :
    AdministeredPair categories applications events earlier call response := by
  cases backs with
  | failed nothing => exact .inl rfl
  | replied fetched returns listed =>
      rename_i obj reply
      obtain ⟨document, read, nonNull⟩ := Option.bind_eq_some_iff.mp fetched
      obtain ⟨answer, rfl, storable, administered⟩ :=
        response_of_answered (answered document read)
      obtain rfl := Option.some.inj ((nonNull_toJson answer).symm.trans nonNull)
      obtain rfl := returns.unique (returns_toJson answer)
      rcases administered with rfl |
        ⟨key, base, stored, seconds, above, added, raised, minutes, rfl⟩
      · exact .inl rfl
      · obtain ⟨pair, kept, ttl⟩ := response_of_raised raised storable
        have inside : name ∈ base.cacheDomains := by
          rw [← raised.cacheDomains]
          exact listed
        rw [kept] at live
        exact .inr ⟨source, member, _, key, base, seconds, name, inside, read, ttl, above, added,
          minutes, pair, under, live⟩

theorem administeredCheck_of_justified {root : Json} {earlier : List AccessCall}
    {call : AccessCall} {checked : Checked}
    (answered : ∀ source ∈ earlier, ∀ document,
      source.reading.surroundings.fetch = some document →
        AnsweredAbout categories applications events (cString source.log.domain) document)
    (justified : Justified root earlier call checked) :
    AdministeredCheck categories applications events root earlier call checked := by
  obtain ⟨response, sourced, follows, record⟩ := justified
  refine ⟨response, ?_, follows, congrArg Uwebfilterlog.category record,
    congrArg Uwebfilterlog.application record⟩
  rcases sourced with zeros | ⟨lookup, member, name, deadline, backs, under, live⟩
  · exact .inl zeros
  · obtain ⟨source, inside, rfl⟩ := List.mem_map.mp member
    exact administeredPair_of_backs inside (answered source inside) backs under live

/-- Whatever `manage.py`, the scrapers, the clients and the network do, as long as
the buffers hold what is written to them: the daemon stops at no assertion, and every
check follows the document about zeros or about what `domain-add` was given for a name
over one that was asked for, which has not expired. -/
theorem verdicts_administered (jsonC : JsonC) (size : Nat) {root : Json}
    (wellFormed : WellFormedConfig root) (short : ShortCacheDomains categories applications events)
    (reads : ReadsService categories applications events asked readings) :
    ∃ config, configLoad jsonC root = .ok config ∧ ∀ arrivals : List Arrival,
      Contained (watchedEvents jsonC size config readings arrivals) →
      (∀ index check, (checksMade (watchedEvents jsonC size config readings arrivals))[index]? =
        some check → asked index = cString check.1.domain) →
      (watchAfter jsonC size config readings arrivals).stopped = none ∧
        ∃ calls, checksMade (watchedEvents jsonC size config readings arrivals) =
            ((calls.zip (watchAfter jsonC size config readings arrivals).checks).map fun made =>
              (made.1.log, made.2.verdict)) ∧
          MachineRun.EachAnswer (AdministeredCheck categories applications events root) calls
            (watchAfter jsonC size config readings arrivals).checks := by
  obtain ⟨config, loaded, implements⟩ := configLoad_implements jsonC wellFormed
  refine ⟨config, loaded, fun arrivals fits asks => ?_⟩
  obtain ⟨calls, running, supervises, made, read, -, called⟩ :=
    daemon_watches implements (reads.plain short) arrivals fits
  refine ⟨running, calls, made, supervises.justified.1, ?_⟩
  intro index call checked present answer
  apply administeredCheck_of_justified _
    (supervises.justified.2 index call checked present answer)
  intro source member document fetched
  obtain ⟨place, inside, rfl⟩ := List.mem_iff_getElem.mp (List.mem_of_mem_take member)
  have same := read place calls[place] (List.getElem?_eq_getElem inside)
  have zipped :
      place < (calls.zip (watchAfter jsonC size config readings arrivals).checks).length := by
    rw [List.length_zip, supervises.justified.1, Nat.min_self]
    exact inside
  have check := asks place _ (by
    rw [made, List.getElem?_map, List.getElem?_eq_getElem zipped, Option.map_some])
  rw [List.getElem_zip] at check
  rw [← check]
  exact reads.answered place document (by rw [← same]; exact fetched)

end Verdicts

/-- `domain-add b.c --category 7 --cache-domains b.c`, and a question about `a.b.c`. -/
def servedBc : List ServiceEvent :=
  [.manage 0 (.domainAdd ⟨ascii ['b', '.', 'c'], 300, 7, 0, [ascii ['b', '.', 'c']]⟩) none,
    .query 0 true true (fun _ => 0)
      (domainRequestToJsonObject (ascii ['a', '.', 'b', '.', 'c']))]

def answerOfBc : QueryResponse := ⟨7, 0, 300, some [ascii ['b', '.', 'c']]⟩

/-- A lookup that reads the answer of the server. -/
def servedReading : AccessReading :=
  { silentReading with
    surroundings := { silentReading.surroundings with fetch := some answerOfBc.toJson } }

theorem readsService_servedBc :
    ReadsService [7] [0] servedBc (fun _ => ascii ['a', '.', 'b', '.', 'c']) fun _ =>
      servedReading := by
  refine ⟨fun _ => by decide, fun _ document fetched => ?_⟩
  obtain rfl := Option.some.inj fetched
  exact ⟨servedBc.take 1, 0, true, true, fun _ => 0, List.prefix_rfl, rfl⟩

theorem shortCacheDomains_servedBc : ShortCacheDomains [7] [0] servedBc := by
  rintro key base ⟨earlier, now, args, raisesAt, prior, -, built, -⟩ name listed
  have member := prior.subset (List.mem_append_right _ (List.mem_singleton_self _))
  simp only [servedBc, List.mem_cons, List.not_mem_nil, or_false, reduceCtorEq,
    ServiceEvent.manage.injEq, ServiceCommand.domainAdd.injEq] at member
  obtain ⟨-, rfl, -⟩ := member
  cases built
  obtain rfl := List.mem_singleton.mp listed
  decide

/-- The second packet is checked against what `domain-add` was given. -/
theorem verdicts_administered_servedBc :
    ∃ config calls, configLoad plainJsonC sampleConfig = .ok config ∧
      MachineRun.EachAnswer (AdministeredCheck [7] [0] servedBc sampleConfig) calls
        (watchAfter plainJsonC 8 config (fun _ => servedReading)
          [plainArrival 0 capturedLookup, plainArrival 1 capturedLookup]).checks ∧
      (watchAfter plainJsonC 8 config (fun _ => servedReading)
        [plainArrival 0 capturedLookup, plainArrival 1 capturedLookup]).checks.map
          (fun checked => checked.record.category) = [0, 7] := by
  obtain ⟨config, loaded, administered⟩ := verdicts_administered plainJsonC 8
    wellFormed_sampleConfig shortCacheDomains_servedBc readsService_servedBc
  have asked : ∀ check ∈ checksMade (watchedEvents plainJsonC 8 config (fun _ => servedReading)
      [plainArrival 0 capturedLookup, plainArrival 1 capturedLookup]),
      (cString check.1.domain).length < domainLength ∧
        ascii ['a', '.', 'b', '.', 'c'] = cString check.1.domain := by
    cases loaded
    decide +kernel
  have categories : (watchAfter plainJsonC 8 config (fun _ => servedReading)
      [plainArrival 0 capturedLookup, plainArrival 1 capturedLookup]).checks.map
        (fun checked => checked.record.category) = [0, 7] := by
    cases loaded
    decide +kernel
  have contained : Contained (watchedEvents plainJsonC 8 config (fun _ => servedReading)
      [plainArrival 0 capturedLookup, plainArrival 1 capturedLookup]) := by
    refine ⟨?_, fun check member => (asked check member).1⟩
    cases loaded
    decide +kernel
  obtain ⟨-, calls, -, each⟩ := administered _ contained
    fun index check present => (asked check (List.mem_of_getElem? present)).2
  exact ⟨config, calls, loaded, each, categories⟩

end Uwebfilter
