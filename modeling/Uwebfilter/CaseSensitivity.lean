import Uwebfilter.AccessPolicy
import Uwebfilter.CacheTransparency

/-!
# Letter case

Names are compared byte by byte: in the lists of the configuration, in the
cache and in the keys of the server's store.  A first check does not depend on
the store, so two names are told apart exactly by what the lists say of them.
-/

namespace Uwebfilter

open CStrings QueryServer

/-- Names that differ only in the case of ASCII letters. -/
def SameLetters (first second : Bytes) : Prop := first.map toLower = second.map toLower

instance (first second : Bytes) : Decidable (SameLetters first second) :=
  inferInstanceAs (Decidable (first.map toLower = second.map toLower))

section FirstCheck

variable (jsonC : JsonC) (size : Nat) (redis : Redis) (config : Config)

/-- `check_access` with an empty cache and a server over a store. -/
def firstCheck (surroundings : Surroundings) (now : Int) (log : Uwebfilterlog)
    (saddr daddr : Nat) : Except Fault (Verdict × Uwebfilterlog × DomainInfoCache) :=
  checkAccess config
    (fun response domain =>
      (domainLookup jsonC size { surroundings with fetch := fetchReply redis domain } .initial
        response domain).map fun looked => (looked.1.response, looked.2))
    now log saddr daddr

/-- A request for a name and what its first check comes to. -/
def ChecksTo (domain : Bytes) (verdict : Verdict) : Prop :=
  ∃ surroundings now log saddr daddr final state, cString log.domain = domain ∧
    firstCheck jsonC size redis config surroundings now log saddr daddr =
      .ok (verdict, final, state)

/-- Names that differ in case only have the same first verdict. -/
def IgnoresCase : Prop :=
  ∀ first second firstVerdict secondVerdict, SameLetters first second →
    ChecksTo jsonC size redis config first firstVerdict →
    ChecksTo jsonC size redis config second secondVerdict → firstVerdict = secondVerdict

/-- The decision about a name without category and application. -/
def AdmitsUnknown (domain : Bytes) : Prop :=
  configIsDomainWhitelisted config domain = true ∨
    ¬ (configIsApplicationBlocked config 0 = true ∨ configIsCategoryBlocked config 0 = true ∨
      configIsDomainBlacklisted config domain = true)

/-- Every name that a record lists fits its buffer. -/
def ListsShort : Prop :=
  ∀ key record, redis.record key = some record →
    ∀ name ∈ record.cacheDomains, name.length < domainLength

variable {jsonC size redis config}

theorem shortNames_fetchReply (jsonC : JsonC) (short : ListsShort redis) (surroundings : Surroundings)
    {domain : Bytes} (fits : domain.length < domainLength) :
    ShortNames jsonC { surroundings with fetch := fetchReply redis domain } domain := by
  refine ⟨fits, fun obj fetched cacheDomains listed => ?_⟩
  obtain ⟨document, answered, pointer⟩ := Option.bind_eq_some_iff.mp fetched
  obtain ⟨-, rfl⟩ := fetchReply_eq_some answered
  obtain rfl : (answerAbout redis domain).toJson = obj := Option.some.inj pointer
  have member : (answerAbout redis domain).cacheDomains.map
      (fun names => Json.array (names.map .string)) = some cacheDomains :=
    (returns_toJson _).cacheDomains.symm.trans listed
  obtain ⟨names, same, rfl⟩ := Option.map_eq_some_iff.mp member
  refine ⟨_, rfl, ?_⟩
  rw [cacheDomainNames_strings jsonC ((storable_answerAbout redis domain).nulFree names same)]
  rw [answerAbout_eq] at same
  cases nearest : nearestRecord redis (Utf8.coerce domain) with
  | none => simp [nearest] at same
  | some record =>
      obtain ⟨key, stored⟩ := nearestRecord_stored nearest
      simp only [nearest, StoredRecord.response, Option.some.injEq] at same
      rw [← same]
      exact short key record stored

theorem exists_checksTo (short : ListsShort redis) {domain : Bytes} (nulFree : 0 ∉ domain)
    (fits : domain.length < domainLength) :
    ∃ verdict, ChecksTo jsonC size redis config domain verdict := by
  have named : cString domain = domain := cString_of_nulFree nulFree
  obtain ⟨result, after, returned⟩ :=
    domainLookup_returns (arenaInvariant_initial size)
      (shortNames_fetchReply jsonC short (atStart none) fits) ⟨0, 0⟩
  obtain ⟨verdict, final, checked, -⟩ := checkAccess_decides config
    (fun response name =>
      (domainLookup jsonC size { atStart none with fetch := fetchReply redis name } .initial
        response name).map fun looked => (looked.1.response, looked.2))
    0 { domain := domain } 0 0 (by rw [named, returned]; rfl)
  exact ⟨verdict, atStart none, 0, { domain := domain }, 0, 0, final, after, named, checked⟩

theorem ChecksTo.accepted {domain : Bytes} {verdict : Verdict}
    (checks : ChecksTo jsonC size redis config domain verdict) :
    verdict = .nfAccept ↔ AdmitsUnknown config domain := by
  obtain ⟨surroundings, now, log, saddr, daddr, final, state, rfl, checked⟩ := checks
  unfold firstCheck at checked
  cases looked : domainLookup jsonC size
      { surroundings with fetch := fetchReply redis (cString log.domain) } .initial ⟨0, 0⟩
      (cString log.domain) with
  | error fault =>
      simp only [checkAccess, looked, Except.map, bind, Except.bind] at checked
      cases checked
  | ok outcome =>
      obtain ⟨result, after⟩ := outcome
      have unknown := result_of_misses (missesCache_initial _ _) looked
      have mapped : (domainLookup jsonC size
          { surroundings with fetch := fetchReply redis (cString log.domain) } .initial ⟨0, 0⟩
          (cString log.domain)).map (fun looked => (looked.1.response, looked.2)) =
            .ok (⟨0, 0⟩, after) := by
        rw [looked, unknown]
        rfl
      obtain ⟨other, otherFinal, decided, follows⟩ := checkAccess_decides config
        (fun response name =>
          (domainLookup jsonC size { surroundings with fetch := fetchReply redis name } .initial
            response name).map fun looked => (looked.1.response, looked.2))
        now log saddr daddr mapped
      rw [decided, Except.ok.injEq, Prod.mk.injEq] at checked
      rw [← checked.1]
      exact follows.accepted

theorem verdict_eq_iff {first second : Verdict} :
    first = second ↔ (first = .nfAccept ↔ second = .nfAccept) := by
  cases first <;> cases second <;> decide

theorem configDomainLookup_congr {domains : List Bytes} {first second : Bytes}
    (alike : ∀ buffer ∈ domains, DottedSuffix.Under dot first (cString buffer) ↔
      DottedSuffix.Under dot second (cString buffer)) :
    configDomainLookup domains first = configDomainLookup domains second := by
  rw [Bool.eq_iff_iff, configDomainLookup_iff, configDomainLookup_iff]
  exact exists_congr fun buffer => and_congr_right fun member => alike buffer member

end FirstCheck

/-- From an empty cache every name that fits is checked, whatever the store, and
two names are told apart exactly by the lists of the configuration: not where
each name listed covers both or neither. -/
theorem firstCheck_byLists (jsonC : JsonC) (size : Nat) (redis : Redis) (config : Config) :
    (ListsShort redis → ∀ domain, 0 ∉ domain → domain.length < domainLength →
      ∃ verdict, ChecksTo jsonC size redis config domain verdict) ∧
    ∀ first second firstVerdict secondVerdict,
      ChecksTo jsonC size redis config first firstVerdict →
      ChecksTo jsonC size redis config second secondVerdict →
      (firstVerdict = secondVerdict ↔
        (AdmitsUnknown config first ↔ AdmitsUnknown config second)) ∧
      ((∀ buffer ∈ config.domainsBlacklist ++ config.domainsWhitelist,
          DottedSuffix.Under dot first (cString buffer) ↔
            DottedSuffix.Under dot second (cString buffer)) →
        firstVerdict = secondVerdict) := by
  constructor
  · intro short domain nulFree fits
    exact exists_checksTo short nulFree fits
  · intro first second firstVerdict secondVerdict firstChecks secondChecks
    have same : firstVerdict = secondVerdict ↔
        (AdmitsUnknown config first ↔ AdmitsUnknown config second) := by
      rw [verdict_eq_iff, firstChecks.accepted, secondChecks.accepted]
    refine ⟨same, fun alike => same.mpr ?_⟩
    have blacklist : configIsDomainBlacklisted config first =
        configIsDomainBlacklisted config second :=
      configDomainLookup_congr fun buffer member => alike buffer (List.mem_append_left _ member)
    have whitelist : configIsDomainWhitelisted config first =
        configIsDomainWhitelisted config second :=
      configDomainLookup_congr fun buffer member => alike buffer (List.mem_append_right _ member)
    rw [AdmitsUnknown, AdmitsUnknown, blacklist, whitelist]

def blacklistOfBc : Config where
  domainsBlacklist := [domainCreate (ascii ['b', '.', 'c'])]

/-- A blacklist with `b.c` has no effect on `B.c`. -/
theorem not_ignoresCase_blacklistOfBc :
    ¬ IgnoresCase plainJsonC domainInfoArenaSize (singleRecord (ascii ['b', '.', 'c']) .default)
      blacklistOfBc := by
  intro ignores
  have same := ignores (ascii ['b', '.', 'c']) (ascii ['B', '.', 'c']) .nfDrop .nfAccept
    (by decide)
    ⟨atStart none, 0, { domain := ascii ['b', '.', 'c'] }, 0, 0, _, _, by decide, rfl⟩
    ⟨atStart none, 0, { domain := ascii ['B', '.', 'c'] }, 0, 0, _, _, by decide, rfl⟩
  cases same

/-- Both `a.b.c` and `A.b.c` are under `b.c`. -/
theorem firstCheck_byLists_blacklistOfBc :
    ∃ verdict,
      ChecksTo plainJsonC domainInfoArenaSize (singleRecord (ascii ['b', '.', 'c']) .default)
        blacklistOfBc (ascii ['a', '.', 'b', '.', 'c']) verdict ∧
      ChecksTo plainJsonC domainInfoArenaSize (singleRecord (ascii ['b', '.', 'c']) .default)
        blacklistOfBc (ascii ['A', '.', 'b', '.', 'c']) verdict := by
  have byLists := firstCheck_byLists plainJsonC domainInfoArenaSize
    (singleRecord (ascii ['b', '.', 'c']) .default) blacklistOfBc
  have short : ListsShort (singleRecord (ascii ['b', '.', 'c']) .default) := by
    intro key record stored
    simp only [singleRecord] at stored
    split at stored
    · cases stored
      simp [StoredRecord.default]
    · cases stored
  obtain ⟨first, firstChecks⟩ :=
    byLists.1 short (ascii ['a', '.', 'b', '.', 'c']) (by decide) (by decide)
  obtain ⟨second, secondChecks⟩ :=
    byLists.1 short (ascii ['A', '.', 'b', '.', 'c']) (by decide) (by decide)
  obtain rfl := (byLists.2 _ _ _ _ firstChecks secondChecks).2 (by decide)
  exact ⟨first, firstChecks, secondChecks⟩

end Uwebfilter
