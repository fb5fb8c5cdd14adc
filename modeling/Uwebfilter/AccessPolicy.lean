import Uwebfilter.Config
import Uwebfilter.DottedQuad

/-!
# Access policy

`check_access` asks for the category and the application of a domain and
decides by four lists of the configuration.  The policy says what the lists of
a configuration document mean; loading the document and checking by what was
loaded implements it.
-/

namespace Uwebfilter

open CStrings
open DottedQuad (digit)

def blocktypeNone : Int := 0
def blocktypeApplication : Int := 1
def blocktypeCategory : Int := 2
def blocktypeUserBlacklist : Int := 3
def blocktypeUserWhitelist : Int := 4

/-- `uint_to_string`, the characters it writes. -/
def uintToString (number : Nat) : Bytes :=
  (if number > 99 then
      [digit (number / 10 / 10 % 10), digit (number / 10 % 10), digit (number % 10)]
    else if number > 9 then [digit (number / 10 % 10), digit (number % 10)]
    else [digit (number % 10)]) ++ [dot]

/-- `ipaddr_uint32_to_string`, lowest byte first, the last dot overwritten. -/
def ipaddrUint32ToString (address : Nat) : Bytes :=
  (uintToString (address % 256) ++ uintToString (address / 256 % 256) ++
    uintToString (address / 65536 % 256) ++ uintToString (address / 16777216 % 256)).dropLast

section CheckAccess

variable {σ : Type}

/-- `check_access`, with `domain_lookup` as a parameter. -/
def checkAccess (config : Config)
    (domainLookup : DomainResponse → Bytes → Except Fault (DomainResponse × σ)) (now : Int)
    (log : Uwebfilterlog) (saddr daddr : Nat) : Except Fault (Verdict × Uwebfilterlog × σ) := do
  let log := { log with
    srcip := ipaddrUint32ToString saddr
    dstip := ipaddrUint32ToString daddr }
  let domain := cString log.domain
  let (response, state) ← domainLookup ⟨0, 0⟩ domain
  let log := { log with category := response.category, application := response.application }
  let accessGranted := !configIsApplicationBlocked config response.application
  let blocktype := blocktypeApplication
  let (accessGranted, blocktype) :=
    if accessGranted then (!configIsCategoryBlocked config response.category, blocktypeCategory)
    else (accessGranted, blocktype)
  let (accessGranted, blocktype) :=
    if accessGranted then (!configIsDomainBlacklisted config domain, blocktypeUserBlacklist)
    else (accessGranted, blocktype)
  let blocktype := if accessGranted then blocktypeNone else blocktype
  let (accessGranted, blocktype) :=
    if !accessGranted then
      let accessGranted := configIsDomainWhitelisted config domain
      (accessGranted, if accessGranted then blocktypeUserWhitelist else blocktype)
    else (accessGranted, blocktype)
  let log := { log with
    blocktype := blocktype
    logtime := now
    action := some (if accessGranted then .allow else .block) }
  .ok (if accessGranted then .nfAccept else .nfDrop, log, state)

end CheckAccess

/-! ## The policy of a document -/

/-- What a decision comes to: its verdict, the action and the blocktype logged. -/
structure Decision where
  verdict : Verdict
  action : Option Action
  blocktype : Int

/-- The decision the policy asks for, where the application, the category, the
blacklist and the whitelist do or do not concern a request. -/
structure FollowsPolicy (application category blacklisted whitelisted : Prop)
    (decision : Decision) : Prop where
  accepted : decision.verdict = .nfAccept ↔ whitelisted ∨ ¬ (application ∨ category ∨ blacklisted)
  logged : decision.action = some .allow ↔ decision.verdict = .nfAccept
  ofNone : decision.blocktype = blocktypeNone ↔ ¬ (application ∨ category ∨ blacklisted)
  ofWhitelist : application ∨ category ∨ blacklisted → whitelisted →
    decision.blocktype = blocktypeUserWhitelist
  ofApplication : application → ¬ whitelisted → decision.blocktype = blocktypeApplication
  ofCategory : ¬ application → category → ¬ whitelisted → decision.blocktype = blocktypeCategory
  ofBlacklist : ¬ application → ¬ category → blacklisted → ¬ whitelisted →
    decision.blocktype = blocktypeUserBlacklist

def listedElements (root : Json) (key : Bytes) : List Json :=
  ((root.objectGet key).bind Json.arrayElements).getD []

def ListsNumber (root : Json) (key : Bytes) (number : Int) : Prop :=
  Json.int number ∈ listedElements root key

/-- A document lists a name under a key that the domain is under. -/
def ListsDomain (root : Json) (key : Bytes) (domain : Bytes) : Prop :=
  ∃ name, Json.string name ∈ listedElements root key ∧ DottedSuffix.Under dot domain name

/-- The document has an array under the key, if anything, and its elements are
of a kind. -/
def ArrayOf (kind : Json → Prop) (root : Json) (key : Bytes) : Prop :=
  ∀ value, root.objectGet key = some value →
    ∃ elements, value = .array elements ∧ ∀ element ∈ elements, kind element

theorem arrayOf_of_elements {kind : Json → Prop} {root : Json} {key : Bytes}
    {elements : List Json} (present : root.objectGet key = some (.array elements))
    (each : ∀ element ∈ elements, kind element) : ArrayOf kind root key := by
  intro value same
  rw [present, Option.some.injEq] at same
  exact ⟨elements, same.symm, each⟩

def NumberElement (element : Json) : Prop :=
  element = .null ∨
    ∃ value, element = .int value ∧ -2147483648 ≤ value ∧ value ≤ 2147483647

def NameElement (element : Json) : Prop :=
  ∃ name, element = .string name ∧ 0 ∉ name ∧ name.length < domainLength

structure WellFormedConfig (root : Json) : Prop where
  categories : ArrayOf NumberElement root keyCategories
  applications : ArrayOf NumberElement root keyApplications
  domainsBlacklist : ArrayOf NameElement root keyDomainsBlacklist
  domainsWhitelist : ArrayOf NameElement root keyDomainsWhitelist

/-- What was loaded means what the document says. -/
structure Implements (config : Config) (root : Json) : Prop where
  categories : ∀ category, configIsCategoryBlocked config category = true ↔
    ListsNumber root keyCategories category
  applications : ∀ application, configIsApplicationBlocked config application = true ↔
    ListsNumber root keyApplications application
  blacklist : ∀ domain, configIsDomainBlacklisted config domain = true ↔
    ListsDomain root keyDomainsBlacklist domain
  whitelist : ∀ domain, configIsDomainWhitelisted config domain = true ↔
    ListsDomain root keyDomainsWhitelist domain

section Loading

variable {jsonC : JsonC} {root : Json} {key : Bytes}

theorem mem_loadedNumbers {elements : List Json} {number : Int}
    (kind : ∀ element ∈ elements, NumberElement element) :
    number ∈ elements.filterMap (fun element => element.nonNull.map jsonC.getInt) ↔
      Json.int number ∈ elements := by
  rw [List.mem_filterMap]
  constructor
  · rintro ⟨element, member, read⟩
    rcases kind element member with rfl | ⟨value, rfl, above, below⟩
    · cases read
    · have same : jsonC.getInt (.int value) = number := by simpa [Json.nonNull] using read
      rw [jsonC.getInt_of_bounds above below] at same
      rwa [← same]
  · intro member
    rcases kind _ member with null | ⟨value, same, above, below⟩
    · cases null
    · cases same
      exact ⟨_, member, by simp [Json.nonNull, jsonC.getInt_of_bounds above below]⟩

/-- An array of numbers loads, and lists what the document lists. -/
theorem loadNumbers_spec (jsonC : JsonC) {value : Json} (present : root.objectGet key = some value)
    (kind : ArrayOf NumberElement root key) :
    ∃ numbers, loadNumbers jsonC value = .ok numbers ∧
      ∀ number, number ∈ numbers ↔ ListsNumber root key number := by
  obtain ⟨elements, rfl, each⟩ := kind value present
  refine ⟨_, rfl, fun number => ?_⟩
  rw [mem_loadedNumbers each, ListsNumber, listedElements, present]
  rfl

theorem not_listsNumber_of_absent {number : Int} (absent : root.objectGet key = none) :
    ¬ ListsNumber root key number := by
  simp [ListsNumber, listedElements, absent]

theorem not_listsDomain_of_absent {domain : Bytes} (absent : root.objectGet key = none) :
    ¬ ListsDomain root key domain := by
  simp [ListsDomain, listedElements, absent]

/-- The buffers for some names. -/
def nameBuffers (jsonC : JsonC) (elements : List Json) : List Bytes :=
  elements.map fun element => domainCreate (jsonC.getString element)

theorem nonNull_nameElement {element : Json} (kind : NameElement element) :
    element.nonNull = some element := by
  obtain ⟨name, rfl, -, -⟩ := kind
  rfl

theorem storedBuffers_of_names {elements : List Json}
    (kind : ∀ element ∈ elements, NameElement element) :
    storedBuffers jsonC elements = nameBuffers jsonC elements := by
  have same : elements.filterMap Json.nonNull = elements := by
    rw [List.filterMap_congr fun element member => nonNull_nameElement (kind element member)]
    exact List.filterMap_some
  rw [storedBuffers, same, nameBuffers]

theorem loadDomainsBlacklist_spec {elements : List Json}
    (kind : ∀ element ∈ elements, NameElement element) (domains : List Bytes) :
    loadDomainsBlacklist jsonC elements domains = .ok (domains ++ nameBuffers jsonC elements) := by
  have present : ∀ element ∈ elements, element.nonNull ≠ none := by
    intro element member absent
    rw [nonNull_nameElement (kind element member)] at absent
    cases absent
  rw [loadDomainsBlacklist_eq, if_pos present, storedBuffers_of_names kind]

theorem loadDomainsWhitelist_spec {elements : List Json}
    (kind : ∀ element ∈ elements, NameElement element) (domains : List Bytes) :
    loadDomainsWhitelist jsonC elements domains = domains ++ nameBuffers jsonC elements := by
  rw [loadDomainsWhitelist_eq, storedBuffers_of_names kind]

theorem configDomainLookup_nameBuffers {elements : List Json} {domain : Bytes}
    (kind : ∀ element ∈ elements, NameElement element) :
    configDomainLookup (nameBuffers jsonC elements) domain = true ↔
      ∃ name, Json.string name ∈ elements ∧ DottedSuffix.Under dot domain name := by
  rw [configDomainLookup_iff]
  constructor
  · rintro ⟨buffer, member, under⟩
    obtain ⟨element, listed, rfl⟩ := List.mem_map.mp member
    obtain ⟨name, rfl, nulFree, short⟩ := kind element listed
    rw [jsonC.getString_of_nulFree nulFree, cString_domainCreate nulFree short] at under
    exact ⟨name, listed, under⟩
  · rintro ⟨name, listed, under⟩
    obtain ⟨same, equal, nulFree, short⟩ := kind _ listed
    cases equal
    refine ⟨_, List.mem_map_of_mem listed, ?_⟩
    rwa [jsonC.getString_of_nulFree nulFree, cString_domainCreate nulFree short]

theorem configLoadCategories_spec (jsonC : JsonC) {config : Config} (cleared : config.categories = none)
    (kind : ArrayOf NumberElement root keyCategories) :
    ∃ categories, configLoadCategories jsonC config (root.objectGet keyCategories) =
        .ok { config with categories := categories } ∧
      ∀ category, listsNumber categories category = true ↔
        ListsNumber root keyCategories category := by
  cases present : root.objectGet keyCategories with
  | none =>
      refine ⟨none, by rw [configLoadCategories, ← cleared], fun category => ?_⟩
      exact iff_of_false (by simp [listsNumber]) (not_listsNumber_of_absent present)
  | some value =>
      obtain ⟨numbers, loaded, same⟩ := loadNumbers_spec jsonC present kind
      refine ⟨some numbers, by simp [configLoadCategories, loaded, bind, Except.bind], ?_⟩
      intro category
      rw [listsNumber_iff, ← same category]
      simp

theorem configLoadApplications_spec (jsonC : JsonC) {config : Config} (cleared : config.applications = none)
    (kind : ArrayOf NumberElement root keyApplications) :
    ∃ applications, configLoadApplications jsonC config (root.objectGet keyApplications) =
        .ok { config with applications := applications } ∧
      ∀ application, listsNumber applications application = true ↔
        ListsNumber root keyApplications application := by
  cases present : root.objectGet keyApplications with
  | none =>
      refine ⟨none, by rw [configLoadApplications, ← cleared], fun application => ?_⟩
      exact iff_of_false (by simp [listsNumber]) (not_listsNumber_of_absent present)
  | some value =>
      obtain ⟨numbers, loaded, same⟩ := loadNumbers_spec jsonC present kind
      refine ⟨some numbers, by simp [configLoadApplications, loaded, bind, Except.bind], ?_⟩
      intro application
      rw [listsNumber_iff, ← same application]
      simp

theorem listsDomain_of_elements {elements : List Json} {domain : Bytes}
    (present : root.objectGet key = some (.array elements)) :
    ListsDomain root key domain ↔
      ∃ name, Json.string name ∈ elements ∧ DottedSuffix.Under dot domain name := by
  simp [ListsDomain, listedElements, present, Json.arrayElements]

theorem configLoadDomainsBlacklist_spec (jsonC : JsonC) {config : Config}
    (cleared : config.domainsBlacklist = []) (kind : ArrayOf NameElement root keyDomainsBlacklist) :
    ∃ domains, configLoadDomainsBlacklist jsonC config (root.objectGet keyDomainsBlacklist) =
        .ok { config with domainsBlacklist := domains } ∧
      ∀ domain, configDomainLookup domains domain = true ↔
        ListsDomain root keyDomainsBlacklist domain := by
  cases present : root.objectGet keyDomainsBlacklist with
  | none =>
      refine ⟨[], by rw [configLoadDomainsBlacklist, ← cleared], fun domain => ?_⟩
      exact iff_of_false (by simp [configDomainLookup_iff]) (not_listsDomain_of_absent present)
  | some value =>
      obtain ⟨elements, rfl, each⟩ := kind value present
      refine ⟨nameBuffers jsonC elements, ?_, fun domain => ?_⟩
      · simp [configLoadDomainsBlacklist, Json.arrayElements, loadDomainsBlacklist_spec each,
          cleared, bind, Except.bind]
      · rw [configDomainLookup_nameBuffers each, listsDomain_of_elements present]

theorem configLoadDomainsWhitelist_spec (jsonC : JsonC) {config : Config}
    (cleared : config.domainsWhitelist = []) (kind : ArrayOf NameElement root keyDomainsWhitelist) :
    ∃ domains, configLoadDomainsWhitelist jsonC config (root.objectGet keyDomainsWhitelist) =
        .ok { config with domainsWhitelist := domains } ∧
      ∀ domain, configDomainLookup domains domain = true ↔
        ListsDomain root keyDomainsWhitelist domain := by
  cases present : root.objectGet keyDomainsWhitelist with
  | none =>
      refine ⟨[], by rw [configLoadDomainsWhitelist, ← cleared], fun domain => ?_⟩
      exact iff_of_false (by simp [configDomainLookup_iff]) (not_listsDomain_of_absent present)
  | some value =>
      obtain ⟨elements, rfl, each⟩ := kind value present
      refine ⟨nameBuffers jsonC elements, ?_, fun domain => ?_⟩
      · simp [configLoadDomainsWhitelist, Json.arrayElements, loadDomainsWhitelist_spec each,
          cleared]
      · rw [configDomainLookup_nameBuffers each, listsDomain_of_elements present]

theorem Implements.withCloudlogging {config : Config} (implements : Implements config root)
    (jsonC : JsonC) (jCloudlogging : Option Json) :
    Implements (configLoadCloudlogging jsonC config jCloudlogging) root := by
  cases jCloudlogging with
  | none => exact implements
  | some value =>
      exact ⟨implements.categories, implements.applications, implements.blacklist,
        implements.whitelist⟩

/-- A well-formed document loads, and what was loaded means what it says. -/
theorem configLoad_implements (jsonC : JsonC) (wellFormed : WellFormedConfig root) :
    ∃ config, configLoad jsonC root = .ok config ∧ Implements config root := by
  set start := configLoadServeraddr jsonC {} (root.objectGet keyServeraddr) with startEq
  have cleared : start.categories = none ∧ start.applications = none ∧
      start.domainsBlacklist = [] ∧ start.domainsWhitelist = [] := ⟨rfl, rfl, rfl, rfl⟩
  obtain ⟨noCategories, noApplications, noBlacklist, noWhitelist⟩ := cleared
  obtain ⟨categories, loadedCategories, sameCategories⟩ :=
    configLoadCategories_spec jsonC noCategories wellFormed.categories
  set first := { start with categories := categories }
  obtain ⟨applications, loadedApplications, sameApplications⟩ :=
    configLoadApplications_spec jsonC (show first.applications = none from noApplications)
      wellFormed.applications
  set second := { first with applications := applications }
  obtain ⟨blacklist, loadedBlacklist, sameBlacklist⟩ :=
    configLoadDomainsBlacklist_spec jsonC (show second.domainsBlacklist = [] from noBlacklist)
      wellFormed.domainsBlacklist
  set third := { second with domainsBlacklist := blacklist }
  obtain ⟨whitelist, loadedWhitelist, sameWhitelist⟩ :=
    configLoadDomainsWhitelist_spec jsonC (show third.domainsWhitelist = [] from noWhitelist)
      wellFormed.domainsWhitelist
  have whole : Implements { third with domainsWhitelist := whitelist } root :=
    ⟨sameCategories, sameApplications, sameBlacklist, sameWhitelist⟩
  refine ⟨_, ?_, whole.withCloudlogging jsonC (root.objectGet keyCloudlogging)⟩
  unfold configLoad
  simp only [← startEq, loadedCategories, loadedApplications, loadedBlacklist, loadedWhitelist,
    bind, Except.bind]

end Loading

section Deciding

variable {σ : Type}

/-- A check follows what the configuration answers about the response and the
domain. -/
theorem checkAccess_decides (config : Config)
    (domainLookup : DomainResponse → Bytes → Except Fault (DomainResponse × σ)) (now : Int)
    (log : Uwebfilterlog) (saddr daddr : Nat) {response : DomainResponse} {state : σ}
    (answered : domainLookup ⟨0, 0⟩ (cString log.domain) = .ok (response, state)) :
    ∃ verdict final, checkAccess config domainLookup now log saddr daddr =
        .ok (verdict, final, state) ∧
      FollowsPolicy (configIsApplicationBlocked config response.application = true)
        (configIsCategoryBlocked config response.category = true)
        (configIsDomainBlacklisted config (cString log.domain) = true)
        (configIsDomainWhitelisted config (cString log.domain) = true)
        ⟨verdict, final.action, final.blocktype⟩ := by
  unfold checkAccess
  simp only [answered, bind, Except.bind]
  refine ⟨_, _, rfl, ?_⟩
  cases configIsApplicationBlocked config response.application <;>
    cases configIsCategoryBlocked config response.category <;>
      cases configIsDomainBlacklisted config (cString log.domain) <;>
        cases configIsDomainWhitelisted config (cString log.domain) <;>
          constructor <;>
            simp [blocktypeNone, blocktypeApplication, blocktypeCategory, blocktypeUserBlacklist,
              blocktypeUserWhitelist]

/-- What a check writes into the record, which keeps the rest. -/
theorem checkAccess_writes {config : Config}
    {domainLookup : DomainResponse → Bytes → Except Fault (DomainResponse × σ)} {now : Int}
    {log final : Uwebfilterlog} {saddr daddr : Nat} {verdict : Verdict} {state : σ}
    (checked : checkAccess config domainLookup now log saddr daddr = .ok (verdict, final, state)) :
    ∃ blocktype action, (0 ≤ blocktype ∧ blocktype ≤ 4) ∧
      final = { log with
        srcip := ipaddrUint32ToString saddr
        dstip := ipaddrUint32ToString daddr
        category := final.category
        application := final.application
        blocktype := blocktype
        logtime := now
        action := some action } := by
  unfold checkAccess at checked
  cases answered : domainLookup ⟨0, 0⟩ (cString log.domain) with
  | error fault =>
      simp [answered, bind, Except.bind] at checked
  | ok found =>
      simp only [answered, bind, Except.bind, Except.ok.injEq, Prod.mk.injEq] at checked
      obtain ⟨-, rfl, -⟩ := checked
      refine ⟨_, _, ?_, rfl⟩
      cases configIsApplicationBlocked config found.1.application <;>
        cases configIsCategoryBlocked config found.1.category <;>
          cases configIsDomainBlacklisted config (cString log.domain) <;>
            cases configIsDomainWhitelisted config (cString log.domain) <;> decide

theorem checkAccess_follows {config : Config} {root : Json} (implements : Implements config root)
    {domainLookup : DomainResponse → Bytes → Except Fault (DomainResponse × σ)} {now : Int}
    {log : Uwebfilterlog} {saddr daddr : Nat} {response : DomainResponse} {state : σ}
    (answered : domainLookup ⟨0, 0⟩ (cString log.domain) = .ok (response, state)) :
    ∃ verdict final, checkAccess config domainLookup now log saddr daddr =
        .ok (verdict, final, state) ∧
      FollowsPolicy (ListsNumber root keyApplications response.application)
        (ListsNumber root keyCategories response.category)
        (ListsDomain root keyDomainsBlacklist (cString log.domain))
        (ListsDomain root keyDomainsWhitelist (cString log.domain))
        ⟨verdict, final.action, final.blocktype⟩ := by
  rw [← implements.applications, ← implements.categories, ← implements.blacklist,
    ← implements.whitelist]
  exact checkAccess_decides config domainLookup now log saddr daddr answered

end Deciding

/-- A document that blocks category 7 and everything under `b.c` but `a.b.c`. -/
def sampleConfig : Json :=
  .object
    [(keyCategories, .array [.int 7, .null]),
      (keyDomainsBlacklist, .array [.string (ascii ['b', '.', 'c'])]),
      (keyDomainsWhitelist, .array [.string (ascii ['a', '.', 'b', '.', 'c'])])]

theorem wellFormed_sampleConfig : WellFormedConfig sampleConfig where
  categories := by
    have each : ∀ element ∈ [Json.int 7, .null], NumberElement element := by
      simp [NumberElement]
    exact arrayOf_of_elements rfl each
  applications := by
    intro value present
    cases present
  domainsBlacklist := by
    apply arrayOf_of_elements rfl
    intro element member
    rw [List.mem_singleton.mp member]
    exact ⟨_, rfl, by decide, by decide⟩
  domainsWhitelist := by
    apply arrayOf_of_elements rfl
    intro element member
    rw [List.mem_singleton.mp member]
    exact ⟨_, rfl, by decide, by decide⟩

end Uwebfilter
