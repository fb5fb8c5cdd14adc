import Uwebfilter.Config

/-!
# Configuration strings in their buffers

Which buffers `config_load` leaves with a terminated prefix of the string they
are for: those of `cloudlogging` always, the others unless the string is as long
as the buffer.
-/

namespace Uwebfilter

open CStrings

/-- A buffer holds as much of a string as leaves room for a zero, and zeros
behind it. -/
def TerminatedPrefix (size : Nat) (value buffer : Bytes) : Prop :=
  buffer = value.take (size - 1) ++
    List.replicate (size - (value.take (size - 1)).length) 0

/-- The copies of `domain_create` and `config_load_serveraddr`, which take one
byte less than the buffer only of strings longer than the buffer. -/
def copyCapped (size : Nat) (value : Bytes) : Bytes :=
  overwrite (clearedBuffer size) 0
    (value.take (if value.length > size then size - 1 else value.length))

theorem terminatedPrefix_copyCapped_iff {size : Nat} {value : Bytes} (positive : 0 < size)
    (nulFree : 0 ∉ value) :
    TerminatedPrefix size value (copyCapped size value) ↔ value.length ≠ size := by
  rw [TerminatedPrefix, copyCapped, clearedBuffer, overwrite_cleared]
  rcases Nat.lt_trichotomy value.length size with short | full | long
  · have whole : value.take (size - 1) = value := List.take_of_length_le (by omega)
    rw [if_neg (by omega), List.take_length, whole]
    exact iff_of_true rfl (Nat.ne_of_lt short)
  · rw [if_neg (by omega), List.take_length, full, Nat.sub_self, List.replicate_zero,
      List.append_nil]
    refine iff_of_false (fun same => nulFree ?_) (not_not_intro rfl)
    rw [same, List.length_take]
    exact List.mem_append_right _ (List.mem_replicate.mpr ⟨by omega, rfl⟩)
  · rw [if_pos long]
    exact iff_of_true rfl (Nat.ne_of_gt long)

theorem domainCreate_eq (domain : Bytes) : domainCreate domain = copyCapped domainLength domain :=
  rfl

/-- A buffer of `cloudlogging` holds a terminated prefix whatever the string. -/
theorem terminatedPrefix_overwrite {size : Nat} (value : Bytes) :
    TerminatedPrefix size value
      (overwrite (clearedBuffer size) 0 (value.take (size - 1))) := by
  rw [TerminatedPrefix, clearedBuffer, overwrite_cleared]

/-- What a list's loop stores for an element, where that is a string. -/
def StoredDomain (element : Json) (buffer : Bytes) : Prop :=
  ∀ value, element = .string value → 0 ∉ value → TerminatedPrefix domainLength value buffer

/-- The strings of the `cloudlogging` member of a document. -/
def cloudString (root : Json) (key : List Char) (value : Bytes) : Prop :=
  ∃ cloud, root.objectGet keyCloudlogging = some cloud ∧
    cloud.objectGet (ascii key) = some (.string value)

/-- Every buffer of the configuration holds a terminated prefix of its string. -/
structure StoresPrefixes (root : Json) (config : Config) : Prop where
  serveraddr : ∀ value, root.objectGet keyServeraddr = some (.string value) → 0 ∉ value →
    TerminatedPrefix serveraddrLength value config.serveraddr
  defaultServeraddr : root.objectGet keyServeraddr = none →
    TerminatedPrefix serveraddrLength configdefaultServeraddr config.serveraddr
  blacklist : ∀ elements, root.objectGet keyDomainsBlacklist = some (.array elements) →
    List.Forall₂ StoredDomain (elements.filterMap Json.nonNull) config.domainsBlacklist
  whitelist : ∀ elements, root.objectGet keyDomainsWhitelist = some (.array elements) →
    List.Forall₂ StoredDomain (elements.filterMap Json.nonNull) config.domainsWhitelist
  auth : ∀ value, cloudString root ['a', 'u', 't', 'h'] value → 0 ∉ value →
    TerminatedPrefix serveraddrLength value config.cloudlogging.auth
  addr : ∀ value, cloudString root ['a', 'd', 'd', 'r'] value → 0 ∉ value →
    TerminatedPrefix serveraddrLength value config.cloudlogging.addr
  user : ∀ value, cloudString root ['u', 's', 'e', 'r'] value → 0 ∉ value →
    TerminatedPrefix usernameLength value config.cloudlogging.user
  pass : ∀ value, cloudString root ['p', 'a', 's', 's'] value → 0 ∉ value →
    TerminatedPrefix passwordLength value config.cloudlogging.pass

/-- No string of a list is as long as the buffer for it. -/
def NoneFills (root : Json) (key : Bytes) : Prop :=
  ∀ elements, root.objectGet key = some (.array elements) →
    ∀ value, .string value ∈ elements → 0 ∉ value → value.length ≠ domainLength

/-- No string of the document is as long as the buffer it is copied to, those of
`cloudlogging` apart. -/
structure NoStringFills (root : Json) : Prop where
  serveraddr : ∀ value, root.objectGet keyServeraddr = some (.string value) → 0 ∉ value →
    value.length ≠ serveraddrLength
  blacklist : NoneFills root keyDomainsBlacklist
  whitelist : NoneFills root keyDomainsWhitelist

/-! ## What is loaded -/

section Loaded

variable {jsonC : JsonC} {config after : Config} {member : Option Json}

theorem configLoadCategories_eq_ok (loaded : configLoadCategories jsonC config member = .ok after) :
    ∃ categories, after = { config with categories := categories } := by
  cases member with
  | none => exact ⟨config.categories, (Except.ok.inj loaded).symm⟩
  | some array =>
      simp only [configLoadCategories, bind, Except.bind] at loaded
      split at loaded
      · cases loaded
      · exact ⟨_, (Except.ok.inj loaded).symm⟩

theorem configLoadApplications_eq_ok
    (loaded : configLoadApplications jsonC config member = .ok after) :
    ∃ applications, after = { config with applications := applications } := by
  cases member with
  | none => exact ⟨config.applications, (Except.ok.inj loaded).symm⟩
  | some array =>
      simp only [configLoadApplications, bind, Except.bind] at loaded
      split at loaded
      · cases loaded
      · exact ⟨_, (Except.ok.inj loaded).symm⟩

theorem loadDomainsBlacklist_eq_ok {elements : List Json} {domains loaded : List Bytes}
    (result : loadDomainsBlacklist jsonC elements domains = .ok loaded) :
    loaded = domains ++ storedBuffers jsonC elements := by
  rw [loadDomainsBlacklist_eq] at result
  split at result
  · exact (Except.ok.inj result).symm
  · cases result

theorem configLoadDomainsBlacklist_eq_ok
    (loaded : configLoadDomainsBlacklist jsonC config member = .ok after) :
    ∃ domains, after = { config with domainsBlacklist := domains } ∧
      ∀ elements, member = some (.array elements) →
        domains = config.domainsBlacklist ++ storedBuffers jsonC elements := by
  cases member with
  | none => exact ⟨_, (Except.ok.inj loaded).symm, fun elements listed => by cases listed⟩
  | some value =>
      cases array : value.arrayElements with
      | none => simp [configLoadDomainsBlacklist, array] at loaded
      | some elements =>
          simp only [configLoadDomainsBlacklist, array, bind, Except.bind] at loaded
          split at loaded
          · cases loaded
          · rename_i domains stored
            refine ⟨domains, (Except.ok.inj loaded).symm, fun others listed => ?_⟩
            cases listed
            cases array
            exact loadDomainsBlacklist_eq_ok stored

theorem configLoadDomainsWhitelist_eq_ok
    (loaded : configLoadDomainsWhitelist jsonC config member = .ok after) :
    ∃ domains, after = { config with domainsWhitelist := domains } ∧
      ∀ elements, member = some (.array elements) →
        domains = config.domainsWhitelist ++ storedBuffers jsonC elements := by
  cases member with
  | none => exact ⟨_, (Except.ok.inj loaded).symm, fun elements listed => by cases listed⟩
  | some value =>
      cases array : value.arrayElements with
      | none => simp [configLoadDomainsWhitelist, array] at loaded
      | some elements =>
          simp only [configLoadDomainsWhitelist, array] at loaded
          refine ⟨_, (Except.ok.inj loaded).symm, fun others listed => ?_⟩
          cases listed
          cases array
          exact loadDomainsWhitelist_eq jsonC _ _

theorem cloudlogging_configLoadCloudlogging (jsonC : JsonC) (member : Option Json)
    (same : config.cloudlogging = after.cloudlogging) :
    (configLoadCloudlogging jsonC config member).cloudlogging =
      (configLoadCloudlogging jsonC after member).cloudlogging := by
  cases member with
  | none => exact same
  | some cloud => simp only [configLoadCloudlogging, same]

/-- The buffers a document that loads leaves behind. -/
structure LoadedBuffers (jsonC : JsonC) (root : Json) (config : Config) : Prop where
  serveraddr : config.serveraddr = copyCapped serveraddrLength
    (((root.objectGet keyServeraddr).map jsonC.getString).getD configdefaultServeraddr)
  blacklist : ∀ elements, root.objectGet keyDomainsBlacklist = some (.array elements) →
    config.domainsBlacklist = storedBuffers jsonC elements
  whitelist : ∀ elements, root.objectGet keyDomainsWhitelist = some (.array elements) →
    config.domainsWhitelist = storedBuffers jsonC elements
  cloudlogging : config.cloudlogging =
    (configLoadCloudlogging jsonC {} (root.objectGet keyCloudlogging)).cloudlogging

theorem loadedBuffers {root : Json} (loaded : configLoad jsonC root = .ok config) :
    LoadedBuffers jsonC root config := by
  simp only [configLoad, bind, Except.bind] at loaded
  split at loaded
  · cases loaded
  rename_i first categories
  split at loaded
  · cases loaded
  rename_i second applications
  split at loaded
  · cases loaded
  rename_i third blacklist
  split at loaded
  · cases loaded
  rename_i fourth whitelist
  obtain ⟨_, rfl⟩ := configLoadCategories_eq_ok categories
  obtain ⟨_, rfl⟩ := configLoadApplications_eq_ok applications
  obtain ⟨_, rfl, blacklisted⟩ := configLoadDomainsBlacklist_eq_ok blacklist
  obtain ⟨_, rfl, whitelisted⟩ := configLoadDomainsWhitelist_eq_ok whitelist
  cases loaded
  cases member : root.objectGet keyCloudlogging with
  | none => exact ⟨rfl, blacklisted, whitelisted, by rw [member]; rfl⟩
  | some cloud =>
      refine ⟨rfl, blacklisted, whitelisted, ?_⟩
      rw [member]
      exact cloudlogging_configLoadCloudlogging jsonC (some cloud) rfl

end Loaded

section Stored

variable {jsonC : JsonC} {root : Json} {config : Config}

theorem storedDomain_iff {element : Json} :
    StoredDomain element (domainCreate (jsonC.getString element)) ↔
      ∀ value, element = .string value → 0 ∉ value → value.length ≠ domainLength := by
  refine forall_congr' fun value => forall_congr' fun same => forall_congr' fun nulFree => ?_
  rw [same, jsonC.getString_of_nulFree nulFree, domainCreate_eq,
    terminatedPrefix_copyCapped_iff (by decide) nulFree]

theorem forall₂_storedBuffers_iff {elements : List Json} :
    List.Forall₂ StoredDomain (elements.filterMap Json.nonNull) (storedBuffers jsonC elements) ↔
      ∀ value, .string value ∈ elements → 0 ∉ value → value.length ≠ domainLength := by
  rw [storedBuffers, List.forall₂_map_right_iff, List.forall₂_same]
  constructor
  · intro stored value listed
    have member : Json.string value ∈ elements.filterMap Json.nonNull :=
      List.mem_filterMap.mpr ⟨_, listed, rfl⟩
    exact storedDomain_iff.mp (stored _ member) value rfl
  · intro short element member
    rw [storedDomain_iff]
    rintro value rfl
    obtain ⟨listed, inside, present⟩ := List.mem_filterMap.mp member
    have same : listed = .string value := by
      cases listed <;> simp_all [Json.nonNull]
    exact short value (same ▸ inside)

theorem terminatedPrefix_loadCredential {size : Nat} {value : Bytes} (nulFree : 0 ∉ value) :
    TerminatedPrefix size value
      (loadCredential jsonC (size - 1) (some (.string value)) (clearedBuffer size)) := by
  rw [loadCredential, jsonC.getString_of_nulFree nulFree]
  exact terminatedPrefix_overwrite value

/-- A document that loads stores terminated prefixes exactly where none of its
strings is as long as its buffer. -/
theorem storesPrefixes_iff_noStringFills (loaded : configLoad jsonC root = .ok config) :
    StoresPrefixes root config ↔ NoStringFills root := by
  have buffers := loadedBuffers loaded
  have serveraddr : ∀ value, root.objectGet keyServeraddr = some (.string value) → 0 ∉ value →
      (TerminatedPrefix serveraddrLength value config.serveraddr ↔
        value.length ≠ serveraddrLength) := by
    intro value present nulFree
    rw [buffers.serveraddr, present, Option.map_some, Option.getD_some,
      jsonC.getString_of_nulFree nulFree, terminatedPrefix_copyCapped_iff (by decide) nulFree]
  constructor
  · intro stores
    constructor
    · intro value present nulFree
      exact (serveraddr value present nulFree).mp (stores.serveraddr value present nulFree)
    · intro elements present
      have stored := stores.blacklist elements present
      rwa [buffers.blacklist elements present, forall₂_storedBuffers_iff] at stored
    · intro elements present
      have stored := stores.whitelist elements present
      rwa [buffers.whitelist elements present, forall₂_storedBuffers_iff] at stored
  · intro fills
    constructor
    · intro value present nulFree
      exact (serveraddr value present nulFree).mpr (fills.serveraddr value present nulFree)
    · intro absent
      rw [buffers.serveraddr, absent, Option.map_none, Option.getD_none,
        terminatedPrefix_copyCapped_iff (by decide) (by decide)]
      decide
    · intro elements present
      rw [buffers.blacklist elements present, forall₂_storedBuffers_iff]
      exact fills.blacklist elements present
    · intro elements present
      rw [buffers.whitelist elements present, forall₂_storedBuffers_iff]
      exact fills.whitelist elements present
    all_goals
      rintro value ⟨cloud, present, member⟩ nulFree
      rw [buffers.cloudlogging, present]
      simp only [configLoadCloudlogging, member]
      exact terminatedPrefix_loadCredential nulFree

end Stored

/-- A document with a server's address. -/
def addressed (value : Bytes) : Json := .object [(keyServeraddr, .string value)]

theorem objectGet_addressed (value : Bytes) :
    (addressed value).objectGet keyServeraddr = some (.string value) := by
  simp [addressed, Json.objectGet, Json.nonNull]

theorem objectGet_addressed_of_ne {key : Bytes} (other : keyServeraddr ≠ key) (value : Bytes) :
    (addressed value).objectGet key = none := by
  simp [addressed, Json.objectGet, other]

theorem configLoad_addressed (value : Bytes) :
    configLoad plainJsonC (addressed value) =
      .ok (configLoadServeraddr plainJsonC {} (some (.string value))) := by
  unfold configLoad
  rw [objectGet_addressed, objectGet_addressed_of_ne (by decide),
    objectGet_addressed_of_ne (by decide), objectGet_addressed_of_ne (by decide),
    objectGet_addressed_of_ne (by decide), objectGet_addressed_of_ne (by decide)]
  rfl

theorem storesPrefixes_iff_noStringFills_bc :
    StoresPrefixes (addressed [98, 46, 99])
        (configLoadServeraddr plainJsonC {} (some (.string [98, 46, 99]))) ↔
      NoStringFills (addressed [98, 46, 99]) :=
  storesPrefixes_iff_noStringFills (configLoad_addressed [98, 46, 99])

/-- An address as long as its buffer is stored without a zero. -/
theorem not_storesPrefixes_addressed :
    ∃ config, configLoad plainJsonC (addressed (List.replicate 256 97)) = .ok config ∧
      ¬ StoresPrefixes (addressed (List.replicate 256 97)) config := by
  refine ⟨_, configLoad_addressed _, fun stores => ?_⟩
  have nulFree : 0 ∉ List.replicate 256 (97 : UInt8) := fun member =>
    absurd (List.eq_of_mem_replicate member) (by decide)
  have stored := stores.serveraddr _ (objectGet_addressed _) nulFree
  rw [(loadedBuffers (configLoad_addressed _)).serveraddr, objectGet_addressed, Option.map_some,
    Option.getD_some, plainJsonC.getString_of_nulFree nulFree,
    terminatedPrefix_copyCapped_iff (by decide) nulFree] at stored
  exact stored List.length_replicate

end Uwebfilter
