import Uwebfilter.DomainLookup

/-!
# Configuration

`config_load` and the questions the rest of the daemon asks of what it loaded.
Allocations succeed; `config` is cleared before it is loaded.
-/

namespace Uwebfilter

open CStrings

def serveraddrLength : Nat := 256

def usernameLength : Nat := 64

def passwordLength : Nat := 64

def clearedBuffer (size : Nat) : Bytes := List.replicate size 0

structure Cloudlogging where
  auth : Bytes := clearedBuffer serveraddrLength
  addr : Bytes := clearedBuffer serveraddrLength
  user : Bytes := clearedBuffer usernameLength
  pass : Bytes := clearedBuffer passwordLength

/-- The static variable `config`, each array with its length, each table by the
buffers of its elements. -/
structure Config where
  serveraddr : Bytes := clearedBuffer serveraddrLength
  categories : Option (List Int) := none
  applications : Option (List Int) := none
  domainsBlacklist : List Bytes := []
  domainsWhitelist : List Bytes := []
  cloudlogging : Cloudlogging := {}

def configdefaultServeraddr : Bytes :=
  ascii ['h', 't', 't', 'p', 's', ':', '/', '/', 'l', 'o', 'c', 'a', 'l', 'h', 'o', 's', 't', ':',
    '3', '5', '0', '0', '/', 'q', 'u', 'e', 'r', 'y']

def domainCreate (domain : Bytes) : Bytes :=
  let copyLength := if domain.length > domainLength then domainLength - 1 else domain.length
  overwrite (clearedBuffer domainLength) 0 (domain.take copyLength)

section Load

variable (jsonC : JsonC)

def configLoadServeraddr (config : Config) (jServeraddr : Option Json) : Config :=
  let serveraddr := (jServeraddr.map jsonC.getString).getD configdefaultServeraddr
  let copyLength :=
    if serveraddr.length > serveraddrLength then serveraddrLength - 1 else serveraddr.length
  { config with serveraddr := overwrite config.serveraddr 0 (serveraddr.take copyLength) }

/-- The numbers among the elements of an array. -/
def loadNumbers (array : Json) : Except Fault (List Int) :=
  match array.arrayElements with
  | none => .error .assertion
  | some elements =>
      .ok (elements.filterMap fun element => element.nonNull.map jsonC.getInt)

def configLoadCategories (config : Config) : Option Json → Except Fault Config
  | none => .ok config
  | some jCategories => do
      let categories ← loadNumbers jsonC jCategories
      .ok { config with categories := some categories }

def configLoadApplications (config : Config) : Option Json → Except Fault Config
  | none => .ok config
  | some jApplications => do
      let applications ← loadNumbers jsonC jApplications
      .ok { config with applications := some applications }

/-- The loop of `config_load_domains_blacklist`, which tests the array where
it means the element: a `null` element reaches `strlen`. -/
def loadDomainsBlacklist : List Json → List Bytes → Except Fault (List Bytes)
  | [], domains => .ok domains
  | jDomain :: rest, domains =>
      match jDomain.nonNull with
      | none => .error .null
      | some jDomain => loadDomainsBlacklist rest (domains ++ [domainCreate (jsonC.getString jDomain)])

def configLoadDomainsBlacklist (config : Config) : Option Json → Except Fault Config
  | none => .ok config
  | some jDomains =>
      match jDomains.arrayElements with
      | none => .error .assertion
      | some elements => do
          let domains ← loadDomainsBlacklist jsonC elements config.domainsBlacklist
          .ok { config with domainsBlacklist := domains }

/-- The loop of `config_load_domains_whitelist`. -/
def loadDomainsWhitelist : List Json → List Bytes → List Bytes
  | [], domains => domains
  | jDomain :: rest, domains =>
      match jDomain.nonNull with
      | none => loadDomainsWhitelist rest domains
      | some jDomain => loadDomainsWhitelist rest (domains ++ [domainCreate (jsonC.getString jDomain)])

def configLoadDomainsWhitelist (config : Config) : Option Json → Except Fault Config
  | none => .ok config
  | some jDomains =>
      match jDomains.arrayElements with
      | none => .error .assertion
      | some elements =>
          .ok { config with
            domainsWhitelist := loadDomainsWhitelist jsonC elements config.domainsWhitelist }

/-- Copy a member of `cloudlogging` into its buffer, at most `limit` bytes of it. -/
def loadCredential (limit : Nat) (jCredential : Option Json) (buffer : Bytes) : Bytes :=
  match jCredential with
  | none => buffer
  | some jCredential => overwrite buffer 0 ((jsonC.getString jCredential).take limit)

def configLoadCloudlogging (config : Config) : Option Json → Config
  | none => config
  | some jCloudlogging =>
      let member key := jCloudlogging.objectGet (ascii key)
      { config with
        cloudlogging :=
          { auth := loadCredential jsonC 255 (member ['a', 'u', 't', 'h']) config.cloudlogging.auth
            addr := loadCredential jsonC 255 (member ['a', 'd', 'd', 'r']) config.cloudlogging.addr
            user := loadCredential jsonC 63 (member ['u', 's', 'e', 'r']) config.cloudlogging.user
            pass := loadCredential jsonC 63 (member ['p', 'a', 's', 's'])
              config.cloudlogging.pass } }

def keyServeraddr : Bytes := ascii ['s', 'e', 'r', 'v', 'e', 'r', 'a', 'd', 'd', 'r']
def keyCategories : Bytes := ascii ['c', 'a', 't', 'e', 'g', 'o', 'r', 'i', 'e', 's']
def keyApplications : Bytes :=
  ascii ['a', 'p', 'p', 'l', 'i', 'c', 'a', 't', 'i', 'o', 'n', 's']
def keyDomainsBlacklist : Bytes :=
  ascii ['d', 'o', 'm', 'a', 'i', 'n', 's', '_', 'b', 'l', 'a', 'c', 'k', 'l', 'i', 's', 't']
def keyDomainsWhitelist : Bytes :=
  ascii ['d', 'o', 'm', 'a', 'i', 'n', 's', '_', 'w', 'h', 'i', 't', 'e', 'l', 'i', 's', 't']
def keyCloudlogging : Bytes :=
  ascii ['c', 'l', 'o', 'u', 'd', 'l', 'o', 'g', 'g', 'i', 'n', 'g']

/-- `config_load` of a document that parses. -/
def configLoad (root : Json) : Except Fault Config := do
  let config := configLoadServeraddr jsonC {} (root.objectGet keyServeraddr)
  let config ← configLoadCategories jsonC config (root.objectGet keyCategories)
  let config ← configLoadApplications jsonC config (root.objectGet keyApplications)
  let config ← configLoadDomainsBlacklist jsonC config (root.objectGet keyDomainsBlacklist)
  let config ← configLoadDomainsWhitelist jsonC config (root.objectGet keyDomainsWhitelist)
  .ok (configLoadCloudlogging jsonC config (root.objectGet keyCloudlogging))

end Load

def listsNumber (numbers : Option (List Int)) (number : Int) : Bool :=
  match numbers with
  | none => false
  | some numbers => numbers.any fun listed => decide (number = listed)

def configIsCategoryBlocked (config : Config) (category : Int) : Bool :=
  listsNumber config.categories category

def configIsApplicationBlocked (config : Config) (appid : Int) : Bool :=
  listsNumber config.applications appid

def configDomainLookup (domains : List Bytes) (domain : Bytes) : Bool :=
  (DottedSuffix.walk dot
    (fun ptr => HashTable.find 0 (fun buffer => decide (cString buffer = ptr)) domains)
    domain).isSome

def configIsDomainBlacklisted (config : Config) (domain : Bytes) : Bool :=
  configDomainLookup config.domainsBlacklist domain

def configIsDomainWhitelisted (config : Config) (domain : Bytes) : Bool :=
  configDomainLookup config.domainsWhitelist domain

/-! ## What the lists hold -/

/-- The buffers of the elements of a list. -/
def storedBuffers (jsonC : JsonC) (elements : List Json) : List Bytes :=
  (elements.filterMap Json.nonNull).map fun element => domainCreate (jsonC.getString element)

theorem loadDomainsBlacklist_eq (jsonC : JsonC) (elements : List Json) (domains : List Bytes) :
    loadDomainsBlacklist jsonC elements domains =
      if ∀ element ∈ elements, element.nonNull ≠ none then
        .ok (domains ++ storedBuffers jsonC elements)
      else .error .null := by
  induction elements generalizing domains with
  | nil => simp [loadDomainsBlacklist, storedBuffers]
  | cons element elements ih =>
      cases present : element.nonNull with
      | none => simp [loadDomainsBlacklist, present]
      | some value =>
          rw [loadDomainsBlacklist, present]
          simp only [ih, storedBuffers, List.filterMap_cons, present, List.map_cons,
            List.forall_mem_cons, List.append_assoc, List.singleton_append, ne_eq,
            reduceCtorEq, not_false_eq_true, true_and]

theorem loadDomainsWhitelist_eq (jsonC : JsonC) (elements : List Json) (domains : List Bytes) :
    loadDomainsWhitelist jsonC elements domains = domains ++ storedBuffers jsonC elements := by
  induction elements generalizing domains with
  | nil => simp [loadDomainsWhitelist, storedBuffers]
  | cons element elements ih =>
      cases present : element.nonNull with
      | none =>
          rw [loadDomainsWhitelist, present]
          simp only [ih, storedBuffers, List.filterMap_cons, present]
      | some value =>
          rw [loadDomainsWhitelist, present]
          simp only [ih, storedBuffers, List.filterMap_cons, present, List.map_cons,
            List.append_assoc, List.singleton_append]

/-! ## What the questions answer -/

theorem listsNumber_iff {numbers : Option (List Int)} {number : Int} :
    listsNumber numbers number = true ↔ ∃ listed, numbers = some listed ∧ number ∈ listed := by
  cases numbers with
  | none => simp [listsNumber]
  | some listed => simp [listsNumber]

/-- A name is in a list where it is under one of the names stored. -/
theorem configDomainLookup_iff {domains : List Bytes} {domain : Bytes} :
    configDomainLookup domains domain = true ↔
      ∃ buffer ∈ domains, DottedSuffix.Under dot domain (cString buffer) := by
  unfold configDomainLookup
  rw [Option.isSome_iff_ne_none, Ne, DottedSuffix.walk_eq_none]
  constructor
  · intro found
    by_contra absent
    apply found
    intro ancestor under
    rw [HashTable.find_eq_none]
    intro buffer member
    rw [decide_eq_false_iff_not]
    rintro rfl
    exact absent ⟨buffer, member, under⟩
  · rintro ⟨buffer, member, under⟩ absent
    have nothing := HashTable.find_eq_none.mp (absent _ under) buffer member
    simp at nothing

theorem cString_domainCreate {domain : Bytes} (nulFree : 0 ∉ domain)
    (short : domain.length < domainLength) : cString (domainCreate domain) = domain := by
  unfold domainCreate
  rw [if_neg (by omega)]
  dsimp only
  rw [List.take_length]
  rw [clearedBuffer, overwrite_cleared]
  exact cString_append_replicate nulFree _

end Uwebfilter
