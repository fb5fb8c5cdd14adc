import Uwebfilter.ConfigBuffers

/-!
# The two domain lists

The loaders of `domains_blacklist` and `domains_whitelist` are copies of one
loop.  They agree on an array of strings exactly where it has no `null`, which
the one passes over and the other hands to `strlen`.
-/

namespace Uwebfilter

open CStrings

/-- An element is `null` or a string shorter than its buffer. -/
def DomainElement (element : Json) : Prop :=
  element = .null ∨ ∃ value, element = .string value ∧ value.length < domainLength

/-- The names of an array, as C strings. -/
def elementNames (elements : List Json) : List Bytes :=
  elements.filterMap fun
    | .string value => some (cString value)
    | _ => none

/-- A table has the names of an array. -/
def HasNames (elements : List Json) (domains : List Bytes) : Prop :=
  ∀ name, name ∈ domains.map cString ↔ name ∈ elementNames elements

/-- Both loaders complete on an array and leave its names. -/
structure LoadersAgree (jsonC : JsonC) (config : Config) (elements : List Json) : Prop where
  blacklist : ∃ loaded, configLoadDomainsBlacklist jsonC config (some (.array elements)) =
    .ok loaded ∧ HasNames elements loaded.domainsBlacklist
  whitelist : ∃ loaded, configLoadDomainsWhitelist jsonC config (some (.array elements)) =
    .ok loaded ∧ HasNames elements loaded.domainsWhitelist

section Loaders

variable {jsonC : JsonC} {config : Config} {elements : List Json}

theorem map_cString_storedBuffers (kind : ∀ element ∈ elements, DomainElement element) :
    (storedBuffers jsonC elements).map cString = elementNames elements := by
  induction elements with
  | nil => rfl
  | cons element elements ih =>
      rw [List.forall_mem_cons] at kind
      have rest := ih kind.2
      rcases kind.1 with rfl | ⟨value, rfl, short⟩
      · exact rest
      · have shorter : (cString value).length < domainLength :=
          Nat.lt_of_le_of_lt (List.takeWhile_prefix _).length_le short
        have stored : cString (domainCreate (jsonC.getString (.string value))) = cString value := by
          rw [jsonC.getString_string, cString_domainCreate (cString_nulFree value) shorter]
        change cString (domainCreate (jsonC.getString (.string value))) ::
          (storedBuffers jsonC elements).map cString = cString value :: elementNames elements
        rw [stored, rest]

theorem hasNames_storedBuffers (kind : ∀ element ∈ elements, DomainElement element) :
    HasNames elements (storedBuffers jsonC elements) := by
  intro name
  rw [map_cString_storedBuffers kind]

theorem nonNull_ne_none_iff {element : Json} : element.nonNull ≠ none ↔ element ≠ .null := by
  cases element <;> simp [Json.nonNull]

theorem whitelist_hasNames (kind : ∀ element ∈ elements, DomainElement element)
    (empty : config.domainsWhitelist = []) :
    ∃ loaded, configLoadDomainsWhitelist jsonC config (some (.array elements)) = .ok loaded ∧
      HasNames elements loaded.domainsWhitelist := by
  refine ⟨_, rfl, ?_⟩
  dsimp only
  rw [loadDomainsWhitelist_eq, empty]
  exact hasNames_storedBuffers kind

theorem blacklist_completes_iff (jsonC : JsonC) (config : Config) :
    (∃ loaded, configLoadDomainsBlacklist jsonC config (some (.array elements)) = .ok loaded) ↔
      Json.null ∉ elements := by
  have present : (∀ element ∈ elements, element.nonNull ≠ none) ↔ Json.null ∉ elements := by
    simp only [nonNull_ne_none_iff]
    exact ⟨fun each member => each _ member rfl, fun absent element member same =>
      absent (same ▸ member)⟩
  simp only [configLoadDomainsBlacklist, Json.arrayElements, loadDomainsBlacklist_eq, ← present]
  split
  · rename_i each
    exact iff_of_true ⟨_, rfl⟩ each
  · rename_i nulls
    apply iff_of_false _ nulls
    rintro ⟨loaded, fails⟩
    cases fails

/-- The loaders agree on an array, from empty tables, exactly where no element
of it is `null`. -/
theorem loadersAgree_iff (kind : ∀ element ∈ elements, DomainElement element)
    (emptyBlacklist : config.domainsBlacklist = []) (emptyWhitelist : config.domainsWhitelist = []) :
    LoadersAgree jsonC config elements ↔ Json.null ∉ elements := by
  rw [← blacklist_completes_iff jsonC config]
  constructor
  · rintro ⟨⟨loaded, completes, -⟩, -⟩
    exact ⟨loaded, completes⟩
  · rintro ⟨loaded, completes⟩
    refine ⟨⟨loaded, completes, ?_⟩, whitelist_hasNames kind emptyWhitelist⟩
    obtain ⟨domains, rfl, stored⟩ := configLoadDomainsBlacklist_eq_ok completes
    rw [stored elements rfl, emptyBlacklist]
    exact hasNames_storedBuffers kind

end Loaders

theorem loadersAgree_iff_bc : LoadersAgree plainJsonC {} [.string [98, 46, 99]] := by
  rw [loadersAgree_iff _ rfl rfl]
  · simp
  · intro element member
    rw [List.mem_singleton.mp member]
    exact .inr ⟨_, rfl, by decide⟩

/-- A `null` ends the daemon in the one loader, and the other passes over it. -/
theorem not_loadersAgree_null : ¬ LoadersAgree plainJsonC {} [.null] := by
  rintro ⟨⟨loaded, completes, -⟩, -⟩
  cases completes

end Uwebfilter
