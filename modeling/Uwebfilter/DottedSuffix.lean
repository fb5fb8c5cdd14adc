import Mathlib.Data.List.Basic
import Mathlib.Data.List.Infix

/-!
# Suffixes at separators

A hierarchical name is a string with a separator between its labels, most
specific label first.  A search for a name probes the name itself and then
what follows each separator.  Those probes are exactly the ancestors of the
name, so the search answers with the longest ancestor that has an answer.
-/

namespace DottedSuffix

variable {α β : Type} (dot : α)

/-- The name equals its ancestor or ends with the separator followed by it. -/
def Under (name ancestor : List α) : Prop :=
  name = ancestor ∨ ∃ front, name = front ++ dot :: ancestor

variable {dot}

theorem under_refl (name : List α) : Under dot name name := Or.inl rfl

theorem Under.suffix {name ancestor : List α} (under : Under dot name ancestor) :
    ancestor <:+ name := by
  rcases under with rfl | ⟨front, rfl⟩
  · exact List.suffix_rfl
  · exact ⟨front ++ [dot], by simp⟩

theorem Under.length_le {name ancestor : List α} (under : Under dot name ancestor) :
    ancestor.length ≤ name.length :=
  under.suffix.length_le

theorem Under.eq_of_length {name first second : List α}
    (firstUnder : Under dot name first) (secondUnder : Under dot name second)
    (lengths : first.length = second.length) : first = second := by
  have nested := List.suffix_of_suffix_length_le firstUnder.suffix secondUnder.suffix lengths.le
  exact nested.eq_of_length lengths

/-- Of two ancestors the longer one is under the other. -/
theorem Under.of_length_le {name ancestor longer : List α} (under : Under dot name ancestor)
    (longerUnder : Under dot name longer) (lengths : ancestor.length ≤ longer.length) :
    Under dot longer ancestor := by
  rcases Nat.eq_or_lt_of_le lengths with same | shorter
  · exact .inl (longerUnder.eq_of_length under same.symm)
  · rcases under with rfl | ⟨front, rfl⟩
    · exact absurd longerUnder.length_le (Nat.not_le.mpr shorter)
    · obtain ⟨between, same⟩ : dot :: ancestor <:+ longer :=
        List.suffix_of_suffix_length_le (List.suffix_append _ _) longerUnder.suffix shorter
      exact .inr ⟨between, same.symm⟩

variable [DecidableEq α] (dot)

/-- What follows each separator of a name, longest first. -/
def tails : List α → List (List α)
  | [] => []
  | letter :: rest => if letter = dot then rest :: tails rest else tails rest

/-- The strings a search for a name probes, in order. -/
def suffixes (name : List α) : List (List α) := name :: tails dot name

variable {dot}

theorem mem_tails {name ancestor : List α} :
    ancestor ∈ tails dot name ↔ ∃ front, name = front ++ dot :: ancestor := by
  induction name with
  | nil => simp [tails]
  | cons letter rest ih =>
      by_cases separator : letter = dot
      · subst separator
        rw [tails, if_pos rfl, List.mem_cons, ih]
        constructor
        · rintro (rfl | ⟨front, rfl⟩)
          · exact ⟨[], rfl⟩
          · exact ⟨letter :: front, rfl⟩
        · rintro ⟨_ | ⟨head, front⟩, equal⟩
          · exact Or.inl (List.cons.inj equal).2.symm
          · exact Or.inr ⟨front, (List.cons.inj equal).2⟩
      · rw [tails, if_neg separator, ih]
        constructor
        · rintro ⟨front, rfl⟩
          exact ⟨letter :: front, rfl⟩
        · rintro ⟨_ | ⟨head, front⟩, equal⟩
          · exact absurd (List.cons.inj equal).1 separator
          · exact ⟨front, (List.cons.inj equal).2⟩

/-- The probes are the ancestors. -/
theorem mem_suffixes {name ancestor : List α} :
    ancestor ∈ suffixes dot name ↔ Under dot name ancestor := by
  rw [suffixes, List.mem_cons, mem_tails, Under, eq_comm]

instance (name ancestor : List α) : Decidable (Under dot name ancestor) :=
  decidable_of_iff _ mem_suffixes

theorem length_lt_of_mem_tails {name ancestor : List α}
    (member : ancestor ∈ tails dot name) : ancestor.length < name.length := by
  obtain ⟨front, rfl⟩ := mem_tails.mp member
  simp only [List.length_append, List.length_cons]
  omega

theorem suffixes_pairwise (name : List α) :
    (suffixes dot name).Pairwise fun first second => second.length < first.length := by
  induction name with
  | nil => simp [suffixes, tails]
  | cons letter rest ih =>
      refine List.pairwise_cons.mpr ⟨fun ancestor => length_lt_of_mem_tails, ?_⟩
      by_cases separator : letter = dot
      · rw [tails, if_pos separator]
        exact ih
      · rw [tails, if_neg separator]
        exact (List.pairwise_cons.mp ih).2

/-! ## Searching -/

section Walk

variable (dot) (find : List α → Option β)

/-- Skip past each separator and try what follows it. -/
def walkTails : List α → Option β
  | [] => none
  | letter :: rest =>
      if letter = dot then
        match find rest with
        | some value => some value
        | none => walkTails rest
      else walkTails rest

/-- Try the name, then what follows each separator. -/
def walk (name : List α) : Option β :=
  match find name with
  | some value => some value
  | none => walkTails dot find name

variable {dot find}

theorem walkTails_eq (name : List α) :
    walkTails dot find name = (tails dot name).findSome? find := by
  induction name with
  | nil => rfl
  | cons letter rest ih =>
      by_cases separator : letter = dot
      · rw [walkTails, if_pos separator, tails, if_pos separator, List.findSome?_cons, ih]
        cases find rest <;> rfl
      · rw [walkTails, if_neg separator, tails, if_neg separator, ih]

theorem walk_eq (name : List α) :
    walk dot find name = (suffixes dot name).findSome? find := by
  rw [walk, suffixes, List.findSome?_cons, walkTails_eq]
  cases find name <;> rfl

theorem walk_eq_none {name : List α} :
    walk dot find name = none ↔ ∀ ancestor, Under dot name ancestor → find ancestor = none := by
  simp only [walk_eq, List.findSome?_eq_none_iff, mem_suffixes]

/-- A search answers with the longest ancestor that has an answer. -/
theorem walk_eq_some {name : List α} {value : β}
    (found : walk dot find name = some value) :
    ∃ ancestor, Under dot name ancestor ∧ find ancestor = some value ∧
      ∀ other, Under dot name other → ancestor.length < other.length → find other = none := by
  rw [walk_eq, List.findSome?_eq_some_iff] at found
  obtain ⟨longer, ancestor, shorter, split, answer, without⟩ := found
  refine ⟨ancestor, mem_suffixes.mp (by simp [split]), answer, fun other under longerThan => ?_⟩
  have member : other ∈ longer ++ ancestor :: shorter := split ▸ mem_suffixes.mpr under
  have descending := @suffixes_pairwise α dot _ name
  rw [split, List.pairwise_append, List.pairwise_cons] at descending
  rcases List.mem_append.mp member with before | behind
  · exact without other before
  · rcases List.mem_cons.mp behind with rfl | later
    · omega
    · have := descending.2.1.1 other later
      omega

variable (dot find)

/-- `walkTails` with the strings it tries. -/
def walkTailsProbes : List α → Option β × List (List α)
  | [] => (none, [])
  | letter :: rest =>
      if letter = dot then
        match find rest with
        | some value => (some value, [rest])
        | none => ((walkTailsProbes rest).1, rest :: (walkTailsProbes rest).2)
      else walkTailsProbes rest

/-- `walk` with the strings it tries. -/
def walkProbes (name : List α) : Option β × List (List α) :=
  match find name with
  | some value => (some value, [name])
  | none =>
      ((walkTailsProbes dot find name).1, name :: (walkTailsProbes dot find name).2)

variable {dot find}

theorem walkTailsProbes_fst (name : List α) :
    (walkTailsProbes dot find name).1 = walkTails dot find name := by
  induction name with
  | nil => rfl
  | cons letter rest ih =>
      by_cases separator : letter = dot
      · rw [walkTailsProbes, if_pos separator, walkTails, if_pos separator]
        cases find rest with
        | none => exact ih
        | some value => rfl
      · rw [walkTailsProbes, if_neg separator, walkTails, if_neg separator, ih]

theorem walkProbes_fst (name : List α) : (walkProbes dot find name).1 = walk dot find name := by
  unfold walkProbes walk
  cases find name with
  | none => exact walkTailsProbes_fst name
  | some value => rfl

theorem walkTailsProbes_snd {name : List α} (none : walkTails dot find name = none) :
    (walkTailsProbes dot find name).2 = tails dot name := by
  induction name with
  | nil => rfl
  | cons letter rest ih =>
      by_cases separator : letter = dot
      · rw [walkTails, if_pos separator] at none
        rw [walkTailsProbes, if_pos separator, tails, if_pos separator]
        cases found : find rest with
        | none =>
            simp only [found] at none
            exact congrArg (List.cons rest) (ih none)
        | some value => simp [found] at none
      · rw [walkTails, if_neg separator] at none
        rw [walkTailsProbes, if_neg separator, tails, if_neg separator, ih none]

/-- A search that finds nothing tries the name and all its suffixes, in order. -/
theorem walkProbes_snd {name : List α} (none : walk dot find name = none) :
    (walkProbes dot find name).2 = suffixes dot name := by
  unfold walk at none
  unfold walkProbes suffixes
  cases found : find name with
  | none =>
      simp only [found] at none
      exact congrArg (List.cons name) (walkTailsProbes_snd none)
  | some value => simp [found] at none

end Walk

end DottedSuffix
