import Uwebfilter.PlainExtraction
import Uwebfilter.StringSearch

/-!
# The fields of an HTTP request

What `extract_http_payload` takes from a request, told by the places of the
blanks and line ends it searches for.
-/

namespace Uwebfilter

open CStrings

def crlf : Bytes := [13, 10]

def hostField : Bytes := crlf ++ ascii ['H', 'o', 's', 't', ':']

/-! ## Fields of the request -/

/-- The field that goes from a place to the first letter of a kind, where that
is before a limit, as far as a buffer holds it. -/
def fieldUntil (memory : Bytes) (limit start : Nat) (letter : UInt8) (size : Nat) : Bytes :=
  match strchr memory start letter with
  | none => []
  | some stop =>
      if stop < limit then
        readBytes memory start (if stop - start < size then stop - start else size - 1)
      else []

theorem extractHttpHost_eq (memory : Bytes) (payloadLength : Nat) :
    extractHttpHost memory payloadLength =
      match strcasestr memory hostField with
      | none => []
      | some headerStart =>
          if headerStart < payloadLength then
            fieldUntil memory payloadLength (headerStart + 8) 13 domainLength
          else [] := rfl

theorem extractHttpPath_eq {memory : Bytes} {blank : Nat}
    (found : strchr memory 0 32 = some blank) (payloadLength : Nat) :
    extractHttpPath memory payloadLength =
      match strstr memory crlf with
      | none => some []
      | some requestLineEnd =>
          if requestLineEnd < payloadLength then
            some (fieldUntil memory requestLineEnd (blank + 1) 32 pathLength)
          else some [] := by
  unfold extractHttpPath fieldUntil
  rw [found]
  change (match strstr memory crlf with | none => _ | some _ => _) = _
  cases strstr memory crlf with
  | none => rfl
  | some requestLineEnd =>
      by_cases inside : requestLineEnd < payloadLength
      · simp only [if_pos inside]
        cases strchr memory (blank + 1) 32 with
        | none => rfl
        | some urlEnd => exact (apply_ite some _ _ _).symm
      · simp only [if_neg inside]

section Field

variable {memory : Bytes} {limit start size : Nat} {letter : UInt8}

/-- A field that is there is as much of its bytes as fits. -/
theorem fieldUntil_of_split {field rest : Bytes} (nonzero : letter ≠ 0) (room : 0 < size)
    (split : memory.drop start = field ++ letter :: rest) (nulFree : 0 ∉ field)
    (absent : letter ∉ field) (inside : start + field.length < limit) :
    fieldUntil memory limit start letter size = field.take (size - 1) := by
  have found := (strchr_eq_some_iff nonzero).mpr ⟨field, rest, split, nulFree, absent, rfl⟩
  have length := congrArg List.length split
  rw [List.length_drop, List.length_append, List.length_cons] at length
  unfold fieldUntil
  rw [found]
  dsimp only
  rw [if_pos inside, Nat.add_sub_cancel_left, readBytes_eq_take (by split <;> omega), split]
  by_cases short : field.length < size
  · rw [if_pos short, List.take_left', List.take_of_length_le (by omega)]
    rfl
  · rw [if_neg short, List.take_append_of_le_length (by omega)]

theorem split_of_fieldUntil (nonzero : letter ≠ 0)
    (nonempty : fieldUntil memory limit start letter size ≠ []) :
    ∃ field rest, memory.drop start = field ++ letter :: rest ∧ letter ∉ field ∧ field ≠ [] := by
  unfold fieldUntil at nonempty
  cases found : strchr memory start letter with
  | none => simp [found] at nonempty
  | some stop =>
      obtain ⟨field, rest, split, -, absent, rfl⟩ := (strchr_eq_some_iff nonzero).mp found
      refine ⟨field, rest, split, absent, ?_⟩
      rintro rfl
      simp [found, readBytes] at nonempty
      omega

theorem fieldUntil_length_lt (room : 0 < size) :
    (fieldUntil memory limit start letter size).length < size := by
  unfold fieldUntil
  split
  · exact room
  · split
    · rw [readBytes_length]
      split <;> omega
    · exact room

end Field

theorem extractHttpPayload_domain_length_lt (httpRequest : Bytes) (payloadLength : Nat) :
    (extractHttpPayload httpRequest payloadLength).domain.length < domainLength := by
  have host : (extractHttpHost httpRequest payloadLength).length < domainLength := by
    rw [extractHttpHost_eq]
    split
    · decide
    · split
      · exact fieldUntil_length_lt (by decide)
      · decide
  unfold extractHttpPayload
  split
  · split
    · decide
    · exact host
  · decide

/-! ## The method -/

theorem toLower_eq_iff {value other : UInt8} (unlettered : other.toNat < 65) :
    CStrings.toLower value = other ↔ value = other := by
  unfold CStrings.toLower
  split
  · rename_i upper
    have low := UInt8.le_iff_toNat_le.mp upper.1
    have high := UInt8.le_iff_toNat_le.mp upper.2
    have sum : (value + 32).toNat = value.toNat + 32 := by
      rw [UInt8.toNat_add]
      change (value.toNat + 32) % 256 = _
      change value.toNat ≤ 90 at high
      omega
    rw [← UInt8.toNat_inj, ← UInt8.toNat_inj, sum]
    change 65 ≤ value.toNat at low
    omega
  · rfl

theorem httpMethods_blank : ∀ word ∈ httpMethods, ∃ letters, word = letters ++ [32] ∧
    word.length ≤ 10 ∧ 0 ∉ letters.map CStrings.toLower ∧ 32 ∉ letters.map CStrings.toLower := by
  intro word listed
  have blank : ∀ word ∈ httpMethods, word = word.dropLast ++ [32] ∧ word.length ≤ 10 ∧
      0 ∉ word.dropLast.map CStrings.toLower ∧ 32 ∉ word.dropLast.map CStrings.toLower := by decide
  exact ⟨word.dropLast, blank word listed⟩

/-- A payload that begins with a method has a blank behind it. -/
theorem exists_blank_of_method {payload : Bytes}
    (method : httpMethods.any (startsWithWord payload) = true) :
    ∃ name rest, payload = name ++ 32 :: rest ∧ 0 ∉ name ∧ 32 ∉ name := by
  obtain ⟨word, listed, starts⟩ := List.any_eq_true.mp method
  obtain ⟨letters, rfl, -, nulFree, blankFree⟩ := httpMethods_blank word listed
  rw [startsWithWord, beq_iff_eq, List.map_append] at starts
  obtain ⟨name, tail, front, same, blank⟩ := List.map_eq_append_iff.mp starts
  have tailBlank : tail = [32] := by
    obtain ⟨value, rfl⟩ : ∃ value, tail = [value] := by
      have length := congrArg List.length blank
      exact List.length_eq_one_iff.mp (by simpa using length)
    have lower : CStrings.toLower value = 32 := List.singleton_inj.mp blank
    rw [(toLower_eq_iff (by decide)).mp lower]
  refine ⟨name, payload.drop (letters ++ [32]).length, ?_, ?_, ?_⟩
  · have whole := List.take_append_drop (letters ++ [32]).length payload
    rw [front, tailBlank, List.append_assoc] at whole
    exact whole.symm
  · intro nul
    exact nulFree (same ▸ List.mem_map_of_mem nul)
  · intro inside
    exact blankFree (same ▸ List.mem_map_of_mem inside)

theorem extractHttpPayload_of_path {memory path : Bytes} {payloadLength : Nat}
    (method : httpMethods.any (startsWithWord memory) = true)
    (found : extractHttpPath memory payloadLength = some path) :
    extractHttpPayload memory payloadLength =
      ⟨true, extractHttpHost memory payloadLength, path⟩ := by
  rw [extractHttpPayload, if_pos method, found]

end Uwebfilter
