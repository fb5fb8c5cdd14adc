import Uwebfilter.HttpFields

/-!
# What `extract_http_payload` takes from behind the payload

The extractor searches memory without an end.  The bytes behind the payload
reach its answer only where the payload ends between the two bytes that end a
request line.
-/

namespace Uwebfilter

open CStrings

/-- The buffer `path`, all zero before, with some bytes at its beginning. -/
def pathBuffer (written : Bytes) : Bytes := overwrite (List.replicate pathLength 0) 0 written

/-- A field inside the region is the same whatever follows. -/
theorem fieldUntil_append {memory : Bytes} {limit start size : Nat} {letter : UInt8}
    (nonzero : letter ≠ 0) (inside : limit ≤ memory.length) (rest : Bytes) :
    fieldUntil (memory ++ rest) limit start letter size =
      fieldUntil memory limit start letter size := by
  unfold fieldUntil
  cases found : strchr memory start letter with
  | some stop =>
      obtain ⟨again, before⟩ := strchr_append_of_some nonzero found rest
      obtain ⟨between, -, -, -, -, place⟩ := (strchr_eq_some_iff nonzero).mp found
      rw [again]
      dsimp only
      by_cases below : stop < limit
      · rw [if_pos below, if_pos below, readBytes_append]
        split <;> omega
      · rw [if_neg below, if_neg below]
  | none =>
      cases behind : strchr (memory ++ rest) start letter with
      | none => rfl
      | some stop =>
          have outside := le_of_strchr_append nonzero found behind
          exact if_neg (by omega)

theorem startsWithMethod_append {payload : Bytes} (long : 10 ≤ payload.length) (rest : Bytes) :
    httpMethods.any (startsWithWord (payload ++ rest)) =
      httpMethods.any (startsWithWord payload) := by
  have each : ∀ word ∈ httpMethods,
      startsWithWord (payload ++ rest) word = startsWithWord payload word := by
    intro word listed
    obtain ⟨-, -, short, -, -⟩ := httpMethods_blank word listed
    rw [startsWithWord, startsWithWord, List.take_append_of_le_length (by omega)]
  rw [Bool.eq_iff_iff, List.any_eq_true, List.any_eq_true]
  exact exists_congr fun word => and_congr_right fun listed => by rw [each word listed]

/-! ## The host -/

theorem strcasestr_append_of_some {memory word : Bytes} {place : Nat} (nonempty : word ≠ [])
    (found : strcasestr memory word = some place) (rest : Bytes) :
    strcasestr (memory ++ rest) word = some place := by
  by_cases nul : 0 ∈ memory
  · rwa [strcasestr, cString_append_of_nul nul]
  · rw [strcasestr, cString_append_of_nulFree nul, List.map_append]
    rw [strcasestr, cString_of_nulFree nul] at found
    exact (findWord_append_of_some (by simpa using nonempty) found _).1

theorem lt_of_strcasestr_append {memory word rest : Bytes} {place : Nat} (nonempty : word ≠ [])
    (absent : strcasestr memory word = none)
    (found : strcasestr (memory ++ rest) word = some place) :
    memory.length < place + word.length := by
  by_cases nul : 0 ∈ memory
  · rw [strcasestr, cString_append_of_nul nul] at found
    rw [strcasestr, found] at absent
    cases absent
  · rw [strcasestr, cString_append_of_nulFree nul, List.map_append] at found
    rw [strcasestr, cString_of_nulFree nul] at absent
    have outside := lt_of_findWord_append (by simpa using nonempty) absent found
    rwa [List.length_map, List.length_map] at outside

theorem extractHttpHost_append (payload rest : Bytes) :
    extractHttpHost (payload ++ rest) payload.length =
      extractHttpHost payload payload.length := by
  rw [extractHttpHost_eq, extractHttpHost_eq]
  cases found : strcasestr payload hostField with
  | some headerStart =>
      rw [strcasestr_append_of_some (by decide) found rest]
      dsimp only
      rw [fieldUntil_append (by decide) (Nat.le_refl _)]
  | none =>
      cases behind : strcasestr (payload ++ rest) hostField with
      | none => rfl
      | some headerStart =>
          -- the field would begin behind the payload
          have outside := lt_of_strcasestr_append (by decide) found behind
          change payload.length < headerStart + 7 at outside
          have nothing : fieldUntil payload payload.length (headerStart + 8) 13 domainLength = [] := by
            unfold fieldUntil
            have empty : payload.drop (headerStart + 8) = [] :=
              List.drop_eq_nil_of_le (by omega)
            rw [strchr, empty]
            rfl
          dsimp only
          rw [fieldUntil_append (by decide) (Nat.le_refl _), nothing, ite_self]

/-! ## The path -/

theorem strstr_append_of_some {memory word : Bytes} {place : Nat} (nonempty : word ≠ [])
    (found : strstr memory word = some place) (rest : Bytes) :
    strstr (memory ++ rest) word = some place ∧ place + word.length ≤ memory.length := by
  have length : (cString memory).length ≤ memory.length := (List.takeWhile_prefix _).length_le
  by_cases nul : 0 ∈ memory
  · have inside := (findWord_append_of_some nonempty found []).2
    exact ⟨by rwa [strstr, cString_append_of_nul nul], by omega⟩
  · rw [strstr, cString_append_of_nulFree nul]
    rw [strstr, cString_of_nulFree nul] at found
    exact findWord_append_of_some nonempty found _

/-- The payload ends between the two bytes that end its request line, and the
path in it is not empty. -/
structure CutRequestLine (payload : Bytes) : Prop where
  method : httpMethods.any (startsWithWord payload) = true
  nulFree : 0 ∉ payload
  unended : ¬ crlf <:+: payload
  cut : ∃ front, payload = front ++ [13]
  target : ∃ name target version, payload = name ++ 32 :: (target ++ 32 :: version) ∧
    32 ∉ name ∧ 32 ∉ target ∧ target ≠ []

/-- The same answer with the same two buffers. -/
structure SameHttpPayload (first second : HttpPayload) : Prop where
  found : first.found = second.found
  domain : domainBuffer first.domain = domainBuffer second.domain
  path : pathBuffer first.path = pathBuffer second.path

/-- The answer is the same whatever is behind the payload. -/
def DependsOnPayloadOnly (payload : Bytes) : Prop :=
  ∀ first second : Bytes, 0 ∈ first → 0 ∈ second →
    SameHttpPayload (extractHttpPayload (payload ++ first) payload.length)
      (extractHttpPayload (payload ++ second) payload.length)

section Path

variable {payload : Bytes} {blank : Nat}

/-- A line end that is only found with the bytes behind the payload. -/
theorem cut_of_strstr_append {rest : Bytes} {requestLineEnd : Nat}
    (absent : strstr payload crlf = none)
    (found : strstr (payload ++ rest) crlf = some requestLineEnd)
    (inside : requestLineEnd < payload.length) :
    0 ∉ payload ∧ ∃ front, payload = front ++ [13] ∧ requestLineEnd = front.length := by
  have nulFree : 0 ∉ payload := by
    intro nul
    rw [strstr, cString_append_of_nul nul, ← strstr, absent] at found
    cases found
  refine ⟨nulFree, ?_⟩
  rw [strstr, cString_append_of_nulFree nulFree] at found
  rw [strstr, cString_of_nulFree nulFree] at absent
  have outside := lt_of_findWord_append (by decide) absent found
  change payload.length < requestLineEnd + 2 at outside
  obtain ⟨here, -⟩ := (findWord_eq_some_iff (by decide)).mp found
  obtain ⟨front, last, rfl⟩ : ∃ front last, payload = front ++ [last] := by
    refine ⟨payload.dropLast, payload.getLast ?_, ?_⟩
    · exact List.ne_nil_of_length_pos (by omega)
    · exact (List.dropLast_concat_getLast _).symm
  rw [List.length_append, List.length_singleton] at inside outside
  have place : requestLineEnd = front.length := by omega
  refine ⟨front, ?_, place⟩
  rw [place, List.append_assoc, List.drop_left' rfl] at here
  obtain ⟨more, whole⟩ := here
  rw [(List.cons.inj whole).1]

theorem extractHttpPath_append (found : strchr payload 0 32 = some blank) (rest : Bytes) :
    extractHttpPath (payload ++ rest) payload.length = extractHttpPath payload payload.length ∨
      0 ∉ payload ∧ ¬ crlf <:+: payload ∧ ∃ front, payload = front ++ [13] ∧
        extractHttpPath payload payload.length = some [] ∧
        extractHttpPath (payload ++ rest) payload.length =
          some (fieldUntil payload front.length (blank + 1) 32 pathLength) := by
  rw [extractHttpPath_eq found, extractHttpPath_eq (strchr_append_of_some (by decide) found rest).1]
  cases ended : strstr payload crlf with
  | some requestLineEnd =>
      obtain ⟨again, inside⟩ := strstr_append_of_some (by decide) ended rest
      have below : requestLineEnd ≤ payload.length := by omega
      rw [again]
      dsimp only
      rw [fieldUntil_append (by decide) below]
      exact .inl rfl
  | none =>
      cases behind : strstr (payload ++ rest) crlf with
      | none => exact .inl rfl
      | some requestLineEnd =>
          dsimp only
          by_cases inside : requestLineEnd < payload.length
          · obtain ⟨nulFree, front, split, rfl⟩ := cut_of_strstr_append ended behind inside
            have unended : ¬ crlf <:+: payload := by
              rwa [strstr, cString_of_nulFree nulFree, findWord_eq_none_iff_absent (by decide)]
                at ended
            rw [if_pos inside, fieldUntil_append (by decide) (Nat.le_of_lt inside)]
            exact .inr ⟨nulFree, unended, front, split, rfl, rfl⟩
          · exact .inl (if_neg inside)

theorem extractHttpPayload_append (long : 10 ≤ payload.length) (whole : ¬ CutRequestLine payload)
    (rest : Bytes) :
    extractHttpPayload (payload ++ rest) payload.length =
      extractHttpPayload payload payload.length := by
  unfold extractHttpPayload
  rw [startsWithMethod_append long]
  by_cases method : httpMethods.any (startsWithWord payload) = true
  · obtain ⟨name, tail, split, nulFree, blankFree⟩ := exists_blank_of_method method
    have found : strchr payload 0 32 = some name.length :=
      (strchr_eq_some_iff (by decide)).mpr ⟨name, tail, split, nulFree, blankFree, by simp⟩
    have path : extractHttpPath (payload ++ rest) payload.length =
        extractHttpPath payload payload.length := by
      rcases extractHttpPath_append found rest with same | ⟨nulFree, unended, front, cut, none, some⟩
      · exact same
      · by_cases empty : fieldUntil payload front.length (name.length + 1) 32 pathLength = []
        · rw [none, some, empty]
        · obtain ⟨target, version, field, targetFree, nonempty⟩ :=
            split_of_fieldUntil (by decide) empty
          rw [split, ← List.singleton_append, ← List.append_assoc, List.drop_left' (by simp)]
            at field
          exact absurd ⟨method, nulFree, unended, ⟨front, cut⟩, name, target, version,
            by rw [split, field], blankFree, targetFree, nonempty⟩ whole
    rw [path, extractHttpHost_append]
  · rw [if_neg method, if_neg method]

/-- A line feed behind a payload that is cut in its line end ends the line. -/
theorem CutRequestLine.strstr_append (cut : CutRequestLine payload) {front : Bytes}
    (ended : payload = front ++ [13]) : strstr (payload ++ [10, 0]) crlf = some front.length := by
  have string : cString (payload ++ [10, 0]) = front ++ crlf := by
    rw [cString_append_of_nulFree cut.nulFree, ended, List.append_assoc]
    rfl
  rw [strstr, string]
  refine findWord_append_of_absent (by decide) (fun place before here => ?_) (List.prefix_refl _)
  have whole : front ++ crlf = payload ++ [10] := by
    rw [ended, List.append_assoc]
    rfl
  rw [whole] at here
  have fits : place + crlf.length ≤ payload.length := by
    rw [ended, List.length_append]
    exact Nat.succ_le_succ before
  have inside := prefix_of_drop_append fits here
  exact cut.unended (inside.isInfix.trans (List.drop_suffix place payload).isInfix)

/-- With a line feed behind it, a payload cut in its line end has a path. -/
theorem CutRequestLine.path_of_lineFeed (cut : CutRequestLine payload) {name target version : Bytes}
    (split : payload = name ++ 32 :: (target ++ 32 :: version)) (targetFree : 32 ∉ target)
    (found : strchr payload 0 32 = some name.length) :
    extractHttpPath (payload ++ [10, 0]) payload.length = some (target.take (pathLength - 1)) := by
  obtain ⟨front, ended⟩ := cut.cut
  have nulFree : 0 ∉ target := by
    intro nul
    apply cut.nulFree
    rw [split]
    simp [nul]
  have field : payload.drop (name.length + 1) = target ++ 32 :: version := by
    rw [split, ← List.singleton_append, ← List.append_assoc, List.drop_left' (by simp)]
  -- the last byte is no blank, so the version is not empty
  have versioned : version ≠ [] := by
    rintro rfl
    have last := congrArg List.getLast? (split.symm.trans ended)
    rw [← List.cons_append, ← List.append_assoc, List.getLast?_concat, List.getLast?_concat]
      at last
    exact absurd last (by decide)
  have positive := List.length_pos_of_ne_nil versioned
  have length := congrArg List.length (split.symm.trans ended)
  simp only [List.length_append, List.length_cons, List.length_nil] at length
  have before : front.length < payload.length := by rw [ended]; simp
  rw [extractHttpPath_eq (strchr_append_of_some (by decide) found _).1, cut.strstr_append ended]
  dsimp only
  rw [if_pos before, fieldUntil_append (by decide) (Nat.le_of_lt before),
    fieldUntil_of_split (by decide) (by decide) field nulFree targetFree (by omega)]

theorem CutRequestLine.path_of_zero (cut : CutRequestLine payload)
    (found : strchr payload 0 32 = some blank) :
    extractHttpPath (payload ++ [0]) payload.length = some [] := by
  have string : cString (payload ++ [0]) = payload := by
    rw [cString_append_of_nulFree cut.nulFree]
    exact List.append_nil _
  rw [extractHttpPath_eq (strchr_append_of_some (by decide) found _).1, strstr, string,
    (findWord_eq_none_iff_absent (by decide)).mpr cut.unended]

/-- The answer to a payload that is cut in its line end tells what follows. -/
theorem CutRequestLine.differs (cut : CutRequestLine payload) (long : 10 ≤ payload.length) :
    ¬ DependsOnPayloadOnly payload := by
  intro only
  obtain ⟨name, target, version, split, blankFree, targetFree, nonempty⟩ := cut.target
  have nulFree := cut.nulFree
  rw [split] at nulFree
  simp only [List.mem_append, List.mem_cons, not_or] at nulFree
  have found : strchr payload 0 32 = some name.length :=
    (strchr_eq_some_iff (by decide)).mpr ⟨name, _, split, nulFree.1, blankFree, by simp⟩
  have method (rest : Bytes) : httpMethods.any (startsWithWord (payload ++ rest)) = true := by
    rw [startsWithMethod_append long, cut.method]
  have same := (only [10, 0] [0] (by decide) (by decide)).path
  rw [extractHttpPayload_of_path (method _) (cut.path_of_lineFeed split targetFree found),
    extractHttpPayload_of_path (method _) (cut.path_of_zero found)] at same
  obtain ⟨letter, letters, rfl⟩ := List.exists_cons_of_ne_nil nonempty
  have first : letter = 0 := by
    rw [pathBuffer, pathBuffer, overwrite_cleared, overwrite_cleared] at same
    exact (List.cons.inj same).1
  exact nulFree.2.2.1 (first ▸ List.mem_cons_self)

end Path

/-- The answer depends on the payload alone exactly where the payload does not
end inside the line end of its request line. -/
theorem dependsOnPayloadOnly_iff (payload : Bytes) (long : 10 ≤ payload.length) :
    DependsOnPayloadOnly payload ↔ ¬ CutRequestLine payload := by
  constructor
  · exact fun only cut => cut.differs long only
  · intro whole first second _ _
    rw [extractHttpPayload_append long whole, extractHttpPayload_append long whole]
    exact ⟨rfl, rfl, rfl⟩

/-- `GET /aa b` and the first byte of a line end. -/
def cutGet : Bytes := ascii ['G', 'E', 'T', ' ', '/', 'a', 'a', ' ', 'b'] ++ [13]

theorem dependsOnPayloadOnly_iff_cutGet :
    DependsOnPayloadOnly cutGet ↔ ¬ CutRequestLine cutGet :=
  dependsOnPayloadOnly_iff cutGet (by decide)

/-- A line feed or a zero behind this payload decides whether it has a path. -/
theorem not_dependsOnPayloadOnly_cutGet : ¬ DependsOnPayloadOnly cutGet := by
  have cut : CutRequestLine cutGet :=
    { method := by decide
      nulFree := by decide
      unended := by decide
      cut := ⟨_, rfl⟩
      target := ⟨ascii ['G', 'E', 'T'], ascii ['/', 'a', 'a'], [98, 13], by decide⟩ }
  exact cut.differs (by decide)

end Uwebfilter
