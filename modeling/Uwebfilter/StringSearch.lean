import Uwebfilter.CStrings

/-!
# Searches in strings

Where `strstr`, `strcasestr` and `strchr` find what they look for, and how what
they find depends on the bytes behind a region.
-/

namespace CStrings

/-! ## Strings in memory -/

theorem cString_append_of_nulFree {content : Bytes} (nulFree : 0 ∉ content) (rest : Bytes) :
    cString (content ++ rest) = content ++ cString rest := by
  refine List.takeWhile_append_of_pos fun value member => ?_
  have nonzero : value ≠ 0 := fun zero => nulFree (zero ▸ member)
  simpa using nonzero

theorem cString_append_of_nul {content : Bytes} (nul : 0 ∈ content) (rest : Bytes) :
    cString (content ++ rest) = cString content := by
  obtain ⟨front, back, rfl, nulFree⟩ := List.eq_append_cons_of_mem nul
  rw [List.append_assoc, cString_append_of_nulFree nulFree, cString_append_of_nulFree nulFree]
  rfl

theorem readBytes_eq_take {memory : Bytes} {start count : Nat}
    (inside : start + count ≤ memory.length) :
    readBytes memory start count = (memory.drop start).take count := by
  apply List.ext_getElem
  · rw [readBytes_length, List.length_take, List.length_drop]
    omega
  · intro index below _
    rw [readBytes_length] at below
    have within : start + index < memory.length := by omega
    simp [readBytes, byteAt, within]

theorem readBytes_append {memory : Bytes} {start count : Nat}
    (inside : start + count ≤ memory.length) (rest : Bytes) :
    readBytes (memory ++ rest) start count = readBytes memory start count := by
  rw [readBytes_eq_take inside, readBytes_eq_take (by rw [List.length_append]; omega),
    List.drop_append_of_le_length (by omega),
    List.take_append_of_le_length (by rw [List.length_drop]; omega)]

/-! ## Words -/

section Words

variable {word content : Bytes} {place : Nat}

theorem findWord_eq_some_iff (nonempty : word ≠ []) :
    findWord word content = some place ↔
      word <+: content.drop place ∧ ∀ earlier < place, ¬ word <+: content.drop earlier := by
  induction content generalizing place with
  | nil =>
      simp [findWord, nonempty]
  | cons value rest ih =>
      by_cases here : word <+: value :: rest
      · rw [findWord, if_pos (List.isPrefixOf_iff_prefix.mpr here), Option.some.injEq]
        constructor
        · rintro rfl
          exact ⟨here, fun earlier before => absurd before (Nat.not_lt_zero _)⟩
        · rintro ⟨-, first⟩
          by_contra later
          exact first 0 (Nat.pos_of_ne_zero (Ne.symm later)) here
      · rw [findWord, if_neg (fun found => here (List.isPrefixOf_iff_prefix.mp found))]
        cases place with
        | zero => simp [here]
        | succ place =>
            rw [Option.map_eq_some_iff]
            simp only [Nat.add_right_cancel_iff, exists_eq_right, ih, List.drop_succ_cons]
            refine and_congr_right fun _ => ⟨?_, ?_⟩
            · rintro first (_ | earlier) before
              · exact here
              · exact first earlier (Nat.lt_of_succ_lt_succ before)
            · intro first earlier before
              exact first (earlier + 1) (Nat.succ_lt_succ before)

theorem findWord_eq_none_iff (nonempty : word ≠ []) :
    findWord word content = none ↔ ∀ place, ¬ word <+: content.drop place := by
  induction content with
  | nil => simp [findWord, nonempty]
  | cons value rest ih =>
      by_cases here : word <+: value :: rest
      · rw [findWord, if_pos (List.isPrefixOf_iff_prefix.mpr here)]
        exact iff_of_false (Option.some_ne_none _) fun absent => absent 0 here
      · rw [findWord, if_neg (fun found => here (List.isPrefixOf_iff_prefix.mp found)),
          Option.map_eq_none_iff, ih]
        constructor
        · rintro absent (_ | place)
          · exact here
          · exact absent place
        · exact fun absent place => absent (place + 1)

theorem findWord_eq_none_iff_absent (nonempty : word ≠ []) :
    findWord word content = none ↔ ¬ word <:+: content := by
  rw [findWord_eq_none_iff nonempty, ← not_exists, List.infix_iff_prefix_suffix]
  refine not_congr ⟨?_, ?_⟩
  · rintro ⟨place, here⟩
    exact ⟨content.drop place, here, List.drop_suffix place content⟩
  · rintro ⟨tail, here, behind⟩
    exact ⟨content.length - tail.length, (List.suffix_iff_eq_drop.mp behind) ▸ here⟩

/-- A word that a string has no place for is found behind the string. -/
theorem findWord_append_of_absent {front back : Bytes} (nonempty : word ≠ [])
    (absent : ∀ place < front.length, ¬ word <+: (front ++ back).drop place)
    (here : word <+: back) : findWord word (front ++ back) = some front.length := by
  rw [findWord_eq_some_iff nonempty, List.drop_left']
  · exact ⟨here, absent⟩
  · rfl

theorem prefix_of_drop_append {rest : Bytes} (fits : place + word.length ≤ content.length)
    (found : word <+: (content ++ rest).drop place) : word <+: content.drop place := by
  rw [List.drop_append_of_le_length (by omega)] at found
  exact List.prefix_of_prefix_length_le found (List.prefix_append _ _)
    (by rw [List.length_drop]; omega)

/-- A word found in a string is found there whatever follows. -/
theorem findWord_append_of_some (nonempty : word ≠ [])
    (found : findWord word content = some place) (rest : Bytes) :
    findWord word (content ++ rest) = some place ∧ place + word.length ≤ content.length := by
  rw [findWord_eq_some_iff nonempty] at found ⊢
  obtain ⟨here, first⟩ := found
  have positive := List.length_pos_of_ne_nil nonempty
  have fits := here.length_le
  rw [List.length_drop] at fits
  refine ⟨⟨?_, fun earlier before again => ?_⟩, by omega⟩
  · rw [List.drop_append_of_le_length (by omega)]
    exact here.trans (List.prefix_append _ _)
  · exact first earlier before (prefix_of_drop_append (by omega) again)

/-- A word that a string does not hold is found only where it reaches behind
the string. -/
theorem lt_of_findWord_append {rest : Bytes} (nonempty : word ≠ [])
    (absent : findWord word content = none)
    (found : findWord word (content ++ rest) = some place) :
    content.length < place + word.length := by
  by_contra inside
  have here := ((findWord_eq_some_iff nonempty).mp found).1
  exact (findWord_eq_none_iff nonempty).mp absent place
    (prefix_of_drop_append (Nat.not_lt.mp inside) here)

end Words

/-! ## Bytes -/

section Letters

variable {letter : UInt8} {memory : Bytes} {start place : Nat}

theorem findIdx?_append_cons {front : Bytes} (absent : letter ∉ front) (back : Bytes) :
    (front ++ letter :: back).findIdx? (· == letter) = some front.length := by
  induction front with
  | nil => simp [List.findIdx?_cons]
  | cons value front ih =>
      rw [List.mem_cons, not_or] at absent
      have other : (value == letter) = false := by simpa using Ne.symm absent.1
      rw [List.cons_append, List.findIdx?_cons, other, ih absent.2]
      rfl

/-- `strchr` finds the first place with the byte, unless a zero is before it. -/
theorem strchr_eq_some_iff (nonzero : letter ≠ 0) :
    strchr memory start letter = some place ↔
      ∃ between rest, memory.drop start = between ++ letter :: rest ∧ 0 ∉ between ∧
        letter ∉ between ∧ place = start + between.length := by
  rw [strchr, Option.map_eq_some_iff]
  constructor
  · rintro ⟨count, found, rfl⟩
    have inside : letter ∈ cString (memory.drop start) := by
      by_contra absent
      have none : (cString (memory.drop start)).findIdx? (· == letter) = none := by
        rw [List.findIdx?_eq_none_iff]
        intro value member
        simpa using fun same : value = letter => absent (same ▸ member)
      rw [none] at found
      cases found
    obtain ⟨between, rest, split, absent⟩ := List.eq_append_cons_of_mem inside
    have nulFree := cString_nulFree (memory.drop start)
    rw [split, findIdx?_append_cons absent, Option.some.injEq] at found
    rw [split, List.mem_append, not_or] at nulFree
    refine ⟨between, rest ++ (memory.drop start).dropWhile (· ≠ 0), ?_, nulFree.1, absent, ?_⟩
    · rw [← List.cons_append, ← List.append_assoc, ← split]
      exact List.takeWhile_append_dropWhile.symm
    · rw [found]
  · rintro ⟨between, rest, split, nulFree, absent, rfl⟩
    refine ⟨between.length, ?_, rfl⟩
    have head : cString (letter :: rest) = letter :: cString rest :=
      List.takeWhile_cons_of_pos (by simpa using nonzero)
    rw [split, cString_append_of_nulFree nulFree, head, findIdx?_append_cons absent]

/-- A byte found in a region is found there whatever follows. -/
theorem strchr_append_of_some (nonzero : letter ≠ 0)
    (found : strchr memory start letter = some place) (rest : Bytes) :
    strchr (memory ++ rest) start letter = some place ∧ place < memory.length := by
  rw [strchr_eq_some_iff nonzero] at found ⊢
  obtain ⟨between, back, split, nulFree, absent, rfl⟩ := found
  have length := congrArg List.length split
  rw [List.length_drop, List.length_append, List.length_cons] at length
  refine ⟨⟨between, back ++ rest, ?_, nulFree, absent, rfl⟩, by omega⟩
  rw [List.drop_append_of_le_length (by omega), split, List.append_assoc, List.cons_append]

/-- A byte that is not in a region is found behind the region. -/
theorem le_of_strchr_append {rest : Bytes} (nonzero : letter ≠ 0)
    (absent : strchr memory start letter = none)
    (found : strchr (memory ++ rest) start letter = some place) : memory.length ≤ place := by
  by_contra inside
  obtain ⟨between, back, split, nulFree, first, rfl⟩ := (strchr_eq_some_iff nonzero).mp found
  rw [List.drop_append_of_le_length (by omega)] at split
  have length := List.length_drop (i := start) (l := memory)
  rcases List.append_eq_append_iff.mp split with ⟨more, longer, -⟩ | ⟨more, shorter, tail⟩
  · rw [longer, List.length_append] at inside
    omega
  · cases more with
    | nil =>
        rw [shorter, List.append_nil] at length
        omega
    | cons value more =>
        obtain ⟨rfl, -⟩ := List.cons.inj tail
        have here := (strchr_eq_some_iff nonzero).mpr
          ⟨between, more, shorter, nulFree, first, rfl⟩
        rw [absent] at here
        cases here

end Letters

end CStrings
