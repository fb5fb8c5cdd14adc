import Mathlib.Data.List.Basic
import Uwebfilter.CStrings

/-!
# UTF-8 texts

A reader of UTF-8 that takes a byte which begins no character for U+FFFD.  It
leaves valid text as it is, whatever it reads becomes valid, and a byte below 128
stands for itself wherever it stands.
-/

open String (utf8EncodeChar)

/-- The UTF-8 encoding of some characters. -/
def ValidUtf8 (text : Bytes) : Prop :=
  ∃ letters : List Char, letters.flatMap utf8EncodeChar = text

namespace Utf8

def replacement : Char := Char.ofNat 0xFFFD

/-- The character whose encoding a text begins with. -/
def firstRune (text : Bytes) : Option Char := text.toByteArray.utf8DecodeChar? 0

/-- The characters of a text behind some bytes that are part of the one before. -/
def runesFrom : (skip : Nat) → Bytes → List Char
  | _, [] => []
  | skip + 1, _ :: rest => runesFrom skip rest
  | 0, byte :: rest =>
      match firstRune (byte :: rest) with
      | some rune => rune :: runesFrom (rune.utf8Size - 1) rest
      | none => replacement :: runesFrom 0 rest

def runes (text : Bytes) : List Char := runesFrom 0 text

/-- The text with every byte that is not part of a character replaced. -/
def coerce (text : Bytes) : Bytes := (runes text).flatMap utf8EncodeChar

theorem valid_coerce (text : Bytes) : ValidUtf8 (coerce text) := ⟨runes text, rfl⟩

/-! ## One character -/

theorem length_utf8EncodeChar_pos (rune : Char) : 0 < (utf8EncodeChar rune).length := by
  rw [String.length_utf8EncodeChar]
  exact rune.utf8Size_pos

theorem firstRune_encode_append (rune : Char) (rest : Bytes) :
    firstRune (utf8EncodeChar rune ++ rest) = some rune := by
  rw [firstRune, List.toByteArray_append]
  exact ByteArray.utf8DecodeChar?_utf8EncodeChar_append

theorem firstRune_eq_some {text : Bytes} {rune : Char} (first : firstRune text = some rune) :
    ∃ rest, text = utf8EncodeChar rune ++ rest := by
  obtain ⟨rest, split⟩ := ByteArray.exists_of_utf8DecodeChar?_eq_some first
  refine ⟨rest.data.toList, ?_⟩
  have bytes := congrArg (fun array : ByteArray => array.data.toList) split
  simpa using bytes

theorem firstRune_append {text : Bytes} {rune : Char} (first : firstRune text = some rune)
    (more : Bytes) : firstRune (text ++ more) = some rune := by
  obtain ⟨rest, rfl⟩ := firstRune_eq_some first
  rw [List.append_assoc]
  exact firstRune_encode_append rune (rest ++ more)

theorem firstRune_eq_none_of_append {text more : Bytes} (none : firstRune (text ++ more) = none) :
    firstRune text = Option.none := by
  cases first : firstRune text with
  | none => rfl
  | some rune =>
      rw [firstRune_append first] at none
      cases none

theorem runesFrom_eq_runes_drop (skip : Nat) (text : Bytes) :
    runesFrom skip text = runes (text.drop skip) := by
  induction text generalizing skip with
  | nil => simp [runes, runesFrom]
  | cons byte rest ih =>
      cases skip with
      | zero => rfl
      | succ skip => simpa [runesFrom] using ih skip

theorem runes_encode_append (rune : Char) (rest : Bytes) :
    runes (utf8EncodeChar rune ++ rest) = rune :: runes rest := by
  obtain ⟨byte, more, encoded⟩ :=
    List.exists_cons_of_length_pos (length_utf8EncodeChar_pos rune)
  have first := firstRune_encode_append rune rest
  have size : rune.utf8Size - 1 = more.length := by
    rw [← String.length_utf8EncodeChar, encoded, List.length_cons, Nat.add_sub_cancel]
  rw [encoded, List.cons_append] at first ⊢
  rw [runes, runesFrom, first]
  simp only [runesFrom_eq_runes_drop, size, List.drop_left]

theorem runes_of_none {byte : UInt8} {rest : Bytes} (none : firstRune (byte :: rest) = none) :
    runes (byte :: rest) = replacement :: runes rest := by
  rw [runes, runesFrom, none]
  rfl

/-- Reading a text, as an induction: over its characters and the bytes that are
replaced. -/
theorem reading_induction {motive : Bytes → Prop} (nil : motive [])
    (rune : ∀ rune rest, motive rest → motive (utf8EncodeChar rune ++ rest))
    (replaced : ∀ byte rest, firstRune (byte :: rest) = none → motive rest →
      motive (byte :: rest)) (text : Bytes) : motive text := by
  induction length : text.length using Nat.strong_induction_on generalizing text with
  | _ length ih =>
      subst length
      cases text with
      | nil => exact nil
      | cons byte rest =>
          cases first : firstRune (byte :: rest) with
          | none => exact replaced byte rest first (ih rest.length (by simp) rest rfl)
          | some letter =>
              obtain ⟨behind, split⟩ := firstRune_eq_some first
              have positive := length_utf8EncodeChar_pos letter
              rw [split]
              refine rune letter behind (ih behind.length ?_ behind rfl)
              rw [split, List.length_append]
              omega

/-! ## Whole texts -/

@[simp] theorem coerce_nil : coerce [] = [] := rfl

theorem coerce_encode_append (rune : Char) (rest : Bytes) :
    coerce (utf8EncodeChar rune ++ rest) = utf8EncodeChar rune ++ coerce rest := by
  rw [coerce, runes_encode_append, List.flatMap_cons, coerce]

theorem coerce_of_none {byte : UInt8} {rest : Bytes} (none : firstRune (byte :: rest) = none) :
    coerce (byte :: rest) = utf8EncodeChar replacement ++ coerce rest := by
  rw [coerce, runes_of_none none, List.flatMap_cons, coerce]

theorem coerce_of_valid {text : Bytes} (valid : ValidUtf8 text) : coerce text = text := by
  obtain ⟨letters, rfl⟩ := valid
  induction letters with
  | nil => rfl
  | cons letter letters ih => rw [List.flatMap_cons, coerce_encode_append, ih]

theorem coerce_eq_self_iff {text : Bytes} : coerce text = text ↔ ValidUtf8 text :=
  ⟨fun same => same ▸ valid_coerce text, coerce_of_valid⟩

instance : DecidablePred ValidUtf8 := fun _ => decidable_of_iff _ coerce_eq_self_iff

example : coerce [0xFF, 0x61] = [0xEF, 0xBF, 0xBD, 0x61] := by decide

/-! ## Bytes below 128 -/

theorem utf8EncodeChar_of_lt : ∀ number < 128,
    utf8EncodeChar (Char.ofNat number) = [UInt8.ofNat number] := by decide

theorem encode_of_lt {byte : UInt8} (small : byte.toNat < 128) :
    utf8EncodeChar (Char.ofNat byte.toNat) = [byte] := by
  rw [utf8EncodeChar_of_lt _ small, UInt8.ofNat_toNat]

end Utf8

theorem validUtf8_of_lt {text : Bytes} (small : ∀ byte ∈ text, byte.toNat < 128) :
    ValidUtf8 text := by
  refine ⟨text.map fun byte => Char.ofNat byte.toNat, ?_⟩
  induction text with
  | nil => rfl
  | cons byte text ih =>
      obtain ⟨first, rest⟩ := List.forall_mem_cons.mp small
      rw [List.map_cons, List.flatMap_cons, ih rest, Utf8.encode_of_lt first]
      rfl

theorem validUtf8_of_all {text : Bytes}
    (small : text.all (fun byte => byte.toNat < 128) = true) : ValidUtf8 text := by
  apply validUtf8_of_lt
  simpa using small

namespace Utf8

/-- A byte below 128 in an encoding is the whole encoding. -/
theorem encode_eq_singleton {rune : Char} {byte : UInt8} (member : byte ∈ utf8EncodeChar rune)
    (small : byte.toNat < 128) : utf8EncodeChar rune = [byte] := by
  obtain ⟨index, inside, same⟩ := List.mem_iff_getElem.mp member
  have begins : byte.IsUTF8FirstByte := by
    left
    apply UInt8.toNat_inj.mp
    rw [UInt8.toNat_and]
    have masks : ∀ number < 128, number &&& 128 = 0 := by decide
    exact masks byte.toNat small
  rw [← same, UInt8.isUTF8FirstByte_getElem_utf8EncodeChar] at begins
  subst begins
  obtain ⟨first, more, encoded⟩ :=
    List.exists_cons_of_length_pos (length_utf8EncodeChar_pos rune)
  obtain rfl : first = byte := by simpa [encoded] using same
  have whole := firstRune_encode_append rune []
  have alone := firstRune_encode_append (Char.ofNat first.toNat) more
  rw [encode_of_lt small, List.singleton_append, ← encoded] at alone
  rw [List.append_nil, alone, Option.some.injEq] at whole
  rw [← whole, encode_of_lt small]

/-- A character in front of such a byte ends in front of it. -/
theorem encode_in_front {byte : UInt8} (small : byte.toNat < 128) {front rest after : Bytes}
    {rune : Char} (named : front ≠ [])
    (split : front ++ byte :: rest = utf8EncodeChar rune ++ after) :
    ∃ inside, front = utf8EncodeChar rune ++ inside := by
  rcases List.append_eq_append_iff.mp split with ⟨inside, encoded, same⟩ | ⟨inside, whole, -⟩
  · cases inside with
    | nil => exact ⟨[], by simpa using encoded.symm⟩
    | cons first inside =>
        obtain rfl : byte = first := (List.cons.inj same).1
        have member : byte ∈ utf8EncodeChar rune := by
          rw [encoded]
          simp
        have alone := encode_eq_singleton member small
        have length := congrArg List.length (encoded.symm.trans alone)
        have positive := List.length_pos_of_ne_nil named
        simp only [List.length_append, List.length_cons, List.length_nil] at length
        omega
  · exact ⟨inside, whole⟩

/-- What begins no character begins none with such a byte behind it. -/
theorem firstRune_append_cons {byte : UInt8} (small : byte.toNat < 128) {front : Bytes}
    (named : front ≠ []) (none : firstRune front = none) (rest : Bytes) :
    firstRune (front ++ byte :: rest) = Option.none := by
  cases first : firstRune (front ++ byte :: rest) with
  | none => rfl
  | some rune =>
      obtain ⟨after, split⟩ := firstRune_eq_some first
      obtain ⟨inside, whole⟩ := encode_in_front small named split
      rw [whole, firstRune_encode_append] at none
      cases none

/-- What is behind such a byte plays no part in reading what is in front of it. -/
theorem coerce_append_cons {byte : UInt8} (small : byte.toNat < 128) (front rest : Bytes) :
    coerce (front ++ byte :: rest) = coerce front ++ byte :: coerce rest := by
  induction front using reading_induction with
  | nil =>
      have read := coerce_encode_append (Char.ofNat byte.toNat) rest
      rwa [encode_of_lt small] at read
  | rune letter behind ih =>
      rw [List.append_assoc, coerce_encode_append, coerce_encode_append, ih, List.append_assoc]
  | replaced first behind none ih =>
      have still := firstRune_append_cons small (List.cons_ne_nil first behind) none rest
      rw [List.cons_append] at still ⊢
      rw [coerce_of_none none, coerce_of_none still, ih, List.append_assoc]

theorem coerce_append_small {text : Bytes} (small : ∀ byte ∈ text, byte.toNat < 128)
    (front : Bytes) : coerce (front ++ text) = coerce front ++ text := by
  cases text with
  | nil => simp
  | cons byte rest =>
      obtain ⟨first, others⟩ := List.forall_mem_cons.mp small
      rw [coerce_append_cons first, coerce_of_valid (validUtf8_of_lt others)]

/-- Such a byte is read only where it stands. -/
theorem exists_of_coerce_eq {byte : UInt8} (small : byte.toNat < 128) (text : Bytes)
    {front rest : Bytes} (read : coerce text = front ++ byte :: rest) :
    ∃ before after, text = before ++ byte :: after ∧ coerce before = front ∧
      coerce after = rest := by
  induction text using reading_induction generalizing front with
  | nil => simp at read
  | rune letter behind ih =>
      rw [coerce_encode_append] at read
      by_cases named : front = []
      · subst named
        obtain ⟨first, more, encoded⟩ :=
          List.exists_cons_of_length_pos (length_utf8EncodeChar_pos letter)
        obtain rfl : first = byte := by
          rw [encoded] at read
          exact (List.cons.inj read).1
        have member : first ∈ utf8EncodeChar letter := by
          rw [encoded]
          exact List.mem_cons_self
        rw [encode_eq_singleton member small] at read ⊢
        exact ⟨[], behind, rfl, rfl, (List.cons.inj read).2⟩
      · obtain ⟨inside, rfl⟩ := encode_in_front small named read.symm
        rw [List.append_assoc, List.append_cancel_left_eq] at read
        obtain ⟨before, after, rfl, same, later⟩ := ih read
        exact ⟨utf8EncodeChar letter ++ before, after, by rw [List.append_assoc],
          by rw [coerce_encode_append, same], later⟩
  | replaced first behind none ih =>
      rw [coerce_of_none none] at read
      have named : front ≠ [] := by
        rintro rfl
        have letters : utf8EncodeChar replacement = [0xEF, 0xBF, 0xBD] := by decide
        rw [letters] at read
        have letter : 0xEF = byte := (List.cons.inj read).1
        rw [← letter] at small
        exact absurd small (by decide)
      obtain ⟨inside, rfl⟩ := encode_in_front small named read.symm
      rw [List.append_assoc, List.append_cancel_left_eq] at read
      obtain ⟨before, after, rfl, same, later⟩ := ih read
      have still : firstRune (first :: before) = Option.none := firstRune_eq_none_of_append none
      exact ⟨first :: before, after, rfl, by rw [coerce_of_none still, same], later⟩

theorem coerce_eq_nil {text : Bytes} (read : coerce text = []) : text = [] := by
  induction text using reading_induction with
  | nil => rfl
  | rune letter behind ih =>
      rw [coerce_encode_append] at read
      have positive := length_utf8EncodeChar_pos letter
      simp [(List.append_eq_nil_iff.mp read).1] at positive
  | replaced first behind none ih =>
      rw [coerce_of_none none] at read
      have positive := length_utf8EncodeChar_pos replacement
      simp [(List.append_eq_nil_iff.mp read).1] at positive

/-- A text of such bytes is read only where it stands. -/
theorem coerce_eq_append_iff {tail : Bytes} (small : ∀ byte ∈ tail, byte.toNat < 128)
    {text front : Bytes} :
    coerce text = front ++ tail ↔ ∃ before, text = before ++ tail ∧ coerce before = front := by
  constructor
  · intro read
    induction tail generalizing text front with
    | nil => exact ⟨text, by simp, by simpa using read⟩
    | cons byte rest ih =>
        obtain ⟨first, others⟩ := List.forall_mem_cons.mp small
        obtain ⟨before, after, rfl, same, later⟩ := exists_of_coerce_eq first text read
        rw [← List.nil_append rest] at later
        obtain ⟨between, rfl, nothing⟩ := ih others later
        rw [coerce_eq_nil nothing]
        exact ⟨before, rfl, same⟩
  · rintro ⟨before, rfl, rfl⟩
    exact coerce_append_small small before

end Utf8
