import Uwebfilter.CStrings

/-!
# Dotted quads

Four numbers below 256 in decimal with dots between them, and a parser that
takes neither leading zeros nor empty fields.
-/

namespace DottedQuad

open CStrings (dot)

def digit (number : Nat) : UInt8 := UInt8.ofNat (number + 48)

def digitValue (letter : UInt8) : Option Nat :=
  if 48 ≤ letter.toNat ∧ letter.toNat ≤ 57 then some (letter.toNat - 48) else none

/-- The value of a string of digits. -/
def digitsValue (letters : List UInt8) : Option Nat :=
  letters.foldlM (fun value letter => (digitValue letter).map (value * 10 + ·)) 0

def parseField (letters : List UInt8) : Option UInt8 :=
  if letters = [] ∨ letters.head? = some 48 ∧ 1 < letters.length then none
  else (digitsValue letters).bind fun value =>
    if value ≤ 255 then some (UInt8.ofNat value) else none

def parse (text : List UInt8) : Option (List UInt8) :=
  ((text.splitOn dot).mapM parseField).bind fun fields =>
    if fields.length = 4 then some fields else none

/-- A byte in decimal. -/
def fieldDigits (byte : UInt8) : List Nat :=
  let number := byte.toNat
  if number > 99 then [number / 100 % 10, number / 10 % 10, number % 10]
  else if number > 9 then [number / 10 % 10, number % 10]
  else [number % 10]

def field (byte : UInt8) : List UInt8 := (fieldDigits byte).map digit

def print (bytes : List UInt8) : List UInt8 := [dot].intercalate (bytes.map field)

theorem digit_toNat {number : Nat} (small : number < 10) : (digit number).toNat = number + 48 := by
  rw [digit, UInt8.toNat_ofNat']
  omega

theorem digitValue_digit {number : Nat} (small : number < 10) :
    digitValue (digit number) = some number := by
  rw [digitValue, digit_toNat small, if_pos (by omega), Nat.add_sub_cancel]

theorem digit_ne_dot {number : Nat} (small : number < 10) : digit number ≠ dot := by
  intro same
  have values := congrArg UInt8.toNat same
  rw [digit_toNat small] at values
  have dotValue : dot.toNat = 46 := rfl
  omega

theorem digit_ne_zero {number : Nat} (small : number < 10) (positive : 0 < number) :
    digit number ≠ 48 := by
  intro same
  have values := congrArg UInt8.toNat same
  rw [digit_toNat small] at values
  have zeroValue : (48 : UInt8).toNat = 48 := rfl
  omega

theorem digitsValue_digits {numbers : List Nat} (small : ∀ number ∈ numbers, number < 10) :
    digitsValue (numbers.map digit) =
      some (numbers.foldl (fun value number => value * 10 + number) 0) := by
  unfold digitsValue
  generalize 0 = start
  induction numbers generalizing start with
  | nil => rfl
  | cons number numbers ih =>
      obtain ⟨first, rest⟩ := List.forall_mem_cons.mp small
      rw [List.map_cons, List.foldlM_cons, digitValue_digit first, List.foldl_cons]
      exact ih rest (start * 10 + number)

theorem fieldDigits_small (byte : UInt8) : ∀ number ∈ fieldDigits byte, number < 10 := by
  simp only [fieldDigits]
  split
  · simp [Nat.mod_lt]
  · split
    · simp [Nat.mod_lt]
    · simp [Nat.mod_lt]

theorem fieldDigits_ne_nil (byte : UInt8) : fieldDigits byte ≠ [] := by
  simp only [fieldDigits]
  split
  · exact List.cons_ne_nil _ _
  · split
    · exact List.cons_ne_nil _ _
    · exact List.cons_ne_nil _ _

theorem fieldDigits_value (byte : UInt8) :
    (fieldDigits byte).foldl (fun value number => value * 10 + number) 0 = byte.toNat := by
  have below := byte.toNat_lt
  simp only [fieldDigits]
  split
  · simp only [List.foldl_cons, List.foldl_nil]
    omega
  · split
    · simp only [List.foldl_cons, List.foldl_nil]
      omega
    · simp only [List.foldl_cons, List.foldl_nil]
      omega

theorem fieldDigits_canonical {byte : UInt8} (zero : (fieldDigits byte).head? = some 0) :
    (fieldDigits byte).length = 1 := by
  have below := byte.toNat_lt
  simp only [fieldDigits] at zero ⊢
  split at zero
  · have leading := Option.some.inj zero
    omega
  · split at zero
    · have leading := Option.some.inj zero
      omega
    · rename_i first second
      rw [if_neg first, if_neg second]
      rfl

theorem mem_field {byte letter : UInt8} (member : letter ∈ field byte) :
    ∃ number < 10, letter = digit number := by
  obtain ⟨number, inside, rfl⟩ := List.mem_map.mp member
  exact ⟨number, fieldDigits_small byte number inside, rfl⟩

theorem dot_not_mem_field (byte : UInt8) : dot ∉ field byte := by
  intro member
  obtain ⟨number, small, same⟩ := mem_field member
  exact digit_ne_dot small same.symm

theorem parseField_field (byte : UInt8) : parseField (field byte) = some byte := by
  have below := byte.toNat_lt
  have value : digitsValue (field byte) = some byte.toNat := by
    rw [field, digitsValue_digits (fieldDigits_small byte), fieldDigits_value]
  have canonical : ¬ (field byte = [] ∨
      (field byte).head? = some 48 ∧ 1 < (field byte).length) := by
    rintro (empty | ⟨zero, long⟩)
    · exact fieldDigits_ne_nil byte (List.map_eq_nil_iff.mp empty)
    · rw [field, List.head?_map, Option.map_eq_some_iff] at zero
      obtain ⟨number, head, same⟩ := zero
      have small := fieldDigits_small byte number (List.mem_of_mem_head? head)
      have numberZero : number = 0 := by
        by_contra positive
        exact digit_ne_zero small (Nat.pos_of_ne_zero positive) same
      subst numberZero
      rw [field, List.length_map, fieldDigits_canonical head] at long
      omega
  rw [parseField, if_neg canonical, value, Option.bind_some, if_pos (by omega),
    UInt8.ofNat_toNat]

theorem mem_print {bytes : List UInt8} {letter : UInt8} (member : letter ∈ print bytes) :
    letter = dot ∨ ∃ number < 10, letter = digit number := by
  unfold print at member
  induction bytes with
  | nil => cases member
  | cons byte bytes ih =>
      cases bytes with
      | nil =>
          rw [List.map_singleton, List.intercalate_singleton] at member
          exact .inr (mem_field member)
      | cons next bytes =>
          rw [List.map_cons, List.map_cons, List.intercalate_cons_cons, List.mem_append,
            List.mem_append, List.mem_singleton] at member
          rcases member with (digits | separator) | rest
          · exact .inr (mem_field digits)
          · exact .inl separator
          · exact ih rest

theorem print_bounds {bytes : List UInt8} {letter : UInt8} (member : letter ∈ print bytes) :
    0 < letter.toNat ∧ letter.toNat < 128 := by
  rcases mem_print member with rfl | ⟨number, small, rfl⟩
  · decide
  · rw [digit_toNat small]
    omega

/-- What is printed is read back. -/
theorem parse_print {bytes : List UInt8} (four : bytes.length = 4) :
    parse (print bytes) = some bytes := by
  have fields : bytes.map field ≠ [] := by
    intro empty
    rw [List.map_eq_nil_iff] at empty
    simp [empty] at four
  have undotted : ∀ letters ∈ bytes.map field, dot ∉ letters := by
    intro letters member
    obtain ⟨byte, -, rfl⟩ := List.mem_map.mp member
    exact dot_not_mem_field byte
  have read : (bytes.map field).mapM parseField = some bytes := by
    clear four fields undotted
    induction bytes with
    | nil => rfl
    | cons byte bytes ih => simp [parseField_field, ih]
  rw [parse, print, List.splitOn_intercalate dot undotted fields, read, Option.bind_some,
    if_pos four]

end DottedQuad
