import Mathlib.Data.List.Basic
import Mathlib.Data.List.TakeWhile

/-!
# Byte memory and C strings

A region of memory is the list of its bytes; behind the end of the list every
byte reads as zero.  Pointers into a region are offsets, and the C library's
string functions answer with an offset or with nothing for `NULL`.
-/

abbrev Bytes := List UInt8

namespace CStrings

def ascii (word : List Char) : Bytes := word.map fun letter => UInt8.ofNat letter.toNat

def dot : UInt8 := 46

def byteAt (memory : Bytes) (address : Nat) : UInt8 := memory.getD address 0

def readBytes (memory : Bytes) (address count : Nat) : Bytes :=
  (List.range' address count).map (byteAt memory)

@[simp] theorem readBytes_length (memory : Bytes) (address count : Nat) :
    (readBytes memory address count).length = count := by
  simp [readBytes]

/-- Two bytes in network order. -/
def u16be (memory : Bytes) (address : Nat) : Nat :=
  (byteAt memory address).toNat * 256 + (byteAt memory (address + 1)).toNat

theorem u16be_lt (memory : Bytes) (address : Nat) : u16be memory address < 65536 := by
  have high := (byteAt memory address).toNat_lt
  have low := (byteAt memory (address + 1)).toNat_lt
  unfold u16be
  omega

/-- Two bytes in network order, of memory given by its addresses. -/
def wordAt (memory : Nat → UInt8) (address : Nat) : Nat :=
  (memory address).toNat * 256 + (memory (address + 1)).toNat

def be16 (value : Nat) : Bytes := [UInt8.ofNat (value / 256), UInt8.ofNat value]

@[simp] theorem be16_length (value : Nat) : (be16 value).length = 2 := rfl

theorem be16_toNat {value : Nat} (small : value < 65536) :
    (UInt8.ofNat (value / 256)).toNat * 256 + (UInt8.ofNat value).toNat = value := by
  simp only [UInt8.toNat_ofNat']
  omega

/-- Four bytes in the order of a little-endian host. -/
def u32le (memory : Bytes) (address : Nat) : Nat :=
  (byteAt memory address).toNat + (byteAt memory (address + 1)).toNat * 256 +
    (byteAt memory (address + 2)).toNat * 65536 +
    (byteAt memory (address + 3)).toNat * 16777216

/-- The value a `uint16_t` holds after an assignment. -/
def u16 (value : Int) : Nat := (value % 65536).toNat

theorem u16_of_lt {value : Nat} (small : value < 65536) : u16 value = value := by
  simp only [u16]
  omega

theorem u16_eq {value : Int} (number : Nat) (same : value = number) (small : number < 65536) :
    u16 value = number :=
  same ▸ u16_of_lt small

theorem u16_eq_mod {value : Int} (number : Nat) (same : value = number) :
    u16 value = number % 65536 := by
  simp only [u16]
  omega

/-- `memcpy` into a buffer. -/
def overwrite (buffer : Bytes) (offset : Nat) (source : Bytes) : Bytes :=
  buffer.take offset ++ source ++ buffer.drop (offset + source.length)

theorem overwrite_replicate (written source : Bytes) (room : Nat) :
    overwrite (written ++ List.replicate room 0) written.length source =
      written ++ source ++ List.replicate (room - source.length) 0 := by
  simp [overwrite, List.drop_append]

theorem overwrite_cleared (written : Bytes) (size : Nat) :
    overwrite (List.replicate size 0) 0 written =
      written ++ List.replicate (size - written.length) 0 := by
  have buffer := overwrite_replicate [] written size
  rwa [List.nil_append, List.length_nil, List.nil_append] at buffer

/-- A cleared buffer ends in a zero unless what is written to it fills it. -/
theorem zero_mem_overwrite_iff {written : Bytes} {size : Nat} (fits : written.length ≤ size) :
    0 ∈ overwrite (List.replicate size 0) 0 written ↔
      written.length < size ∨ written.length = size ∧ 0 ∈ written := by
  rw [overwrite_cleared, List.mem_append, List.mem_replicate]
  constructor
  · rintro (inside | ⟨room, -⟩)
    · rcases Nat.lt_or_eq_of_le fits with shorter | full
      · exact .inl shorter
      · exact .inr ⟨full, inside⟩
    · exact .inl (by omega)
  · rintro (shorter | ⟨-, inside⟩)
    · exact .inr ⟨by omega, rfl⟩
    · exact .inl inside

/-- The string at the beginning of a region. -/
def cString (memory : Bytes) : Bytes := memory.takeWhile (· ≠ 0)

theorem cString_of_nulFree {content : Bytes} (nulFree : 0 ∉ content) :
    cString content = content := by
  rw [cString, List.takeWhile_eq_self_iff]
  intro value member
  have nonzero : value ≠ 0 := fun zero => nulFree (zero ▸ member)
  simpa using nonzero

theorem cString_nulFree (content : Bytes) : 0 ∉ cString content := by
  intro member
  have nonzero := List.mem_takeWhile_imp member
  simp at nonzero

theorem cString_append_zero {content : Bytes} (nulFree : 0 ∉ content) (rest : Bytes) :
    cString (content ++ 0 :: rest) = content := by
  have all : ∀ value ∈ content, decide (value ≠ 0) = true := by
    intro value member
    have nonzero : value ≠ 0 := fun zero => nulFree (zero ▸ member)
    simpa using nonzero
  rw [cString, List.takeWhile_append_of_pos all, List.takeWhile_cons_of_neg (by decide),
    List.append_nil]

theorem cString_append_replicate {content : Bytes} (nulFree : 0 ∉ content) (room : Nat) :
    cString (content ++ List.replicate room 0) = content := by
  cases room with
  | zero => rw [List.replicate_zero, List.append_nil, cString_of_nulFree nulFree]
  | succ room => exact cString_append_zero nulFree _

/-- `strchr`, from an offset on. -/
def strchr (memory : Bytes) (start : Nat) (letter : UInt8) : Option Nat :=
  ((cString (memory.drop start)).findIdx? (· == letter)).map (start + ·)

def toLower (value : UInt8) : UInt8 :=
  if 65 ≤ value ∧ value ≤ 90 then value + 32 else value

/-- The offset of the first occurrence of a word. -/
def findWord (word : Bytes) : Bytes → Option Nat
  | [] => if word = [] then some 0 else none
  | value :: rest =>
      if word.isPrefixOf (value :: rest) then some 0 else (findWord word rest).map (· + 1)

/-- `strstr`, from the beginning of a region. -/
def strstr (memory : Bytes) (word : Bytes) : Option Nat :=
  findWord word (cString memory)

/-- `strcasestr`, from the beginning of a region. -/
def strcasestr (memory : Bytes) (word : Bytes) : Option Nat :=
  findWord (word.map toLower) ((cString memory).map toLower)

/-- `strncasecmp` with the length of the word finds no difference. -/
def startsWithWord (memory : Bytes) (word : Bytes) : Bool :=
  (memory.take word.length).map toLower == word.map toLower

end CStrings
