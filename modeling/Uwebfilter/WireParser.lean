import Uwebfilter.CStrings

/-!
# Parsers of wire formats

A parser takes a value from the beginning of some bytes and leaves the rest.
That a parser reads an encoding composes along the parser, whatever follows the
encoding.
-/

/-- A parser that fails or returns a value with the bytes behind it. -/
abbrev WireParser := StateT Bytes Option

namespace WireParser

open CStrings

variable {α β : Type}

def byte : WireParser UInt8 := fun input =>
  match input with
  | [] => none
  | value :: rest => some (value, rest)

def takeBytes (count : Nat) : WireParser Bytes := fun input =>
  if count ≤ input.length then some (input.take count, input.drop count) else none

/-- A number of two bytes in network order. -/
def word16 : WireParser Nat := do
  let high ← byte
  let low ← byte
  pure (high.toNat * 256 + low.toNat)

/-- A number of four bytes in network order. -/
def word32 : WireParser Nat := do
  let high ← word16
  let low ← word16
  pure (high * 65536 + low)

def repeatedly (item : WireParser α) : Nat → WireParser (List α)
  | 0 => pure []
  | count + 1 => do
      let first ← item
      let rest ← repeatedly item count
      pure (first :: rest)

/-- Go on where a condition holds. -/
def require (condition : Prop) [Decidable condition] : WireParser Unit :=
  if condition then pure () else failure

/-- The parser reads the value from its encoding, whatever follows. -/
def Parses (parser : WireParser α) (encoded : Bytes) (value : α) : Prop :=
  ∀ rest, parser.run (encoded ++ rest) = some (value, rest)

theorem parses_pure (value : α) : Parses (pure value) [] value := fun _ => rfl

theorem parses_bind {first : WireParser α} {second : α → WireParser β} {middle : α} {value : β}
    {firstBytes secondBytes : Bytes} (firstParses : Parses first firstBytes middle)
    (secondParses : Parses (second middle) secondBytes value) :
    Parses (first >>= second) (firstBytes ++ secondBytes) value := by
  intro rest
  rw [List.append_assoc, StateT.run_bind, firstParses]
  exact secondParses rest

/-- The last step of a parser, which takes no more bytes. -/
theorem parses_map {first : WireParser α} {last : α → WireParser β} {middle : α} {value : β}
    {encoded : Bytes} (parses : Parses first encoded middle)
    (returns : Parses (last middle) [] value) :
    Parses (first >>= last) encoded value := by
  have whole := parses_bind parses returns
  rwa [List.append_nil] at whole

theorem parses_require {condition : Prop} [Decidable condition] (holds : condition)
    {rest : Unit → WireParser α} {encoded : Bytes} {value : α}
    (parses : Parses (rest ()) encoded value) :
    Parses (require condition >>= rest) encoded value := by
  rw [require, if_pos holds]
  exact parses_bind (parses_pure ()) parses

theorem parses_byte (value : UInt8) : Parses byte [value] value := fun _ => rfl

theorem parses_takeBytes (content : Bytes) :
    Parses (takeBytes content.length) content content := by
  intro rest
  change (if content.length ≤ (content ++ rest).length then _ else none) = _
  rw [if_pos (by simp), List.take_left', List.drop_left'] <;> rfl

theorem parses_word16 {value : Nat} (small : value < 65536) :
    Parses word16 (be16 value) value := by
  have whole := be16_toNat small
  refine parses_bind (parses_byte (UInt8.ofNat (value / 256)))
    (parses_map (parses_byte (UInt8.ofNat value)) ?_)
  rw [whole]
  exact parses_pure value

/-- Four bytes in network order. -/
def be32 (value : Nat) : Bytes := be16 (value / 65536) ++ be16 (value % 65536)

@[simp] theorem be32_length (value : Nat) : (be32 value).length = 4 := rfl

theorem parses_word32 {value : Nat} (small : value < 4294967296) :
    Parses word32 (be32 value) value := by
  have whole : value / 65536 * 65536 + value % 65536 = value := Nat.div_add_mod' value 65536
  refine parses_bind (parses_word16 (by omega))
    (parses_map (parses_word16 (by omega : value % 65536 < 65536)) ?_)
  rw [whole]
  exact parses_pure value

theorem parses_repeatedly {item : WireParser α} {encode : α → Bytes} {values : List α}
    (each : ∀ value ∈ values, Parses item (encode value) value) :
    Parses (repeatedly item values.length) (values.flatMap encode) values := by
  induction values with
  | nil => exact parses_pure []
  | cons value values ih =>
      rw [List.forall_mem_cons] at each
      rw [List.flatMap_cons, List.length_cons]
      exact parses_bind each.1 (parses_map (ih each.2) (parses_pure _))

/-- A parser applied to some bytes that must hold nothing else. -/
def parseWhole (parser : WireParser α) (input : Bytes) : Option α :=
  match parser.run input with
  | some (value, []) => some value
  | _ => none

theorem parseWhole_of_parses {parser : WireParser α} {encoded : Bytes} {value : α}
    (parses : Parses parser encoded value) : parseWhole parser encoded = some value := by
  have whole := parses []
  rw [List.append_nil] at whole
  rw [parseWhole, whole]

end WireParser
