import Mathlib.Data.Nat.ModEq
import Uwebfilter.CStrings

/-!
# Ones' complement checksums

The checksum of the internet protocols: 16-bit words added with the carry
brought round, complemented.  The sum is the remainder modulo `2 ^ 16 - 1`, so
neither the order of the words nor that of the bytes in all words matters to
whether a checksum verifies.
-/

namespace OnesComplement

/-- Addition of 16-bit words with the carry brought round. -/
def add (first second : Nat) : Nat := (first + second) % 65536 + (first + second) / 65536

/-- The sum of the words of some bytes in network order. -/
def total : Bytes → Nat
  | [] => 0
  | [last] => last.toNat * 256
  | high :: low :: rest => add (high.toNat * 256 + low.toNat) (total rest)

/-- The sum of words that hold their checksum is all ones. -/
def Verifies (content : Bytes) : Prop := total content = 65535

instance (content : Bytes) : Decidable (Verifies content) :=
  inferInstanceAs (Decidable (_ = _))

/-- The words with their bytes in the other order, added as numbers. -/
def swappedSum : Bytes → Nat
  | [] => 0
  | [last] => last.toNat
  | low :: high :: rest => low.toNat + high.toNat * 256 + swappedSum rest

/-- A sum with its carries brought round twice, as a 16-bit word. -/
def fold (sum : Nat) : Nat :=
  let once := sum / 65536 + sum % 65536
  (once + once / 65536) % 65536

theorem total_le (content : Bytes) : total content ≤ 65535 := by
  induction content using total.induct with
  | case1 => exact Nat.zero_le _
  | case2 last =>
      have := last.toNat_lt
      simp only [total]
      omega
  | case3 high low rest ih =>
      have := high.toNat_lt
      have := low.toNat_lt
      simp only [total, add]
      omega

theorem add_modEq (first second : Nat) : add first second ≡ first + second [MOD 65535] := by
  unfold add Nat.ModEq
  omega

/-- Swapping the bytes of a word multiplies it by 256. -/
theorem word_modEq (high low : Nat) : (high * 256 + low) * 256 ≡ high + low * 256 [MOD 65535] := by
  have split : (high * 256 + low) * 256 = 65535 * high + (high + low * 256) := by omega
  rw [split]
  exact Nat.ModEq.symm (Nat.modEq_iff_dvd' (Nat.le_add_left _ _) |>.mpr (by simp))

theorem total_modEq (content : Bytes) : total content * 256 ≡ swappedSum content [MOD 65535] := by
  induction content using total.induct with
  | case1 => rfl
  | case2 last => simpa [total, swappedSum] using word_modEq last.toNat 0
  | case3 high low rest ih =>
      simp only [total, swappedSum]
      calc add (high.toNat * 256 + low.toNat) (total rest) * 256
          ≡ (high.toNat * 256 + low.toNat + total rest) * 256 [MOD 65535] :=
            (add_modEq _ _).mul_right 256
        _ = (high.toNat * 256 + low.toNat) * 256 + total rest * 256 := Nat.add_mul _ _ _
        _ ≡ high.toNat + low.toNat * 256 + swappedSum rest [MOD 65535] :=
            (word_modEq _ _).add ih

theorem total_eq_zero (content : Bytes) : total content = 0 ↔ swappedSum content = 0 := by
  induction content using total.induct with
  | case1 => exact Iff.rfl
  | case2 last =>
      rw [total, swappedSum, Nat.mul_eq_zero]
      exact or_iff_left (by decide)
  | case3 high low rest ih =>
      simp only [total, add, swappedSum]
      omega

theorem verifies_of_swappedSum {content : Bytes} (positive : 0 < swappedSum content)
    (divides : swappedSum content % 65535 = 0) : Verifies content := by
  have bound := total_le content
  have remainder : total content * 256 % 65535 = swappedSum content % 65535 :=
    total_modEq content
  have nonzero := total_eq_zero content
  unfold Verifies
  omega

theorem swappedSum_append {first second : Bytes} (even : first.length % 2 = 0) :
    swappedSum (first ++ second) = swappedSum first + swappedSum second := by
  induction first using swappedSum.induct with
  | case1 => simp [swappedSum]
  | case2 last => simp at even
  | case3 low high rest ih =>
      have evenRest : rest.length % 2 = 0 := by
        simp only [List.length_cons] at even
        omega
      simp only [List.cons_append, swappedSum, ih evenRest]
      omega

theorem swappedSum_le (content : Bytes) : swappedSum content ≤ content.length * 65535 := by
  induction content using swappedSum.induct with
  | case1 => exact Nat.zero_le _
  | case2 last =>
      have := last.toNat_lt
      simp only [swappedSum, List.length_singleton]
      omega
  | case3 low high rest ih =>
      have := low.toNat_lt
      have := high.toNat_lt
      simp only [swappedSum, List.length_cons]
      omega

theorem fold_complement {sum : Nat} (small : sum < 4294967296) :
    fold sum ≤ 65535 ∧ (sum + (65535 - fold sum)) % 65535 = 0 := by
  unfold fold
  dsimp only
  set once := sum / 65536 + sum % 65536 with folded
  rcases Nat.lt_or_ge once 65536 with short | carried
  · rw [Nat.div_eq_of_lt short, Nat.add_zero, Nat.mod_eq_of_lt short]
    omega
  · have carry : once / 65536 = 1 := by omega
    have whole : (once + 1) % 65536 = once - 65535 := by omega
    rw [carry, whole]
    omega

theorem fold_eq_zero {sum : Nat} (small : sum < 4294967296) : fold sum = 0 ↔ sum = 0 := by
  unfold fold
  dsimp only
  set once := sum / 65536 + sum % 65536 with folded
  rcases Nat.lt_or_ge once 65536 with short | carried
  · rw [Nat.div_eq_of_lt short, Nat.add_zero, Nat.mod_eq_of_lt short]
    omega
  · have carry : once / 65536 = 1 := by omega
    rw [carry]
    omega

/-- A positive multiple of `2 ^ 16 - 1` folds to all ones. -/
theorem fold_of_dvd {sum : Nat} (positive : 0 < sum) (small : sum < 4294967296)
    (divides : sum % 65535 = 0) : fold sum = 65535 := by
  obtain ⟨bound, remainder⟩ := fold_complement small
  have nonzero := fold_eq_zero small
  omega

/-! ## Sums of words -/

/-- The ones' complement sum of some words. -/
def sum (words : List Nat) : Nat := words.foldr add 0

theorem sum_cons (word : Nat) (words : List Nat) : sum (word :: words) = add word (sum words) :=
  rfl

theorem sum_le {words : List Nat} (bounded : ∀ word ∈ words, word < 65536) :
    sum words ≤ 65535 := by
  induction words with
  | nil => exact Nat.zero_le _
  | cons word words ih =>
      rw [List.forall_mem_cons] at bounded
      have rest := ih bounded.2
      have first := bounded.1
      rw [sum_cons, add]
      omega

theorem sum_modEq (words : List Nat) : sum words ≡ words.sum [MOD 65535] := by
  induction words with
  | nil => rfl
  | cons word words ih =>
      rw [sum_cons, List.sum_cons]
      exact (add_modEq _ _).trans (ih.add_left word)

theorem sum_eq_zero (words : List Nat) : sum words = 0 ↔ words.sum = 0 := by
  induction words with
  | nil => exact Iff.rfl
  | cons word words ih =>
      rw [sum_cons, List.sum_cons, add]
      omega

/-- Two folds of the sum of some words are their ones' complement sum. -/
theorem fold_eq_sum {words : List Nat} (bounded : ∀ word ∈ words, word < 65536)
    (small : words.sum < 4294967296) : fold words.sum = sum words := by
  obtain ⟨bound, remainder⟩ := fold_complement small
  have zero := fold_eq_zero small
  have same : sum words % 65535 = words.sum % 65535 := sum_modEq words
  have sumZero := sum_eq_zero words
  have sumBound := sum_le bounded
  omega

/-- Bytes with the complemented sum of the rest at an even place verify. -/
theorem verifies_of_complement {front back : Bytes} {low high : UInt8}
    (even : front.length % 2 = 0) (short : (front ++ back).length < 65536)
    (positive : 0 < swappedSum front + swappedSum back)
    (complement : low.toNat + high.toNat * 256 =
      65535 - fold (swappedSum front + swappedSum back)) :
    Verifies (front ++ ([low, high] ++ back)) := by
  have sum : swappedSum (front ++ ([low, high] ++ back)) =
      swappedSum front + swappedSum back + (low.toNat + high.toNat * 256) := by
    rw [swappedSum_append even]
    simp only [List.cons_append, List.nil_append, swappedSum]
    omega
  have frontBound := swappedSum_le front
  have backBound := swappedSum_le back
  rw [List.length_append] at short
  obtain ⟨-, remainder⟩ := fold_complement
    (by omega : swappedSum front + swappedSum back < 4294967296)
  apply verifies_of_swappedSum
  · omega
  · rwa [sum, complement]

end OnesComplement
