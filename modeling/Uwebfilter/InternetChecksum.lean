import Uwebfilter.DnsAnswer

/-!
# `checksum` in machine words

The function of `block.c` once more, on the words a host of either byte order
reads and in an `unsigned long` of any width from 32 bits on.  Over buffers of
up to 131072 bytes no carry is lost, and a buffer with its checksum in it has
the checksum zero.
-/

namespace Uwebfilter

open CStrings

/-- The order of the bytes in a word of the host. -/
inductive HostOrder
  | littleEndian
  | bigEndian
  deriving DecidableEq, Repr

namespace HostOrder

def word : HostOrder → UInt8 → UInt8 → UInt16
  | .littleEndian, first, second => UInt16.ofNat (first.toNat + second.toNat * 256)
  | .bigEndian, first, second => UInt16.ofNat (first.toNat * 256 + second.toNat)

def bytes : HostOrder → UInt16 → Bytes
  | .littleEndian, word => [UInt8.ofNat word.toNat, UInt8.ofNat (word.toNat / 256)]
  | .bigEndian, word => [UInt8.ofNat (word.toNat / 256), UInt8.ofNat word.toNat]

/-- The words of a buffer of an even number of bytes. -/
def words (order : HostOrder) : Bytes → List UInt16
  | first :: second :: rest => order.word first second :: order.words rest
  | _ => []

/-- An assignment to a word of a buffer. -/
def store (order : HostOrder) (buffer : Bytes) (index : Nat) (word : UInt16) : Bytes :=
  overwrite buffer (2 * index) (order.bytes word)

end HostOrder

section Checksum

variable {width : Nat}

/-- The loop of `checksum`. -/
def accumulate (cksum : BitVec width) : List UInt16 → BitVec width
  | [] => cksum
  | word :: words => accumulate (cksum + word.toBitVec.setWidth width) words

/-- The two folds of `checksum`. -/
def foldCarries (cksum : BitVec width) : BitVec width :=
  let cksum := (cksum >>> 16) + (cksum &&& BitVec.ofNat width 0xffff)
  cksum + (cksum >>> 16)

variable (width)

/-- What `checksum` complements, as far as its cast keeps it. -/
def foldedSum (words : List UInt16) : UInt16 :=
  ⟨(foldCarries (accumulate (0 : BitVec width) words)).setWidth 16⟩

def checksumWords (words : List UInt16) : UInt16 :=
  ⟨(~~~foldCarries (accumulate (0 : BitVec width) words)).setWidth 16⟩

end Checksum

/-- The accumulation is exact, the folds leave the ones' complement sum, with its
checksum stored in a zero word the buffer has the checksum zero, and on a
little-endian host the checksum is the one of the headers that are sent. -/
structure IsInternetChecksum (order : HostOrder) (width : Nat) (buffer : Bytes) : Prop where
  whole : 2 * (order.words buffer).length = buffer.length
  accumulated : ∀ count,
    (accumulate (0 : BitVec width) ((order.words buffer).take count)).toNat =
      (((order.words buffer).take count).map UInt16.toNat).sum
  folded : (foldedSum width (order.words buffer)).toNat =
    OnesComplement.sum ((order.words buffer).map UInt16.toNat)
  complemented : (checksumWords width (order.words buffer)).toNat =
    65535 - OnesComplement.sum ((order.words buffer).map UInt16.toNat)
  verifies : ∀ index, (order.words buffer)[index]? = some 0 →
    checksumWords width (order.words
      (order.store buffer index (checksumWords width (order.words buffer)))) = 0
  sent : order = .littleEndian →
    checksum buffer = (checksumWords width (order.words buffer)).toNat

/-! ## The accumulation -/

section Accumulation

variable {width : Nat}

theorem toNat_accumulate (wide : 16 ≤ width) {cksum : BitVec width} {words : List UInt16}
    (room : cksum.toNat + (words.map UInt16.toNat).sum < 2 ^ width) :
    (accumulate cksum words).toNat = cksum.toNat + (words.map UInt16.toNat).sum := by
  induction words generalizing cksum with
  | nil => rfl
  | cons word words ih =>
      rw [List.map_cons, List.sum_cons] at room ⊢
      have inside : word.toNat < 2 ^ width :=
        Nat.lt_of_lt_of_le word.toNat_lt (Nat.pow_le_pow_right (by omega) wide)
      have step : (cksum + word.toBitVec.setWidth width).toNat = cksum.toNat + word.toNat := by
        rw [BitVec.toNat_add, BitVec.toNat_setWidth, UInt16.toNat_toBitVec,
          Nat.mod_eq_of_lt inside, Nat.mod_eq_of_lt (by omega)]
      rw [accumulate, ih (by omega), step]
      omega

theorem sum_words_le (words : List UInt16) :
    (words.map UInt16.toNat).sum ≤ 65535 * words.length := by
  induction words with
  | nil => rfl
  | cons word words ih =>
      have bound := word.toNat_lt
      rw [List.map_cons, List.sum_cons, List.length_cons]
      omega

theorem toNat_foldCarries (wide : 32 ≤ width) {cksum : BitVec width}
    (small : cksum.toNat < 4294967296) :
    (foldCarries cksum).toNat % 65536 = OnesComplement.fold cksum.toNat := by
  have size : 4294967296 ≤ 2 ^ width := Nat.pow_le_pow_right (n := 2) (by omega) wide
  have mask : (BitVec.ofNat width 0xffff).toNat = 2 ^ 16 - 1 := by
    rw [BitVec.toNat_ofNat]
    exact Nat.mod_eq_of_lt (by omega)
  have once : ((cksum >>> 16) + (cksum &&& BitVec.ofNat width 0xffff)).toNat =
      cksum.toNat / 65536 + cksum.toNat % 65536 := by
    rw [BitVec.toNat_add, BitVec.toNat_ushiftRight, BitVec.toNat_and, mask,
      Nat.and_two_pow_sub_one_eq_mod, Nat.shiftRight_eq_div_pow]
    exact Nat.mod_eq_of_lt (by omega)
  have carried : (foldCarries cksum).toNat = cksum.toNat / 65536 + cksum.toNat % 65536 +
      (cksum.toNat / 65536 + cksum.toNat % 65536) / 65536 := by
    rw [foldCarries, BitVec.toNat_add, BitVec.toNat_ushiftRight, once, Nat.shiftRight_eq_div_pow]
    exact Nat.mod_eq_of_lt (by omega)
  rw [carried]
  rfl

theorem checksumWords_eq_not (wide : 16 ≤ width) (words : List UInt16) :
    checksumWords width words = ~~~foldedSum width words := by
  apply UInt16.toBitVec_inj.mp
  ext index inside
  simp [checksumWords, foldedSum, show index < width by omega]

variable {words : List UInt16} (wide : 32 ≤ width) (few : words.length ≤ 65536)

include few

theorem sum_words_lt : (words.map UInt16.toNat).sum < 4294967296 := by
  have bound := sum_words_le words
  omega

include wide

theorem accumulate_words :
    (accumulate (0 : BitVec width) words).toNat = (words.map UInt16.toNat).sum := by
  have size : 2 ^ 32 ≤ 2 ^ width := Nat.pow_le_pow_right (by omega) wide
  have small := sum_words_lt few
  have zero : (0 : BitVec width).toNat = 0 := BitVec.toNat_zero
  rw [toNat_accumulate (by omega) (by omega), zero, Nat.zero_add]

theorem toNat_foldedSum_eq_fold :
    (foldedSum width words).toNat = OnesComplement.fold (words.map UInt16.toNat).sum := by
  have exactSum := accumulate_words wide few
  have small := sum_words_lt few
  have folded := toNat_foldCarries wide (exactSum ▸ small)
  rw [exactSum] at folded
  rw [← folded]
  exact BitVec.toNat_setWidth 16 _

theorem toNat_foldedSum :
    (foldedSum width words).toNat = OnesComplement.sum (words.map UInt16.toNat) := by
  rw [toNat_foldedSum_eq_fold wide few]
  apply OnesComplement.fold_eq_sum _ (sum_words_lt few)
  intro value member
  obtain ⟨word, -, rfl⟩ := List.mem_map.mp member
  exact word.toNat_lt

theorem toNat_checksumWords :
    (checksumWords width words).toNat =
      65535 - OnesComplement.fold (words.map UInt16.toNat).sum := by
  rw [checksumWords_eq_not (by omega), UInt16.toNat_not, toNat_foldedSum_eq_fold wide few]
  rfl

/-- Words whose sum is a positive multiple of `2 ^ 16 - 1` have the checksum zero. -/
theorem checksumWords_eq_zero (positive : 0 < (words.map UInt16.toNat).sum)
    (divides : (words.map UInt16.toNat).sum % 65535 = 0) : checksumWords width words = 0 := by
  apply UInt16.toNat_inj.mp
  rw [toNat_checksumWords wide few,
    OnesComplement.fold_of_dvd positive (sum_words_lt few) divides]
  rfl

end Accumulation

/-! ## Words of a buffer -/

namespace HostOrder

variable {order : HostOrder} {buffer : Bytes}

theorem words_length (even : buffer.length % 2 = 0) :
    2 * (order.words buffer).length = buffer.length := by
  induction buffer using HostOrder.words.induct with
  | case1 first second rest ih =>
      simp only [List.length_cons] at even
      have shorter := ih (by omega)
      simp only [words, List.length_cons]
      omega
  | case2 buffer short =>
      cases buffer with
      | nil => rfl
      | cons first rest =>
          cases rest with
          | nil => simp at even
          | cons second rest => exact absurd rfl (short first second rest)

theorem words_bytes (word : UInt16) (rest : Bytes) :
    order.words (order.bytes word ++ rest) = word :: order.words rest := by
  have bound := word.toNat_lt
  cases order with
  | littleEndian =>
      simp only [bytes, List.cons_append, List.nil_append, words, HostOrder.word, List.cons.injEq,
        and_true]
      apply UInt16.toNat_inj.mp
      simp only [UInt16.toNat_ofNat', UInt8.toNat_ofNat']
      omega
  | bigEndian =>
      simp only [bytes, List.cons_append, List.nil_append, words, HostOrder.word, List.cons.injEq,
        and_true]
      apply UInt16.toNat_inj.mp
      simp only [UInt16.toNat_ofNat', UInt8.toNat_ofNat']
      omega

theorem bytes_length (order : HostOrder) (word : UInt16) : (order.bytes word).length = 2 := by
  cases order <;> rfl

/-- A store to a word changes that word. -/
theorem words_store {index : Nat} (inside : index < (order.words buffer).length) (word : UInt16) :
    order.words (order.store buffer index word) = (order.words buffer).set index word := by
  induction buffer using HostOrder.words.induct generalizing index with
  | case1 first second rest ih =>
      cases index with
      | zero =>
          have replaced : order.store (first :: second :: rest) 0 word =
              order.bytes word ++ rest := by
            simp [store, overwrite, bytes_length]
          rw [replaced, words_bytes]
          rfl
      | succ index =>
          have later : order.store (first :: second :: rest) (index + 1) word =
              first :: second :: order.store rest index word := by
            simp [store, overwrite, bytes_length, Nat.mul_add]
          rw [words, List.length_cons] at inside
          rw [later, words, ih (Nat.lt_of_succ_lt_succ inside)]
          rfl
  | case2 buffer short =>
      cases buffer with
      | nil => exact absurd inside (Nat.not_lt_zero _)
      | cons first rest =>
          cases rest with
          | nil => exact absurd inside (Nat.not_lt_zero _)
          | cons second rest => exact absurd rfl (short first second rest)

end HostOrder

/-! ## The checksum of a buffer -/

theorem sum_set_of_zero {words : List UInt16} {index : Nat} (zero : words[index]? = some 0)
    (word : UInt16) :
    ((words.set index word).map UInt16.toNat).sum =
      (words.map UInt16.toNat).sum + word.toNat := by
  induction words generalizing index with
  | nil => cases zero
  | cons first words ih =>
      cases index with
      | zero =>
          have same : first = 0 := Option.some.inj zero
          simp [same, Nat.add_comm]
      | succ index =>
          simp only [List.set_cons_succ, List.map_cons, List.sum_cons]
          rw [ih (by simpa using zero), Nat.add_assoc]

theorem swappedSum_eq_sum_words {buffer : Bytes} (even : buffer.length % 2 = 0) :
    OnesComplement.swappedSum buffer =
      ((HostOrder.littleEndian.words buffer).map UInt16.toNat).sum := by
  induction buffer using OnesComplement.swappedSum.induct with
  | case1 => rfl
  | case2 last => simp at even
  | case3 low high rest ih =>
      have lowBound := low.toNat_lt
      have highBound := high.toNat_lt
      simp only [List.length_cons] at even
      simp only [OnesComplement.swappedSum, HostOrder.words, HostOrder.word, List.map_cons,
        List.sum_cons, ih (by omega), UInt16.toNat_ofNat']
      omega

/-- The function on bytes is the one on the words of a little-endian host. -/
theorem checksum_eq_checksumWords {width : Nat} (wide : 32 ≤ width) {buffer : Bytes}
    (even : buffer.length % 2 = 0) (short : buffer.length ≤ 131072) :
    checksum buffer = (checksumWords width (HostOrder.littleEndian.words buffer)).toNat := by
  have length := HostOrder.littleEndian.words_length even
  rw [checksum_eq, toNat_checksumWords wide (by omega), swappedSum_eq_sum_words even]

/-- `checksum` is the Internet checksum of every buffer of whole words of up to
131072 bytes. -/
theorem isInternetChecksum (order : HostOrder) {width : Nat} (wide : 32 ≤ width)
    {buffer : Bytes} (even : buffer.length % 2 = 0) (short : buffer.length ≤ 131072) :
    IsInternetChecksum order width buffer := by
  have length := order.words_length even
  have few : (order.words buffer).length ≤ 65536 := by omega
  have small := sum_words_lt few
  have folded := toNat_foldedSum wide few
  have complemented := toNat_checksumWords wide few
  have same := toNat_foldedSum_eq_fold wide few
  refine
    { whole := length
      accumulated := fun count => accumulate_words wide (by rw [List.length_take]; omega)
      folded := folded
      complemented := by rw [complemented, ← same, folded]
      verifies := ?_
      sent := by
        rintro rfl
        exact checksum_eq_checksumWords wide even short }
  intro index zero
  obtain ⟨inside, -⟩ := List.getElem?_eq_some_iff.mp zero
  obtain ⟨bound, remainder⟩ := OnesComplement.fold_complement small
  have nothing := OnesComplement.fold_eq_zero small
  rw [order.words_store inside]
  apply checksumWords_eq_zero wide (by rwa [List.length_set])
  · rw [sum_set_of_zero zero, complemented]
    omega
  · rwa [sum_set_of_zero zero, complemented]

theorem isInternetChecksum_headerFront :
    IsInternetChecksum .littleEndian 64 [0x45, 0, 0, 40, 0, 0] :=
  isInternetChecksum .littleEndian (by decide) (by decide) (by decide)

end Uwebfilter
