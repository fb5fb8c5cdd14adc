import Uwebfilter.DnsBounds
import Uwebfilter.DnsMessage

/-!
# Names of DNS questions

`extract_dns_domain` turns an encoded name into its labels with dots between
them, and finds the type of the question at the place that the length of that
text puts it at: text and encoding differ by two bytes, whatever the labels.
-/

namespace Uwebfilter

open ByteReader CStrings DnsMessage

section Labels

variable {memory : Nat → UInt8} {labels : List Bytes}

theorem labelsAt_encodeName {src packetLength : Nat} (nonempty : ∀ label ∈ labels, label ≠ [])
    (short : ∀ label ∈ labels, label.length ≤ 63) (holds : Holds memory src (encodeName labels))
    (inside : src + (encodeName labels).length ≤ packetLength) :
    LabelsAt memory packetLength src labels := by
  induction labels generalizing src with
  | nil =>
      rw [encodeName, List.flatMap_nil, List.nil_append, holds_cons] at holds
      rw [encodeName_length] at inside
      exact .zero (by omega) holds.1
  | cons label labels ih =>
      rw [List.forall_mem_cons] at nonempty short
      rw [encodeName_cons, holds_append, encodeLabel, holds_cons, ← encodeLabel] at holds
      rw [encodeName_cons, List.length_append, encodeLabel_length] at inside
      obtain ⟨⟨length, content⟩, rest⟩ := holds
      have exact8 : (memory src).toNat = label.length := by
        rw [length]
        exact UInt8.toNat_ofNat_of_lt' (Nat.lt_of_le_of_lt short.1 (by decide))
      have positive := List.length_pos_of_ne_nil nonempty.1
      have whole : (List.range' (src + 1) (memory src).toNat).map memory = label := by
        rw [exact8]
        exact content.map_range'
      rw [← whole]
      refine .label ?_ (by omega) ?_
      · intro zero
        rw [zero] at exact8
        simp at exact8
        omega
      · rw [exact8, Nat.add_assoc src 1, Nat.add_comm 1]
        exact ih nonempty.2 short.2 rest (by omega)

/-- The text of a name is two bytes shorter than its encoding. -/
theorem dotted_length (named : labels ≠ []) :
    (dotted labels).length + 2 = (encodeName labels).length := by
  cases labels with
  | nil => exact absurd rfl named
  | cons label labels =>
      have same : (labels.flatMap (dot :: ·)).length = (labels.flatMap encodeLabel).length := by
        rw [List.length_flatMap, List.length_flatMap]
        rfl
      rw [dotted_cons, encodeName, List.flatMap_cons, List.length_append, List.length_append,
        List.length_append, encodeLabel_length, same, List.length_singleton]
      omega

theorem zero_not_mem_dotted (zeroFree : ∀ label ∈ labels, 0 ∉ label) : 0 ∉ dotted labels := by
  cases labels with
  | nil => simp [dotted]
  | cons label labels =>
      rw [List.forall_mem_cons] at zeroFree
      rw [dotted_cons, List.mem_append, not_or]
      refine ⟨zeroFree.1, ?_⟩
      intro member
      obtain ⟨other, otherMember, inside⟩ := List.mem_flatMap.mp member
      rcases List.mem_cons.mp inside with separator | letter
      · exact absurd separator (by decide)
      · exact zeroFree.2 other otherMember letter

end Labels

/-- The types of questions that `extract_dns_domain` accepts, by their low byte. -/
def AcceptedType (qtype : Nat) : Prop :=
  qtype % 256 ≤ 17 ∨ qtype % 256 = 28 ∨ qtype % 256 = 65

instance (qtype : Nat) : Decidable (AcceptedType qtype) :=
  inferInstanceAs (Decidable (_ ∨ _ ∨ _))

/-- What the extractor makes of a message whose first question has a name. -/
theorem extractDnsDomain_named {memory : Nat → UInt8} {labels : List Bytes}
    {packetLength qtype : Nat} (asked : (memory 4).toNat * 256 + (memory 5).toNat ≠ 0)
    (named : labels ≠ []) (nonempty : ∀ label ∈ labels, label ≠ [])
    (short : ∀ label ∈ labels, label.length ≤ 63) (zeroFree : ∀ label ∈ labels, 0 ∉ label)
    (holds : Holds memory 12 (encodeName labels ++ be16 qtype))
    (inside : 12 + (encodeName labels).length ≤ packetLength) :
    (extractDnsDomain packetLength).run memory =
      (decide (AcceptedType qtype), dotted labels) := by
  rw [holds_append] at holds
  obtain ⟨name, type⟩ := holds
  have at_ := labelsAt_encodeName nonempty short name inside
  have written := (at_.computes packetLength (by omega) []).run
  rw [spell_eq_dotted at_.ne_nil] at written
  have text := dotted_length named
  have low : memory (12 + ((dotted labels).length + 3)) = UInt8.ofNat qtype := by
    simp only [be16, holds_cons] at type
    rw [← type.2.1]
    congr 1
    omega
  rw [extractDnsDomain, if_neg (by omega), run_bind, run_byte, run_bind, run_byte, if_neg asked,
    run_bind, written, cString_of_nulFree (zero_not_mem_dotted zeroFree), run_bind, run_byte, low,
    UInt8.toNat_ofNat']
  by_cases accepted : AcceptedType qtype
  · rw [if_neg (by unfold AcceptedType at accepted; omega), decide_eq_true accepted]
    rfl
  · rw [if_pos (by unfold AcceptedType at accepted; omega), decide_eq_false accepted]
    rfl

/-- On every message with an encoded name for its first question, the extractor
leaves the labels with dots between them and answers by the question's type. -/
theorem extractDnsDomain_question {memory : Nat → UInt8} {header : Bytes} {labels : List Bytes}
    {qtype qclass : Nat} {trailing : Bytes} (size : header.length = 12)
    (asked : 1 ≤ u16be header 4) (named : labels ≠ []) (legal : LegalName labels)
    (zeroFree : ∀ label ∈ labels, 0 ∉ label)
    (holds : Holds memory 0
      (header ++ encodeName labels ++ be16 qtype ++ be16 qclass ++ trailing)) :
    let found := (extractDnsDomain
      (header ++ encodeName labels ++ be16 qtype ++ be16 qclass ++ trailing).length).run memory
    cString (domainBuffer found.2) = dotted labels ∧
      found.2.length < domainLength ∧ (found.1 = true ↔ AcceptedType qtype) := by
  intro found
  set message := header ++ encodeName labels ++ be16 qtype ++ be16 qclass ++ trailing
  have total : 12 + (encodeName labels).length ≤ message.length := by
    simp only [message, List.length_append, size]
    omega
  have fields : Holds memory 0 header ∧ Holds memory 12 (encodeName labels ++ be16 qtype) := by
    simp only [message, holds_append, List.length_append, size, Nat.zero_add] at holds ⊢
    exact ⟨holds.1.1.1.1, holds.1.1.1.2, holds.1.1.2⟩
  have counted : (memory 4).toNat * 256 + (memory 5).toNat = u16be header 4 := by
    have high := fields.1 4 (by omega)
    have low := fields.1 5 (by omega)
    simp only [Nat.zero_add] at high low
    simp [u16be, byteAt, high, low, size]
  have answer := extractDnsDomain_named (by omega) named legal.nonempty legal.short zeroFree
    fields.2 total
  have text := dotted_length named
  have fits := legal.fits
  rw [show found = _ from answer]
  refine ⟨cString_domainBuffer (zero_not_mem_dotted zeroFree), ?_, decide_eq_true_iff⟩
  change (dotted labels).length < 256
  omega

/-- A header that announces one question. -/
def headerOfOne : Bytes := [0, 0, 1, 0, 0, 1, 0, 0, 0, 0, 0, 0]

theorem extractDnsDomain_question_bc :
    let message := headerOfOne ++ encodeName [[98], [99]] ++ be16 1 ++ be16 1 ++ []
    let found := (extractDnsDomain message.length).run (byteAt message)
    cString (domainBuffer found.2) = dotted [[98], [99]] ∧
      found.2.length < domainLength ∧ (found.1 = true ↔ AcceptedType 1) := by
  intro message
  have holds : Holds (byteAt message) 0 message := by
    have whole := holds_getD message []
    rwa [List.append_nil] at whole
  exact extractDnsDomain_question rfl (by decide) (by decide) ⟨by decide, by decide, by decide⟩
    (by decide) holds

end Uwebfilter
