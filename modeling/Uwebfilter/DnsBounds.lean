import Uwebfilter.PlainExtraction

/-!
# Where the DNS extractor reads and writes

`extract_dns_domain` copies labels without a look at what is left of the packet
or of the buffer, and reads the type of the question behind a terminator it
takes for granted.  It stays inside the packet and the buffer exactly for the
messages whose labels do.
-/

namespace Uwebfilter

open ByteReader CStrings

/-- The labels of a question from an offset on, up to a length of zero or the end
of the packet, all inside the packet. -/
inductive LabelsAt (memory : Nat → UInt8) (packetLength : Nat) : Nat → List Bytes → Prop
  | done {src : Nat} (past : packetLength ≤ src) : LabelsAt memory packetLength src []
  | zero {src : Nat} (inside : src < packetLength) (zero : memory src = 0) :
      LabelsAt memory packetLength src []
  | label {src : Nat} {labels : List Bytes} (nonzero : memory src ≠ 0)
      (fits : src + 1 + (memory src).toNat ≤ packetLength)
      (rest : LabelsAt memory packetLength (src + 1 + (memory src).toNat) labels) :
      LabelsAt memory packetLength src
        ((List.range' (src + 1) (memory src).toNat).map memory :: labels)

/-- The labels with dots between them. -/
def dotted (labels : List Bytes) : Bytes := [dot].intercalate labels

/-- The labels of a question lie inside the packet, their name fits the buffer
with a zero, and the type behind the name lies inside the packet. -/
def WellFormedQuestion (memory : Nat → UInt8) (packetLength : Nat) : Prop :=
  ∃ labels, LabelsAt memory packetLength 12 labels ∧
    ((dotted labels).length < domainLength ∨
      (dotted labels).length = domainLength ∧ 0 ∈ dotted labels) ∧
    12 + (cString (dotted labels)).length + 3 < packetLength

/-- The reads are inside the packet, the writes inside the buffer, and the buffer,
all zero before, has a zero byte afterwards. -/
structure StaysInside (memory : Nat → UInt8) (packetLength : Nat) : Prop where
  reads : Within memory packetLength (extractDnsDomain packetLength)
  writes : ((extractDnsDomain packetLength).run memory).2.length ≤ domainLength
  terminated : 0 ∈ overwrite (List.replicate domainLength 0) 0
    ((extractDnsDomain packetLength).run memory).2

section Labels

variable {memory : Nat → UInt8} {packetLength : Nat}

/-- What the loop makes of some labels behind what is written. -/
def spell (written : Bytes) (labels : List Bytes) : Bytes :=
  labels.foldl (fun written label =>
    written ++ (if written = [] then [] else [dot]) ++ label) written

theorem spell_cons (written label : Bytes) (labels : List Bytes) :
    spell written (label :: labels) =
      spell (written ++ (if written = [] then [] else [dot]) ++ label) labels := rfl

theorem LabelsAt.ne_nil {src : Nat} {labels : List Bytes}
    (at_ : LabelsAt memory packetLength src labels) : ∀ label ∈ labels, label ≠ [] := by
  induction at_ with
  | done | zero => simp
  | @label src labels nonzero fits rest ih =>
      rw [List.forall_mem_cons]
      refine ⟨?_, ih⟩
      apply List.ne_nil_of_length_pos
      rw [List.length_map, List.length_range']
      exact Nat.pos_of_ne_zero fun zero => nonzero (UInt8.toNat_inj.mp zero)

theorem spell_eq_of_written {written : Bytes} (nonempty : written ≠ []) (labels : List Bytes) :
    spell written labels = written ++ labels.flatMap (dot :: ·) := by
  induction labels generalizing written with
  | nil => simp [spell]
  | cons label labels ih =>
      rw [spell_cons, if_neg nonempty, ih (by simp [nonempty])]
      simp

theorem dotted_cons (label : Bytes) (labels : List Bytes) :
    dotted (label :: labels) = label ++ labels.flatMap (dot :: ·) := by
  unfold dotted
  induction labels generalizing label with
  | nil => simp
  | cons next labels ih =>
      rw [List.intercalate_cons_cons, ih]
      simp

theorem spell_eq_dotted {labels : List Bytes} (nonempty : ∀ label ∈ labels, label ≠ []) :
    spell [] labels = dotted labels := by
  cases labels with
  | nil => rfl
  | cons label labels =>
      rw [spell_cons, dotted_cons, if_pos rfl, List.append_nil, List.nil_append]
      exact spell_eq_of_written (nonempty label List.mem_cons_self) labels

/-- Labels inside the packet are read inside it. -/
theorem LabelsAt.computes {src : Nat} {labels : List Bytes}
    (at_ : LabelsAt memory packetLength src labels) (rounds : Nat)
    (enough : packetLength ≤ src + rounds) (written : Bytes) :
    Computes memory packetLength (extractDnsLabels packetLength rounds src written)
      (spell written labels) := by
  induction at_ generalizing rounds written with
  | done past =>
      cases rounds with
      | zero => exact computes_pure written
      | succ rounds =>
          rw [extractDnsLabels, if_neg (by omega)]
          exact computes_pure written
  | zero inside zero =>
      cases rounds with
      | zero => exact computes_pure written
      | succ rounds =>
          rw [extractDnsLabels, if_pos inside]
          apply computes_bind (computes_byte zero inside)
          exact computes_pure written
  | @label src labels nonzero fits rest ih =>
      cases rounds with
      | zero => omega
      | succ rounds =>
          have inside : src < packetLength := by omega
          have positive : (memory src).toNat ≠ 0 := fun zero =>
            nonzero (UInt8.toNat_inj.mp zero)
          rw [extractDnsLabels, if_pos inside]
          apply computes_bind (computes_byte rfl inside)
          rw [if_neg positive]
          apply computes_bind ⟨within_bytes fits, run_bytes _ _ _⟩
          exact ih rounds (by omega) _

/-- Where the loop reads inside the packet only, so lie the labels. -/
theorem labelsAt_of_within {rounds src : Nat} {written : Bytes}
    (enough : packetLength ≤ src + rounds)
    (within : Within memory packetLength (extractDnsLabels packetLength rounds src written)) :
    ∃ labels, LabelsAt memory packetLength src labels := by
  induction rounds generalizing src written with
  | zero => exact ⟨[], .done (by omega)⟩
  | succ rounds ih =>
      by_cases inside : src < packetLength
      · by_cases zero : memory src = 0
        · exact ⟨[], .zero inside zero⟩
        · have positive : (memory src).toNat ≠ 0 := fun none => zero (UInt8.toNat_inj.mp none)
          rw [extractDnsLabels, if_pos inside, within_bind_iff, run_byte, if_neg positive,
            within_bind_iff, within_bytes_iff (Nat.pos_of_ne_zero positive)] at within
          obtain ⟨-, fits, restWithin⟩ := within
          obtain ⟨labels, rest⟩ := ih (by omega) restWithin
          exact ⟨_, .label zero fits rest⟩
      · exact ⟨[], .done (by omega)⟩

end Labels

section Extraction

variable {memory : Nat → UInt8} {packetLength : Nat}

theorem extractDnsDomain_run (long : 12 ≤ packetLength)
    (asked : (memory 4).toNat * 256 + (memory 5).toNat ≠ 0) :
    ((extractDnsDomain packetLength).run memory).2 =
      (extractDnsLabels packetLength packetLength 12 []).run memory := by
  rw [extractDnsDomain, if_neg (by omega), run_bind, run_byte, run_bind, run_byte, if_neg asked,
    run_bind, run_bind, run_byte]
  split <;> rfl

theorem within_extractDnsDomain (long : 12 ≤ packetLength)
    (asked : (memory 4).toNat * 256 + (memory 5).toNat ≠ 0) :
    Within memory packetLength (extractDnsDomain packetLength) ↔
      Within memory packetLength (extractDnsLabels packetLength packetLength 12 []) ∧
        12 + (cString ((extractDnsLabels packetLength packetLength 12 []).run memory)).length + 3 <
          packetLength := by
  rw [extractDnsDomain, if_neg (by omega), within_bind_iff, within_byte_iff, run_byte,
    within_bind_iff, within_byte_iff, run_byte, if_neg asked, within_bind_iff, within_bind_iff,
    within_byte_iff, run_byte]
  constructor
  · rintro ⟨-, -, labels, last, -⟩
    exact ⟨labels, by omega⟩
  · rintro ⟨labels, last⟩
    refine ⟨by omega, by omega, labels, by omega, ?_⟩
    split <;> exact within_pure _

/-- Packets that are too short or ask nothing are left at once. -/
theorem staysInside_of_unasked (unasked : packetLength < 12 ∨
    (memory 4).toNat * 256 + (memory 5).toNat = 0) : StaysInside memory packetLength := by
  have written : ((extractDnsDomain packetLength).run memory).2 = [] := by
    unfold extractDnsDomain
    split
    · rfl
    · have none := unasked.resolve_left (by assumption)
      rw [run_bind, run_byte, run_bind, run_byte, if_pos none]
      rfl
  constructor
  · unfold extractDnsDomain
    split
    · exact within_pure _
    · have none := unasked.resolve_left (by assumption)
      rw [within_bind_iff, within_byte_iff, run_byte, within_bind_iff, within_byte_iff, run_byte,
        if_pos none]
      exact ⟨by omega, by omega, within_pure _⟩
  · rw [written]
    exact Nat.zero_le _
  · rw [written, zero_mem_overwrite_iff (Nat.zero_le _)]
    exact .inl (by decide)

end Extraction

/-- The extractor stays inside its buffers exactly where the packet is too short,
asks nothing, or has a well-formed question. -/
theorem staysInside_iff_wellFormed (memory : Nat → UInt8) (packetLength : Nat) :
    StaysInside memory packetLength ↔
      packetLength < 12 ∨ (memory 4).toNat * 256 + (memory 5).toNat = 0 ∨
        WellFormedQuestion memory packetLength := by
  by_cases unasked : packetLength < 12 ∨ (memory 4).toNat * 256 + (memory 5).toNat = 0
  · exact iff_of_true (staysInside_of_unasked unasked) (or_assoc.mp (.inl unasked))
  · obtain ⟨long, asked⟩ := not_or.mp unasked
    rw [← or_assoc, or_iff_right unasked]
    have written := extractDnsDomain_run (Nat.not_lt.mp long) asked
    have within := within_extractDnsDomain (Nat.not_lt.mp long) asked
    have spelled : ∀ {labels}, LabelsAt memory packetLength 12 labels →
        Computes memory packetLength (extractDnsLabels packetLength packetLength 12 [])
          (dotted labels) := by
      intro labels at_
      rw [← spell_eq_dotted at_.ne_nil]
      exact at_.computes packetLength (by omega) []
    constructor
    · rintro ⟨reads, writes, terminated⟩
      obtain ⟨loop, last⟩ := within.mp reads
      obtain ⟨labels, at_⟩ := labelsAt_of_within (by omega) loop
      rw [written, (spelled at_).run] at writes terminated
      rw [(spelled at_).run] at last
      exact ⟨labels, at_, (zero_mem_overwrite_iff writes).mp terminated, last⟩
    · rintro ⟨labels, at_, room, last⟩
      have fits : (dotted labels).length ≤ domainLength := by omega
      constructor
      · rw [within, (spelled at_).run]
        exact ⟨(spelled at_).within, last⟩
      · rwa [written, (spelled at_).run]
      · rwa [written, (spelled at_).run, zero_mem_overwrite_iff fits]

/-- A header that announces a question, and a single length byte of 255 behind it. -/
def truncatedQuestion (address : Nat) : UInt8 :=
  if address = 5 then 1 else if address = 12 then 255 else 0

/-- The copy of the label reads behind the packet. -/
theorem not_staysInside_truncatedQuestion : ¬ StaysInside truncatedQuestion 13 := by
  intro stays
  have beyond := stays.reads 13 (by decide)
  omega

end Uwebfilter
