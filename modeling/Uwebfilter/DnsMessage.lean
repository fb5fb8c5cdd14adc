import Mathlib.Algebra.GroupWithZero.Nat
import Uwebfilter.WireParser

/-!
# DNS messages

Names, questions, records and messages of the Domain Name System in the wire
format without compression, with the parser of each and its round trip.
-/

namespace DnsMessage

open CStrings WireParser

/-! ## Names -/

/-- A label with its length in front. -/
def encodeLabel (label : Bytes) : Bytes := UInt8.ofNat label.length :: label

def encodeName (labels : List Bytes) : Bytes := labels.flatMap encodeLabel ++ [0]

/-- Labels of 1 to 63 bytes that fit a name of 255 octets. -/
structure LegalName (labels : List Bytes) : Prop where
  nonempty : ∀ label ∈ labels, label ≠ []
  short : ∀ label ∈ labels, label.length ≤ 63
  fits : (encodeName labels).length ≤ 255

@[simp] theorem encodeLabel_length (label : Bytes) :
    (encodeLabel label).length = label.length + 1 := rfl

theorem encodeName_cons (label : Bytes) (labels : List Bytes) :
    encodeName (label :: labels) = encodeLabel label ++ encodeName labels := by
  simp [encodeName]

theorem encodeName_length (labels : List Bytes) :
    (encodeName labels).length = (labels.map fun label => label.length + 1).sum + 1 := by
  simp [encodeName, List.length_flatMap]

/-- The labels of a name, at most `count` of them with the end. -/
def parseLabels : (count : Nat) → WireParser (List Bytes)
  | 0 => failure
  | count + 1 => do
      let length ← byte
      if length = 0 then pure []
      else do
        require (length.toNat ≤ 63)
        let label ← takeBytes length.toNat
        let labels ← parseLabels count
        pure (label :: labels)

def parseName : WireParser (List Bytes) := do
  let labels ← parseLabels 128
  require ((encodeName labels).length ≤ 255)
  pure labels

theorem parses_labels {labels : List Bytes} (nonempty : ∀ label ∈ labels, label ≠ [])
    (short : ∀ label ∈ labels, label.length ≤ 63) {count : Nat} (enough : labels.length < count) :
    Parses (parseLabels count) (encodeName labels) labels := by
  induction labels generalizing count with
  | nil =>
      obtain ⟨count, rfl⟩ := Nat.exists_eq_succ_of_ne_zero (by omega : count ≠ 0)
      exact parses_map (parses_byte 0) (parses_pure [])
  | cons label labels ih =>
      obtain ⟨count, rfl⟩ := Nat.exists_eq_succ_of_ne_zero (by omega : count ≠ 0)
      rw [List.forall_mem_cons] at nonempty short
      rw [List.length_cons] at enough
      have positive := List.length_pos_of_ne_nil nonempty.1
      have exact8 : (UInt8.ofNat label.length).toNat = label.length :=
        UInt8.toNat_ofNat_of_lt' (Nat.lt_of_le_of_lt short.1 (by decide))
      have nonzero : UInt8.ofNat label.length ≠ 0 := by
        intro zero
        rw [zero] at exact8
        simp at exact8
        omega
      rw [encodeName_cons, encodeLabel, ← List.singleton_append, List.append_assoc]
      refine parses_bind (parses_byte _) ?_
      rw [if_neg nonzero, exact8]
      refine parses_require short.1 (parses_bind (parses_takeBytes label) ?_)
      exact parses_map (ih nonempty.2 short.2 (by omega)) (parses_pure _)

/-- A name of 255 octets has fewer than 128 labels. -/
theorem LegalName.length_lt {labels : List Bytes} (legal : LegalName labels) :
    labels.length < 128 := by
  have total := legal.fits
  rw [encodeName_length] at total
  have each : labels.length * 2 ≤ (labels.map fun label => label.length + 1).sum := by
    have nonempty := legal.nonempty
    clear legal total
    induction labels with
    | nil => simp
    | cons label labels ih =>
        rw [List.forall_mem_cons] at nonempty
        have positive := List.length_pos_of_ne_nil nonempty.1
        have rest := ih nonempty.2
        simp only [List.length_cons, List.map_cons, List.sum_cons]
        omega
  omega

theorem parses_name {labels : List Bytes} (legal : LegalName labels) :
    Parses parseName (encodeName labels) labels := by
  refine parses_map (parses_labels legal.nonempty legal.short legal.length_lt) ?_
  exact parses_require legal.fits (parses_pure labels)

/-! ## Questions, records and messages -/

structure Question where
  name : List Bytes
  qtype : Nat
  qclass : Nat
  deriving DecidableEq, Repr

structure Record where
  name : List Bytes
  type : Nat
  rclass : Nat
  ttl : Nat
  rdata : Bytes
  deriving DecidableEq, Repr

structure Message where
  id : Nat
  flags : Nat
  questions : List Question
  answers : List Record
  authorities : List Record
  additionals : List Record
  deriving DecidableEq, Repr

def Question.encode (question : Question) : Bytes :=
  encodeName question.name ++ (be16 question.qtype ++ be16 question.qclass)

def Record.encode (record : Record) : Bytes :=
  encodeName record.name ++ (be16 record.type ++ (be16 record.rclass ++ (be32 record.ttl ++
    (be16 record.rdata.length ++ record.rdata))))

def Message.encode (message : Message) : Bytes :=
  be16 message.id ++ (be16 message.flags ++ (be16 message.questions.length ++
    (be16 message.answers.length ++ (be16 message.authorities.length ++
      (be16 message.additionals.length ++ (message.questions.flatMap Question.encode ++
        (message.answers.flatMap Record.encode ++ (message.authorities.flatMap Record.encode ++
          message.additionals.flatMap Record.encode))))))))

def parseQuestion : WireParser Question := do
  let name ← parseName
  let qtype ← word16
  let qclass ← word16
  pure ⟨name, qtype, qclass⟩

def parseRecord : WireParser Record := do
  let name ← parseName
  let type ← word16
  let rclass ← word16
  let ttl ← word32
  let rdlength ← word16
  let rdata ← takeBytes rdlength
  pure ⟨name, type, rclass, ttl, rdata⟩

def parseMessage : WireParser Message := do
  let id ← word16
  let flags ← word16
  let qdcount ← word16
  let ancount ← word16
  let nscount ← word16
  let arcount ← word16
  let questions ← repeatedly parseQuestion qdcount
  let answers ← repeatedly parseRecord ancount
  let authorities ← repeatedly parseRecord nscount
  let additionals ← repeatedly parseRecord arcount
  pure ⟨id, flags, questions, answers, authorities, additionals⟩

structure Question.Legal (question : Question) : Prop where
  name : LegalName question.name
  qtype : question.qtype < 65536
  qclass : question.qclass < 65536

structure Record.Legal (record : Record) : Prop where
  name : LegalName record.name
  type : record.type < 65536
  rclass : record.rclass < 65536
  ttl : record.ttl < 4294967296
  rdata : record.rdata.length < 65536

structure Message.Legal (message : Message) : Prop where
  id : message.id < 65536
  flags : message.flags < 65536
  qdcount : message.questions.length < 65536
  ancount : message.answers.length < 65536
  nscount : message.authorities.length < 65536
  arcount : message.additionals.length < 65536
  questions : ∀ question ∈ message.questions, question.Legal
  answers : ∀ record ∈ message.answers, record.Legal
  authorities : ∀ record ∈ message.authorities, record.Legal
  additionals : ∀ record ∈ message.additionals, record.Legal

theorem Question.Legal.parses {question : Question} (legal : question.Legal) :
    Parses parseQuestion question.encode question :=
  parses_bind (parses_name legal.name) <| parses_bind (parses_word16 legal.qtype) <|
    parses_map (parses_word16 legal.qclass) (parses_pure _)

theorem Record.Legal.parses {record : Record} (legal : record.Legal) :
    Parses parseRecord record.encode record :=
  parses_bind (parses_name legal.name) <| parses_bind (parses_word16 legal.type) <|
    parses_bind (parses_word16 legal.rclass) <| parses_bind (parses_word32 legal.ttl) <|
      parses_bind (parses_word16 legal.rdata) <|
        parses_map (parses_takeBytes record.rdata) (parses_pure _)

/-- A legal message is read from its encoding. -/
theorem Message.Legal.parses {message : Message} (legal : message.Legal) :
    Parses parseMessage message.encode message := by
  refine parses_bind (parses_word16 legal.id) ?_
  refine parses_bind (parses_word16 legal.flags) ?_
  refine parses_bind (parses_word16 legal.qdcount) ?_
  refine parses_bind (parses_word16 legal.ancount) ?_
  refine parses_bind (parses_word16 legal.nscount) ?_
  refine parses_bind (parses_word16 legal.arcount) ?_
  refine parses_bind (parses_repeatedly fun question member =>
    (legal.questions question member).parses) ?_
  refine parses_bind (parses_repeatedly fun record member =>
    (legal.answers record member).parses) ?_
  refine parses_bind (parses_repeatedly fun record member =>
    (legal.authorities record member).parses) ?_
  exact parses_map (parses_repeatedly fun record member =>
    (legal.additionals record member).parses) (parses_pure _)

end DnsMessage
