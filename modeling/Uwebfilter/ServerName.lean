import Uwebfilter.ClientHello

/-!
# The server name of a well-formed ClientHello

On a record with one ClientHello the walk returns the host name of the
`server_name` extension, wherever the extension stands, and nothing where there
is none.  No offset leaves the 16 bits it is kept in.
-/

namespace Uwebfilter

open ByteReader CStrings

/-- A record with one ClientHello and nothing behind it: at most 50 extensions of
distinct types, of which `server_name` lists a host name first. -/
structure ClientHello.WellFormed (hello : ClientHello) : Prop where
  alone : hello.rest = []
  cipherSuites : hello.cipherSuites ≠ []
  compressionMethods : hello.compressionMethods ≠ []
  few : (hello.extensions.getD []).length ≤ 50
  types : ((hello.extensions.getD []).map Extension.kind).Nodup
  hostName : ∀ nameType name more,
    Extension.serverName nameType name more ∈ hello.extensions.getD [] →
      nameType = 0 ∧ name ≠ [] ∧ name.length ≤ 255 ∧ 0 ∉ name

/-- The search finds a name and leaves it as a C string, or finds none and leaves
the buffer as it was. -/
structure AnswersWith (found : Option Bytes) (name : Option Bytes) : Prop where
  returned : found.isSome = name.isSome
  string : cString (domainBuffer (found.getD [])) = name.getD []
  untouched : name = none → domainBuffer (found.getD []) = List.replicate domainLength 0

/-- Where types are distinct, the first server name is the only one. -/
theorem findSome_name_of_mem {extensions : List Extension} {nameType : UInt8} {name more : Bytes}
    (types : (extensions.map Extension.kind).Nodup)
    (member : Extension.serverName nameType name more ∈ extensions) :
    extensions.findSome? Extension.name? = some name := by
  induction extensions with
  | nil => cases member
  | cons extension extensions ih =>
      rw [List.map_cons, List.nodup_cons] at types
      obtain ⟨fresh, types⟩ := types
      rcases List.mem_cons.mp member with same | later
      · rw [← same]
        rfl
      · cases extension with
        | serverName otherType other otherMore =>
            exact absurd (List.mem_map_of_mem later) fresh
        | other kind body notServerName => exact ih types later

theorem findSome_name_eq_none {extensions : List Extension}
    (absent : ∀ nameType name more, Extension.serverName nameType name more ∉ extensions) :
    extensions.findSome? Extension.name? = none := by
  rw [List.findSome?_eq_none_iff]
  intro extension member
  cases extension with
  | serverName nameType name more => exact absurd member (absent nameType name more)
  | other kind body notServerName => rfl

theorem answersWith_name {name : Bytes} (short : name.length ≤ 255) (nulFree : 0 ∉ name) :
    AnswersWith (some (name.take domainLength)) (some name) where
  returned := rfl
  string := by
    have whole : name.take domainLength = name := by
      apply List.take_of_length_le
      rw [domainLength]
      omega
    rw [Option.getD_some, whole]
    exact cString_domainBuffer nulFree
  untouched absent := by cases absent

theorem answersWith_none : AnswersWith none none where
  returned := rfl
  string := cString_domainBuffer List.not_mem_nil
  untouched _ := by simp [domainBuffer, overwrite_cleared]

/-- On every well-formed ClientHello, followed by whatever there is, the walk
answers with the host name, and its 16-bit offsets are exact. -/
theorem extractSni_wellFormed {memory : Nat → UInt8} {payloadLength : Nat} {hello : ClientHello}
    (wellFormed : hello.WellFormed) (holds : Holds memory 0 hello.record)
    (present : hello.record.length ≤ payloadLength) (below : payloadLength < 65536) :
    (extractSniExact payloadLength).run.run memory =
        some ((extractSni payloadLength).run memory) ∧
      (∀ nameType name more,
        Extension.serverName nameType name more ∈ hello.extensions.getD [] →
          AnswersWith ((extractSni payloadLength).run memory) (some name)) ∧
      ((∀ nameType name more,
        Extension.serverName nameType name more ∉ hello.extensions.getD []) →
          AnswersWith ((extractSni payloadLength).run memory) none) := by
  have small : hello.record.length < 65536 := by omega
  have exactRun := (computes_extractSniExact payloadLength holds present small).run
  have plainRun := (computes_extractSni payloadLength holds present small).run
  have all : hello.serverName = (hello.extensions.getD []).findSome? Extension.name? := by
    rw [ClientHello.serverName, List.take_of_length_le wellFormed.few]
  refine ⟨by rw [exactRun, plainRun], ?_, ?_⟩
  · intro nameType name more member
    obtain ⟨-, -, short, nulFree⟩ := wellFormed.hostName nameType name more member
    rw [plainRun, all, findSome_name_of_mem wellFormed.types member]
    exact answersWith_name short nulFree
  · intro absent
    rw [plainRun, all, findSome_name_eq_none absent]
    exact answersWith_none

/-- A ClientHello for `b.c` with another extension in front. -/
def helloOfBc : ClientHello where
  recordVersion := (3, 1)
  version := (3, 3)
  random := List.replicate 32 9
  sessionId := [1, 2]
  cipherSuites := [0x13, 1]
  compressionMethods := [1, 0]
  extensions := some [.other 23 [] (by decide), .serverName 0 [98, 46, 99] []]
  rest := []
  randomLength := by simp
  sessionIdLength := by simp
  compressionMethodsLength := by simp
  restAbsent := by simp

theorem wellFormed_helloOfBc : helloOfBc.WellFormed where
  alone := rfl
  cipherSuites := by simp [helloOfBc]
  compressionMethods := by simp [helloOfBc]
  few := by simp [helloOfBc]
  types := by decide
  hostName nameType name more member := by
    simp only [helloOfBc, Option.getD_some, List.mem_cons, List.not_mem_nil, or_false,
      reduceCtorEq, false_or, Extension.serverName.injEq] at member
    obtain ⟨rfl, rfl, rfl⟩ := member
    decide

theorem extractSni_wellFormed_helloOfBc :
    AnswersWith ((extractSni 200).run fun index => (helloOfBc.record ++ []).getD index 0)
      (some [98, 46, 99]) :=
  (extractSni_wellFormed wellFormed_helloOfBc (holds_getD helloOfBc.record [])
    (by decide) (by decide)).2.1 0 [98, 46, 99] [] (by simp [helloOfBc])

end Uwebfilter
