import Uwebfilter.CapturedPacket
import Uwebfilter.HashTable

/-!
# Pending TLS flows

The flow cache of `tcpflow.c`.  A flow is found again by its position in the
table.  `tcpflow_create` leaves `timestamp` as `calloc` cleared it.
-/

namespace Uwebfilter

open CStrings

/-- What the handlers of one packet do besides changing their state.  `overrun`
is a write past the end of a buffer, with which the handling ends. -/
inductive Event
  | sendVerdict (id : Nat) (verdict : Verdict)
  | checkAccess (log : Uwebfilterlog) (verdict : Verdict)
  | extractSni (payload : Bytes)
  | tcpRstSend
  | dnsAnswerSend
  | overrun
  deriving DecidableEq, Repr

/-- `tcpflow_key_t` with the two bytes behind `port` that a comparison of
`sizeof(tcpflow_key_t)` bytes reads as well. -/
structure TcpflowKey where
  src : Nat
  dst : Nat
  port : Nat
  padding : Nat
  deriving DecidableEq, Repr

def maxPacketCount : Nat := 8
def maxPacketSize : Nat := 1500
def flowPayloadSize : Nat := maxPacketCount * maxPacketSize

structure TcpflowValue where
  expected : Nat
  current : Nat
  payload : Bytes
  ids : List Nat
  index : Nat
  deriving DecidableEq, Repr

structure Tcpflow where
  timestamp : Int
  key : TcpflowKey
  value : TcpflowValue
  deriving DecidableEq, Repr

structure TcpflowCache where
  cache : List Tcpflow
  tcpflowLastGc : Int
  deriving DecidableEq, Repr

namespace TcpflowCache

def initial : TcpflowCache := ⟨[], 0⟩

end TcpflowCache

/-- `ids[0..index)` -/
def TcpflowValue.heldIds (value : TcpflowValue) : List Nat := value.ids.take value.index

def tcpflowLookup (choice : Nat) (flows : TcpflowCache) (key : TcpflowKey) :
    Option (Nat × Tcpflow) :=
  HashTable.find choice (fun flow => decide (flow.key = key)) flows.cache

def tcpflowSetverdict (flow : Tcpflow) (verdict : Verdict) : List Event :=
  flow.value.heldIds.map fun id => .sendVerdict id verdict

/-- `tcpflow_setverdict_and_free` of the flow at a position. -/
def tcpflowSetverdictAndFree (flows : TcpflowCache) (position : Nat) (flow : Tcpflow)
    (verdict : Verdict) : TcpflowCache × List Event :=
  ({ flows with cache := flows.cache.eraseIdx position }, tcpflowSetverdict flow verdict)

/-- The `HASH_ITER` loop of `tcpflow_rungc`: the flows that stay and the
verdicts sent for the others. -/
def tcpflowRungcIter (expiredTime : Int) : List Tcpflow → List Tcpflow × List Event
  | [] => ([], [])
  | flow :: rest =>
      let (kept, events) := tcpflowRungcIter expiredTime rest
      if flow.timestamp < expiredTime then
        (kept, tcpflowSetverdict flow .nfDrop ++ events)
      else (flow :: kept, events)

def tcpflowRungc (flows : TcpflowCache) (now : Int) : TcpflowCache × List Event :=
  let (kept, events) := tcpflowRungcIter (now - 5) flows.cache
  (⟨kept, now⟩, events)

def tcpflowInsert (flows : TcpflowCache) (flow : Tcpflow) (now : Int) :
    TcpflowCache × List Event :=
  let added := { flows with cache := flows.cache ++ [flow] }
  if added.tcpflowLastGc < now - 60 then tcpflowRungc added now else (added, [])

/-- `tcpflow_create`, where `calloc` succeeds or fails. -/
def tcpflowCreate (callocOk : Bool) (key : TcpflowKey) (expected : Nat) : Option Tcpflow :=
  if callocOk then
    some
      { timestamp := 0
        key := { src := key.src, dst := key.dst, port := key.port, padding := 0 }
        value :=
          { expected := expected
            current := 0
            payload := List.replicate flowPayloadSize 0
            ids := List.replicate maxPacketCount 0
            index := 0 } }
  else none

/-- `tcpflow_value_append`, which answers nothing where the source returns
`false`. -/
def tcpflowValueAppend (value : TcpflowValue) (id : Nat) (payload : Bytes) :
    Option TcpflowValue :=
  if value.index ≥ maxPacketCount then none
  else
    let newcurrent := value.current + payload.length
    if newcurrent > flowPayloadSize then none
    else
      some
        { value with
          payload := overwrite value.payload value.current payload
          current := u16 newcurrent
          ids := value.ids.set value.index id
          index := value.index + 1 }

def tcpflowIscomplete (flow : Tcpflow) : Bool :=
  decide (flow.value.current ≥ flow.value.expected)

/-! ## Verdicts sent -/

/-- The verdicts among the events, in order. -/
def verdicts (events : List Event) : List (Nat × Verdict) :=
  events.filterMap fun
    | .sendVerdict id verdict => some (id, verdict)
    | _ => none

@[simp] theorem verdicts_nil : verdicts [] = [] := rfl

@[simp] theorem verdicts_append (first second : List Event) :
    verdicts (first ++ second) = verdicts first ++ verdicts second :=
  List.filterMap_append

@[simp] theorem verdicts_sendVerdict (id : Nat) (verdict : Verdict) (events : List Event) :
    verdicts (.sendVerdict id verdict :: events) = (id, verdict) :: verdicts events := rfl

@[simp] theorem verdicts_checkAccess (log : Uwebfilterlog) (verdict : Verdict)
    (events : List Event) :
    verdicts (.checkAccess log verdict :: events) = verdicts events := rfl

@[simp] theorem verdicts_extractSni (payload : Bytes) (events : List Event) :
    verdicts (.extractSni payload :: events) = verdicts events := rfl

@[simp] theorem verdicts_tcpRstSend (events : List Event) :
    verdicts (.tcpRstSend :: events) = verdicts events := rfl

@[simp] theorem verdicts_dnsAnswerSend (events : List Event) :
    verdicts (.dnsAnswerSend :: events) = verdicts events := rfl

@[simp] theorem verdicts_overrun (events : List Event) :
    verdicts (.overrun :: events) = verdicts events := rfl

@[simp] theorem verdicts_tcpflowSetverdict (flow : Tcpflow) (verdict : Verdict) :
    verdicts (tcpflowSetverdict flow verdict) =
      flow.value.heldIds.map fun id => (id, verdict) := by
  rw [tcpflowSetverdict]
  induction flow.value.heldIds with
  | nil => rfl
  | cons id ids ih => simpa using ih

/-! ## What the operations do -/

theorem tcpflowRungcIter_fst (expiredTime : Int) (flows : List Tcpflow) :
    (tcpflowRungcIter expiredTime flows).1 =
      flows.filter fun flow => decide (¬ flow.timestamp < expiredTime) := by
  induction flows with
  | nil => rfl
  | cons flow rest ih =>
      by_cases expired : flow.timestamp < expiredTime
      · simp [tcpflowRungcIter, expired, ih]
      · simp [tcpflowRungcIter, expired, ih, Int.not_lt.mp expired]

/-- The verdicts the collector sends: each removed flow is dropped whole. -/
theorem tcpflowRungcIter_snd (expiredTime : Int) (flows : List Tcpflow) :
    (tcpflowRungcIter expiredTime flows).2 =
      (flows.filter fun flow => decide (flow.timestamp < expiredTime)).flatMap
        fun flow => tcpflowSetverdict flow .nfDrop := by
  induction flows with
  | nil => rfl
  | cons flow rest ih =>
      by_cases expired : flow.timestamp < expiredTime <;>
        simp [tcpflowRungcIter, expired, ih]

theorem tcpflowInsert_of_idle {flows : TcpflowCache} {now : Int} (flow : Tcpflow)
    (idle : ¬ flows.tcpflowLastGc < now - 60) :
    tcpflowInsert flows flow now = ({ flows with cache := flows.cache ++ [flow] }, []) := by
  simp [tcpflowInsert, idle]

theorem tcpflowInsert_of_due {flows : TcpflowCache} {now : Int} (flow : Tcpflow)
    (due : flows.tcpflowLastGc < now - 60) :
    tcpflowInsert flows flow now =
      (⟨(tcpflowRungcIter (now - 5) (flows.cache ++ [flow])).1, now⟩,
        (tcpflowRungcIter (now - 5) (flows.cache ++ [flow])).2) := by
  simp [tcpflowInsert, due, tcpflowRungc]

theorem tcpflowCreate_eq_some {callocOk : Bool} {key : TcpflowKey} {expected : Nat}
    {flow : Tcpflow} (created : tcpflowCreate callocOk key expected = some flow) :
    flow.timestamp = 0 ∧ flow.key = { key with padding := 0 } ∧
      flow.value.expected = expected ∧ flow.value.current = 0 ∧ flow.value.index = 0 ∧
      flow.value.payload = List.replicate flowPayloadSize 0 ∧
      flow.value.ids = List.replicate maxPacketCount 0 := by
  cases callocOk with
  | false => simp [tcpflowCreate] at created
  | true =>
      obtain rfl := Option.some.inj created
      exact ⟨rfl, rfl, rfl, rfl, rfl, rfl, rfl⟩

theorem tcpflowValueAppend_eq_none {value : TcpflowValue} {id : Nat} {payload : Bytes} :
    tcpflowValueAppend value id payload = none ↔
      maxPacketCount ≤ value.index ∨ flowPayloadSize < value.current + payload.length := by
  by_cases full : maxPacketCount ≤ value.index
  · simp [tcpflowValueAppend, full]
  · by_cases large : flowPayloadSize < value.current + payload.length <;>
      simp [tcpflowValueAppend, full, large]

theorem tcpflowValueAppend_eq_some {value grown : TcpflowValue} {id : Nat} {payload : Bytes}
    (appended : tcpflowValueAppend value id payload = some grown) :
    value.index < maxPacketCount ∧ value.current + payload.length ≤ flowPayloadSize ∧
      grown =
        { value with
          payload := overwrite value.payload value.current payload
          current := value.current + payload.length
          ids := value.ids.set value.index id
          index := value.index + 1 } := by
  have notNone : tcpflowValueAppend value id payload ≠ none := by simp [appended]
  rw [Ne, tcpflowValueAppend_eq_none, not_or, not_le, not_lt] at notNone
  obtain ⟨slot, room⟩ := notNone
  refine ⟨slot, room, ?_⟩
  have size : flowPayloadSize = 12000 := rfl
  have exact16 : u16 ((value.current + payload.length : Nat) : Int) =
      value.current + payload.length := u16_of_lt (by omega)
  rw [tcpflowValueAppend, if_neg (by omega), if_neg (by omega)] at appended
  rw [← Option.some.inj appended]
  simpa using exact16

end Uwebfilter
