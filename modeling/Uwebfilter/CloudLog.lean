import Mathlib.Data.List.Flatten
import Uwebfilter.DomainLookup
import Uwebfilter.MachineRun

/-!
# Logs for the cloud server

`uwebfilterlog_cloud.c` collects the log records in an array and posts it when
it is large or old enough.  The array is replaced whether or not the post
succeeds, so what a failed post holds is lost, and nothing else is.
-/

namespace Uwebfilter

open CStrings

/-! ## Records as JSON -/

namespace LogKeys

def srcip : Bytes := ascii ['s', 'r', 'c', 'i', 'p']
def dstip : Bytes := ascii ['d', 's', 't', 'i', 'p']
def srcport : Bytes := ascii ['s', 'r', 'c', 'p', 'o', 'r', 't']
def dstport : Bytes := ascii ['d', 's', 't', 'p', 'o', 'r', 't']
def proto : Bytes := ascii ['p', 'r', 'o', 't', 'o']
def domain : Bytes := ascii ['d', 'o', 'm', 'a', 'i', 'n']
def path : Bytes := ascii ['p', 'a', 't', 'h']
def action : Bytes := ascii ['a', 'c', 't', 'i', 'o', 'n']
def category : Bytes := ascii ['c', 'a', 't', 'e', 'g', 'o', 'r', 'y']
def application : Bytes := ascii ['a', 'p', 'p', 'l', 'i', 'c', 'a', 't', 'i', 'o', 'n']
def blocktype : Bytes := ascii ['b', 'l', 'o', 'c', 'k', 't', 'y', 'p', 'e']
def logtime : Bytes := ascii ['l', 'o', 'g', 't', 'i', 'm', 'e']
def version : Bytes := ascii ['v', 'e', 'r', 's', 'i', 'o', 'n']
def logs : Bytes := ascii ['l', 'o', 'g', 's']

end LogKeys

def Proto.text : Proto → Bytes
  | .tcp => ascii ['t', 'c', 'p']
  | .udp => ascii ['u', 'd', 'p']

def Action.text : Action → Bytes
  | .allow => ascii ['a', 'l', 'l', 'o', 'w']
  | .block => ascii ['b', 'l', 'o', 'c', 'k']

/-- A member that is added where there is a text. -/
def optionalMember (key : Bytes) : Option Bytes → List (Bytes × Json)
  | none => []
  | some text => [(key, .string text)]

def uwebfilterlogToJsonObject (uwebfilterlog : Uwebfilterlog) : Json :=
  .object
    ([(LogKeys.srcip, .string (cString uwebfilterlog.srcip)),
      (LogKeys.dstip, .string (cString uwebfilterlog.dstip)),
      (LogKeys.srcport, .int uwebfilterlog.srcport),
      (LogKeys.dstport, .int uwebfilterlog.dstport)] ++
    optionalMember LogKeys.proto (uwebfilterlog.proto.map Proto.text) ++
    [(LogKeys.domain, .string (cString uwebfilterlog.domain)),
      (LogKeys.path, .string (cString uwebfilterlog.path))] ++
    optionalMember LogKeys.action (uwebfilterlog.action.map Action.text) ++
    [(LogKeys.category, .int uwebfilterlog.category),
      (LogKeys.application, .int uwebfilterlog.application),
      (LogKeys.blocktype, .int uwebfilterlog.blocktype),
      (LogKeys.logtime, .int uwebfilterlog.logtime)])

/-! ## The buffer -/

def logbufferMaxsize : Nat := 4096

def logbufferInterval : Int := 30

structure Logbuffer where
  array : List Json
  lastSend : Int

def logbufferInit : Logbuffer := ⟨[], 0⟩

/-- The document whose text is posted. -/
def logsPayload (array : List Json) : Json :=
  .object [(LogKeys.version, .int 1), (LogKeys.logs, .array array)]

/-- A log record, and what `logs_send_to_cloud_server` returns if it is called
for it. -/
structure LogWrite where
  log : Uwebfilterlog
  sent : Bool

/-- A call of `logs_send_to_cloud_server`. -/
structure Post where
  payload : Json
  sent : Bool

/-- The logs a payload holds. -/
def Post.logs (post : Post) : List Json :=
  ((post.payload.objectGet LogKeys.logs).bind Json.arrayElements).getD []

def uwebfilterlogSendtoCloud (logbuffer : Logbuffer) (write : LogWrite) :
    Logbuffer × List Post :=
  let now := write.log.logtime
  let array := logbuffer.array ++ [uwebfilterlogToJsonObject write.log]
  if timeT (logbuffer.lastSend + logbufferInterval) < now ∨ array.length ≥ logbufferMaxsize then
    (⟨[], now⟩, [⟨logsPayload array, write.sent⟩])
  else ({ logbuffer with array := array }, [])

def logbufferAfter (writes : List LogWrite) : Logbuffer :=
  MachineRun.after uwebfilterlogSendtoCloud logbufferInit writes

def logPosts (writes : List LogWrite) : List Post :=
  (MachineRun.outputs uwebfilterlogSendtoCloud logbufferInit writes).flatten

/-- The logs written, as the array holds them. -/
def logsWritten (writes : List LogWrite) : List Json :=
  writes.map fun write => uwebfilterlogToJsonObject write.log

/-! ## What becomes of the logs -/

@[simp] theorem logs_logsPayload (array : List Json) (sent : Bool) :
    Post.logs ⟨logsPayload array, sent⟩ = array := rfl

/-- Every log is in a post or in the array, in order, and neither is too long. -/
structure Accounts (written : List Json) (posts : List Post) (logbuffer : Logbuffer) : Prop where
  logs : posts.flatMap Post.logs ++ logbuffer.array = written
  short : logbuffer.array.length < logbufferMaxsize
  posted : ∀ post ∈ posts, 1 ≤ post.logs.length ∧ post.logs.length ≤ logbufferMaxsize

theorem Accounts.step {written : List Json} {posts : List Post} {logbuffer : Logbuffer}
    (accounts : Accounts written posts logbuffer) (write : LogWrite) :
    Accounts (written ++ [uwebfilterlogToJsonObject write.log])
      (posts ++ (uwebfilterlogSendtoCloud logbuffer write).2)
      (uwebfilterlogSendtoCloud logbuffer write).1 := by
  obtain ⟨logs, short, posted⟩ := accounts
  simp only [uwebfilterlogSendtoCloud]
  split
  · constructor
    · simp [← logs]
    · show 0 < logbufferMaxsize
      decide
    · intro post member
      rcases List.mem_append.mp member with earlier | new
      · exact posted post earlier
      · obtain rfl := List.mem_singleton.mp new
        rw [logs_logsPayload, List.length_append, List.length_singleton]
        omega
  · rename_i kept
    constructor
    · simp [← logs]
    · simp only [not_or, Nat.not_le] at kept
      exact kept.2
    · simpa using posted

theorem accounts_run (writes : List LogWrite) :
    Accounts (logsWritten writes) (logPosts writes) (logbufferAfter writes) := by
  apply MachineRun.invariant uwebfilterlogSendtoCloud logbufferInit
    fun inputs outputs logbuffer => Accounts (logsWritten inputs) outputs.flatten logbuffer
  · exact ⟨rfl, by decide, by simp⟩
  · intro inputs write accounts
    simpa [logsWritten] using accounts.step write

/-- Leaving out some items of a concatenation changes it, where each has
content. -/
theorem flatMap_filter_eq_iff {α β : Type} {content : α → List β} {kept : α → Bool}
    {items : List α} (nonempty : ∀ item ∈ items, content item ≠ []) :
    (items.filter kept).flatMap content = items.flatMap content ↔
      ∀ item ∈ items, kept item = true := by
  constructor
  · intro same
    induction items with
    | nil => simp
    | cons item items ih =>
        obtain ⟨headNonempty, restNonempty⟩ := List.forall_mem_cons.mp nonempty
        by_cases keeps : kept item = true
        · rw [List.filter_cons_of_pos keeps, List.flatMap_cons, List.flatMap_cons,
            List.append_right_inj] at same
          exact List.forall_mem_cons.mpr ⟨keeps, ih restNonempty same⟩
        · have shorter : ((items.filter kept).flatMap content).length ≤
              (items.flatMap content).length :=
            (List.filter_sublist.flatMap content).length_le
          have positive := List.length_pos_of_ne_nil headNonempty
          rw [List.filter_cons_of_neg keeps, List.flatMap_cons] at same
          rw [same, List.length_append] at shorter
          omega
  · intro all
    rw [List.filter_eq_self.mpr all]

/-- After every call the logs written are, in order and each once, in the payloads
posted so far or in the array; a payload holds one to `LOGBUFFER_MAXSIZE` logs;
and none is lost exactly where every post has succeeded. -/
theorem logs_accounted (writes : List LogWrite) :
    (logPosts writes).flatMap Post.logs ++ (logbufferAfter writes).array = logsWritten writes ∧
      (∀ post ∈ logPosts writes, 1 ≤ post.logs.length ∧ post.logs.length ≤ logbufferMaxsize) ∧
      (((logPosts writes).filter Post.sent).flatMap Post.logs ++ (logbufferAfter writes).array =
          logsWritten writes ↔
        ∀ post ∈ logPosts writes, post.sent = true) := by
  obtain ⟨logs, short, posted⟩ := accounts_run writes
  refine ⟨logs, posted, ?_⟩
  rw [← logs, List.append_left_inj]
  apply flatMap_filter_eq_iff
  intro post member empty
  have bounds := posted post member
  rw [empty] at bounds
  exact absurd bounds.1 (by decide)

/-- The first log is posted at once, and lost if the post fails. -/
theorem not_sent_firstLog :
    ¬ (((logPosts [⟨{ logtime := 1700000000 }, false⟩]).filter Post.sent).flatMap Post.logs ++
        (logbufferAfter [⟨{ logtime := 1700000000 }, false⟩]).array =
      logsWritten [⟨{ logtime := 1700000000 }, false⟩]) := by
  intro same
  cases same

end Uwebfilter
