import Uwebfilter.DomainLookup
import Uwebfilter.MachineRun

/-!
# The authorization header of the cloud log

`authheader_get` keeps a header for six hours.  A reply of the auth endpoint
counts as a token whenever it is a JSON value, so the header holds the token the
endpoint issued in every run whose replies have a whole one, and in no other.
-/

namespace Uwebfilter

open CStrings

/-! ## The code -/

def authheaderLength : Nat := 8191

def authheaderTtl : Int := 21600

def keyToken : Bytes := ascii ['t', 'o', 'k', 'e', 'n']

/-- `Authorization: Bearer ` -/
def bearer : Bytes :=
  ascii ['A', 'u', 't', 'h', 'o', 'r', 'i', 'z', 'a', 't', 'i', 'o', 'n', ':', ' ',
    'B', 'e', 'a', 'r', 'e', 'r', ' ']

/-- What `%s` prints for `NULL`. -/
def nullText : Bytes := ascii ['(', 'n', 'u', 'l', 'l', ')']

/-- The static variables `authheader` and `authheader_timestamp`. -/
structure Authheader where
  buffer : Bytes
  timestamp : Int

def authheaderInit : Authheader := ⟨List.replicate (authheaderLength + 1) 0, 0⟩

/-- What `jwttoken_get_cloud` returns, and the object it leaves behind. -/
structure AuthReply where
  performed : Bool
  obj : Option Json

/-- A call of `authheader_get` at a time, and the reply of the endpoint if it is
asked. -/
structure AuthCall where
  now : Int
  clock : timeT now = now
  reply : AuthReply

/-- The header that is returned, and whether the endpoint was asked. -/
structure AuthResult where
  header : Bytes
  asked : Bool

/-- `snprintf` with a text that has been formatted: as much of it as leaves room
for a zero is written, and its length returned. -/
def snprintf (buffer : Bytes) (size : Nat) (text : Bytes) : Bytes × Int :=
  (overwrite buffer 0 (text.take (size - 1) ++ [0]), text.length)

section Code

variable (jsonC : JsonC)

def jwttokenGet (buffer : Bytes) (reply : AuthReply) : Bytes × Int :=
  match reply.performed, reply.obj.bind Json.nonNull with
  | true, some obj =>
      let token := (obj.objectGet keyToken).map jsonC.getString
      snprintf buffer authheaderLength (bearer ++ (token.map cString).getD nullText)
  | _, _ => (buffer, -1)

def authheaderGet (authheader : Authheader) (call : AuthCall) : Authheader × AuthResult :=
  if timeT (authheader.timestamp + authheaderTtl) < call.now then
    let cleared := overwrite authheader.buffer 0 (List.replicate authheaderLength 0)
    let (buffer, returned) := jwttokenGet jsonC cleared call.reply
    if returned < 0 then (⟨buffer, authheader.timestamp⟩, ⟨cString buffer, true⟩)
    else (⟨buffer, call.now⟩, ⟨cString buffer, true⟩)
  else (authheader, ⟨cString authheader.buffer, false⟩)

def authheaderAfter (calls : List AuthCall) : Authheader :=
  MachineRun.after (authheaderGet jsonC) authheaderInit calls

end Code

/-! ## Tokens -/

/-- The JSON value the endpoint has answered with. -/
def AuthReply.answer (reply : AuthReply) : Option Json :=
  if reply.performed then reply.obj.bind Json.nonNull else none

/-- The token the endpoint has issued. -/
def AuthReply.token (reply : AuthReply) : Option Bytes :=
  reply.answer.bind fun obj =>
    match obj.objectGet keyToken with
    | some (.string token) => some token
    | _ => none

section Runs

variable (jsonC : JsonC)

/-- The calls of a run that asked the endpoint, and that it answered. -/
def answeredCalls (calls : List AuthCall) : List AuthCall :=
  ((calls.zip (MachineRun.outputs (authheaderGet jsonC) authheaderInit calls)).filter
    fun made => made.2.asked && made.1.reply.answer.isSome).map Prod.fst

/-- A call after some others returns no header, or the whole token the endpoint
issued at the latest refresh, which is young enough; and the timestamp changes
only in a call that stores such a header. -/
structure ReturnsRealToken (earlier : List AuthCall) (call : AuthCall) : Prop where
  header : (authheaderGet jsonC (authheaderAfter jsonC earlier) call).2.header = [] ∨
    ∃ refresh token, (answeredCalls jsonC (earlier ++ [call])).getLast? = some refresh ∧
      refresh.reply.token = some token ∧
      (authheaderGet jsonC (authheaderAfter jsonC earlier) call).2.header = bearer ++ token ∧
      refresh.now ≤ call.now ∧ call.now ≤ refresh.now + authheaderTtl
  timestamp : (authheaderGet jsonC (authheaderAfter jsonC earlier) call).1.timestamp ≠
      (authheaderAfter jsonC earlier).timestamp →
    ∃ token, call.reply.token = some token ∧
      (authheaderGet jsonC (authheaderAfter jsonC earlier) call).2.header = bearer ++ token

/-- In a run every call returns no header or a real token. -/
def CachesRealTokens (calls : List AuthCall) : Prop :=
  ∀ earlier call, earlier ++ [call] <+: calls → ReturnsRealToken jsonC earlier call

/-- The endpoint is asked. -/
def Refreshes (authheader : Authheader) (call : AuthCall) : Prop :=
  timeT (authheader.timestamp + authheaderTtl) < call.now

instance (authheader : Authheader) (call : AuthCall) : Decidable (Refreshes authheader call) :=
  inferInstanceAs (Decidable (_ < _))

/-- A reply with a JSON value has a token that the buffer holds whole. -/
def IssuesWholeToken (reply : AuthReply) : Prop :=
  ∀ obj, reply.answer = some obj →
    ∃ token, obj.objectGet keyToken = some (.string token) ∧ 0 ∉ token ∧ token.length ≤ 8168

/-! ## One call -/

/-- The header that is made of an answer. -/
def headerOf (obj : Json) : Bytes :=
  (bearer ++ (((obj.objectGet keyToken).map jsonC.getString).map cString).getD nullText).take 8190

variable {authheader : Authheader} {call : AuthCall} {obj : Json}

theorem nulFree_headerOf : 0 ∉ headerOf jsonC obj := by
  intro member
  rcases List.mem_append.mp (List.mem_of_mem_take member) with inBearer | inToken
  · revert inBearer
    decide
  · cases found : obj.objectGet keyToken with
    | none =>
        rw [found] at inToken
        have inNull : 0 ∈ nullText := inToken
        revert inNull
        decide
    | some token =>
        rw [found] at inToken
        exact cString_nulFree _ inToken

variable {jsonC}

theorem headerOf_ne_nil : headerOf jsonC obj ≠ [] := by
  simp [headerOf, bearer, ascii]

/-- Only a whole token that fits is printed as it is. -/
theorem headerOf_eq_iff {token : Bytes} (member : obj.objectGet keyToken = some (.string token)) :
    headerOf jsonC obj = bearer ++ token ↔ 0 ∉ token ∧ token.length ≤ 8168 := by
  have length : bearer.length = 22 := by decide
  constructor
  · intro same
    constructor
    · intro zero
      apply nulFree_headerOf jsonC
      rw [same]
      exact List.mem_append_right _ zero
    · have short := congrArg List.length same
      rw [headerOf, List.length_take, List.length_append, List.length_append, length] at short
      omega
  · rintro ⟨nulFree, short⟩
    rw [headerOf, member]
    simp only [Option.map_some, Option.getD_some, jsonC.getString_of_nulFree nulFree,
      cString_of_nulFree nulFree]
    apply List.take_of_length_le
    rw [List.length_append, length]
    omega

theorem authheaderGet_of_not (kept : ¬ Refreshes authheader call) :
    authheaderGet jsonC authheader call = (authheader, ⟨cString authheader.buffer, false⟩) :=
  if_neg kept

theorem jwttokenGet_of_unanswered (buffer : Bytes) {reply : AuthReply}
    (unanswered : reply.answer = none) : jwttokenGet jsonC buffer reply = (buffer, -1) := by
  obtain ⟨performed, answer⟩ := reply
  cases performed with
  | false => rfl
  | true =>
      have nothing : answer.bind Json.nonNull = none := unanswered
      simp [jwttokenGet, nothing]

theorem jwttokenGet_of_answered (buffer : Bytes) {reply : AuthReply}
    (answered : reply.answer = some obj) :
    ∃ returned, 0 ≤ returned ∧
      jwttokenGet jsonC buffer reply =
        (overwrite buffer 0 (headerOf jsonC obj ++ [0]), returned) := by
  obtain ⟨performed, answer⟩ := reply
  cases performed with
  | false => cases answered
  | true =>
      have value : answer.bind Json.nonNull = some obj := answered
      simp only [jwttokenGet, value, snprintf]
      exact ⟨_, Int.natCast_nonneg _, rfl⟩

variable (jsonC)

/-- A refresh without an answer clears the header. -/
theorem authheaderGet_of_unanswered (refreshes : Refreshes authheader call)
    (unanswered : call.reply.answer = none) :
    ∃ buffer, cString buffer = [] ∧
      authheaderGet jsonC authheader call = (⟨buffer, authheader.timestamp⟩, ⟨[], true⟩) := by
  have due : timeT (authheader.timestamp + authheaderTtl) < call.now := refreshes
  have cleared : cString (overwrite authheader.buffer 0
      (List.replicate authheaderLength 0)) = [] := rfl
  refine ⟨_, cleared, ?_⟩
  rw [authheaderGet, if_pos due]
  simp only [jwttokenGet_of_unanswered _ unanswered, cleared]
  rfl

/-- A refresh with an answer stores what is made of it. -/
theorem authheaderGet_of_answered (refreshes : Refreshes authheader call)
    (answered : call.reply.answer = some obj) :
    ∃ buffer, cString buffer = headerOf jsonC obj ∧
      authheaderGet jsonC authheader call =
        (⟨buffer, call.now⟩, ⟨headerOf jsonC obj, true⟩) := by
  have due : timeT (authheader.timestamp + authheaderTtl) < call.now := refreshes
  obtain ⟨returned, stored, made⟩ : ∃ returned, _ ∧ jwttokenGet jsonC _ call.reply = _ :=
    jwttokenGet_of_answered (overwrite authheader.buffer 0 (List.replicate authheaderLength 0))
      answered
  have header : cString (overwrite (overwrite authheader.buffer 0
      (List.replicate authheaderLength 0)) 0 (headerOf jsonC obj ++ [0])) =
        headerOf jsonC obj := by
    rw [overwrite, List.take_zero, List.nil_append, List.append_assoc, List.singleton_append]
    exact cString_append_zero (nulFree_headerOf jsonC) _
  refine ⟨_, header, ?_⟩
  rw [authheaderGet, if_pos due]
  simp only [made, if_neg (Int.not_lt.mpr stored), header]

/-! ## Runs -/

variable {jsonC} {calls : List AuthCall}

theorem answeredCalls_snoc : answeredCalls jsonC (calls ++ [call]) =
    answeredCalls jsonC calls ++
      if (authheaderGet jsonC (authheaderAfter jsonC calls) call).2.asked &&
        call.reply.answer.isSome then [call] else [] := by
  rw [answeredCalls, MachineRun.outputs_append, MachineRun.outputs_singleton,
    List.zip_append (MachineRun.outputs_length _ _ _).symm, List.filter_append, List.map_append]
  congr 1
  simp only [List.zip_cons_cons, List.zip_nil_right, List.filter_singleton, authheaderAfter]
  rw [Bool.cond_eq_ite, apply_ite (List.map Prod.fst)]
  rfl

theorem answeredCalls_subset : answeredCalls jsonC calls ⊆ calls := by
  intro call member
  obtain ⟨made, kept, rfl⟩ := List.mem_map.mp member
  exact (List.of_mem_zip (List.mem_of_mem_filter kept)).1

theorem authheaderAfter_snoc : authheaderAfter jsonC (calls ++ [call]) =
    (authheaderGet jsonC (authheaderAfter jsonC calls) call).1 := by
  simp [authheaderAfter]

variable (jsonC) in
/-- The buffer is empty, or holds the whole token of the latest refresh, which
was made at the timestamp. -/
structure TracksToken (calls : List AuthCall) (authheader : Authheader) : Prop where
  clock : timeT authheader.timestamp = authheader.timestamp
  held : cString authheader.buffer = [] ∨
    ∃ refresh token, (answeredCalls jsonC calls).getLast? = some refresh ∧
      refresh.reply.token = some token ∧ cString authheader.buffer = bearer ++ token ∧
      refresh.now = authheader.timestamp

theorem token_eq_some_iff {reply : AuthReply} {token : Bytes} (answered : reply.answer = some obj) :
    reply.token = some token ↔ obj.objectGet keyToken = some (.string token) := by
  rw [AuthReply.token, answered, Option.bind_some]
  split
  · rename_i found same
    simp [same]
  · rename_i other
    simp only [reduceCtorEq, false_iff]
    exact other token

/-- What a call leaves behind when its answer, if any, has a whole token. -/
theorem TracksToken.step (tracks : TracksToken jsonC calls (authheaderAfter jsonC calls))
    (whole : Refreshes (authheaderAfter jsonC calls) call → IssuesWholeToken call.reply) :
    TracksToken jsonC (calls ++ [call]) (authheaderAfter jsonC (calls ++ [call])) := by
  rw [authheaderAfter_snoc]
  by_cases refreshes : Refreshes (authheaderAfter jsonC calls) call
  · cases answered : call.reply.answer with
    | none =>
        obtain ⟨buffer, empty, made⟩ := authheaderGet_of_unanswered jsonC refreshes answered
        rw [made]
        exact ⟨tracks.clock, .inl empty⟩
    | some obj =>
        obtain ⟨buffer, header, made⟩ := authheaderGet_of_answered jsonC refreshes answered
        obtain ⟨token, member, fits⟩ := whole refreshes obj answered
        rw [made]
        have issued := (token_eq_some_iff answered).mpr member
        refine ⟨call.clock, .inr ⟨call, token, ?_, issued, ?_, rfl⟩⟩
        · rw [answeredCalls_snoc, made, answered]
          simp
        · exact header.trans ((headerOf_eq_iff member).mpr fits)
  · have made : authheaderGet jsonC _ call = _ := authheaderGet_of_not refreshes
    rw [made]
    refine ⟨tracks.clock, ?_⟩
    rw [answeredCalls_snoc, made]
    simpa using tracks.held

theorem tracksToken_run (jsonC : JsonC) (calls : List AuthCall)
    (whole : MachineRun.EveryStep (authheaderGet jsonC) authheaderInit
      (fun authheader call => Refreshes authheader call → IssuesWholeToken call.reply) calls) :
    TracksToken jsonC calls (authheaderAfter jsonC calls) := by
  induction calls using List.reverseRecOn with
  | nil => exact ⟨show timeT 0 = 0 by decide, .inl rfl⟩
  | append_singleton calls call ih =>
      rw [MachineRun.everyStep_snoc] at whole
      exact (ih whole.1).step whole.2

/-- A call that does not ask the endpoint returns the token it has. -/
theorem TracksToken.returns_kept (tracks : TracksToken jsonC calls (authheaderAfter jsonC calls))
    (later : ∀ earlier ∈ calls, earlier.now ≤ call.now)
    (kept : ¬ Refreshes (authheaderAfter jsonC calls) call) :
    ReturnsRealToken jsonC calls call := by
  have made : authheaderGet jsonC _ call = _ := authheaderGet_of_not kept
  constructor
  · rw [made]
    rcases tracks.held with empty | ⟨refresh, token, latest, issued, header, time⟩
    · exact .inl empty
    · refine .inr ⟨refresh, token, ?_, issued, header, ?_, ?_⟩
      · rw [answeredCalls_snoc, made]
        simpa using latest
      · exact later refresh (answeredCalls_subset (List.mem_of_getLast? latest))
      · have young : call.now ≤ timeT ((authheaderAfter jsonC calls).timestamp + authheaderTtl) :=
          Int.not_lt.mp kept
        have bound := timeT_le tracks.clock (show 0 ≤ authheaderTtl by decide)
        rw [time]
        omega
  · intro changed
    exact absurd (congrArg (·.1.timestamp) made) changed

/-- A call that asks the endpoint returns a real token exactly where the answer,
if any, has a whole one. -/
theorem returnsRealToken_iff_of_refreshes
    (refreshes : Refreshes (authheaderAfter jsonC calls) call) :
    ReturnsRealToken jsonC calls call ↔ IssuesWholeToken call.reply := by
  cases answered : call.reply.answer with
  | none =>
      obtain ⟨buffer, empty, made⟩ := authheaderGet_of_unanswered jsonC refreshes answered
      apply iff_of_true
      · constructor
        · rw [made]
          exact .inl rfl
        · intro changed
          exact absurd (congrArg (·.1.timestamp) made) changed
      · intro obj some
        rw [answered] at some
        cases some
  | some obj =>
      obtain ⟨buffer, stored, made⟩ := authheaderGet_of_answered jsonC refreshes answered
      have latest : (answeredCalls jsonC (calls ++ [call])).getLast? = some call := by
        rw [answeredCalls_snoc, made, answered]
        simp
      constructor
      · intro returns other otherAnswered
        obtain rfl := Option.some.inj (answered.symm.trans otherAnswered)
        rcases returns.header with empty | ⟨refresh, token, last, issued, header, -, -⟩
        · rw [made] at empty
          exact absurd empty headerOf_ne_nil
        · obtain rfl := Option.some.inj (latest.symm.trans last)
          have member := (token_eq_some_iff answered).mp issued
          rw [made] at header
          exact ⟨token, member, (headerOf_eq_iff member).mp header⟩
      · intro whole
        obtain ⟨token, member, fits⟩ := whole obj answered
        have issued := (token_eq_some_iff answered).mpr member
        have header : headerOf jsonC obj = bearer ++ token := (headerOf_eq_iff member).mpr fits
        constructor
        · rw [made]
          refine .inr ⟨call, token, latest, issued, header, Int.le_refl _, ?_⟩
          have positive : 0 ≤ authheaderTtl := by decide
          omega
        · intro changed
          rw [made]
          exact ⟨token, issued, header⟩

variable (jsonC)

/-- In every run at times that do not decrease, the header is always a real token
exactly where every refresh that is answered issues a whole one. -/
theorem cachesRealTokens_iff (calls : List AuthCall)
    (times : (calls.map AuthCall.now).Pairwise (· ≤ ·)) :
    CachesRealTokens jsonC calls ↔
      MachineRun.EveryStep (authheaderGet jsonC) authheaderInit
        (fun authheader call => Refreshes authheader call → IssuesWholeToken call.reply) calls := by
  constructor
  · intro caches earlier call prior refreshes
    exact (returnsRealToken_iff_of_refreshes refreshes).mp (caches earlier call prior)
  · intro whole earlier call prior
    by_cases refreshes : Refreshes (authheaderAfter jsonC earlier) call
    · exact (returnsRealToken_iff_of_refreshes refreshes).mpr (whole earlier call prior refreshes)
    · have tracks := tracksToken_run jsonC earlier
        (whole.of_prefix _ _ ((List.prefix_append _ _).trans prior))
      apply tracks.returns_kept _ refreshes
      have sorted := times.sublist (prior.sublist.map _)
      rw [List.map_append, List.pairwise_append] at sorted
      intro other member
      exact sorted.2.2 _ (List.mem_map_of_mem member) _ (by simp)

end Runs

/-- A reply at a time when the header has expired. -/
def callAt (now : Int) (clock : timeT now = now) (obj : Json) : AuthCall :=
  ⟨now, clock, ⟨true, some obj⟩⟩

def issuingCall (now : Int) (clock : timeT now = now) (token : Bytes) : AuthCall :=
  callAt now clock (.object [(keyToken, .string token)])

theorem issuesWholeToken_issuingCall {now : Int} {clock : timeT now = now} {token : Bytes}
    (nulFree : 0 ∉ token) (short : token.length ≤ 8168) :
    IssuesWholeToken (issuingCall now clock token).reply := by
  intro obj answered
  obtain rfl := Option.some.inj answered
  exact ⟨token, rfl, nulFree, short⟩

/-- A header is issued, kept while the endpoint would not issue one, and renewed. -/
def issuedCalls : List AuthCall :=
  [issuingCall 50000 (by decide) [116]] ++ [callAt 60000 (by decide) (.object [])] ++
    [issuingCall 80000 (by decide) [117]]

theorem cachesRealTokens_iff_issued :
    CachesRealTokens plainJsonC issuedCalls ∧
      (MachineRun.outputs (authheaderGet plainJsonC) authheaderInit issuedCalls).map
        AuthResult.asked = [true, false, true] := by
  refine ⟨?_, by decide +kernel⟩
  rw [cachesRealTokens_iff plainJsonC _ (by decide)]
  unfold issuedCalls
  rw [MachineRun.everyStep_snoc, MachineRun.everyStep_snoc]
  refine ⟨⟨MachineRun.everyStep_singleton _ _ fun _ => ?_, fun refreshes => ?_⟩, fun _ => ?_⟩
  · exact issuesWholeToken_issuingCall (by decide) (by decide)
  · -- the first header is still good
    exact absurd refreshes (by decide +kernel)
  · exact issuesWholeToken_issuingCall (by decide) (by decide)

/-- A reply without a token is kept as the header of `(null)`. -/
theorem not_cachesRealTokens_emptyObject :
    ¬ CachesRealTokens plainJsonC [callAt 50000 (by decide) (.object [])] := by
  intro caches
  have refreshes : Refreshes (authheaderAfter plainJsonC [])
      (callAt 50000 (by decide) (.object [])) := by
    decide
  have returns := caches [] _ List.prefix_rfl
  obtain ⟨token, member, -⟩ := (returnsRealToken_iff_of_refreshes refreshes).mp returns _ rfl
  cases member

end Uwebfilter
