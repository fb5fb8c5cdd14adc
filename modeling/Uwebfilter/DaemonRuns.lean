import Uwebfilter.AccessRuns
import Uwebfilter.DropCauses
import Uwebfilter.Segmentation

/-!
# The whole daemon

`packet_handle` with the `check_access` that it calls.  A packet is checked at
most once, and its verdict, the forged answer and the two logs follow that one
check.  Over every run the checks are a run of access checks.
-/

namespace Uwebfilter

open CStrings

/-! ## What packets ask -/

/-- The records checked, each with the verdict. -/
def checksMade (events : List Event) : List (Uwebfilterlog × Verdict) :=
  events.filterMap fun
    | .checkAccess log verdict => some (log, verdict)
    | _ => none

/-- The answers sent in the name of the server. -/
def answersForged (events : List Event) : List Event :=
  events.filter fun event => decide (event = .tcpRstSend ∨ event = .dnsAnswerSend)

@[simp] theorem checksMade_append (first second : List Event) :
    checksMade (first ++ second) = checksMade first ++ checksMade second :=
  List.filterMap_append

@[simp] theorem answersForged_append (first second : List Event) :
    answersForged (first ++ second) = answersForged first ++ answersForged second := by
  simp [answersForged]

/-- Nothing is checked and no answer is forged. -/
def Silent (events : List Event) : Prop := checksMade events = [] ∧ answersForged events = []

theorem silent_tcpflowSetverdict (flow : Tcpflow) (verdict : Verdict) :
    Silent (tcpflowSetverdict flow verdict) := by
  constructor
  · rw [checksMade, List.filterMap_eq_nil_iff]
    intro event member
    obtain ⟨id, -, rfl⟩ := List.mem_map.mp member
    rfl
  · rw [answersForged, List.filter_eq_nil_iff]
    intro event member
    obtain ⟨id, -, rfl⟩ := List.mem_map.mp member
    simp

theorem silent_flatMap {flows : List Tcpflow} {verdict : Verdict} :
    Silent (flows.flatMap fun flow => tcpflowSetverdict flow verdict) := by
  induction flows with
  | nil => exact ⟨rfl, rfl⟩
  | cons flow rest ih =>
      obtain ⟨checks, forged⟩ := silent_tcpflowSetverdict flow verdict
      exact ⟨by simp [checks, ih.1], by simp [forged, ih.2]⟩

theorem silent_tcpflowInsert (flows : TcpflowCache) (flow : Tcpflow) (now : Int) :
    Silent (tcpflowInsert flows flow now).2 := by
  by_cases due : flows.tcpflowLastGc < now - 60
  · rw [tcpflowInsert_of_due flow due, tcpflowRungcIter_snd]
    exact silent_flatMap
  · rw [tcpflowInsert_of_idle flow due]
    exact ⟨rfl, rfl⟩

/-- The packets that a check of a packet decides: itself, and those its flow
holds. -/
def Decides (flows : TcpflowCache) (arrival : Arrival) (id : Nat) : Prop :=
  id = arrival.packet.id ∨
    arrival.LooksUp ∧ ∃ position flow,
      tcpflowLookup arrival.choice flows arrival.key = some (position, flow) ∧
        id ∈ flow.value.heldIds

theorem decides_iff_of_unheld {flows : TcpflowCache} {arrival : Arrival}
    (unheld : arrival.LooksUp → tcpflowLookup arrival.choice flows arrival.key = none) {id : Nat} :
    Decides flows arrival id ↔ id = arrival.packet.id := by
  constructor
  · rintro (own | ⟨looksUp, position, flow, found, -⟩)
    · exact own
    · rw [unheld looksUp] at found
      cases found
  · exact .inl

theorem decides_iff_of_found {flows : TcpflowCache} {arrival : Arrival} {position : Nat}
    {flow : Tcpflow} {value : TcpflowValue} (looksUp : arrival.LooksUp)
    (found : tcpflowLookup arrival.choice flows arrival.key = some (position, flow))
    (grown : value.heldIds = flow.value.heldIds ++ [arrival.packet.id]) {id : Nat} :
    Decides flows arrival id ↔ id ∈ value.heldIds := by
  rw [grown, List.mem_append, List.mem_singleton]
  constructor
  · rintro (own | ⟨-, otherPosition, other, otherFound, held⟩)
    · exact .inr own
    · obtain ⟨rfl, rfl⟩ : position = otherPosition ∧ flow = other := by
        simpa [found] using otherFound
      exact .inl held
  · rintro (held | own)
    · exact .inr ⟨looksUp, position, flow, found, held⟩
    · exact .inl own

section Handling

variable {σ : Type} (checkAccess : CheckAccess σ)

/-- A packet's one check: verdicts are sent for the packets it decides, all of them
its own verdict, and an answer is forged exactly where it denies. -/
structure Asks (daemon : Daemon σ) (arrival : Arrival) (log : Uwebfilterlog) (answer : Event)
    (after : σ) (events : List Event) : Prop where
  after : after =
    (checkAccess daemon.access log arrival.packet.saddr arrival.packet.daddr).2
  checks : checksMade events =
    [(log, (checkAccess daemon.access log arrival.packet.saddr arrival.packet.daddr).1)]
  forged : answersForged events =
    if (checkAccess daemon.access log arrival.packet.saddr arrival.packet.daddr).1 = .nfDrop
    then [answer] else []
  verdicts : ∀ sent ∈ verdicts events,
    sent.2 = (checkAccess daemon.access log arrival.packet.saddr arrival.packet.daddr).1
  decided : ∀ id, id ∈ settledIds events ↔ Decides daemon.flows arrival id

/-- What the handling of a packet does with `check_access`. -/
inductive Consults (daemon : Daemon σ) (arrival : Arrival) (after : σ) (events : List Event) :
    Prop
  | silent (same : after = daemon.access) (silent : Silent events)
  | asked (log : Uwebfilterlog) (answer : Event) (record : RecordOf arrival.packet log)
      (kind : answer = .tcpRstSend ∨ answer = .dnsAnswerSend)
      (asks : Asks checkAccess daemon arrival log answer after events)

/-- What is sent once a verdict is there: the verdict for the packets it decides. -/
structure Sends (flows : TcpflowCache) (arrival : Arrival) (sends : Verdict → List Event) :
    Prop where
  silent : ∀ verdict, Silent (sends verdict)
  same : ∀ verdict, ∀ sent ∈ verdicts (sends verdict), sent.2 = verdict
  decided : ∀ verdict id, id ∈ settledIds (sends verdict) ↔ Decides flows arrival id

theorem sends_sendVerdict {flows : TcpflowCache} {arrival : Arrival}
    (unheld : arrival.LooksUp → tcpflowLookup arrival.choice flows arrival.key = none) :
    Sends flows arrival fun verdict => [.sendVerdict arrival.packet.id verdict] := by
  refine ⟨fun _ => ⟨rfl, rfl⟩, fun verdict sent member => ?_, fun verdict id => ?_⟩
  · rw [List.mem_singleton.mp member]
  · rw [decides_iff_of_unheld unheld]
    exact List.mem_singleton

theorem sends_tcpflowSetverdict {flows : TcpflowCache} {arrival : Arrival} {flow : Tcpflow}
    (held : ∀ id, Decides flows arrival id ↔ id ∈ flow.value.heldIds) :
    Sends flows arrival (tcpflowSetverdict flow) := by
  refine ⟨silent_tcpflowSetverdict flow, fun verdict sent member => ?_, fun verdict id => ?_⟩
  · rw [verdicts_tcpflowSetverdict, List.mem_map] at member
    obtain ⟨id, -, rfl⟩ := member
    rfl
  · rw [settledIds_tcpflowSetverdict, held]

theorem asks_checkAndAnswer {answer : Event} (kind : answer = .tcpRstSend ∨ answer = .dnsAnswerSend)
    {daemon : Daemon σ} {arrival : Arrival} (log : Uwebfilterlog) {before : List Event}
    {sends : Verdict → List Event} (silent : Silent before) (unsent : verdicts before = [])
    (sending : Sends daemon.flows arrival sends) :
    Asks checkAccess daemon arrival log answer
      (checkAndAnswer checkAccess answer daemon.access arrival.packet log).2.1
      (before ++ (checkAndAnswer checkAccess answer daemon.access arrival.packet log).2.2 ++
        sends (checkAndAnswer checkAccess answer daemon.access arrival.packet log).1) := by
  have quiet : verdicts [answer] = [] := by
    rcases kind with rfl | rfl <;> rfl
  have none : verdicts (checkAndAnswer checkAccess answer daemon.access arrival.packet log).2.2 =
      [] :=
    verdicts_checkAndAnswer checkAccess quiet daemon.access arrival.packet log
  constructor
  · rfl
  · rw [checksMade_append, checksMade_append, silent.1, (sending.silent _).1]
    simp only [checkAndAnswer]
    rcases kind with rfl | rfl <;> split <;> rfl
  · rw [answersForged_append, answersForged_append, silent.2, (sending.silent _).2]
    simp only [checkAndAnswer]
    rcases kind with rfl | rfl <;> split <;> rfl
  · rw [verdicts_append, verdicts_append, unsent, none]
    exact sending.same _
  · intro id
    rw [settledIds, verdicts_append, verdicts_append, unsent, none]
    exact sending.decided _ id

theorem consults_judgeSni {daemon : Daemon σ} {arrival : Arrival} (payload : Bytes)
    (name : Option Bytes) {sends : Verdict → List Event}
    (sending : Sends daemon.flows arrival sends) :
    Consults checkAccess daemon arrival
      (judgeSni checkAccess daemon.access arrival.packet (packetLog arrival.packet .tcp) name).2.1
      (.extractSni payload ::
        (judgeSni checkAccess daemon.access arrival.packet
          (packetLog arrival.packet .tcp) name).2.2 ++
        sends (judgeSni checkAccess daemon.access arrival.packet
          (packetLog arrival.packet .tcp) name).1) := by
  cases name with
  | none => exact .silent rfl ⟨(sending.silent _).1, (sending.silent _).2⟩
  | some domain =>
      refine .asked { packetLog arrival.packet .tcp with domain := domain } .tcpRstSend
        ⟨.tcp, domain, [], rfl⟩ (.inl rfl) ?_
      exact asks_checkAndAnswer checkAccess (.inl rfl) _
        (show Silent [.extractSni payload] from ⟨rfl, rfl⟩) rfl sending

theorem consults_accepted (daemon : Daemon σ) (arrival : Arrival) :
    Consults checkAccess daemon arrival daemon.access
      [.sendVerdict arrival.packet.id .nfAccept] :=
  .silent rfl ⟨rfl, rfl⟩

theorem consults_checked {answer : Event} (kind : answer = .tcpRstSend ∨ answer = .dnsAnswerSend)
    {daemon : Daemon σ} {arrival : Arrival} {log : Uwebfilterlog}
    (unheld : arrival.LooksUp → tcpflowLookup arrival.choice daemon.flows arrival.key = none)
    (record : RecordOf arrival.packet log) :
    Consults checkAccess daemon arrival
      (checkAndAnswer checkAccess answer daemon.access arrival.packet log).2.1
      ((checkAndAnswer checkAccess answer daemon.access arrival.packet log).2.2 ++
        [.sendVerdict arrival.packet.id
          (checkAndAnswer checkAccess answer daemon.access arrival.packet log).1]) :=
  .asked _ answer record kind
    (asks_checkAndAnswer checkAccess kind _ (show Silent [] from ⟨rfl, rfl⟩) rfl
      (sends_sendVerdict unheld))

theorem consults_pending {daemon : Daemon σ} {arrival : Arrival} {position : Nat} {flow : Tcpflow}
    (intact : SlotsIntact daemon.flows.cache) (looksUp : arrival.LooksUp)
    (found : tcpflowLookup arrival.choice daemon.flows arrival.key = some (position, flow)) :
    Consults checkAccess daemon arrival (packetHandle checkAccess daemon arrival).1.access
      (packetHandle checkAccess daemon arrival).2 := by
  cases appended : tcpflowValueAppend flow.value arrival.packet.id arrival.packet.tcpBytes with
  | none =>
      rw [packetHandle_of_refused checkAccess daemon looksUp found appended]
      exact .silent rfl (silent_tcpflowSetverdict flow .nfAccept)
  | some value =>
      by_cases complete : value.expected ≤ value.current
      · rw [packetHandle_of_complete checkAccess daemon looksUp found appended complete]
        have slots := intact flow (List.mem_of_getElem? (HashTable.find_eq_some found).1)
        have grown := heldIds_append slots appended
        exact consults_judgeSni checkAccess _ _ (sends_tcpflowSetverdict fun _ =>
          decides_iff_of_found looksUp found grown)
      · rw [packetHandle_of_incomplete checkAccess daemon looksUp found appended (by omega)]
        exact .silent rfl ⟨rfl, rfl⟩

theorem consults_fresh {daemon : Daemon σ} {arrival : Arrival} (looksUp : arrival.LooksUp)
    (absent : tcpflowLookup arrival.choice daemon.flows arrival.key = none) :
    Consults checkAccess daemon arrival (packetHandle checkAccess daemon arrival).1.access
      (packetHandle checkAccess daemon arrival).2 := by
  rw [packetHandle_of_looksUp checkAccess daemon looksUp, absent]
  simp only [packetHandleTcp443Fresh]
  split
  · exact consults_accepted checkAccess _ _
  split
  · exact consults_judgeSni checkAccess _ _ (sends_sendVerdict fun _ => absent)
  split
  · exact consults_accepted checkAccess _ _
  split
  · exact consults_accepted checkAccess _ _
  split
  · exact consults_accepted checkAccess _ _
  · exact .silent rfl (silent_tcpflowInsert _ _ _)

/-- A query whose handling overruns no buffer is checked once or not at all. -/
theorem consults_query {daemon : Daemon σ} {arrival : Arrival}
    (unheld : arrival.LooksUp → tcpflowLookup arrival.choice daemon.flows arrival.key = none)
    (contained : Event.overrun ∉
      (packetHandleUdp53 checkAccess daemon arrival (packetLog arrival.packet .udp)).2) :
    Consults checkAccess daemon arrival
      (packetHandleUdp53 checkAccess daemon arrival (packetLog arrival.packet .udp)).1.access
      (packetHandleUdp53 checkAccess daemon arrival (packetLog arrival.packet .udp)).2 := by
  have effect := packetHandleUdp53_effect checkAccess daemon arrival
    (packetLog arrival.packet .udp)
  generalize packetHandleUdp53 checkAccess daemon arrival (packetLog arrival.packet .udp) =
    outcome at effect contained ⊢
  cases effect with
  | overlong | overran => simp at contained
  | unasked => exact consults_accepted checkAccess _ _
  | checked => exact consults_checked checkAccess (.inr rfl) unheld ⟨.udp, _, _, rfl⟩

/-- A packet that overruns no buffer is checked at most once, as a record of its own. -/
theorem packetHandle_consults {daemon : Daemon σ} (intact : SlotsIntact daemon.flows.cache)
    {arrival : Arrival} (contained : Event.overrun ∉ (packetHandle checkAccess daemon arrival).2) :
    Consults checkAccess daemon arrival (packetHandle checkAccess daemon arrival).1.access
      (packetHandle checkAccess daemon arrival).2 := by
  by_cases looksUp : arrival.LooksUp
  · cases lookup : tcpflowLookup arrival.choice daemon.flows arrival.key with
    | none => exact consults_fresh checkAccess looksUp lookup
    | some entry => exact consults_pending checkAccess intact looksUp lookup
  have unheld : arrival.LooksUp →
      tcpflowLookup arrival.choice daemon.flows arrival.key = none := fun looks =>
    absurd looks looksUp
  by_cases query : arrival.IsQuery
  · rw [packetHandle_of_query checkAccess daemon query] at contained ⊢
    exact consults_query checkAccess unheld contained
  rcases packetHandle_of_other checkAccess daemon looksUp query with
    accepted | ⟨log, record, checked⟩
  · rw [accepted]
    exact consults_accepted checkAccess _ _
  · rw [checked]
    exact consults_checked checkAccess (.inl rfl) unheld record

end Handling

/-! ## The checks of a run -/

/-- What is behind `check_access` in the whole daemon: its state, what it came to
so far, what there is to read, and the fault that ended it. -/
structure Watch where
  state : AccessState
  checks : List Checked
  readings : Nat → AccessReading
  stopped : Option Fault

def Watch.start (readings : Nat → AccessReading) : Watch := ⟨.initial, [], readings, none⟩

/-- The `check_access` of the daemon.  After a fault there is no daemon. -/
def watchedCheck (jsonC : JsonC) (size : Nat) (config : Config) : CheckAccess Watch :=
  fun watch log saddr daddr =>
    match watch.stopped with
    | some _ => (.nfAccept, watch)
    | none =>
        match accessStep jsonC size config watch.state ⟨log, saddr, daddr, watch.readings 0⟩ with
        | .error fault => (.nfAccept, { watch with stopped := some fault })
        | .ok (state, checked) =>
            (checked.verdict,
              { state := state
                checks := watch.checks ++ [checked]
                readings := fun index => watch.readings (index + 1)
                stopped := none })

section Runs

variable (jsonC : JsonC) (size : Nat) (config : Config) (readings : Nat → AccessReading)

def watchedEvents (arrivals : List Arrival) : List Event :=
  daemonEvents (watchedCheck jsonC size config) (.start readings) arrivals

def watchAfter (arrivals : List Arrival) : Watch :=
  (daemonAfter (watchedCheck jsonC size config) (.start readings) arrivals).access

end Runs

/-- The logs the cloud was sent and is still to be sent. -/
def Watch.cloudLogs (watch : Watch) : List Json :=
  (watch.checks.flatMap fun checked => checked.posts.map CloudPost.post).flatMap Post.logs ++
    watch.state.logbuffer.array

/-- A reading is plain for every name that fits its buffer. -/
def PlainReading (reading : AccessReading) : Prop :=
  ∀ domain : Bytes, domain.length < domainLength →
    PlainCall ⟨reading.surroundings, ⟨0, 0⟩, domain⟩

/-- No handler overruns a buffer, and the names checked fit theirs. -/
structure Contained (events : List Event) : Prop where
  inside : Event.overrun ∉ events
  short : ∀ check ∈ checksMade events, (cString check.1.domain).length < domainLength

theorem Contained.of_append {first second : List Event} (contained : Contained (first ++ second)) :
    Contained first ∧ Contained second := by
  obtain ⟨inside, short⟩ := contained
  rw [List.mem_append, not_or] at inside
  rw [checksMade_append, List.forall_mem_append] at short
  exact ⟨⟨inside.1, short.1⟩, ⟨inside.2, short.2⟩⟩

/-- A call is of a record of one of some packets, with its addresses. -/
def CallOf (arrivals : List Arrival) (call : AccessCall) : Prop :=
  ∃ arrival ∈ arrivals, RecordOf arrival.packet call.log ∧
    call.saddr = arrival.packet.saddr ∧ call.daddr = arrival.packet.daddr

/-- The checks made in a run of the daemon are a run of access checks, which read
what there is to read in order. -/
structure Watches (size : Nat) (root : Json) (readings : Nat → AccessReading)
    (arrivals : List Arrival) (calls : List AccessCall) (events : List Event) (watch : Watch) :
    Prop where
  running : watch.stopped = none
  supervises : Supervises size root calls watch.checks watch.state
  made : checksMade events =
    (calls.zip watch.checks).map fun made => (made.1.log, made.2.verdict)
  read : ∀ index call, calls[index]? = some call → call.reading = readings index
  left : ∀ index, watch.readings index = readings (calls.length + index)
  called : ∀ call ∈ calls, CallOf arrivals call

section Watching

variable {jsonC : JsonC} {size : Nat} {config : Config} {root : Json}
variable {readings : Nat → AccessReading} {arrivals : List Arrival} {calls : List AccessCall}
variable {events more : List Event} {watch after : Watch} {arrival : Arrival}

theorem watches_start : Watches size root readings [] [] [] (Watch.start readings) where
  running := rfl
  supervises := ⟨arenaInvariant_initial size, List.forall_mem_nil _, MachineRun.eachAnswer_nil, rfl,
    accounts_run []⟩
  made := rfl
  read index call present := by simp at present
  left index := by simp [Watch.start]
  called := List.forall_mem_nil _

theorem Watches.silent (watches : Watches size root readings arrivals calls events watch)
    (silent : Silent more) :
    Watches size root readings (arrivals ++ [arrival]) calls (events ++ more) watch := by
  obtain ⟨running, supervises, made, read, left, called⟩ := watches
  refine ⟨running, supervises, ?_, read, left, fun call member => ?_⟩
  · rw [checksMade_append, silent.1, List.append_nil, made]
  · obtain ⟨source, inside, record⟩ := called call member
    exact ⟨source, List.mem_append_left _ inside, record⟩

/-- A packet that is checked adds a call to the run. -/
theorem Watches.asked (watches : Watches size root readings arrivals calls events watch)
    (implements : Implements config root) (plain : ∀ index, PlainReading (readings index))
    {flows : TcpflowCache} {log : Uwebfilterlog} {answer : Event}
    (record : RecordOf arrival.packet log) (short : (cString log.domain).length < domainLength)
    (asks : Asks (watchedCheck jsonC size config) ⟨flows, watch⟩ arrival log answer after more) :
    ∃ call, Watches size root readings (arrivals ++ [arrival]) (calls ++ [call]) (events ++ more)
      after := by
  obtain ⟨running, supervises, made, read, left, called⟩ := watches
  obtain ⟨sameAfter, checks, -, -, -⟩ := asks
  set call : AccessCall :=
    ⟨log, arrival.packet.saddr, arrival.packet.daddr, watch.readings 0⟩ with callEq
  have callPlain : PlainCall call.lookup := by
    have reading := plain (calls.length + 0) (cString log.domain) short
    rwa [← left 0] at reading
  obtain ⟨state, checked, stepped, supervisesAfter⟩ :=
    supervises.step jsonC implements callPlain
  have decided : watchedCheck jsonC size config watch log arrival.packet.saddr
      arrival.packet.daddr =
        (checked.verdict, ⟨state, watch.checks ++ [checked],
          fun index => watch.readings (index + 1), none⟩) := by
    simp only [watchedCheck, running, ← callEq, stepped]
  rw [decided] at sameAfter checks
  subst sameAfter
  refine ⟨call, rfl, supervisesAfter, ?_, ?_, ?_, ?_⟩
  · rw [checksMade_append, made, checks, List.zip_append supervises.justified.1.symm,
      List.map_append]
    rfl
  · intro index other present
    rcases Nat.lt_or_ge index calls.length with inside | behind
    · rw [List.getElem?_append_left inside] at present
      exact read index other present
    · rw [List.getElem?_append_right behind, List.getElem?_singleton] at present
      split at present
      · obtain rfl := Option.some.inj present
        have same : index = calls.length := by omega
        rw [same]
        exact left 0
      · cases present
  · intro index
    show watch.readings (index + 1) = _
    rw [left, List.length_append, List.length_singleton]
    congr 1
    omega
  · intro other member
    rcases List.mem_append.mp member with earlier | last
    · obtain ⟨source, inside, recordOther⟩ := called other earlier
      exact ⟨source, List.mem_append_left _ inside, recordOther⟩
    · rw [List.mem_singleton.mp last]
      exact ⟨arrival, by simp, record, rfl, rfl⟩

/-- The daemon's checks over every run, as long as the buffers hold what is written
to them. -/
theorem daemon_watches (implements : Implements config root)
    (plain : ∀ index, PlainReading (readings index)) (arrivals : List Arrival)
    (contained : Contained (watchedEvents jsonC size config readings arrivals)) :
    ∃ calls, Watches size root readings arrivals calls
      (watchedEvents jsonC size config readings arrivals)
      (watchAfter jsonC size config readings arrivals) := by
  refine (MachineRun.invariant (packetHandle (watchedCheck jsonC size config))
    (daemonStart (Watch.start readings))
    (fun inputs outs daemon => SlotsIntact daemon.flows.cache ∧
      (Contained outs.flatten →
        ∃ calls, Watches size root readings inputs calls outs.flatten daemon.access))
    ?_ ?_ arrivals).2 contained
  · exact ⟨slotsIntact_initial, fun _ => ⟨[], watches_start⟩⟩
  · rintro inputs input ⟨intact, watches⟩
    set daemon := MachineRun.after (packetHandle (watchedCheck jsonC size config))
      (daemonStart (Watch.start readings)) inputs
    have effect := packetHandle_effect (watchedCheck jsonC size config) daemon input
    refine ⟨effect_slotsIntact intact effect, fun contained => ?_⟩
    rw [List.flatten_append] at contained ⊢
    simp only [List.flatten_cons, List.flatten_nil, List.append_nil] at contained ⊢
    obtain ⟨before, now⟩ := contained.of_append
    obtain ⟨calls, held⟩ := watches before
    rcases packetHandle_consults (watchedCheck jsonC size config) intact now.inside with
      ⟨same, silent⟩ | ⟨log, answer, record, -, asks⟩
    · rw [same]
      exact ⟨calls, held.silent silent⟩
    · have fits : (cString log.domain).length < domainLength :=
        now.short (log, _) (by
          rw [asks.checks]
          exact List.mem_singleton_self _)
      obtain ⟨call, after⟩ := held.asked implements plain record fits asks
      exact ⟨calls ++ [call], after⟩

end Watching

/-! ## What a run of the daemon guarantees -/

/-- A well-formed document loads.  Whatever arrives, as long as what the servers
answer is plain and the buffers hold what is written to them, no assertion fails, the
checks are of records of the packets, and each follows the document about a response
whose source is a first lookup or a reply that is still good. -/
theorem daemon_justified (jsonC : JsonC) (size : Nat) {root : Json}
    (wellFormed : WellFormedConfig root) {readings : Nat → AccessReading}
    (plain : ∀ index, PlainReading (readings index)) :
    ∃ config, configLoad jsonC root = .ok config ∧ ∀ arrivals : List Arrival,
      Contained (watchedEvents jsonC size config readings arrivals) →
        (watchAfter jsonC size config readings arrivals).stopped = none ∧
          ∃ calls, checksMade (watchedEvents jsonC size config readings arrivals) =
              ((calls.zip (watchAfter jsonC size config readings arrivals).checks).map fun made =>
                (made.1.log, made.2.verdict)) ∧
            (∀ call ∈ calls, CallOf arrivals call) ∧
            (∀ index call, calls[index]? = some call → call.reading = readings index) ∧
            MachineRun.EachAnswer (Justified root) calls
              (watchAfter jsonC size config readings arrivals).checks := by
  obtain ⟨config, loaded, implements⟩ := configLoad_implements jsonC wellFormed
  refine ⟨config, loaded, fun arrivals contained => ?_⟩
  obtain ⟨calls, running, supervises, made, read, -, called⟩ :=
    daemon_watches implements plain arrivals contained
  exact ⟨running, calls, made, called, read, supervises.justified⟩

/-- The records of the checks are, in order and each once, in the posts to the
cloud or in the array; where the insertions succeed, the local table has the
same exactly where the clock reads an `int`. -/
theorem daemon_logged (jsonC : JsonC) (size : Nat) {root : Json}
    (wellFormed : WellFormedConfig root) {readings : Nat → AccessReading}
    (plain : ∀ index, PlainReading (readings index)) :
    ∃ config, configLoad jsonC root = .ok config ∧ ∀ arrivals : List Arrival,
      Contained (watchedEvents jsonC size config readings arrivals) →
        let watch := watchAfter jsonC size config readings arrivals
        watch.checks.map Checked.verdict =
            (checksMade (watchedEvents jsonC size config readings arrivals)).map Prod.snd ∧
          watch.cloudLogs =
            (watch.checks.map fun checked => uwebfilterlogToJsonObject checked.record) ∧
          ((∀ index < watch.checks.length, (readings index).inserted = true) →
            (watch.state.logs.map LogRow.toJson = watch.cloudLogs ↔
              ∀ index < watch.checks.length, -2147483648 ≤ (readings index).time ∧
                (readings index).time < 2147483648)) := by
  obtain ⟨config, loaded, implements⟩ := configLoad_implements jsonC wellFormed
  refine ⟨config, loaded, fun arrivals contained => ?_⟩
  obtain ⟨calls, -, supervises, made, read, -, -⟩ :=
    daemon_watches implements plain arrivals contained
  have length := supervises.justified.1
  refine ⟨?_, supervises.accounts.logs, fun inserted => ?_⟩
  · rw [made, List.map_map]
    conv_lhs => rw [← List.map_snd_zip length.le, List.map_map]
    rfl
  have each (condition : AccessReading → Prop) :
      (∀ call ∈ calls, condition call.reading) ↔
        ∀ index < (watchAfter jsonC size config readings arrivals).checks.length,
          condition (readings index) := by
    rw [length]
    constructor
    · intro all index inside
      rw [← read index calls[index] (by simp [inside])]
      exact all _ (List.getElem_mem inside)
    · intro all call member
      obtain ⟨index, inside, rfl⟩ := List.mem_iff_getElem.mp member
      rw [read index _ (by simp [inside])]
      exact all index inside
  have insertedCalls := (each fun reading => reading.inserted = true).mpr inserted
  exact (supervises.logs_agree_iff insertedCalls).trans
    (each fun reading => -2147483648 ≤ reading.time ∧ reading.time < 2147483648)

/-- Whatever `check_access` says, a packet that overruns no buffer is checked at most
once; what is dropped is dropped with a check that denies or with a flow the collector
removes; and a check that denies drops exactly the packet and all that its flow holds,
and sends one forged answer, which nothing else does. -/
theorem daemon_answers {σ : Type} (checkAccess : CheckAccess σ) (access : σ)
    (earlier : List Arrival) (arrival : Arrival)
    (contained : ¬ Overruns checkAccess (daemonAfter checkAccess access earlier).access arrival) :
    let daemon := daemonAfter checkAccess access earlier
    let events := (packetHandle checkAccess daemon arrival).2
    (checksMade events).length ≤ 1 ∧
      (∀ id, (id, Verdict.nfDrop) ∈ verdicts events →
        (∃ log, checksMade events = [(log, .nfDrop)]) ∨
          ∃ flow, id ∈ flow.value.heldIds ∧ Collected daemon.flows arrival flow) ∧
      (∀ log, checksMade events = [(log, .nfDrop)] →
        (∀ id, (id, Verdict.nfDrop) ∈ verdicts events ↔ Decides daemon.flows arrival id) ∧
          (∀ sent ∈ verdicts events, sent.2 = .nfDrop) ∧
          (answersForged events = [.tcpRstSend] ∨ answersForged events = [.dnsAnswerSend])) ∧
      ((∀ log, checksMade events ≠ [(log, .nfDrop)]) → answersForged events = []) := by
  intro daemon events
  have intact := (run_accounting checkAccess access earlier).1
  have effect := packetHandle_effect checkAccess daemon arrival
  rw [← overrun_mem_iff] at contained
  rcases packetHandle_consults checkAccess intact contained with
    ⟨-, checks, forged⟩ | ⟨log, answer, -, kind, -, checks, forged, sent, decided⟩
  · refine ⟨by simp [events, daemon, checks], fun id dropped => ?_, fun log made => ?_,
      fun _ => forged⟩
    · rcases effect_drop intact effect dropped with ⟨⟨log, denied⟩, -⟩ | collected
      · have made : (log, Verdict.nfDrop) ∈ checksMade events :=
          List.mem_filterMap.mpr ⟨_, denied, rfl⟩
        rw [show checksMade events = [] from checks] at made
        cases made
      · exact .inr collected
    · rw [show checksMade events = [] from checks] at made
      cases made
  · refine ⟨by simp [events, daemon, checks], fun id dropped => .inl ⟨log, ?_⟩,
      fun other made => ?_, fun undenied => ?_⟩
    · rw [show Verdict.nfDrop = _ from sent _ dropped]
      exact checks
    · obtain ⟨-, denied⟩ : log = other ∧ _ = Verdict.nfDrop := by
        simpa using checks.symm.trans made
      rw [denied] at sent forged
      refine ⟨fun id => ?_, sent, ?_⟩
      · rw [← decided id, settledIds, List.mem_map]
        constructor
        · exact fun dropped => ⟨_, dropped, rfl⟩
        · rintro ⟨⟨other, verdict⟩, member, rfl⟩
          obtain rfl : verdict = .nfDrop := sent _ member
          exact member
      rw [if_pos rfl] at forged
      rcases kind with rfl | rfl
      · exact .inl forged
      · exact .inr forged
    · have allowed : (checkAccess daemon.access log arrival.packet.saddr
          arrival.packet.daddr).1 ≠ .nfDrop := by
        intro denied
        rw [denied] at checks
        exact undenied log checks
      rw [if_neg allowed] at forged
      exact forged

/-- A captured DNS query for `a.b.c`. -/
def capturedLookup : PacketInfo where
  id := 0
  payload :=
    [0x45, 0, 0, 51, 0, 0, 0, 0, 64, 17, 0, 0, 10, 0, 0, 1, 10, 0, 0, 2] ++
      [0x10, 0, 0, 53, 0, 31, 0, 0] ++ [0, 1, 1, 0, 0, 1, 0, 0, 0, 0, 0, 0] ++
      [1, 97, 1, 98, 1, 99, 0] ++ [0, 1, 0, 1]
  payloadLength := 51

/-- No server answers. -/
def silentReading : AccessReading where
  surroundings :=
    { now := 1700000000
      choice := fun _ => 0
      fetch := none
      insertion := fun _ => ⟨1700000000, fun _ => 1⟩ }
  time := 1700000000
  inserted := true
  auth := ⟨1700000000, rfl, ⟨false, none⟩⟩
  sent := false

theorem plainReading_silentReading : PlainReading silentReading := by
  intro domain short
  have clock : timeT 1700000000 = 1700000000 := by decide
  exact ⟨clock, short, fun obj fetched => by cases fetched⟩

theorem contained_capturedLookup {config : Config}
    (loaded : configLoad plainJsonC sampleConfig = .ok config) :
    Contained (watchedEvents plainJsonC 8 config (fun _ => silentReading)
      [plainArrival 0 capturedLookup]) := by
  cases loaded
  exact ⟨by decide +kernel, by decide +kernel⟩

/-- The query is checked against the document with the answer `⟨0, 0⟩`. -/
theorem daemon_justified_capturedLookup :
    ∃ config, configLoad plainJsonC sampleConfig = .ok config ∧
      (watchAfter plainJsonC 8 config (fun _ => silentReading)
        [plainArrival 0 capturedLookup]).stopped = none ∧
      ∃ calls, MachineRun.EachAnswer (Justified sampleConfig) calls
        (watchAfter plainJsonC 8 config (fun _ => silentReading)
          [plainArrival 0 capturedLookup]).checks := by
  obtain ⟨config, loaded, justified⟩ :=
    daemon_justified plainJsonC 8 wellFormed_sampleConfig fun _ => plainReading_silentReading
  obtain ⟨running, calls, -, -, -, each⟩ := justified _ (contained_capturedLookup loaded)
  exact ⟨config, loaded, running, calls, each⟩

theorem daemon_logged_capturedLookup :
    ∃ config, configLoad plainJsonC sampleConfig = .ok config ∧
      (watchAfter plainJsonC 8 config (fun _ => silentReading)
          [plainArrival 0 capturedLookup]).state.logs.map LogRow.toJson =
        (watchAfter plainJsonC 8 config (fun _ => silentReading)
          [plainArrival 0 capturedLookup]).cloudLogs := by
  obtain ⟨config, loaded, logged⟩ :=
    daemon_logged plainJsonC 8 wellFormed_sampleConfig fun _ => plainReading_silentReading
  obtain ⟨-, -, agree⟩ := logged _ (contained_capturedLookup loaded)
  exact ⟨config, loaded, (agree fun _ _ => rfl).mpr fun _ _ => ⟨by decide, by decide⟩⟩

/-- The two segments of a record whose name is denied. -/
def firstSegment : Arrival := plainArrival 0 (plainSegment 1 1000 (smallHello.record.take 20))

def lastSegment : Arrival := plainArrival 0 (plainSegment 2 1000 (smallHello.record.drop 20))

/-- The first segment waits for the last. -/
theorem decides_firstSegment :
    Decides (daemonAfter denyAll () [firstSegment]).flows lastSegment 1 := by
  have looked := (Option.any_eq_true (fun entry => entry.2.value.heldIds.contains 1)
    (tcpflowLookup 0 (daemonAfter denyAll () [firstSegment]).flows lastSegment.key)).mp
      (by decide +kernel)
  obtain ⟨⟨position, flow⟩, found, held⟩ := looked
  exact .inr ⟨⟨by decide, by decide, by decide⟩, position, flow, found,
    List.contains_iff_mem.mp held⟩

theorem not_overruns_lastSegment :
    ¬ Overruns denyAll (daemonAfter denyAll () [firstSegment]).access lastSegment :=
  fun overruns => absurd overruns.1.1 (by decide)

/-- Both segments are dropped, and the connection is reset. -/
theorem daemon_answers_lastSegment :
    let events := (packetHandle denyAll (daemonAfter denyAll () [firstSegment]) lastSegment).2
    (1, Verdict.nfDrop) ∈ verdicts events ∧ (2, Verdict.nfDrop) ∈ verdicts events ∧
      ∃ answer, answersForged events = [answer] := by
  obtain ⟨-, -, denied, -⟩ :=
    daemon_answers denyAll () [firstSegment] lastSegment not_overruns_lastSegment
  have made : checksMade (packetHandle denyAll (daemonAfter denyAll () [firstSegment])
      lastSegment).2 =
      [({ packetLog lastSegment.packet .tcp with domain := ascii ['a', '.', 'b'] }, .nfDrop)] := by
    decide +kernel
  obtain ⟨dropped, -, answered⟩ := denied _ made
  exact ⟨(dropped 1).mpr decides_firstSegment, (dropped 2).mpr (.inl rfl),
    answered.elim (fun sent => ⟨_, sent⟩) fun sent => ⟨_, sent⟩⟩

end Uwebfilter
