import Uwebfilter.VerdictConservation

/-!
# Causes of drops

A packet is dropped because `check_access` denied it or because the collector
removed the flow that held it.  `tcpflow_create` does not set the timestamp the
collector compares, so the collector, when it runs, removes every flow, the one
just inserted included.
-/

namespace Uwebfilter

/-- The packet opens a flow and its insertion runs the collector, at a time
past the first five seconds of the clock. -/
def CollectorRuns (flows : TcpflowCache) (arrival : Arrival) : Prop :=
  Opens flows arrival ∧ flows.tcpflowLastGc < arrival.now - 60 ∧ 5 < arrival.now

/-- The collector removes a flow at the insertion of the one a packet opens. -/
def Collected (flows : TcpflowCache) (arrival : Arrival) (flow : Tcpflow) : Prop :=
  Opens flows arrival ∧ flows.tcpflowLastGc < arrival.now - 60 ∧
    flow.timestamp < arrival.now - 5 ∧ (flow ∈ flows.cache ∨ FreshFlow arrival flow)

theorem mem_drops_rungc {expiredTime : Int} {flows : List Tcpflow} {id : Nat} :
    (id, Verdict.nfDrop) ∈ verdicts (tcpflowRungcIter expiredTime flows).2 ↔
      ∃ flow ∈ flows, flow.timestamp < expiredTime ∧ id ∈ flow.value.heldIds := by
  induction flows with
  | nil => simp [tcpflowRungcIter]
  | cons flow rest ih =>
      by_cases expired : flow.timestamp < expiredTime <;>
        simp [tcpflowRungcIter, expired, ih]

theorem mem_drops_insert {flows : TcpflowCache} {flow : Tcpflow} {now : Int} {id : Nat} :
    (id, Verdict.nfDrop) ∈ verdicts (tcpflowInsert flows flow now).2 ↔
      flows.tcpflowLastGc < now - 60 ∧
        ∃ other ∈ flows.cache ++ [flow], other.timestamp < now - 5 ∧ id ∈ other.value.heldIds := by
  by_cases due : flows.tcpflowLastGc < now - 60
  · rw [tcpflowInsert_of_due flow due, mem_drops_rungc]
    simp [due]
  · rw [tcpflowInsert_of_idle flow due]
    simp [due]

/-- The packet with this id or the packet that completes the flow holding it is
the one at hand. -/
def SettledBy (flows : TcpflowCache) (arrival : Arrival) (id : Nat) : Prop :=
  id = arrival.packet.id ∨
    ∃ position flow, tcpflowLookup arrival.choice flows arrival.key = some (position, flow) ∧
      id ∈ flow.value.heldIds

/-- One packet: what it drops was denied or collected. -/
theorem effect_drop {flows after : TcpflowCache} {arrival : Arrival} {events : List Event}
    {id : Nat} (intact : SlotsIntact flows.cache) (effect : FlowEffect flows arrival after events)
    (dropped : (id, Verdict.nfDrop) ∈ verdicts events) :
    (DeniedBy events ∧ SettledBy flows arrival id) ∨
      ∃ flow, id ∈ flow.value.heldIds ∧ Collected flows arrival flow := by
  cases effect with
  | settled verdict events sent cause fits =>
      left
      obtain ⟨rfl, denied⟩ : id = arrival.packet.id ∧ Verdict.nfDrop = verdict := by
        simpa [sent] using dropped
      exact ⟨cause denied.symm, .inl rfl⟩
  | overran events query unsent => simp [unsent] at dropped
  | held => simp at dropped
  | completed position flow value verdict events looksUp found appended complete sent cause =>
      left
      have slots := intact flow (List.mem_of_getElem? (HashTable.find_eq_some found).1)
      rw [sent, heldIds_append slots appended, List.mem_map] at dropped
      obtain ⟨held, member, equal⟩ := dropped
      obtain ⟨rfl, denied⟩ : held = id ∧ verdict = .nfDrop := by simpa using equal
      refine ⟨cause denied, ?_⟩
      rcases List.mem_append.mp member with earlier | last
      · exact .inr ⟨position, flow, found, earlier⟩
      · exact .inl (List.mem_singleton.mp last)
  | refused position flow found fails => simp at dropped
  | opened flow opens fresh =>
      right
      obtain ⟨due, other, member, expired, held⟩ := mem_drops_insert.mp dropped
      refine ⟨other, held, opens, due, expired, ?_⟩
      rcases List.mem_append.mp member with earlier | last
      · exact .inl earlier
      · rw [List.mem_singleton.mp last]
        exact .inr fresh

def Unstamped (flows : List Tcpflow) : Prop := ∀ flow ∈ flows, flow.timestamp = 0

theorem effect_unstamped {flows after : TcpflowCache} {arrival : Arrival} {events : List Event}
    (unstamped : Unstamped flows.cache) (effect : FlowEffect flows arrival after events) :
    Unstamped after.cache := by
  intro other member
  cases effect with
  | settled | overran => exact unstamped other member
  | held position flow value looksUp found appended incomplete =>
      rcases List.mem_or_eq_of_mem_set member with earlier | rfl
      · exact unstamped other earlier
      · exact unstamped flow (List.mem_of_getElem? (HashTable.find_eq_some found).1)
  | completed | refused => exact unstamped other (List.mem_of_mem_eraseIdx member)
  | opened flow opens fresh =>
      rcases mem_insert_cache member with earlier | rfl
      · exact unstamped other earlier
      · exact fresh.timestamp

theorem collectorRuns_of_collected {flows : TcpflowCache} {arrival : Arrival} {flow : Tcpflow}
    (unstamped : Unstamped flows.cache) (collected : Collected flows arrival flow) :
    CollectorRuns flows arrival := by
  obtain ⟨opens, due, expired, origin⟩ := collected
  have zero : flow.timestamp = 0 := origin.elim (unstamped flow) FreshFlow.timestamp
  exact ⟨opens, due, by omega⟩

/-! ## Runs -/

section Runs

variable {σ : Type} (checkAccess : CheckAccess σ) (access : σ)

theorem run_unstamped (arrivals : List Arrival) :
    Unstamped (daemonAfter checkAccess access arrivals).flows.cache := by
  refine MachineRun.invariant (packetHandle checkAccess) (daemonStart access)
    (fun _ _ daemon => Unstamped daemon.flows.cache) ?_ ?_ arrivals
  · simp [Unstamped, daemonStart, TcpflowCache.initial]
  · intro inputs input ih
    exact effect_unstamped ih (packetHandle_effect checkAccess _ input)

/-- The flow was opened at a time by the packet in its first slot. -/
def CreatedAt (arrivals : List Arrival) (flow : Tcpflow) (time : Int) : Prop :=
  ∃ earlier opener, earlier ++ [opener] <+: arrivals ∧
    Opens (daemonAfter checkAccess access earlier).flows opener ∧
      flow.value.heldIds.head? = some opener.packet.id ∧ opener.now = time

/-- What is dropped was denied by `check_access` for the packet with its id or
for the one that completed its flow, or was collected with its flow more than
five seconds after the flow's creation. -/
def DropsForCause (arrivals : List Arrival) : Prop :=
  ∀ earlier arrival, earlier ++ [arrival] <+: arrivals →
    let daemon := daemonAfter checkAccess access earlier
    let events := (packetHandle checkAccess daemon arrival).2
    ∀ id, (id, Verdict.nfDrop) ∈ verdicts events →
      (DeniedBy events ∧ SettledBy daemon.flows arrival id) ∨
        ∃ flow created, id ∈ flow.value.heldIds ∧ Collected daemon.flows arrival flow ∧
          CreatedAt checkAccess access (earlier ++ [arrival]) flow created ∧
            created + 5 < arrival.now

theorem dropsForCause_of_idle {arrivals : List Arrival}
    (idle : EveryArrival checkAccess access
      (fun flows arrival => ¬ CollectorRuns flows arrival) arrivals) :
    DropsForCause checkAccess access arrivals := by
  intro earlier arrival prior daemon events id dropped
  have intact := (run_accounting checkAccess access earlier).1
  have effect := packetHandle_effect checkAccess daemon arrival
  rcases effect_drop intact effect dropped with denied | ⟨flow, -, collected⟩
  · exact .inl denied
  · have unstamped := run_unstamped checkAccess access earlier
    exact absurd (collectorRuns_of_collected unstamped collected) (idle earlier arrival prior)

theorem not_deniedBy_insert {flows : TcpflowCache} {flow : Tcpflow} {now : Int} :
    ¬ DeniedBy (tcpflowInsert flows flow now).2 := by
  rintro ⟨log, member⟩
  by_cases due : flows.tcpflowLastGc < now - 60
  · rw [tcpflowInsert_of_due flow due, tcpflowRungcIter_snd, List.mem_flatMap] at member
    obtain ⟨other, -, sent⟩ := member
    simp [tcpflowSetverdict] at sent
  · simp [tcpflowInsert_of_idle flow due] at member

theorem not_pending_of_new {earlier : List Arrival} {arrival : Arrival}
    (distinct : ((earlier ++ [arrival]).map fun arrival => arrival.packet.id).Nodup)
    {flow : Tcpflow} (member : flow ∈ (daemonAfter checkAccess access earlier).flows.cache) :
    arrival.packet.id ∉ flow.value.heldIds := by
  intro held
  obtain ⟨-, lost, accounted, -⟩ := run_accounting checkAccess access earlier
  have pending : arrival.packet.id ∈
      pendingIds (daemonAfter checkAccess access earlier).flows.cache :=
    List.mem_flatMap.mpr ⟨flow, member, held⟩
  have received : arrival.packet.id ∈ earlier.map fun arrival => arrival.packet.id :=
    accounted.subset (List.mem_append_left _ (List.mem_append_right _ pending))
  rw [List.map_append, List.nodup_append] at distinct
  exact distinct.2.2 _ received _ (by simp) rfl

/-- A packet that makes the collector run is dropped with the flow it opens, at
the flow's creation. -/
theorem idle_of_dropsForCause {arrivals : List Arrival}
    (distinct : (arrivals.map fun arrival => arrival.packet.id).Nodup)
    (causes : DropsForCause checkAccess access arrivals) :
    EveryArrival checkAccess access
      (fun flows arrival => ¬ CollectorRuns flows arrival) arrivals := by
  intro earlier arrival prior ⟨opens, due, late⟩
  have distinctHere := (prior.sublist.map fun arrival => arrival.packet.id).nodup distinct
  obtain ⟨flow, fresh, handled⟩ := packetHandle_of_opens checkAccess
    (daemonAfter checkAccess access earlier) opens
  have dropped : (arrival.packet.id, Verdict.nfDrop) ∈ verdicts
      (packetHandle checkAccess (daemonAfter checkAccess access earlier) arrival).2 := by
    rw [handled, mem_drops_insert]
    refine ⟨due, flow, by simp, ?_, by simp [fresh.heldIds]⟩
    rw [fresh.timestamp]
    omega
  rcases causes earlier arrival prior _ dropped with
    ⟨denied, -⟩ | ⟨other, created, held, collected, createdAt, old⟩
  · rw [handled] at denied
    exact not_deniedBy_insert denied
  · obtain ⟨before, opener, priorOpener, -, first, rfl⟩ := createdAt
    have freshOther : FreshFlow arrival other := by
      rcases collected.2.2.2 with cached | fresh
      · exact absurd held (not_pending_of_new checkAccess access distinctHere cached)
      · exact fresh
    have sameId : arrival.packet.id = opener.packet.id := by
      simpa [freshOther.heldIds] using first
    have openerMember : opener ∈ earlier ++ [arrival] := priorOpener.subset (by simp)
    have same : opener = arrival :=
      List.inj_on_of_nodup_map distinctHere openerMember (by simp) sameId.symm
    rw [same] at old
    omega

/-- Packets of a run are dropped only for cause exactly when the collector
never runs. -/
theorem dropsForCause_iff_collectorIdle (arrivals : List Arrival)
    (distinct : (arrivals.map fun arrival => arrival.packet.id).Nodup) :
    DropsForCause checkAccess access arrivals ↔
      EveryArrival checkAccess access
        (fun flows arrival => ¬ CollectorRuns flows arrival) arrivals :=
  ⟨idle_of_dropsForCause checkAccess access distinct, dropsForCause_of_idle checkAccess access⟩

end Runs

def youngFlowRun : List Arrival :=
  [plainArrival 1700000000 (plainSegment 0 1000 [0x16, 3, 1, 0, 30, 1, 0, 0, 0, 0])]

/-- The daemon's first flow is dropped in the second it was created. -/
theorem not_dropsForCause_youngFlow :
    (0, Verdict.nfDrop) ∈ verdicts (daemonEvents acceptAll () youngFlowRun) ∧
      ¬ DropsForCause acceptAll () youngFlowRun := by
  refine ⟨by decide +kernel, fun causes => ?_⟩
  have idle := idle_of_dropsForCause acceptAll () (by decide) causes
  refine idle [] _ List.prefix_rfl ⟨?_, by decide, by decide⟩
  exact ⟨⟨by decide, by decide, by decide⟩, by decide, by decide, by decide, by decide, by decide,
    by decide⟩

theorem dropsForCause_iff_collectorIdle_youngFlow :
    DropsForCause acceptAll () youngFlowRun ↔
      EveryArrival acceptAll () (fun flows arrival => ¬ CollectorRuns flows arrival)
        youngFlowRun :=
  dropsForCause_iff_collectorIdle acceptAll () youngFlowRun (by decide)

end Uwebfilter
