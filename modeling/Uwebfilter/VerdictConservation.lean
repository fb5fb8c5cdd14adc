import Uwebfilter.MachineRun
import Uwebfilter.PacketHandle
import Mathlib.Data.List.Nodup

/-!
# Conservation of verdicts

Ids received are either settled, that is given a verdict, or pending in a slot
of a cached flow.  Every handler exit keeps the two lists together a
permutation of the ids received, with two exceptions.  One frees a flow because
the packet at hand cannot be appended to it: that packet's own id gets neither.
The other is no exit: the handler of a query overruns a buffer before its verdict.
-/

namespace Uwebfilter

def settledIds (events : List Event) : List Nat := (verdicts events).map Prod.fst

@[simp] theorem settledIds_nil : settledIds [] = [] := rfl

@[simp] theorem settledIds_append (first second : List Event) :
    settledIds (first ++ second) = settledIds first ++ settledIds second := by
  simp [settledIds]

@[simp] theorem settledIds_tcpflowSetverdict (flow : Tcpflow) (verdict : Verdict) :
    settledIds (tcpflowSetverdict flow verdict) = flow.value.heldIds := by
  simp [settledIds, Function.comp_def]

/-- The ids in the slots of the cached flows. -/
def pendingIds (flows : List Tcpflow) : List Nat :=
  flows.flatMap fun flow => flow.value.heldIds

@[simp] theorem pendingIds_append (first second : List Tcpflow) :
    pendingIds (first ++ second) = pendingIds first ++ pendingIds second := by
  simp [pendingIds]

@[simp] theorem pendingIds_cons (flow : Tcpflow) (flows : List Tcpflow) :
    pendingIds (flow :: flows) = flow.value.heldIds ++ pendingIds flows := rfl

theorem pendingIds_perm {first second : List Tcpflow} (perm : first.Perm second) :
    (pendingIds first).Perm (pendingIds second) :=
  perm.flatMap_right _

/-- The packets of a cache are those of one flow and of the others. -/
theorem pendingIds_eraseIdx {flows : List Tcpflow} {position : Nat} {flow : Tcpflow}
    (present : flows[position]? = some flow) :
    (pendingIds flows).Perm (flow.value.heldIds ++ pendingIds (flows.eraseIdx position)) :=
  pendingIds_perm (HashTable.perm_cons_eraseIdx present)

def SlotsIntact (flows : List Tcpflow) : Prop :=
  ∀ flow ∈ flows, flow.value.ids.length = maxPacketCount

theorem slotsIntact_initial : SlotsIntact TcpflowCache.initial.cache := List.forall_mem_nil _

theorem heldIds_append {value grown : TcpflowValue} {id : Nat} {payload : Bytes}
    (slots : value.ids.length = maxPacketCount)
    (appended : tcpflowValueAppend value id payload = some grown) :
    grown.heldIds = value.heldIds ++ [id] := by
  obtain ⟨free, -, rfl⟩ := tcpflowValueAppend_eq_some appended
  have inside : value.index < value.ids.length := by omega
  have written : (value.ids.set value.index id)[value.index]? = some id :=
    List.getElem?_set_self inside
  simp [TcpflowValue.heldIds, List.take_add_one, written, List.take_set_of_le]

theorem slots_append {value grown : TcpflowValue} {id : Nat} {payload : Bytes}
    (slots : value.ids.length = maxPacketCount)
    (appended : tcpflowValueAppend value id payload = some grown) :
    grown.ids.length = maxPacketCount := by
  obtain ⟨-, -, rfl⟩ := tcpflowValueAppend_eq_some appended
  simpa using slots

theorem FreshFlow.heldIds {arrival : Arrival} {flow : Tcpflow}
    (fresh : FreshFlow arrival flow) : flow.value.heldIds = [arrival.packet.id] := by
  simp [TcpflowValue.heldIds, fresh.ids, fresh.index]

theorem FreshFlow.slots {arrival : Arrival} {flow : Tcpflow}
    (fresh : FreshFlow arrival flow) : flow.value.ids.length = maxPacketCount := by
  simp [fresh.ids, maxPacketCount]

/-- The collector settles what it removes. -/
theorem settled_rungc_perm (expiredTime : Int) (flows : List Tcpflow) :
    (settledIds (tcpflowRungcIter expiredTime flows).2 ++
      pendingIds (tcpflowRungcIter expiredTime flows).1).Perm (pendingIds flows) := by
  induction flows with
  | nil => exact List.Perm.refl _
  | cons flow rest ih =>
      by_cases expired : flow.timestamp < expiredTime
      · simp only [tcpflowRungcIter, expired, if_true, settledIds_append,
          settledIds_tcpflowSetverdict, pendingIds_cons, List.append_assoc]
        exact ih.append_left _
      · simp only [tcpflowRungcIter, expired, if_false, pendingIds_cons]
        exact (List.perm_append_comm_assoc _ _ _).trans (ih.append_left _)

theorem settled_insert_perm (flows : TcpflowCache) (flow : Tcpflow) (now : Int) :
    (settledIds (tcpflowInsert flows flow now).2 ++
      pendingIds (tcpflowInsert flows flow now).1.cache).Perm
        (pendingIds flows.cache ++ flow.value.heldIds) := by
  have whole : pendingIds (flows.cache ++ [flow]) =
      pendingIds flows.cache ++ flow.value.heldIds := by simp [pendingIds]
  by_cases due : flows.tcpflowLastGc < now - 60
  · rw [tcpflowInsert_of_due flow due, ← whole]
    exact settled_rungc_perm (now - 5) (flows.cache ++ [flow])
  · rw [tcpflowInsert_of_idle flow due]
    exact List.Perm.of_eq whole

theorem mem_insert_cache {flows : TcpflowCache} {flow other : Tcpflow} {now : Int}
    (member : other ∈ (tcpflowInsert flows flow now).1.cache) :
    other ∈ flows.cache ∨ other = flow := by
  by_cases due : flows.tcpflowLastGc < now - 60
  · rw [tcpflowInsert_of_due flow due, tcpflowRungcIter_fst] at member
    simpa using List.mem_of_mem_filter member
  · rw [tcpflowInsert_of_idle flow due] at member
    simpa using member

private theorem slide_perm (first middle last : List Nat) :
    (first ++ (middle ++ last)).Perm (first ++ last ++ middle) := by
  rw [List.append_assoc]
  exact List.perm_append_comm.append_left first

/-- One packet: what is settled and pending afterwards is what was pending and
the packet's id, unless the append failed or a buffer was overrun. -/
theorem effect_perm {flows after : TcpflowCache} {arrival : Arrival} {events : List Event}
    (intact : SlotsIntact flows.cache) (effect : FlowEffect flows arrival after events) :
    ∃ lost, (settledIds events ++ pendingIds after.cache ++ lost).Perm
        (pendingIds flows.cache ++ [arrival.packet.id]) ∧
      (lost = [] ↔ ¬ AppendFails flows arrival ∧ Event.overrun ∉ events) := by
  cases effect with
  | settled verdict events sent cause fits contained =>
      refine ⟨[], ?_, by simpa using ⟨fits, contained⟩⟩
      simpa [settledIds, sent] using
        (List.perm_append_singleton arrival.packet.id (pendingIds flows.cache)).symm
  | overran events query unsent fits overrun =>
      refine ⟨[arrival.packet.id], ?_, by simp [overrun]⟩
      rw [settledIds, unsent]
      exact List.Perm.refl _
  | held position flow value looksUp found appended incomplete =>
      have present := (HashTable.find_eq_some found).1
      have slots := intact flow (List.mem_of_getElem? present)
      have fits := not_appendFails_of_appended found appended
      refine ⟨[], ?_, by simpa using fits⟩
      have before := pendingIds_eraseIdx present
      have behind := pendingIds_perm
        (HashTable.set_perm_cons_eraseIdx { flow with value := value } present)
      rw [pendingIds_cons] at behind
      rw [heldIds_append slots appended, List.append_assoc] at behind
      simp only [settledIds_nil, List.nil_append, List.append_nil]
      calc
        (pendingIds (flows.cache.set position { flow with value := value })).Perm
            (flow.value.heldIds ++
              ([arrival.packet.id] ++ pendingIds (flows.cache.eraseIdx position))) := behind
        _ |>.Perm (flow.value.heldIds ++ pendingIds (flows.cache.eraseIdx position) ++
              [arrival.packet.id]) := slide_perm _ _ _
        _ |>.Perm (pendingIds flows.cache ++ [arrival.packet.id]) := before.symm.append_right _
  | completed position flow value verdict events looksUp found appended complete sent cause
      contained =>
      have present := (HashTable.find_eq_some found).1
      have slots := intact flow (List.mem_of_getElem? present)
      have fits := not_appendFails_of_appended found appended
      refine ⟨[], ?_, by simpa using ⟨fits, contained⟩⟩
      have before := pendingIds_eraseIdx present
      have settled : settledIds events = flow.value.heldIds ++ [arrival.packet.id] := by
        simp [settledIds, sent, heldIds_append slots appended, Function.comp_def]
      rw [settled, List.append_nil, List.append_assoc]
      exact (slide_perm _ _ _).trans (before.symm.append_right _)
  | refused position flow found fails =>
      have present := (HashTable.find_eq_some found).1
      refine ⟨[arrival.packet.id], ?_, by simp [fails]⟩
      have before := pendingIds_eraseIdx present
      rw [settledIds_tcpflowSetverdict]
      exact before.symm.append_right _
  | opened flow opens fresh =>
      have fits := not_appendFails_of_absent opens.2.1
      have contained := not_overrun_tcpflowInsert flows flow arrival.now
      refine ⟨[], ?_, by simpa using ⟨fits, contained⟩⟩
      simpa [fresh.heldIds] using settled_insert_perm flows flow arrival.now

theorem effect_slotsIntact {flows after : TcpflowCache} {arrival : Arrival}
    {events : List Event} (intact : SlotsIntact flows.cache)
    (effect : FlowEffect flows arrival after events) : SlotsIntact after.cache := by
  intro other member
  cases effect with
  | settled | overran => exact intact other member
  | held position flow value looksUp found appended incomplete =>
      rcases List.mem_or_eq_of_mem_set member with earlier | rfl
      · exact intact other earlier
      · have present := (HashTable.find_eq_some found).1
        exact slots_append (intact flow (List.mem_of_getElem? present)) appended
  | completed | refused => exact intact other (List.mem_of_mem_eraseIdx member)
  | opened flow opens fresh =>
      rcases mem_insert_cache member with earlier | rfl
      · exact intact other earlier
      · exact fresh.slots

/-! ## Runs -/

section Runs

variable {σ : Type} (checkAccess : CheckAccess σ) (access : σ)

/-- The packet is appended to its flow, if it has one, and overruns no buffer. -/
def KeepsId (daemon : Daemon σ) (arrival : Arrival) : Prop :=
  ¬ AppendFails daemon.flows arrival ∧ ¬ Overruns checkAccess daemon.access arrival

/-- Every packet of a run keeps its id. -/
def EveryIdKept (arrivals : List Arrival) : Prop :=
  MachineRun.EveryStep (packetHandle checkAccess) (daemonStart access) (KeepsId checkAccess)
    arrivals

/-- Over every run, received ids are settled, pending or lost, and ids are lost
exactly by failed appends and overruns. -/
theorem run_accounting (arrivals : List Arrival) :
    SlotsIntact (daemonAfter checkAccess access arrivals).flows.cache ∧
      ∃ lost, (settledIds (daemonEvents checkAccess access arrivals) ++
          pendingIds (daemonAfter checkAccess access arrivals).flows.cache ++ lost).Perm
            (arrivals.map fun arrival => arrival.packet.id) ∧
        (lost = [] ↔ EveryIdKept checkAccess access arrivals) := by
  refine MachineRun.invariant (packetHandle checkAccess) (daemonStart access)
    (fun inputs outs daemon => SlotsIntact daemon.flows.cache ∧
      ∃ lost, (settledIds outs.flatten ++ pendingIds daemon.flows.cache ++ lost).Perm
          (inputs.map fun arrival => arrival.packet.id) ∧
        (lost = [] ↔ EveryIdKept checkAccess access inputs)) ?_ ?_ arrivals
  · refine ⟨slotsIntact_initial, [], ?_, ?_⟩
    · simp [daemonStart, TcpflowCache.initial, pendingIds]
    · exact iff_of_true rfl (MachineRun.everyStep_nil _ _ _)
  · rintro inputs input ⟨intact, lost, accounted, lostIff⟩
    set daemon := MachineRun.after (packetHandle checkAccess) (daemonStart access) inputs
    have effect := packetHandle_effect checkAccess daemon input
    obtain ⟨lostNow, stepPerm, lostNowIff⟩ := effect_perm intact effect
    refine ⟨effect_slotsIntact intact effect, lost ++ lostNow, ?_, ?_⟩
    · set outs := MachineRun.outputs (packetHandle checkAccess) (daemonStart access) inputs
      set next := packetHandle checkAccess daemon input
      rw [List.flatten_append, List.map_append, settledIds_append]
      refine List.Perm.trans ?_ (accounted.append_right [input.packet.id])
      have counts := List.perm_iff_count.mp stepPerm
      rw [List.perm_iff_count]
      intro id
      have count := counts id
      simp only [List.count_append, List.flatten_cons, List.flatten_nil, List.append_nil]
        at count ⊢
      omega
    · rw [overrun_mem_iff] at lostNowIff
      rw [EveryIdKept, MachineRun.everyStep_snoc, List.append_eq_nil_iff, lostIff, lostNowIff,
        EveryIdKept, KeepsId]

/-- Every received id was given a verdict exactly once and sits in no slot, or
was given none and sits in exactly one slot. -/
def Conserved (arrivals : List Arrival) : Prop :=
  ∀ id ∈ arrivals.map fun arrival => arrival.packet.id,
    ((settledIds (daemonEvents checkAccess access arrivals)).count id = 1 ∧
        (pendingIds (daemonAfter checkAccess access arrivals).flows.cache).count id = 0) ∨
      ((settledIds (daemonEvents checkAccess access arrivals)).count id = 0 ∧
        (pendingIds (daemonAfter checkAccess access arrivals).flows.cache).count id = 1)

theorem conserved_iff_noLoss {arrivals : List Arrival}
    (distinct : (arrivals.map fun arrival => arrival.packet.id).Nodup) :
    Conserved checkAccess access arrivals ↔ EveryIdKept checkAccess access arrivals := by
  obtain ⟨-, lost, accounted, lostIff⟩ := run_accounting checkAccess access arrivals
  rw [← lostIff]
  have counts := List.perm_iff_count.mp accounted
  constructor
  · intro conserved
    by_contra nonempty
    obtain ⟨id, member⟩ := List.exists_mem_of_ne_nil lost nonempty
    have received : id ∈ arrivals.map fun arrival => arrival.packet.id :=
      accounted.subset (List.mem_append_right _ member)
    have once := List.count_eq_one_of_mem distinct received
    have occurs := List.count_pos_iff.mpr member
    have total := counts id
    have one := conserved id received
    simp only [List.count_append] at total
    omega
  · rintro rfl id received
    have once := List.count_eq_one_of_mem distinct received
    have total := counts id
    simp only [List.count_append, List.count_nil] at total
    omega

/-- Verdicts are conserved after each packet of a run exactly when every packet of
the run is appended to its flow, if it has one, and overruns no buffer. -/
theorem conserved_iff_everyIdKept (arrivals : List Arrival)
    (distinct : (arrivals.map fun arrival => arrival.packet.id).Nodup) :
    (∀ handled, handled <+: arrivals → Conserved checkAccess access handled) ↔
      EveryIdKept checkAccess access arrivals := by
  have distinctPrefix {handled : List Arrival} (prior : handled <+: arrivals) :
      (handled.map fun arrival => arrival.packet.id).Nodup :=
    (prior.sublist.map _).nodup distinct
  constructor
  · intro conserved
    exact (conserved_iff_noLoss checkAccess access distinct).mp
      (conserved arrivals List.prefix_rfl)
  · intro every handled prior
    refine (conserved_iff_noLoss checkAccess access (distinctPrefix prior)).mpr ?_
    exact fun earlier input inside => every earlier input (inside.trans prior)

end Runs

/-- A ClientHello of 5000 bytes begins on one connection and, after the
collector ran, on another, where eight more segments of ten bytes follow. -/
def fullFlowRun : List Arrival :=
  let opening : Bytes := [0x16, 3, 1, 0x13, 0x88, 1, 0, 0, 0, 0]
  (plainSegment 0 1000 opening :: plainSegment 1 1001 opening ::
    (List.range 8).map fun index => plainSegment (index + 2) 1001 (List.replicate 10 0)).map
      (plainArrival 1700000000)

def acceptAll : CheckAccess Unit := fun access _ _ _ => (.nfAccept, access)

/-- The ninth segment of the flow gets no verdict and no slot. -/
theorem not_conserved_fullFlow :
    (fullFlowRun.map fun arrival => arrival.packet.id).Nodup ∧
      ¬ Conserved acceptAll () fullFlowRun := by
  refine ⟨by decide, fun conserved => ?_⟩
  have ninth := conserved 9 (by decide)
  revert ninth
  decide +kernel

theorem conserved_iff_everyIdKept_fullFlow :
    (∀ handled, handled <+: fullFlowRun → Conserved acceptAll () handled) ↔
      EveryIdKept acceptAll () fullFlowRun :=
  conserved_iff_everyIdKept acceptAll () fullFlowRun (by decide)

end Uwebfilter
