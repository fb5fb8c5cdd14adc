import Uwebfilter.DomainService

/-!
# Growth of `ttl`

`hitcount` has one row for each query that was recorded, and where `ttls-update`
runs once a day, no hit is looked at twice.  Over a whole run a `ttl` grows by at
most two seconds for each query about its name.
-/

namespace Uwebfilter

open CStrings QueryServer

/-! ## Hits -/

/-- The hit that an event leaves behind. -/
def ServiceEvent.recordedHit : ServiceEvent → Option Hit
  | .query now recorded _ _ body =>
      match bodyParser body with
      | none => none
      | some domain =>
          if recorded = true ∧ domain ≠ [] ∧ 0 ∉ domain then some ⟨domain, now⟩ else none
  | _ => none

def recordedHits (events : List ServiceEvent) : List Hit :=
  events.filterMap ServiceEvent.recordedHit

section Hits

variable {categories applications : List Int32} {service : DomainService}

theorem hitcount_step (event : ServiceEvent) :
    (serviceStep categories applications service event).1.db.hitcount =
      service.db.hitcount ++ event.recordedHit.toList := by
  cases event with
  | query now recorded answers lag body =>
      simp only [serviceStep, DomainService.queryPost, ServiceEvent.recordedHit]
      cases bodyParser body with
      | none => simp
      | some domain =>
          by_cases empty : domain = []
          · simp [empty]
          · simp only [if_neg empty, postgresUpdateDomainHitCount]
            split <;> simp
  | manage now command raisesAt =>
      simp [serviceStep, DomainService.manage, ServiceEvent.recordedHit]
  | select scraper arrive order =>
      simp [serviceStep, DomainService.select, ServiceEvent.recordedHit]
  | visit scraper https http prediction inserts =>
      simp only [serviceStep, ServiceEvent.recordedHit, Option.toList_none, List.append_nil]
      rcases visit_effect scraper https http prediction inserts with
        ⟨-, same⟩ | ⟨domain, rest, -, ⟨-, same⟩ | ⟨db, stored, same⟩⟩
      · rw [same]
      · rw [same]
      · rw [same]
        rcases settle_effect stored with ⟨-, rfl⟩ | ⟨-, rfl⟩ <;> rfl

variable (categories applications) in
/-- The rows of `hitcount` are the queries that were recorded, in order. -/
theorem hitcount_run (events : List ServiceEvent) :
    (serviceAfter categories applications events).db.hitcount = recordedHits events := by
  apply MachineRun.invariant (serviceStep categories applications) .initial
    fun events _ service => service.db.hitcount = recordedHits events
  · rfl
  · intro events event same
    rw [hitcount_step, same, recordedHits, recordedHits, List.filterMap_append]
    cases recorded : event.recordedHit <;> simp [recorded]

end Hits

/-! ## Daily updates -/

def ServiceEvent.updateTime : ServiceEvent → Option Int
  | .manage now (.ttlsUpdate _ _) _ => some now
  | _ => none

/-- The times at which `ttls-update` runs. -/
def updateTimes (events : List ServiceEvent) : List Int :=
  events.filterMap ServiceEvent.updateTime

/-- Each `ttls-update` runs a day after those before it at the earliest, and after
the hits that are recorded. -/
def Daily (events : List ServiceEvent) : Prop :=
  MachineRun.EveryInput (fun earlier event => ∀ now, event.updateTime = some now →
    (∀ time ∈ updateTimes earlier, time + intervalDay ≤ now) ∧
      ∀ hit ∈ recordedHits earlier, hit.datetime ≤ now) events

/-- The hits of a name up to the last update. -/
def usedHits (events : List ServiceEvent) (key : Bytes) : Nat :=
  (recordedHits events).countP fun hit =>
    decide (hit.domain = key ∧ ∃ time ∈ updateTimes events, hit.datetime ≤ time)

theorem countP_add_countP_le {α : Type} {first second whole : α → Bool} {list : List α}
    (apart : ∀ element ∈ list, first element = true → second element = false)
    (ofFirst : ∀ element ∈ list, first element = true → whole element = true)
    (ofSecond : ∀ element ∈ list, second element = true → whole element = true) :
    list.countP first + list.countP second ≤ list.countP whole := by
  induction list with
  | nil => simp
  | cons element list ih =>
      rw [List.forall_mem_cons] at apart ofFirst ofSecond
      have rest := ih apart.2 ofFirst.2 ofSecond.2
      rw [List.countP_cons, List.countP_cons, List.countP_cons]
      cases inFirst : first element with
      | true =>
          rw [apart.1 inFirst, ofFirst.1 inFirst]
          simp
          omega
      | false =>
          cases inSecond : second element with
          | true =>
              rw [ofSecond.1 inSecond]
              simp
              omega
          | false =>
              simp
              omega

theorem usedHits_snoc_le (events : List ServiceEvent) (event : ServiceEvent) (key : Bytes) :
    usedHits events key ≤ usedHits (events ++ [event]) key := by
  unfold usedHits recordedHits updateTimes
  rw [List.filterMap_append, List.filterMap_append, List.countP_append]
  apply Nat.le_add_right_of_le
  apply List.countP_mono_left
  intro hit _ used
  obtain ⟨same, time, member, before⟩ := of_decide_eq_true used
  exact decide_eq_true ⟨same, time, List.mem_append_left _ member, before⟩

theorem usedHits_le (events : List ServiceEvent) (key : Bytes) :
    usedHits events key ≤ hitCount (recordedHits events) key :=
  List.countP_mono_left fun _ _ used => decide_eq_true (of_decide_eq_true used).1

/-- The hits an update looks at have not been used before. -/
theorem usedHits_update {events : List ServiceEvent} {event : ServiceEvent} {now : Int}
    (daily : Daily (events ++ [event])) (updates : event.updateTime = some now) (key : Bytes) :
    usedHits events key + dayHits (recordedHits events) now key ≤
      usedHits (events ++ [event]) key := by
  obtain ⟨spaced, past⟩ := (MachineRun.everyInput_snoc.mp daily).2 now updates
  have times : now ∈ updateTimes (events ++ [event]) := by
    simp [updateTimes, updates]
  have kept : ∀ time ∈ updateTimes events, time ∈ updateTimes (events ++ [event]) := by
    intro time member
    rw [updateTimes, List.filterMap_append]
    exact List.mem_append_left _ member
  have unrecorded : recordedHits (events ++ [event]) = recordedHits events := by
    cases event with
    | manage time command raisesAt => simp [recordedHits, ServiceEvent.recordedHit]
    | query time recorded answers lag body => cases updates
    | select scraper arrive order => cases updates
    | visit scraper https http prediction inserts => cases updates
  unfold usedHits dayHits
  rw [unrecorded]
  apply countP_add_countP_le
  · intro hit _ used
    obtain ⟨-, time, member, before⟩ := of_decide_eq_true used
    have gap := spaced time member
    apply decide_eq_false
    rintro ⟨-, recent⟩
    omega
  · intro hit _ used
    obtain ⟨same, time, member, before⟩ := of_decide_eq_true used
    exact decide_eq_true ⟨same, time, kept time member, before⟩
  · intro hit inside recent
    exact decide_eq_true ⟨(of_decide_eq_true recent).1, now, times, past hit inside⟩

/-- Only an update looks at hits, those of the day before it. -/
theorem hits_cases (event : ServiceEvent) (hitcount : List Hit) (key : Bytes) :
    event.hits hitcount key = 0 ∨
      ∃ now, event.updateTime = some now ∧ event.hits hitcount key = dayHits hitcount now key := by
  cases event with
  | manage now command raisesAt =>
      cases command with
      | ttlsUpdate first second => exact .inr ⟨now, rfl, rfl⟩
      | domainAdd args => exact .inl rfl
      | domainDel domain => exact .inl rfl
      | dbDumpToRedis order => exact .inl rfl
  | query now recorded answers lag body => exact .inl rfl
  | select scraper arrive order => exact .inl rfl
  | visit scraper https http prediction inserts => exact .inl rfl

/-- An update raises by at most two seconds for each hit it is the first to use. -/
theorem extends_usedHits {events : List ServiceEvent} {event : ServiceEvent}
    (daily : Daily (events ++ [event])) :
    Extends (fun key seconds => seconds ≤ 2 * usedHits events key)
      (event.hits (recordedHits events))
      fun key seconds => seconds ≤ 2 * usedHits (events ++ [event]) key := by
  have wider : ∀ key seconds, seconds ≤ 2 * usedHits events key →
      seconds ≤ 2 * usedHits (events ++ [event]) key := by
    intro key seconds within
    have more := usedHits_snoc_le events event key
    omega
  refine ⟨fun _ => Nat.zero_le _, wider, fun key seconds within => ?_⟩
  have most := ttlIncrement_le (event.hits (recordedHits events) key)
  rcases hits_cases event (recordedHits events) key with idle | ⟨now, updates, same⟩
  · have kept := wider key seconds within
    omega
  · have unused := usedHits_update daily updates key
    omega

theorem Administered.wider {categories applications : List Int32}
    {Within Wider : Bytes → Nat → Prop} {events : List ServiceEvent} {service : DomainService}
    (administered : Administered categories applications Within events service)
    (wider : ∀ key seconds, Within key seconds → Wider key seconds) :
    Administered categories applications Wider events service := by
  constructor
  · intro key record found
    obtain ⟨base, seconds, added, raised, within⟩ := administered.domains key record found
    exact ⟨base, seconds, added, raised, wider key seconds within⟩
  · intro keys member key value held
    obtain ⟨record, dumps, base, seconds, added, raised, within⟩ :=
      administered.redis keys member key value held
    exact ⟨record, dumps, base, seconds, added, raised, wider key seconds within⟩

theorem usedHits_run (categories applications : List Int32) {events : List ServiceEvent}
    (daily : Daily events) :
    Administered categories applications (fun key seconds => seconds ≤ 2 * usedHits events key)
      events (serviceAfter categories applications events) := by
  induction events using List.reverseRecOn with
  | nil => exact administered_initial
  | append_singleton events event ih =>
      have limits := extends_usedHits daily
      rw [← hitcount_run categories applications events] at limits
      have before := ih (MachineRun.everyInput_snoc.mp daily).1
      have next := before.step event rfl limits
      simpa [serviceAfter] using next

/-- Where `ttls-update` runs daily at most, what the table has and Redis holds has
at most two seconds more in `ttl` than was added, for each recorded query about its
name. -/
theorem ttl_growth (categories applications : List Int32) {events : List ServiceEvent}
    (daily : Daily events) :
    Administered categories applications
      (fun key seconds => seconds ≤ 2 * hitCount (recordedHits events) key) events
      (serviceAfter categories applications events) := by
  apply (usedHits_run categories applications daily).wider
  intro key seconds within
  have used := usedHits_le events key
  omega

/-- Thirty queries about `b.c`, and an update of the next day. -/
def askedBc : List ServiceEvent :=
  addedBc ++ List.replicate 30 (.query 0 true true (fun _ => 0)
    (domainRequestToJsonObject (ascii ['b', '.', 'c'])))

def updateOfBc : ServiceEvent :=
  .manage 1 (.ttlsUpdate ⟨id, fun rows => .refl rows⟩ ⟨id, fun rows => .refl rows⟩) none

theorem daily_askedBc : Daily (askedBc ++ [updateOfBc]) := by
  have quiet : ∀ event ∈ askedBc, event.updateTime = none := by
    intro event member
    rcases List.mem_append.mp member with adds | asks
    · obtain rfl := List.mem_singleton.mp adds
      rfl
    · rw [List.eq_of_mem_replicate asks]
      rfl
  rw [Daily, MachineRun.everyInput_snoc]
  constructor
  · intro earlier event prior now updates
    rw [quiet event (prior.subset (by simp))] at updates
    cases updates
  · rintro now ⟨⟩
    constructor
    · intro time member
      obtain ⟨event, inside, updates⟩ := List.mem_filterMap.mp member
      rw [quiet event inside] at updates
      cases updates
    · decide

/-- The row of `b.c` has at most sixty seconds more than it was added with. -/
theorem ttl_growth_askedBc :
    ∃ record base seconds,
      (serviceAfter [0] [0] (askedBc ++ [updateOfBc])).db.domains.lookup (ascii ['b', '.', 'c']) =
        some record ∧
      Added [0] [0] (askedBc ++ [updateOfBc]) (ascii ['b', '.', 'c']) base ∧
      RaisedBy seconds base record ∧ seconds ≤ 60 := by
  obtain ⟨record, found⟩ : ∃ record,
      (serviceAfter [0] [0] (askedBc ++ [updateOfBc])).db.domains.lookup (ascii ['b', '.', 'c']) =
        some record := by
    apply Option.isSome_iff_exists.mp
    decide
  obtain ⟨base, seconds, added, raised, within⟩ :=
    (ttl_growth [0] [0] daily_askedBc).domains _ record found
  exact ⟨record, base, seconds, found, added, raised, within⟩

end Uwebfilter
