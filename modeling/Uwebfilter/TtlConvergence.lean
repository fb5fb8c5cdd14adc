import Mathlib.Dynamics.FixedPoints.Basic
import Mathlib.Order.Iterate
import Uwebfilter.DomainMirror

/-!
# Convergence of the daily `ttl` update

`ttls_update` for any number of clients, applied once a day to a domain that
each client asks for again the moment its entry expires.  The update adds whole
minutes while a client still asks at least thirty times a day, and then no more.
-/

namespace Uwebfilter

open CStrings QueryServer TransactionScript

/-! ## Days -/

/-- One day: the observed hits, and how the update of that day goes. -/
structure Day where
  hits : Bytes → Nat
  first : RowOrder
  second : RowOrder
  raisesAt : Option Nat

/-- The update of a day, and whether it completed. -/
def dailyUpdate (clients : Nat) (stores : Stores) (day : Day) : Stores × Bool :=
  outcome (ttlsUpdate clients day.hits day.first day.second) day.raisesAt stores.1 stores.2

def ttlAt (domain : Bytes) (stores : Stores) : Option Nat :=
  (stores.1.lookup domain).map fun record => record.ttl.toInt.toNat

/-- The hits of a domain that each client asks for the moment its entry expires. -/
def expiryHits (clients ttl : Nat) : Nat := clients * (86400 / ttl)

/-- The `ttl` after the update of such a day. -/
def nextTtl (clients ttl : Nat) : Nat := ttl + ttlIncrement clients (expiryHits clients ttl)

/-- Each client asks for the domain the moment its entry expires. -/
def AskedAtExpiry (clients : Nat) (domain : Bytes) (stores : Stores) (day : Day) : Prop :=
  ∀ ttl ∈ ttlAt domain stores, day.hits domain = expiryHits clients ttl

/-! ## Growth by steps -/

section Growth

variable {step : Nat → Nat} {bound gap : Nat}

/-- A map that moves only what is at most `bound`, up by at least `gap`, has
either come to rest or gained `gap` at each application. -/
theorem iterate_rests_or_grows (rests : ∀ value, bound < value → step value = value)
    (grows : ∀ value, 0 < value → value ≤ bound → value + gap ≤ step value) {start : Nat}
    (positive : 0 < start) (count : Nat) :
    bound < step^[count] start ∨ start + gap * count ≤ step^[count] start := by
  induction count with
  | zero => exact Or.inr (by simp)
  | succ count ih =>
      rw [Function.iterate_succ_apply']
      rcases ih with above | grown
      · left
        rwa [rests _ above]
      · rcases Nat.lt_or_ge bound (step^[count] start) with above | below
        · left
          rwa [rests _ above]
        · right
          have again := grows _ (by omega) below
          rw [Nat.mul_succ]
          omega

theorem isFixedPt_iterate (rests : ∀ value, bound < value → step value = value)
    (grows : ∀ value, 0 < value → value ≤ bound → value + gap ≤ step value) {start count : Nat}
    (positive : 0 < start) (enough : bound ≤ gap * count) :
    Function.IsFixedPt step (step^[count] start) := by
  apply rests
  rcases iterate_rests_or_grows rests grows positive count with above | grown
  · exact above
  · omega

end Growth

/-! ## The daily step -/

section NextTtl

variable {clients ttl : Nat}

theorem nextTtl_eq (served : 0 < clients) : nextTtl clients ttl = ttl + 60 * (2880 / ttl) := by
  have minutes : clients * (86400 / ttl) / (30 * clients) = 2880 / ttl := by
    calc clients * (86400 / ttl) / (30 * clients)
      _ = clients * (86400 / ttl) / (clients * 30) := by rw [Nat.mul_comm 30]
      _ = 86400 / ttl / 30 := Nat.mul_div_mul_left _ _ served
      _ = 86400 / 30 / ttl := Nat.div_right_comm _ _ _
  rw [nextTtl, expiryHits, ttlIncrement, minutes, Nat.mul_comm]

theorem nextTtl_of_lt (served : 0 < clients) (above : 2880 < ttl) : nextTtl clients ttl = ttl := by
  rw [nextTtl_eq served, Nat.div_eq_of_lt above]
  rfl

theorem le_nextTtl_of_le (served : 0 < clients) (positive : 0 < ttl) (below : ttl ≤ 2880) :
    ttl + 60 ≤ nextTtl clients ttl := by
  have minute : 0 < 2880 / ttl := Nat.div_pos below positive
  rw [nextTtl_eq served]
  omega

theorem isFixedPt_nextTtl (served : 0 < clients) (positive : 0 < ttl) :
    Function.IsFixedPt (nextTtl clients) ttl ↔ 2880 < ttl := by
  constructor
  · intro rests
    by_contra below
    have grown := le_nextTtl_of_le served positive (by omega)
    rw [rests.eq] at grown
    omega
  · exact nextTtl_of_lt served

/-- A `ttl` above 2880 leaves fewer than thirty queries for a client and day. -/
theorem lt_thirty_iff (positive : 0 < ttl) : 86400 / ttl < 30 ↔ 2880 < ttl := by
  rw [Nat.div_lt_iff_lt_mul positive]
  omega

theorem nextTtl_monotone : Monotone fun days => (nextTtl clients)^[days] ttl :=
  fun _ _ le => Function.monotone_iterate_of_id_le (fun ttl => Nat.le_add_right ttl _) le ttl

theorem nextTtl_rests (served : 0 < clients) (positive : 0 < ttl) :
    Function.IsFixedPt (nextTtl clients) ((nextTtl clients)^[48] ttl) :=
  isFixedPt_iterate (fun _ => nextTtl_of_lt served) (fun _ => le_nextTtl_of_le served) positive
    (Nat.le_refl 2880)

end NextTtl

/-! ## Runs of days -/

section Days

variable {clients : Nat} {domain : Bytes}

theorem Raised.ttlAt {hits : Bytes → Nat} {before after : Domains}
    (raised : Raised clients hits before.entries before after) (redis others : RedisKeys) :
    ttlAt domain (after, others) =
      (ttlAt domain (before, redis)).map (· + ttlIncrement clients (hits domain)) := by
  simp only [Uwebfilter.ttlAt]
  by_cases due : domain ∈ (dueRows clients hits before.entries).map Sigma.fst
  · obtain ⟨row, inDue, rfl⟩ := List.mem_map.mp due
    obtain ⟨record, found, ttl⟩ := raised.due row inDue
    have inBefore : before.lookup row.1 = some row.2 :=
      AList.mem_lookup_iff.mpr ((mem_dueRows clients hits).mp inDue).1
    have positive := row.2.positive
    simp only [found, inBefore, Option.map_some, Option.some.injEq]
    omega
  · rw [raised.others _ due]
    cases found : before.lookup domain with
    | none => rfl
    | some record =>
        have inEntries : (⟨domain, record⟩ : DomainRow) ∈ before.entries :=
          AList.mem_lookup_iff.mp found
        have kept : ¬ 0 < ttlIncrement clients (hits domain) := fun positive =>
          due (List.mem_map.mpr ⟨_, (mem_dueRows clients hits).mpr ⟨inEntries, positive⟩, rfl⟩)
        simp only [Option.map_some, Option.some.injEq]
        omega

/-- The step of a day that the update completes. -/
theorem ttlAt_dailyUpdate {stores : Stores} {day : Day}
    (asked : AskedAtExpiry clients domain stores day)
    (completed : (dailyUpdate clients stores day).2 = true) :
    ttlAt domain (dailyUpdate clients stores day).1 =
      (ttlAt domain stores).map (nextTtl clients) := by
  have raised := raised_of_completed completed
  have after : ttlAt domain (dailyUpdate clients stores day).1 = _ :=
    raised.ttlAt stores.2 _
  rw [after]
  cases found : ttlAt domain stores with
  | none => simp
  | some ttl => simp [nextTtl, asked ttl found]

/-- The `ttl` after a run of days. -/
theorem ttlAt_after (stores : Stores) (days : List Day)
    (asked : MachineRun.EveryStep (dailyUpdate clients) stores (AskedAtExpiry clients domain) days)
    (completed : MachineRun.EveryStep (dailyUpdate clients) stores
      (fun stores day => (dailyUpdate clients stores day).2 = true) days) :
    ttlAt domain (MachineRun.after (dailyUpdate clients) stores days) =
      (ttlAt domain stores).map (nextTtl clients)^[days.length] := by
  induction days using List.reverseRecOn with
  | nil => simp
  | append_singleton days day ih =>
      rw [MachineRun.everyStep_snoc] at asked completed
      rw [MachineRun.after_append, MachineRun.after_cons, MachineRun.after_nil,
        ttlAt_dailyUpdate asked.2 completed.2, ih asked.1 completed.1, Option.map_map,
        List.length_append, List.length_singleton, Function.iterate_succ']

/-- For any number of clients the `ttl` of a domain that is asked for at every
expiry never falls, rests after 48 updates at the latest, and rests exactly
where fewer than thirty queries are left for a client and day. -/
theorem ttlsUpdate_converges (served : 0 < clients) :
    (∀ ttl, 0 < ttl →
      Monotone (fun days => (nextTtl clients)^[days] ttl) ∧
      Function.IsFixedPt (nextTtl clients) ((nextTtl clients)^[48] ttl) ∧
      (Function.IsFixedPt (nextTtl clients) ttl ↔ 2880 < ttl) ∧
      (86400 / ttl < 30 ↔ 2880 < ttl)) ∧
    ∀ stores days,
      MachineRun.EveryStep (dailyUpdate clients) stores (AskedAtExpiry clients domain) days →
      MachineRun.EveryStep (dailyUpdate clients) stores
        (fun stores day => (dailyUpdate clients stores day).2 = true) days →
      ttlAt domain (MachineRun.after (dailyUpdate clients) stores days) =
        (ttlAt domain stores).map (nextTtl clients)^[days.length] := by
  constructor
  · intro ttl positive
    exact ⟨nextTtl_monotone, nextTtl_rests served positive, isFixedPt_nextTtl served positive,
      lt_thirty_iff positive⟩
  · exact ttlAt_after

/-- The first day of a domain that one client asks for every 300 seconds. -/
def dayOfBc : Day :=
  ⟨fun _ => 288, ⟨id, fun _ => .refl _⟩, ⟨id, fun _ => .refl _⟩, none⟩

theorem ttlsUpdate_converges_bc :
    ttlAt [98, 46, 99] (MachineRun.after (dailyUpdate 1) (storesAfter [0] [0] [addOfBc])
      [dayOfBc]) = some 840 := by
  have firstTtl : ttlAt [98, 46, 99] (storesAfter [0] [0] [addOfBc]) = some 300 := by decide
  have asked : AskedAtExpiry 1 [98, 46, 99] (storesAfter [0] [0] [addOfBc]) dayOfBc := by
    intro ttl member
    rw [firstTtl] at member
    obtain rfl := Option.some.inj member
    rfl
  have completed : (dailyUpdate 1 (storesAfter [0] [0] [addOfBc]) dayOfBc).2 = true := by decide
  rw [(ttlsUpdate_converges Nat.one_pos).2 (storesAfter [0] [0] [addOfBc]) [dayOfBc], firstTtl]
  · rfl
  · exact MachineRun.everyStep_singleton _ _ asked
  · exact MachineRun.everyStep_singleton _ _ completed

end Days

end Uwebfilter
