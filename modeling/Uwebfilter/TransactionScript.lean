import Mathlib.Data.List.Basic

/-!
# Scripts over a transactional database and a plain store

A script calls a database, whose changes are lost unless they are committed,
and a store, whose changes stay.  Any call may raise, which ends the script:
a statement the database refuses raises by itself, and `remaining` counts the
calls that are left before one raises for a reason of its own.  A call that
raises changes nothing.
-/

namespace TransactionScript

structure Session (Db Store : Type) where
  committed : Db
  working : Db
  store : Store
  remaining : Option Nat

end TransactionScript

open TransactionScript in
/-- A script that returns an `α`, or nothing where a call has raised. -/
def TransactionScript (Db Store α : Type) : Type :=
  Session Db Store → Option α × Session Db Store

namespace TransactionScript

variable {Db Store α β : Type}

def run (script : TransactionScript Db Store α) (session : Session Db Store) :
    Option α × Session Db Store :=
  script session

instance : Monad (TransactionScript Db Store) where
  pure value session := (some value, session)
  bind first next session :=
    match first session with
    | (none, after) => (none, after)
    | (some value, after) => next value after

/-- The next calls are made. -/
def Session.Allows (session : Session Db Store) (calls : Nat) : Prop :=
  ∀ left ∈ session.remaining, calls ≤ left

instance (session : Session Db Store) (calls : Nat) : Decidable (session.Allows calls) :=
  inferInstanceAs (Decidable (∀ left ∈ session.remaining, calls ≤ left))

/-- The session after some calls have been made. -/
def Session.spend (session : Session Db Store) (calls : Nat) : Session Db Store :=
  { session with remaining := session.remaining.map (· - calls) }

def call (effect : Session Db Store → Option (α × Session Db Store)) :
    TransactionScript Db Store α :=
  fun session =>
    if session.Allows 1 then
      match effect session with
      | none => (none, session)
      | some (value, after) => (some value, after.spend 1)
    else (none, session)

/-- A statement that changes the database, or is refused. -/
def execute (statement : Db → Option Db) : TransactionScript Db Store Unit :=
  call fun session =>
    (statement session.working).map fun working => ((), { session with working := working })

def query (read : Db → α) : TransactionScript Db Store α :=
  call fun session => some (read session.working, session)

def write (change : Store → Store) : TransactionScript Db Store Unit :=
  call fun session => some ((), { session with store := change session.store })

def commit : TransactionScript Db Store Unit :=
  call fun session => some ((), { session with committed := session.working })

def writeAll : List (Store → Store) → TransactionScript Db Store Unit
  | [] => pure ()
  | change :: changes => do
      write change
      writeAll changes

/-- What a process that runs a script leaves behind, and whether no call has
raised. -/
def outcome (script : TransactionScript Db Store α) (raisesAt : Option Nat) (db : Db)
    (store : Store) : (Db × Store) × Bool :=
  let (value, session) := script.run ⟨db, db, store, raisesAt⟩
  ((session.committed, session.store), value.isSome)

/-! ## Rules -/

variable {session : Session Db Store}

@[simp] theorem run_pure (value : α) :
    (pure value : TransactionScript Db Store α).run session = (some value, session) := rfl

theorem run_bind_of_some {first : TransactionScript Db Store α}
    {next : α → TransactionScript Db Store β} {value : α} {after : Session Db Store}
    (returned : first.run session = (some value, after)) :
    (first >>= next).run session = (next value).run after := by
  show (match first.run session with
    | (none, after) => (none, after)
    | (some value, after) => (next value).run after) = _
  rw [returned]

theorem run_bind_of_none {first : TransactionScript Db Store α}
    {next : α → TransactionScript Db Store β} {after : Session Db Store}
    (raised : first.run session = (none, after)) :
    (first >>= next).run session = (none, after) := by
  show (match first.run session with
    | (none, after) => (none, after)
    | (some value, after) => (next value).run after) = _
  rw [raised]

theorem Session.Allows.of_le {calls fewer : Nat} (allows : session.Allows calls)
    (le : fewer ≤ calls) : session.Allows fewer :=
  fun left member => Nat.le_trans le (allows left member)

@[simp] theorem Session.allows_zero : session.Allows 0 := fun left _ => Nat.zero_le left

theorem Session.allows_spend {calls spent : Nat} (allowed : session.Allows spent) :
    (session.spend spent).Allows calls ↔ session.Allows (spent + calls) := by
  simp only [Session.Allows, Session.spend, Option.mem_def, Option.map_eq_some_iff,
    forall_exists_index, and_imp, forall_apply_eq_imp_iff₂]
  apply forall₂_congr
  intro left member
  have enough := allowed left member
  omega

@[simp] theorem Session.spend_zero : session.spend 0 = session := by
  obtain ⟨committed, working, store, remaining⟩ := session
  cases remaining with
  | none => rfl
  | some left => rfl

theorem Session.spend_spend (first second : Nat) :
    (session.spend first).spend second = session.spend (first + second) := by
  obtain ⟨committed, working, store, remaining⟩ := session
  cases remaining with
  | none => rfl
  | some left => simp [Session.spend, Nat.sub_sub]

theorem run_call_of_some {effect : Session Db Store → Option (α × Session Db Store)} {value : α}
    {after : Session Db Store} (allows : session.Allows 1)
    (made : effect session = some (value, after)) :
    (call effect).run session = (some value, after.spend 1) := by
  simp [run, call, allows, made]

theorem run_call_of_none {effect : Session Db Store → Option (α × Session Db Store)}
    (refused : session.Allows 1 → effect session = none) :
    (call effect).run session = (none, session) := by
  by_cases allows : session.Allows 1
  · simp [run, call, allows, refused allows]
  · simp [run, call, allows]

theorem run_execute_of_some {statement : Db → Option Db} {working : Db}
    (allows : session.Allows 1) (accepted : statement session.working = some working) :
    (execute statement).run session =
      (some (), ({ session with working := working } : Session Db Store).spend 1) :=
  run_call_of_some allows (by rw [accepted]; rfl)

theorem run_execute_of_none {statement : Db → Option Db}
    (refused : session.Allows 1 → statement session.working = none) :
    (execute statement).run session = (none, session) :=
  run_call_of_none fun allows => by rw [refused allows]; rfl

theorem run_query (read : Db → α) (allows : session.Allows 1) :
    (query read).run session = (some (read session.working), session.spend 1) :=
  run_call_of_some allows rfl

theorem run_query_of_not {read : Db → α} (refuses : ¬ session.Allows 1) :
    (query read).run session = (none, session) :=
  run_call_of_none fun allows => absurd allows refuses

theorem run_write (change : Store → Store) (allows : session.Allows 1) :
    (write change).run session =
      (some (), ({ session with store := change session.store } : Session Db Store).spend 1) :=
  run_call_of_some allows rfl

theorem run_write_of_not {change : Store → Store} (refuses : ¬ session.Allows 1) :
    (write change).run session = (none, session) :=
  run_call_of_none fun allows => absurd allows refuses

theorem run_commit (allows : session.Allows 1) :
    commit.run session =
      (some (), ({ session with committed := session.working } : Session Db Store).spend 1) :=
  run_call_of_some allows rfl

theorem run_commit_of_not (refuses : ¬ session.Allows 1) :
    commit.run session = (none, session) :=
  run_call_of_none fun allows => absurd allows refuses

/-- The store after some writes. -/
def changed (changes : List (Store → Store)) (store : Store) : Store :=
  changes.foldl (fun store change => change store) store

/-- All writes are made, or as many as the calls that are left. -/
theorem run_writeAll (changes : List (Store → Store)) (allows : session.Allows changes.length) :
    (writeAll changes).run session =
      (some (), ({ session with store := changed changes session.store } :
        Session Db Store).spend changes.length) := by
  induction changes generalizing session with
  | nil =>
      simp only [writeAll, List.length_nil, Session.spend_zero]
      rfl
  | cons change changes ih =>
      rw [List.length_cons, Nat.add_comm] at allows
      have first := allows.of_le (Nat.le_add_right 1 changes.length)
      have rest : (({ session with store := change session.store } :
          Session Db Store).spend 1).Allows changes.length := (Session.allows_spend first).mpr allows
      rw [writeAll, run_bind_of_some (run_write change first), ih rest, List.length_cons,
        Nat.add_comm changes.length 1, ← Session.spend_spend]
      rfl

theorem run_writeAll_of_lt {changes : List (Store → Store)} {left : Nat}
    (remaining : session.remaining = some left) (short : left < changes.length) :
    (writeAll changes).run session =
      (none, { session with
        store := changed (changes.take left) session.store
        remaining := some 0 }) := by
  induction changes generalizing session left with
  | nil => exact absurd short (Nat.not_lt_zero left)
  | cons change changes ih =>
      cases left with
      | zero =>
          have refuses : ¬ session.Allows 1 := by simp [Session.Allows, remaining]
          rw [writeAll, run_bind_of_none (run_write_of_not refuses)]
          simp [changed, ← remaining]
      | succ left =>
          have allows : session.Allows 1 := by simp [Session.Allows, remaining]
          have fewer : (({ session with store := change session.store } :
              Session Db Store).spend 1).remaining = some left := by
            simp [Session.spend, remaining]
          rw [writeAll, run_bind_of_some (run_write change allows),
            ih fewer (Nat.succ_lt_succ_iff.mp short)]
          rfl

theorem exists_lt_of_not_allows {remaining : Option Nat} {calls : Nat}
    (refuses : ¬ ∀ left ∈ remaining, calls ≤ left) :
    ∃ left, remaining = some left ∧ left < calls := by
  simp only [not_forall, Nat.not_le, Option.mem_def] at refuses
  obtain ⟨left, remaining, fewer⟩ := refuses
  exact ⟨left, remaining, fewer⟩

/-- However it ends, some of the first writes have been made. -/
theorem exists_run_writeAll (changes : List (Store → Store)) (session : Session Db Store) :
    ∃ value after count, (writeAll changes).run session = (value, after) ∧
      after.committed = session.committed ∧
      after.store = changed (changes.take count) session.store := by
  by_cases allows : session.Allows changes.length
  · refine ⟨_, _, changes.length, run_writeAll changes allows, rfl, ?_⟩
    rw [List.take_length]
    rfl
  · obtain ⟨left, remaining, fewer⟩ := exists_lt_of_not_allows allows
    exact ⟨_, _, left, run_writeAll_of_lt remaining fewer, rfl, rfl⟩

theorem run_writeAll_commit {changes : List (Store → Store)}
    (allows : session.Allows (changes.length + 1)) :
    ∃ final, (do writeAll changes; commit).run session = (some (), final) ∧
      final.committed = session.working ∧ final.store = changed changes session.store := by
  have writes := run_writeAll changes (allows.of_le (Nat.le_succ _))
  rw [run_bind_of_some writes, run_commit]
  · exact ⟨_, rfl, rfl, rfl⟩
  · exact (Session.allows_spend (allows.of_le (Nat.le_succ _))).mpr allows

/-- Writes stay where a write or the commit behind them raises. -/
theorem run_writeAll_commit_of_le {changes : List (Store → Store)} {left : Nat}
    (remaining : session.remaining = some left) (short : left ≤ changes.length) :
    ∃ final, (do writeAll changes; commit).run session = (none, final) ∧
      final.committed = session.committed ∧
      final.store = changed (changes.take left) session.store := by
  rcases Nat.lt_or_eq_of_le short with fewer | all
  · rw [run_bind_of_none (run_writeAll_of_lt remaining fewer)]
    exact ⟨_, rfl, rfl, rfl⟩
  · have allows : session.Allows changes.length := by
      simp [Session.Allows, remaining, all]
    have refuses : ¬ (({ session with store := changed changes session.store } :
        Session Db Store).spend changes.length).Allows 1 := by
      simp [Session.Allows, Session.spend, remaining, all]
    rw [run_bind_of_some (run_writeAll changes allows), run_commit_of_not refuses]
    refine ⟨_, rfl, rfl, ?_⟩
    rw [all, List.take_length]
    rfl

/-- What a statement and its commit leave behind. -/
theorem outcome_execute_commit (statement : Db → Option Db) (raisesAt : Option Nat) (db : Db)
    (store : Store) :
    outcome (do execute statement; commit) raisesAt db store =
      match statement db, raisesAt with
      | some working, none => ((working, store), true)
      | some working, some (_ + 2) => ((working, store), true)
      | _, _ => ((db, store), false) := by
  cases accepted : statement db with
  | none =>
      have refused : (execute statement).run (⟨db, db, store, raisesAt⟩ : Session Db Store) =
          (none, ⟨db, db, store, raisesAt⟩) := run_execute_of_none fun _ => accepted
      rw [outcome, run_bind_of_none refused]
      rfl
  | some working =>
      rcases raisesAt with _ | _ | _ | left <;>
        simp [outcome, run, bind, execute, commit, call, accepted, Session.Allows, Session.spend]

/-- A write between the statement and the commit stays where the commit raises. -/
theorem outcome_execute_write_commit (statement : Db → Option Db) (change : Store → Store)
    (raisesAt : Option Nat) (db : Db) (store : Store) :
    outcome (do execute statement; write change; commit) raisesAt db store =
      match statement db, raisesAt with
      | some working, none => ((working, change store), true)
      | some working, some (_ + 3) => ((working, change store), true)
      | some _, some 2 => ((db, change store), false)
      | _, _ => ((db, store), false) := by
  cases accepted : statement db with
  | none =>
      have refused : (execute statement).run (⟨db, db, store, raisesAt⟩ : Session Db Store) =
          (none, ⟨db, db, store, raisesAt⟩) := run_execute_of_none fun _ => accepted
      rw [outcome, run_bind_of_none refused]
      rfl
  | some working =>
      rcases raisesAt with _ | _ | _ | _ | left <;>
        simp [outcome, run, bind, execute, write, commit, call, accepted, Session.Allows,
          Session.spend]

/-! ## Pre- and postconditions -/

/-- What holds of the committed database, the working one and the store. -/
abbrev Assertion (Db Store : Type) := Db → Db → Store → Prop

/-- From a session that meets `Pre`, a script that returns does so as `Post`
says, and one that raises leaves what `Raised` says. -/
def Ensures (Pre : Assertion Db Store) (script : TransactionScript Db Store α)
    (Post : α → Assertion Db Store) (Raised : Assertion Db Store) : Prop :=
  ∀ session, Pre session.committed session.working session.store →
    match script.run session with
    | (none, after) => Raised after.committed after.working after.store
    | (some value, after) => Post value after.committed after.working after.store

section Ensures

variable {Pre Raised : Assertion Db Store} {Post : α → Assertion Db Store}

theorem Ensures.mono {PreStronger RaisedWeaker : Assertion Db Store}
    {PostWeaker : α → Assertion Db Store} {script : TransactionScript Db Store α}
    (ensures : Ensures Pre script Post Raised)
    (before : ∀ committed working store, PreStronger committed working store →
      Pre committed working store)
    (returned : ∀ value committed working store, Post value committed working store →
      PostWeaker value committed working store)
    (raised : ∀ committed working store, Raised committed working store →
      RaisedWeaker committed working store) :
    Ensures PreStronger script PostWeaker RaisedWeaker := by
  intro session pre
  have ends := ensures session (before _ _ _ pre)
  cases run : script.run session with
  | mk value after =>
      rw [run] at ends
      cases value with
      | none => exact raised _ _ _ ends
      | some value => exact returned _ _ _ _ ends

theorem ensures_pure {value : α}
    (holds : ∀ committed working store, Pre committed working store →
      Post value committed working store) :
    Ensures Pre (pure value : TransactionScript Db Store α) Post Raised :=
  fun _ pre => holds _ _ _ pre

theorem Ensures.bind {Mid : α → Assertion Db Store} {PostNext : β → Assertion Db Store}
    {first : TransactionScript Db Store α} {next : α → TransactionScript Db Store β}
    (ensures : Ensures Pre first Mid Raised)
    (rest : ∀ value, Ensures (Mid value) (next value) PostNext Raised) :
    Ensures Pre (first >>= next) PostNext Raised := by
  intro session pre
  have middle := ensures session pre
  cases returned : first.run session with
  | mk value after =>
      rw [returned] at middle
      cases value with
      | none =>
          rw [run_bind_of_none returned]
          exact middle
      | some value =>
          rw [run_bind_of_some returned]
          exact rest value after middle

/-- A call raises with nothing changed, or has its effect. -/
theorem ensures_call {effect : Session Db Store → Option (α × Session Db Store)}
    (raises : ∀ committed working store, Pre committed working store →
      Raised committed working store)
    (returns : ∀ session value after, Pre session.committed session.working session.store →
      effect session = some (value, after) →
        Post value after.committed after.working after.store) :
    Ensures Pre (call effect) Post Raised := by
  intro session pre
  by_cases allows : session.Allows 1
  · cases made : effect session with
    | none =>
        rw [run_call_of_none fun _ => made]
        exact raises _ _ _ pre
    | some returned =>
        obtain ⟨value, after⟩ := returned
        rw [run_call_of_some allows made]
        exact returns session value after pre made
  · rw [run_call_of_none fun asked => absurd asked allows]
    exact raises _ _ _ pre

theorem ensures_execute {statement : Db → Option Db} {Post : Unit → Assertion Db Store}
    (raises : ∀ committed working store, Pre committed working store →
      Raised committed working store)
    (returns : ∀ committed working store after, Pre committed working store →
      statement working = some after → Post () committed after store) :
    Ensures Pre (execute statement) Post Raised := by
  apply ensures_call raises
  intro session value after pre made
  obtain ⟨working, accepted, same⟩ := Option.map_eq_some_iff.mp made
  obtain ⟨rfl, rfl⟩ := Prod.mk.inj same
  exact returns _ _ _ working pre accepted

theorem ensures_query {read : Db → α}
    (raises : ∀ committed working store, Pre committed working store →
      Raised committed working store)
    (returns : ∀ committed working store, Pre committed working store →
      Post (read working) committed working store) :
    Ensures Pre (query read) Post Raised := by
  apply ensures_call raises
  intro session value after pre made
  obtain ⟨rfl, rfl⟩ := Prod.mk.inj (Option.some.inj made)
  exact returns _ _ _ pre

theorem ensures_write {change : Store → Store} {Post : Unit → Assertion Db Store}
    (raises : ∀ committed working store, Pre committed working store →
      Raised committed working store)
    (returns : ∀ committed working store, Pre committed working store →
      Post () committed working (change store)) :
    Ensures Pre (write change) Post Raised := by
  apply ensures_call raises
  intro session value after pre made
  obtain ⟨rfl, rfl⟩ := Prod.mk.inj (Option.some.inj made)
  exact returns _ _ _ pre

theorem ensures_commit {Post : Unit → Assertion Db Store}
    (raises : ∀ committed working store, Pre committed working store →
      Raised committed working store)
    (returns : ∀ committed working store, Pre committed working store →
      Post () working working store) :
    Ensures Pre commit Post Raised := by
  apply ensures_call raises
  intro session value after pre made
  obtain ⟨rfl, rfl⟩ := Prod.mk.inj (Option.some.inj made)
  exact returns _ _ _ pre

/-- What each of some writes keeps. -/
theorem ensures_writeAll {changes : List (Store → Store)}
    (keeps : ∀ change ∈ changes, ∀ committed working store, Pre committed working store →
      Pre committed working (change store)) :
    Ensures Pre (writeAll changes) (fun _ => Pre) Pre := by
  induction changes with
  | nil => exact ensures_pure fun _ _ _ pre => pre
  | cons change changes ih =>
      obtain ⟨first, rest⟩ := List.forall_mem_cons.mp keeps
      have writes : Ensures Pre (write change) (fun _ => Pre) Pre :=
        ensures_write (fun _ _ _ pre => pre) first
      exact writes.bind fun _ => ih rest

theorem Ensures.outcome {script : TransactionScript Db Store α} {raisesAt : Option Nat} {db : Db}
    {store : Store} {Left : Db → Store → Prop}
    (ensures : Ensures (fun committed working before =>
        committed = db ∧ working = db ∧ before = store) script
      (fun _ committed _ after => Left committed after) fun committed _ after =>
        Left committed after) :
    Left (TransactionScript.outcome script raisesAt db store).1.1
      (TransactionScript.outcome script raisesAt db store).1.2 := by
  have ends := ensures ⟨db, db, store, raisesAt⟩ ⟨rfl, rfl, rfl⟩
  unfold TransactionScript.outcome
  cases returned : script.run ⟨db, db, store, raisesAt⟩ with
  | mk value after =>
      rw [returned] at ends
      cases value <;> exact ends

end Ensures

end TransactionScript
