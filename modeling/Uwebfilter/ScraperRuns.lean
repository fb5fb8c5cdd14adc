import Mathlib.Data.List.Sort
import Uwebfilter.TtlGrowth

/-!
# Runs of the scraper

Each scraper selects ten names that were asked for and have no row yet, the most
asked for first, and stores each in one of two tables.  Over every run the tables
hold what was settled, no more and each once, and a scraper that is left alone
settles everything that waits, ten names at a time.
-/

namespace Uwebfilter

open CStrings QueryServer

/-! ## The view -/

section View

variable {db : DomainsDb}

theorem mem_withoutCategories {domain : Bytes} :
    domain ∈ db.withoutCategories ↔ (∃ hit ∈ db.hitcount, hit.domain = domain) ∧
      domain ∉ db.domains ∧ domain ∉ db.provisional ∧ domain ∉ db.failed := by
  simp [DomainsDb.withoutCategories]

theorem nodup_withoutCategories : db.withoutCategories.Nodup :=
  (List.nodup_dedup _).filter _

theorem view_perm (order : NameOrder) (db : DomainsDb) :
    (viewDomainsWithoutCategories order db).Perm db.withoutCategories :=
  (List.mergeSort_perm _ _).trans (order.perm _)

/-- The most asked for come first. -/
theorem view_sorted (order : NameOrder) (db : DomainsDb) :
    (viewDomainsWithoutCategories order db).Pairwise fun first second =>
      hitCount db.hitcount second ≤ hitCount db.hitcount first := by
  have sorted : (viewDomainsWithoutCategories order db).Pairwise fun first second =>
      decide (hitCount db.hitcount second ≤ hitCount db.hitcount first) = true := by
    apply List.pairwise_mergeSort
    · intro first second third earlier later
      simp only [decide_eq_true_eq] at earlier later ⊢
      omega
    · intro first second
      simp only [Bool.or_eq_true, decide_eq_true_eq]
      omega
  exact sorted.imp of_decide_eq_true

variable (order : NameOrder)

theorem selected_sublist (limit arrive : Nat) :
    (postgresSelectDomainsWithoutCategories limit arrive order db).Sublist
      (viewDomainsWithoutCategories order db) :=
  (List.take_sublist _ _).trans (List.take_sublist _ _)

theorem nodup_selected (limit arrive : Nat) :
    (postgresSelectDomainsWithoutCategories limit arrive order db).Nodup :=
  ((view_perm order db).nodup_iff.mpr nodup_withoutCategories).sublist (selected_sublist order _ _)

theorem waiting_of_selected {limit arrive : Nat} {domain : Bytes}
    (member : domain ∈ postgresSelectDomainsWithoutCategories limit arrive order db) :
    domain ∈ db.withoutCategories :=
  (view_perm order db).mem_iff.mp ((selected_sublist order _ _).subset member)

end View

/-! ## What holds in every run -/

/-- What a visit has come to: the domain, and whether it was stored. -/
def ServiceAnswer.visit : ServiceAnswer → Option (Bytes × Bool)
  | .visited domain stored => some (domain, stored)
  | _ => none

def visits (answers : List ServiceAnswer) : List (Bytes × Bool) :=
  answers.filterMap ServiceAnswer.visit

/-- The domains that were stored. -/
def settled (answers : List ServiceAnswer) : List Bytes :=
  ((visits answers).filter Prod.snd).map Prod.fst

def ServiceEvent.scraper : ServiceEvent → Option Nat
  | .select scraper _ _ => some scraper
  | .visit scraper _ _ _ _ => some scraper
  | _ => none

/-- What the visits of one domain come to. -/
structure Outcome where
  https : PageVisit
  http : PageVisit
  prediction : Bytes

/-- Visits of a scraper whose insertions do not fail for reasons of their own. -/
def visitEvents (scraper : Nat) (outcomes : List Outcome) : List ServiceEvent :=
  outcomes.map fun outcome =>
    .visit scraper outcome.https outcome.http outcome.prediction true

/-- A whole run of a scraper. -/
structure Round where
  order : NameOrder
  outcomes : List Outcome
  enough : outcomes.length = 10

def Round.events (scraper : Nat) (round : Round) : List ServiceEvent :=
  .select scraper 10 round.order :: visitEvents scraper round.outcomes

section Runs

variable {categories applications : List Int32} {service : DomainService}
variable {answers : List ServiceAnswer}

/-- Whatever the scrapers do at the same time. -/
structure Settles (answers : List ServiceAnswer) (service : DomainService) : Prop where
  rows : (settled answers).Perm (service.db.provisional.keys ++ service.db.failed)
  failed : service.db.failed.Nodup
  asked : ∀ domain ∈ settled answers, ∃ hit ∈ service.db.hitcount, hit.domain = domain
  selected : ∀ scraper, ∀ domain ∈ service.scrapers scraper,
    ∃ hit ∈ service.db.hitcount, hit.domain = domain
  texts : ∀ hit ∈ service.db.hitcount, hit.domain ≠ [] ∧ 0 ∉ hit.domain ∧ ValidUtf8 hit.domain
  pending : ∀ scraper, (service.scrapers scraper).Nodup
  defaults : ∀ domain record, service.db.provisional.lookup domain = some record →
    record = .default

theorem settled_other {answer : ServiceAnswer} (other : answer.visit = none) :
    settled (answers ++ [answer]) = settled answers := by
  simp [settled, visits, other]

theorem settled_visited (domain : Bytes) (stored : Bool) :
    settled (answers ++ [.visited domain stored]) =
      settled answers ++ if stored = true then [domain] else [] := by
  cases stored <;> simp [settled, visits, ServiceAnswer.visit]

theorem pending_update {scrapers : Nat → List Bytes} {scraper other : Nat} {domains : List Bytes}
    {domain : Bytes}
    (member : domain ∈ Function.update scrapers scraper domains other) :
    domain ∈ domains ∨ domain ∈ scrapers other := by
  by_cases same : other = scraper
  · subst same
    rw [Function.update_self] at member
    exact .inl member
  · rw [Function.update_of_ne same] at member
    exact .inr member

/-- An event that leaves the two tables and the scrapers. -/
theorem Settles.keep {answer : ServiceAnswer} {hitcount : List Hit} {domains : Domains}
    {redis : RedisKeys} {past : List RedisKeys} (settles : Settles answers service)
    (other : answer.visit = none) (grown : service.db.hitcount ⊆ hitcount)
    (texts : ∀ hit ∈ hitcount, hit.domain ≠ [] ∧ 0 ∉ hit.domain ∧ ValidUtf8 hit.domain) :
    Settles (answers ++ [answer]) { service with
      db := { service.db with domains := domains, hitcount := hitcount }
      redis := redis
      past := past } := by
  constructor
  · rw [settled_other other]
    exact settles.rows
  · exact settles.failed
  · rw [settled_other other]
    intro domain member
    obtain ⟨hit, inside, same⟩ := settles.asked domain member
    exact ⟨hit, grown inside, same⟩
  · intro scraper domain member
    obtain ⟨hit, inside, same⟩ := settles.selected scraper domain member
    exact ⟨hit, grown inside, same⟩
  · exact texts
  · exact settles.pending
  · exact settles.defaults

theorem Settles.select {scraper : Nat} {domains : List Bytes}
    (settles : Settles answers service) (distinct : domains.Nodup)
    (asked : ∀ domain ∈ domains, ∃ hit ∈ service.db.hitcount, hit.domain = domain) :
    Settles (answers ++ [.selected domains])
      { service with scrapers := Function.update service.scrapers scraper domains } := by
  constructor
  · rw [settled_other rfl]
    exact settles.rows
  · exact settles.failed
  · rw [settled_other rfl]
    exact settles.asked
  · intro other domain member
    rcases pending_update member with new | old
    · exact asked domain new
    · exact settles.selected other domain old
  · exact settles.texts
  · intro other
    by_cases same : other = scraper
    · subst same
      simpa using distinct
    · simpa [Function.update_of_ne same] using settles.pending other
  · exact settles.defaults

/-- The next domain of a scraper is visited, and stored or not. -/
theorem Settles.visit {scraper : Nat} {domain : Bytes} {rest : List Bytes} {stored : Bool}
    {after : DomainsDb} (settles : Settles answers service)
    (next : service.scrapers scraper = domain :: rest) (hits : after.hitcount = service.db.hitcount)
    (rows : (after.provisional.keys ++ after.failed).Perm
      ((service.db.provisional.keys ++ service.db.failed) ++
        if stored = true then [domain] else []))
    (failed : after.failed.Nodup)
    (defaults : ∀ domain record, after.provisional.lookup domain = some record →
      record = .default) :
    Settles (answers ++ [.visited domain stored]) { service with
      db := after
      scrapers := Function.update service.scrapers scraper rest } := by
  have head : ∃ hit ∈ service.db.hitcount, hit.domain = domain :=
    settles.selected scraper domain (by simp [next])
  have tail : (domain :: rest).Nodup := next ▸ settles.pending scraper
  constructor
  · rw [settled_visited]
    exact (settles.rows.append_right _).trans rows.symm
  · exact failed
  · rw [settled_visited]
    intro other member
    show ∃ hit ∈ after.hitcount, hit.domain = other
    rw [hits]
    rcases List.mem_append.mp member with old | new
    · exact settles.asked other old
    · split at new
      · rwa [List.mem_singleton.mp new]
      · cases new
  · intro other domain member
    show ∃ hit ∈ after.hitcount, hit.domain = domain
    rw [hits]
    rcases pending_update member with left | old
    · exact settles.selected scraper domain (by simp [next, left])
    · exact settles.selected other domain old
  · show ∀ hit ∈ after.hitcount, _
    rw [hits]
    exact settles.texts
  · intro other
    by_cases same : other = scraper
    · subst same
      simpa using (List.nodup_cons.mp tail).2
    · simpa [Function.update_of_ne same] using settles.pending other
  · exact defaults

theorem Settles.visited {scraper : Nat} (https http : PageVisit) (prediction : Bytes)
    (inserts : Bool) (settles : Settles answers service) :
    Settles
      (answers ++ [(service.visit categories applications scraper https http prediction inserts).2])
      (service.visit categories applications scraper https http prediction inserts).1 := by
  rcases visit_effect scraper https http prediction inserts with
    ⟨-, same⟩ | ⟨domain, rest, next, ⟨-, same⟩ | ⟨db, stored, same⟩⟩
  · rw [same]
    exact settles.keep rfl (List.Subset.refl _) settles.texts
  · rw [same]
    exact settles.visit next rfl (by simp) settles.failed settles.defaults
  · rw [same]
    rcases settle_effect stored with ⟨absent, rfl⟩ | ⟨absent, rfl⟩
    · refine settles.visit next ?_ ?_ ?_ settles.defaults
      · rfl
      · simp
      · rw [← List.concat_eq_append]
        exact settles.failed.concat absent
    · refine settles.visit next ?_ ?_ settles.failed ?_
      · rfl
      · have keys : (service.db.provisional.insert domain .default).keys =
            domain :: service.db.provisional.keys := by
          rw [AList.insert_of_notMem absent]
          rfl
        simp only [keys, if_true, List.cons_append]
        exact (List.perm_append_singleton _ _).symm
      · intro other record found
        by_cases same : other = domain
        · subst same
          rw [AList.lookup_insert, Option.some.injEq] at found
          exact found.symm
        · rw [AList.lookup_insert_ne same] at found
          exact settles.defaults other record found

theorem Settles.step (event : ServiceEvent) (settles : Settles answers service) :
    Settles (answers ++ [(serviceStep categories applications service event).2])
      (serviceStep categories applications service event).1 := by
  cases event with
  | query now recorded reads lag body =>
      simp only [serviceStep]
      rcases queryPost_effect now recorded reads lag body with
        same | ⟨domain, asks, named, text, same⟩
      · rw [same]
        exact settles.keep rfl (List.Subset.refl _) settles.texts
      · rw [same]
        apply settles.keep rfl (List.subset_append_left _ _)
        intro hit member
        rcases List.mem_append.mp member with old | new
        · exact settles.texts hit old
        · obtain rfl := List.mem_singleton.mp new
          exact ⟨named, text, valid_of_bodyParser asks⟩
  | manage now command raisesAt =>
      exact settles.keep rfl (List.Subset.refl _) settles.texts
  | select scraper arrive order =>
      apply settles.select (nodup_selected order 10 arrive)
      intro domain member
      exact (mem_withoutCategories.mp (waiting_of_selected order member)).1
  | visit scraper https http prediction inserts =>
      exact settles.visited https http prediction inserts

variable (categories applications) in
theorem settles_run (events : List ServiceEvent) :
    Settles (serviceAnswers categories applications events)
      (serviceAfter categories applications events) := by
  apply MachineRun.invariant (serviceStep categories applications) .initial
    fun _ answers service => Settles answers service
  · constructor
    · exact .refl _
    · exact List.nodup_nil
    · intro domain member
      cases member
    · intro scraper domain member
      cases member
    · intro hit member
      cases member
    · exact fun _ => List.nodup_nil
    · intro domain record found
      cases found
  · exact fun events event settles => settles.step event

/-! ## One scraper at a time -/

/-- A domain the scraper still has to visit has no row, and one that is visited
twice was not stored at first. -/
structure Alone (scraper : Nat) (answers : List ServiceAnswer) (service : DomainService) :
    Prop where
  fresh : ∀ domain ∈ service.scrapers scraper, domain ∉ settled answers
  once : (visits answers).Pairwise fun first second =>
    first.1 = second.1 → first.2 = false

theorem mem_settled {domain : Bytes} :
    domain ∈ settled answers ↔ (domain, true) ∈ visits answers := by
  simp [settled]

theorem Alone.keep {scraper : Nat} {answer : ServiceAnswer} {after : DomainService}
    (alone : Alone scraper answers service) (other : answer.visit = none)
    (pending : after.scrapers scraper = service.scrapers scraper) :
    Alone scraper (answers ++ [answer]) after := by
  constructor
  · rw [settled_other other, pending]
    exact alone.fresh
  · simpa [visits, other] using alone.once

theorem Alone.select {scraper : Nat} {domains : List Bytes} {after : DomainService}
    (alone : Alone scraper answers service) (pending : after.scrapers scraper = domains)
    (fresh : ∀ domain ∈ domains, domain ∉ settled answers) :
    Alone scraper (answers ++ [.selected domains]) after := by
  constructor
  · rw [settled_other rfl, pending]
    exact fresh
  · have same : visits (answers ++ [.selected domains]) = visits answers := by
      simp [visits, ServiceAnswer.visit]
    rw [same]
    exact alone.once

theorem Alone.visit {scraper : Nat} {domain : Bytes} {rest : List Bytes} {stored : Bool}
    {after : DomainService} (alone : Alone scraper answers service)
    (settles : Settles answers service) (next : service.scrapers scraper = domain :: rest)
    (pending : after.scrapers scraper = rest) :
    Alone scraper (answers ++ [.visited domain stored]) after := by
  have unsettled : domain ∉ settled answers := alone.fresh domain (by simp [next])
  have tail : (domain :: rest).Nodup := next ▸ settles.pending scraper
  constructor
  · intro other member
    rw [pending] at member
    have before : other ∉ settled answers := alone.fresh other (by simp [next, member])
    rw [settled_visited, List.mem_append, not_or]
    refine ⟨before, ?_⟩
    split
    · rintro here
      exact (List.nodup_cons.mp tail).1 (List.mem_singleton.mp here ▸ member)
    · exact List.not_mem_nil
  · have grown : visits (answers ++ [.visited domain stored]) =
        visits answers ++ [(domain, stored)] := by
      simp [visits, ServiceAnswer.visit]
    rw [grown, List.pairwise_append]
    refine ⟨alone.once, List.pairwise_singleton _ _, ?_⟩
    rintro ⟨earlier, kept⟩ member last here rfl
    cases kept with
    | false => rfl
    | true =>
        obtain rfl := List.mem_singleton.mp here
        exact absurd (mem_settled.mpr member) unsettled

variable (categories applications) in
theorem Alone.step {scraper : Nat} {event : ServiceEvent} (alone : Alone scraper answers service)
    (settles : Settles answers service)
    (only : ∀ other, event.scraper = some other → other = scraper) :
    Alone scraper (answers ++ [(serviceStep categories applications service event).2])
      (serviceStep categories applications service event).1 := by
  cases event with
  | query now recorded reads lag body =>
      apply alone.keep rfl
      simp only [serviceStep]
      rcases queryPost_effect now recorded reads lag body with same | ⟨domain, -, -, -, same⟩
      · rw [same]
      · rw [same]
  | manage now command raisesAt => exact alone.keep rfl rfl
  | select other arrive order =>
      obtain rfl := only other rfl
      apply alone.select (Function.update_self _ _ _)
      intro domain member stored
      have waits := mem_withoutCategories.mp (waiting_of_selected order member)
      rcases List.mem_append.mp (settles.rows.mem_iff.mp stored) with inside | inside
      · exact waits.2.2.1 inside
      · exact waits.2.2.2 inside
  | visit other https http prediction inserts =>
      obtain rfl := only other rfl
      simp only [serviceStep]
      rcases visit_effect other https http prediction inserts with
        ⟨-, same⟩ | ⟨domain, rest, next, ⟨-, same⟩ | ⟨db, -, same⟩⟩
      · rw [same]
        exact alone.keep rfl rfl
      · rw [same]
        exact alone.visit settles next (Function.update_self _ _ _)
      · rw [same]
        exact alone.visit settles next (Function.update_self _ _ _)

variable (categories applications) in
theorem alone_run {scraper : Nat} {events : List ServiceEvent}
    (only : ∀ event ∈ events, ∀ other, event.scraper = some other → other = scraper) :
    Alone scraper (serviceAnswers categories applications events)
      (serviceAfter categories applications events) := by
  induction events using List.reverseRecOn with
  | nil =>
      constructor
      · intro domain member
        cases member
      · exact .nil
  | append_singleton events event ih =>
      have before := ih fun other member => only other (List.mem_append_left _ member)
      have last := only event (List.mem_append_right _ (List.mem_singleton_self _))
      have next := before.step categories applications
        (settles_run categories applications events) last
      simpa [serviceAfter, serviceAnswers] using next

/-- Where no domain is visited after it was stored, none is stored twice. -/
theorem nodup_settled
    (once : (visits answers).Pairwise fun first second => first.1 = second.1 → first.2 = false) :
    (settled answers).Nodup := by
  rw [settled, List.Nodup, List.pairwise_map, List.pairwise_filter]
  apply once.imp
  intro first second unstored stored _ same
  rw [unstored same] at stored
  cases stored

variable (categories applications) in
/-- In every run the two tables have what the scrapers stored, each once and with
the defaults, all of it asked for; and one scraper at a time visits no domain that
it has stored, so that none has two rows. -/
theorem scrapers_settle (events : List ServiceEvent) :
    (settled (serviceAnswers categories applications events)).Perm
        ((serviceAfter categories applications events).db.provisional.keys ++
          (serviceAfter categories applications events).db.failed) ∧
      (serviceAfter categories applications events).db.failed.Nodup ∧
      (∀ domain record,
        (serviceAfter categories applications events).db.provisional.lookup domain = some record →
          record = .default) ∧
      (∀ domain ∈ settled (serviceAnswers categories applications events),
        ∃ hit ∈ recordedHits events, hit.domain = domain) ∧
      ∀ scraper, (∀ event ∈ events, ∀ other, event.scraper = some other → other = scraper) →
        (visits (serviceAnswers categories applications events)).Pairwise
            (fun first second => first.1 = second.1 → first.2 = false) ∧
          ((serviceAfter categories applications events).db.provisional.keys ++
            (serviceAfter categories applications events).db.failed).Nodup := by
  have settles := settles_run categories applications events
  refine ⟨settles.rows, settles.failed, settles.defaults, ?_, ?_⟩
  · rw [← hitcount_run categories applications events]
    exact settles.asked
  · intro scraper only
    have once := (alone_run categories applications only).once
    exact ⟨once, settles.rows.nodup_iff.mp (nodup_settled once)⟩

/-- A scraper that selects `b.c` and visits it in vain. -/
def failedBc : List ServiceEvent :=
  [.query 0 true true (fun _ => 0) (domainRequestToJsonObject (ascii ['b', '.', 'c'])),
    .select 0 10 ⟨id, fun names => .refl names⟩, .visit 0 ⟨[], true⟩ ⟨[], true⟩ [] true]

/-- Its row is in `domains_failed`, and was asked for. -/
theorem scrapers_settle_failedBc :
    (serviceAfter [0] [0] failedBc).db.failed = [ascii ['b', '.', 'c']] ∧
      (∃ hit ∈ recordedHits failedBc, hit.domain = ascii ['b', '.', 'c']) ∧
      ((serviceAfter [0] [0] failedBc).db.provisional.keys ++
        (serviceAfter [0] [0] failedBc).db.failed).Nodup := by
  have failed : (serviceAfter [0] [0] failedBc).db.failed = [ascii ['b', '.', 'c']] := by
    decide +kernel
  obtain ⟨rows, -, -, asked, alone⟩ := scrapers_settle [0] [0] failedBc
  refine ⟨failed, asked _ (rows.mem_iff.mpr ?_), (alone 0 ?_).2⟩
  · rw [failed]
    exact List.mem_append_right _ (List.mem_singleton_self _)
  · intro event member other names
    simp only [failedBc, List.mem_cons, List.not_mem_nil, or_false] at member
    rcases member with rfl | rfl | rfl
    · cases names
    · exact (Option.some.inj names).symm
    · exact (Option.some.inj names).symm

/-! ## Settling everything -/

/-- A name with a row no longer waits. -/
theorem withoutCategories_failed {db : DomainsDb} (domain : Bytes) :
    DomainsDb.withoutCategories { db with failed := db.failed ++ [domain] } =
      db.withoutCategories.filter fun other => decide (other ≠ domain) := by
  unfold DomainsDb.withoutCategories
  rw [List.filter_filter]
  apply List.filter_congr
  intro other _
  rw [← Bool.decide_and]
  apply decide_eq_decide.mpr
  simp only [List.contains_eq_mem, decide_eq_false_iff_not, List.mem_append, List.mem_singleton]
  tauto

theorem withoutCategories_provisional {db : DomainsDb} (domain : Bytes) (record : StoredRecord) :
    DomainsDb.withoutCategories { db with provisional := db.provisional.insert domain record } =
      db.withoutCategories.filter fun other => decide (other ≠ domain) := by
  unfold DomainsDb.withoutCategories
  rw [List.filter_filter]
  apply List.filter_congr
  intro other _
  rw [← Bool.decide_and]
  apply decide_eq_decide.mpr
  simp only [AList.mem_insert]
  tauto

section Draining

variable (unknownCategory : 0 ∈ categories) (unknownApplication : 0 ∈ applications)

include unknownCategory unknownApplication

theorem record_defaults (domain : Bytes) :
    DomainArgs.record categories applications ⟨domain, 300, 0, 0, []⟩ = some .default := by
  have zero : toInteger 0 = some 0 := rfl
  have ttl : toInteger 300 = some 300 := rfl
  simp [DomainArgs.record, zero, ttl, unknownCategory, unknownApplication,
    StoredRecord.default]

/-- A name that waits is settled, whatever its visits come to. -/
theorem settle_waiting {db : DomainsDb} {domain : Bytes}
    (texts : ∀ hit ∈ db.hitcount, hit.domain ≠ [] ∧ 0 ∉ hit.domain ∧ ValidUtf8 hit.domain)
    (waits : domain ∈ db.withoutCategories) (text : Option (List Bytes)) (prediction : Bytes) :
    ∃ after, settle categories applications domain text prediction true db = some after ∧
      after.hitcount = db.hitcount ∧
      after.withoutCategories =
        db.withoutCategories.filter fun other => decide (other ≠ domain) := by
  obtain ⟨⟨hit, member, rfl⟩, -, notProvisional, notFailed⟩ := mem_withoutCategories.mp waits
  obtain ⟨named, nulFree, valid⟩ := texts hit member
  cases text with
  | none =>
      refine ⟨_, if_pos ⟨rfl, named, nulFree, by simpa using notFailed⟩, rfl, ?_⟩
      exact withoutCategories_failed hit.domain
  | some texts =>
      have inserted : insertIntoDomains categories applications ⟨hit.domain, 300, 0, 0, []⟩
          db.provisional = some (db.provisional.insert hit.domain .default) := by
        rw [insertIntoDomains, if_pos ⟨named, ⟨nulFree, valid⟩, notProvisional⟩,
          record_defaults unknownCategory unknownApplication]
        rfl
      refine ⟨{ db with provisional := db.provisional.insert hit.domain .default }, ?_, rfl,
        withoutCategories_provisional hit.domain .default⟩
      simp only [settle, postgresInsertDomain, categoryToInt, inserted, if_true, Option.map_some]

/-- A visit of the next domain of a scraper. -/
theorem visit_drain {scraper : Nat} {domain : Bytes} {rest : List Bytes}
    (texts : ∀ hit ∈ service.db.hitcount, hit.domain ≠ [] ∧ 0 ∉ hit.domain ∧ ValidUtf8 hit.domain)
    (pending : service.scrapers scraper = domain :: rest)
    (waits : domain ∈ service.db.withoutCategories) (outcome : Outcome) :
    ∃ after, (serviceStep categories applications service
        (.visit scraper outcome.https outcome.http outcome.prediction true)).1 = after ∧
      after.scrapers scraper = rest ∧ after.db.hitcount = service.db.hitcount ∧
      after.db.withoutCategories =
        service.db.withoutCategories.filter fun other => decide (other ≠ domain) := by
  obtain ⟨db, stored, hits, waiting⟩ := settle_waiting unknownCategory unknownApplication texts
    waits (scrapeDomain outcome.https outcome.http) outcome.prediction
  refine ⟨_, rfl, ?_⟩
  simp only [serviceStep, DomainService.visit, pending, stored]
  exact ⟨Function.update_self _ _ _, hits, waiting⟩

/-- The visits settle what the scraper has selected. -/
theorem visits_drain {scraper : Nat} {domains : List Bytes} (outcomes : List Outcome)
    (texts : ∀ hit ∈ service.db.hitcount, hit.domain ≠ [] ∧ 0 ∉ hit.domain ∧ ValidUtf8 hit.domain)
    (pending : service.scrapers scraper = domains) (distinct : domains.Nodup)
    (waits : ∀ domain ∈ domains, domain ∈ service.db.withoutCategories)
    (enough : domains.length ≤ outcomes.length) :
    (MachineRun.after (serviceStep categories applications) service
        (visitEvents scraper outcomes)).db.hitcount = service.db.hitcount ∧
      (MachineRun.after (serviceStep categories applications) service
          (visitEvents scraper outcomes)).db.withoutCategories =
        service.db.withoutCategories.filter fun domain => decide (domain ∉ domains) := by
  induction outcomes generalizing service domains with
  | nil =>
      obtain rfl := List.length_eq_zero_iff.mp (Nat.le_zero.mp enough)
      exact ⟨rfl, by simp [visitEvents]⟩
  | cons outcome outcomes ih =>
      rw [visitEvents, List.map_cons, MachineRun.after_cons]
      cases domains with
      | nil =>
          have idle : (serviceStep categories applications service
              (.visit scraper outcome.https outcome.http outcome.prediction true)).1 = service := by
            simp only [serviceStep, DomainService.visit, pending]
          rw [idle]
          exact ih texts pending distinct waits (Nat.zero_le _)
      | cons domain rest =>
          obtain ⟨absent, restDistinct⟩ := List.nodup_cons.mp distinct
          obtain ⟨headWaits, restWait⟩ := List.forall_mem_cons.mp waits
          obtain ⟨after, visited, left, hits, waiting⟩ :=
            visit_drain unknownCategory unknownApplication texts pending headWaits outcome
          have stillWait : ∀ other ∈ rest, other ∈ after.db.withoutCategories := by
            intro other member
            have differs : other ≠ domain := fun same => absent (same ▸ member)
            rw [waiting]
            exact List.mem_filter.mpr ⟨restWait other member, decide_eq_true differs⟩
          rw [visited]
          obtain ⟨sameHits, drained⟩ := ih (by rw [hits]; exact texts) left restDistinct stillWait
            (Nat.le_of_succ_le_succ enough)
          refine ⟨sameHits.trans hits, drained.trans ?_⟩
          rw [waiting, List.filter_filter]
          apply List.filter_congr
          intro other _
          rw [← Bool.decide_and]
          apply decide_eq_decide.mpr
          rw [List.mem_cons]
          tauto

omit unknownCategory unknownApplication in
theorem filter_not_mem_take {names : List Bytes} (distinct : names.Nodup) (count : Nat) :
    (names.filter fun name => decide (name ∉ names.take count)) = names.drop count := by
  have apart : (names.take count).Disjoint (names.drop count) := by
    rw [← List.take_append_drop count names] at distinct
    exact List.disjoint_of_nodup_append distinct
  have none : ((names.take count).filter fun name => decide (name ∉ names.take count)) = [] := by
    rw [List.filter_eq_nil_iff]
    intro name member
    simpa using member
  have all : ((names.drop count).filter fun name => decide (name ∉ names.take count)) =
      names.drop count := by
    rw [List.filter_eq_self]
    exact fun name member => decide_eq_true fun taken => apart taken member
  calc names.filter (fun name => decide (name ∉ names.take count))
      = (names.take count ++ names.drop count).filter fun name =>
          decide (name ∉ names.take count) := by rw [List.take_append_drop]
    _ = names.drop count := by rw [List.filter_append, none, all, List.nil_append]

/-- A run of a scraper leaves what is asked for less than what it settles. -/
theorem round_drains (scraper : Nat) (round : Round)
    (texts : ∀ hit ∈ service.db.hitcount, hit.domain ≠ [] ∧ 0 ∉ hit.domain ∧ ValidUtf8 hit.domain) :
    (MachineRun.after (serviceStep categories applications) service
        (round.events scraper)).db.hitcount = service.db.hitcount ∧
      (MachineRun.after (serviceStep categories applications) service
          (round.events scraper)).db.withoutCategories.Perm
        ((viewDomainsWithoutCategories round.order service.db).drop 10) := by
  have taken : postgresSelectDomainsWithoutCategories 10 10 round.order service.db =
      (viewDomainsWithoutCategories round.order service.db).take 10 := by
    rw [postgresSelectDomainsWithoutCategories, List.take_take, Nat.min_self]
  have enough : (postgresSelectDomainsWithoutCategories 10 10 round.order service.db).length ≤
      round.outcomes.length := by
    rw [taken, round.enough]
    exact List.length_take_le _ _
  rw [Round.events, MachineRun.after_cons]
  set selecting := (serviceStep categories applications service
    (.select scraper 10 round.order)).1
  have pending : selecting.scrapers scraper =
      postgresSelectDomainsWithoutCategories 10 10 round.order service.db :=
    Function.update_self _ _ _
  have sameTexts : ∀ hit ∈ selecting.db.hitcount,
      hit.domain ≠ [] ∧ 0 ∉ hit.domain ∧ ValidUtf8 hit.domain := texts
  obtain ⟨hits, drained⟩ := visits_drain unknownCategory unknownApplication round.outcomes
    sameTexts pending (nodup_selected round.order 10 10)
    (fun domain member => waiting_of_selected round.order member) enough
  refine ⟨hits, ?_⟩
  rw [drained, taken]
  have view := view_perm round.order service.db
  have permuted := view.symm.filter fun domain =>
    decide (domain ∉ (viewDomainsWithoutCategories round.order service.db).take 10)
  rwa [filter_not_mem_take (view.nodup_iff.mpr nodup_withoutCategories)] at permuted

/-- Runs of a scraper one after another, with nothing in between. -/
theorem rounds_drain (scraper : Nat) (rounds : List Round)
    (texts : ∀ hit ∈ service.db.hitcount, hit.domain ≠ [] ∧ 0 ∉ hit.domain ∧ ValidUtf8 hit.domain) :
    (MachineRun.after (serviceStep categories applications) service
        (rounds.flatMap (Round.events scraper))).db.withoutCategories ⊆
          service.db.withoutCategories ∧
      (MachineRun.after (serviceStep categories applications) service
        (rounds.flatMap (Round.events scraper))).db.withoutCategories.length =
          service.db.withoutCategories.length - 10 * rounds.length ∧
      ∀ name ∈ service.db.withoutCategories,
        name ∉ (MachineRun.after (serviceStep categories applications) service
          (rounds.flatMap (Round.events scraper))).db.withoutCategories →
        ∀ waiting ∈ (MachineRun.after (serviceStep categories applications) service
          (rounds.flatMap (Round.events scraper))).db.withoutCategories,
          hitCount service.db.hitcount waiting ≤ hitCount service.db.hitcount name := by
  induction rounds generalizing service with
  | nil =>
      refine ⟨List.Subset.refl _, by simp, ?_⟩
      intro name waits settled
      exact absurd waits settled
  | cons round rounds ih =>
      obtain ⟨hits, left⟩ := round_drains unknownCategory unknownApplication scraper
        round texts
      rw [List.flatMap_cons, MachineRun.after_append]
      generalize MachineRun.after (serviceStep categories applications) service
        (round.events scraper) = middle at hits left ⊢
      obtain ⟨subset, length, most⟩ := ih (by rw [hits]; exact texts)
      have view := view_perm round.order service.db
      refine ⟨?_, ?_, ?_⟩
      · intro name member
        exact view.mem_iff.mp (List.mem_of_mem_drop (left.mem_iff.mp (subset member)))
      · rw [length, left.length_eq, List.length_drop, view.length_eq, List.length_cons]
        omega
      · intro name waits settled waiting member
        rw [hits] at most
        by_cases still : name ∈ middle.db.withoutCategories
        · exact most name still settled waiting member
        · have sorted := view_sorted round.order service.db
          rw [← List.take_append_drop 10 (viewDomainsWithoutCategories round.order service.db)]
            at sorted
          have taken : name ∈ (viewDomainsWithoutCategories round.order service.db).take 10 := by
            have inside := view.mem_iff.mpr waits
            rw [← List.take_append_drop 10 (viewDomainsWithoutCategories round.order service.db)]
              at inside
            exact (List.mem_append.mp inside).resolve_right fun later =>
              still (left.mem_iff.mpr later)
          exact (List.pairwise_append.mp sorted).2.2 name taken waiting
            (left.mem_iff.mp (subset member))

end Draining

/-- After any run, runs of a scraper that nothing disturbs settle ten names each, the
most asked for first, until everything that was asked for has a row. -/
theorem scraper_drains (categories applications : List Int32) (unknownCategory : 0 ∈ categories)
    (unknownApplication : 0 ∈ applications) (events : List ServiceEvent) (scraper : Nat)
    (rounds : List Round) :
    (serviceAfter categories applications
        (events ++ rounds.flatMap (Round.events scraper))).db.withoutCategories.length =
        (serviceAfter categories applications events).db.withoutCategories.length -
          10 * rounds.length ∧
      ∀ name ∈ (serviceAfter categories applications events).db.withoutCategories,
        name ∉ (serviceAfter categories applications
          (events ++ rounds.flatMap (Round.events scraper))).db.withoutCategories →
        ∀ waiting ∈ (serviceAfter categories applications
          (events ++ rounds.flatMap (Round.events scraper))).db.withoutCategories,
          hitCount (recordedHits events) waiting ≤ hitCount (recordedHits events) name := by
  have same : serviceAfter categories applications
      (events ++ rounds.flatMap (Round.events scraper)) =
      MachineRun.after (serviceStep categories applications)
        (serviceAfter categories applications events)
        (rounds.flatMap (Round.events scraper)) := MachineRun.after_append _ _ _ _
  obtain ⟨-, length, most⟩ := rounds_drain unknownCategory unknownApplication scraper
    rounds (settles_run categories applications events).texts
  rw [same, ← hitcount_run categories applications events]
  exact ⟨length, most⟩

end Runs

/-- A run in which only the second visit of a name goes well. -/
def plainRound : Round where
  order := ⟨id, fun names => .refl names⟩
  outcomes := List.replicate 10 ⟨⟨[], true⟩, ⟨[], false⟩, []⟩
  enough := List.length_replicate

/-- One run settles the one name that was asked for. -/
theorem scraper_drains_plainRound :
    (serviceAfter [0] [0]
      ([.query 0 true true (fun _ => 0) (domainRequestToJsonObject (ascii ['b', '.', 'c']))] ++
        [plainRound].flatMap (Round.events 0))).db.withoutCategories = [] := by
  obtain ⟨length, -⟩ := scraper_drains [0] [0]
    (List.mem_singleton_self 0) (List.mem_singleton_self 0)
    [.query 0 true true (fun _ => 0) (domainRequestToJsonObject (ascii ['b', '.', 'c']))] 0
    [plainRound]
  have one : (serviceAfter [0] [0] [.query 0 true true (fun _ => 0)
      (domainRequestToJsonObject (ascii ['b', '.', 'c']))]).db.withoutCategories.length = 1 := by
    decide
  rw [one] at length
  exact List.length_eq_zero_iff.mp length

end Uwebfilter
