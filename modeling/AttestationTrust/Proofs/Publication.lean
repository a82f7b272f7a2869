import AttestationTrust.Proofs.Run
import AttestationTrust.Schedule
/-!
# What a service publishes

Operations on a service one after another, each in a world of its own and with the settings changed in between, beside
the runs that they have made (`Ledger`).  A run that becomes ready publishes a validator together with all that goes
with it, and any other leaves what is published alone; so what is published is what the last run that became ready has
left, as a whole (`Ledger.Agrees`).
-/
namespace AttestationTrust

open Metadata (LocalStatements)

namespace Repository

mutual

/-- The sources of BLOB entries that a repository looks anchors up in, in order. -/
def blobSources : Repository → List BlobSource
  | .blobs sources _ => sources
  | .statements _ => []
  | .together first second more => blobSources first ++ (blobSources second ++ blobSourcesOfAll more)
  | .fixed _ => []

def blobSourcesOfAll : List Repository → List BlobSource
  | [] => []
  | r :: rs => blobSources r ++ blobSourcesOfAll rs

end

mutual

/-- The number of statements that a repository looks anchors up in. -/
def statementCount : Repository → Nat
  | .blobs _ _ => 0
  | .statements files => files.size
  | .together first second more => statementCount first + (statementCount second + statementCountOfAll more)
  | .fixed _ => 0

def statementCountOfAll : List Repository → Nat
  | [] => 0
  | r :: rs => statementCount r + statementCountOfAll rs

end

end Repository

namespace Service

/-- The repository that a run publishes holds its providers, in order, and its statements. -/
theorem sources_of_combine {providers : List Provider} {found : LocalStatements} {repository : Repository}
    (h : Repository.combine (blobRepository providers) found = some repository) :
    repository.blobSources = providers.map Provider.source ∧ repository.statementCount = found.count := by
  cases found with
  | absent reason =>
    cases providers with
    | nil => cases h
    | cons p ps =>
      cases h
      simp [Repository.blobSources, Repository.statementCount, LocalStatements.count]
  | present files =>
    cases providers with
    | nil =>
      cases h
      simp [Repository.blobSources, Repository.statementCount, LocalStatements.count]
    | cons p ps =>
      cases h
      simp [Repository.blobSources, Repository.blobSourcesOfAll, Repository.statementCount,
        Repository.statementCountOfAll, LocalStatements.count]

/-- What a service publishes: its validator, the providers and the number of statements behind it, and when. -/
def published (s : Service) : Option Validator × List Provider × Nat × Option Int :=
  (s.validator, s.providers, s.localStatements, s.lastSuccess)

variable [Json.Limits] {s s' : Service} {w : World} {r : Except Failure Stage}

theorem Ends.published_of_ne (h : Ends s w s' r) (hr : r ≠ .ok .ready) : s'.published = s.published := by
  cases h with
  | ready hg hl hc => exact absurd rfl hr
  | _ => rfl

theorem Ends.published_of_ready (h : Ends s w s' (.ok .ready)) :
    ∃ providers w' found repository, Gathers s w providers w' ∧ (s.statementsIn w').1 = .ok found ∧
      repository.blobSources = providers.map Provider.source ∧ repository.statementCount = found.count ∧
      s'.published = (some ⟨repository, true⟩, providers, found.count, some w.clock) := by
  cases h with
  | ready hg hl hc =>
    obtain ⟨hblobs, hcount⟩ := sources_of_combine hc
    exact ⟨_, _, _, _, hg, hl, hblobs, hcount, rfl⟩

/-- The error of a service is that of a run that has failed. -/
theorem Ends.lastError_iff (h : Ends s w s' r) (hs : s.lastError = none) (hstage : s.stage ≠ .failed) :
    s'.lastError ≠ none ↔ s'.stage = .failed := by
  cases h with
  | noRoot h => simp
  | badRoot h hf => simp [hs, hstage]
  | _ => simp [building, hs]

theorem Ends.started (h : Ends s w s' r) (hstage : s.stage ≠ .notStarted) :
    s'.stage ≠ .notStarted ∧ s'.lastAttempt = s.lastAttempt := by
  cases h with
  | badRoot h hf => exact ⟨hstage, rfl⟩
  | _ => exact ⟨by simp [building], rfl⟩

end Service

/-- What is done with a service from outside. -/
inductive Operation where
  | run
  | ensure
  | needsRefresh (now : Moment)
  | status
  | turn (schedule : Schedule) (now : Moment)
  | configure (settings : Settings)
  | resetEndpoints

/-- A run, by the service and the world that it starts from. -/
structure Run where
  service : Service
  world : World

/-- The service that an operation leaves behind. -/
def Service.left {β : Type} (s : Service) : Except Failure (Service × β) → Service
  | .ok (s', _) => s'
  | .error _ => s

variable [Json.Limits]

namespace Run

def after (r : Run) : Service := r.service.left (r.service.run r.world).1

/-- The run becomes ready. -/
def IsReady (r : Run) : Prop := (r.service.run r.world).1 = .ok (r.after, .ok .ready)

end Run

namespace Operation

/-- The service after an operation in a world. -/
def apply (op : Operation) (s : Service) (w : World) : Service :=
  match op with
  | .run => s.left (s.run w).1
  | .ensure => s.left (s.ensure w).1
  | .needsRefresh _ => s
  | .status => s.left (s.status w).1
  | .turn schedule now => s.left (schedule.turn Service.refreshable s now w).1
  | .configure settings => { s with settings := settings }
  | .resetEndpoints => { s with resolver := s.resolver.reset }

/-- The run that an operation makes, if it makes one. -/
def run? (op : Operation) (s : Service) (w : World) : Option Run :=
  match op with
  | .run => some ⟨s, w⟩
  | .ensure => if s.validator.isNone then some ⟨s, w⟩ else none
  | .turn _ now =>
    match s.needsRefresh now with
    | .ok true => some ⟨s, Schedule.runningWorld w⟩
    | _ => none
  | _ => none

end Operation

/-- A service beside the runs that have been made with it, the last one first. -/
structure Ledger where
  service : Service
  runs : List Run

namespace Ledger

def step (l : Ledger) (e : Operation × World) : Ledger :=
  ⟨e.1.apply l.service e.2, (e.1.run? l.service e.2).toList ++ l.runs⟩

/-- The ledger after operations on a new service, in their order. -/
def after (settings : Settings) (resolver : Resolver) (trace : List (Operation × World)) : Ledger :=
  trace.foldl step ⟨Service.new settings resolver, []⟩

end Ledger

namespace Run

variable {r : Run}

theorem run_fst (r : Run) : ∃ e, (r.service.run r.world).1 = .ok (r.after, e) := by
  obtain ⟨s', e, h⟩ := Service.exists_run_fst r.service r.world
  refine ⟨e, ?_⟩
  rw [after, h]
  rfl

theorem published_of_not_isReady (h : ¬ r.IsReady) : r.after.published = r.service.published := by
  obtain ⟨e, he⟩ := r.run_fst
  have hne : e ≠ .ok .ready := by
    rintro rfl
    exact h he
  exact (Service.run_fst_eq_ok_iff.1 he).published_of_ne hne

/-- What a run that becomes ready publishes is of its own making. -/
theorem published_of_isReady (h : r.IsReady) : ∃ providers w' found repository,
    Service.Gathers (r.service.start r.world.clock) r.world providers w' ∧
    (r.service.statementsIn w').1 = .ok found ∧
    repository.blobSources = providers.map Provider.source ∧ repository.statementCount = found.count ∧
    r.after.published = (some ⟨repository, true⟩, providers, found.count, some r.world.clock) :=
  (Service.run_fst_eq_ok_iff.1 h).published_of_ready

theorem lastError_after_iff (r : Run) : r.after.lastError ≠ none ↔ r.after.stage = .failed := by
  obtain ⟨e, he⟩ := r.run_fst
  exact (Service.run_fst_eq_ok_iff.1 he).lastError_iff rfl (by simp [Service.start])

theorem started_after (r : Run) : r.after.stage ≠ .notStarted ∧ r.after.lastAttempt = some r.world.clock := by
  obtain ⟨e, he⟩ := r.run_fst
  exact (Service.run_fst_eq_ok_iff.1 he).started (by simp [Service.start])

theorem attempts_after (r : Run) : r.after.attempts = r.service.attempts + 1 := by
  obtain ⟨e, he⟩ := r.run_fst
  exact (Service.run_fst_eq_ok_iff.1 he).attempts

end Run

namespace Operation

variable {op : Operation} {s : Service} {w : World} {r : Run}

theorem left_ensure_of_ne_none (h : s.validator ≠ none) : s.left (s.ensure w).1 = s := by
  obtain ⟨v, hv⟩ := Option.ne_none_iff_exists'.1 h
  rw [Service.ensure_fst_of_some hv]
  rfl

theorem left_turn_of_not_due {now : Moment} (sched : Schedule) (h : s.needsRefresh now ≠ .ok true) :
    s.left (sched.turn Service.refreshable s now w).1 = s := by
  cases hdue : s.needsRefresh now with
  | error f =>
    rw [Schedule.turn_fst_of_error sched hdue]
    rfl
  | ok due =>
    cases due with
    | true => exact absurd hdue h
    | false =>
      rw [Schedule.turn_fst_of_not_due sched hdue]
      rfl

/-- An operation that makes a run leaves the service as the run has left it. -/
theorem apply_of_run? (h : op.run? s w = some r) : r.service = s ∧ op.apply s w = r.after := by
  obtain ⟨e, he⟩ := r.run_fst
  cases op with
  | run =>
    cases h
    exact ⟨rfl, rfl⟩
  | ensure =>
    cases hv : s.validator with
    | some v => simp [run?, hv] at h
    | none =>
      simp only [run?, hv, Option.isNone_none, if_true, Option.some.injEq] at h
      subst h
      refine ⟨rfl, ?_⟩
      rw [apply, Service.ensure_fst_of_none hv he]
      rfl
  | turn sched now =>
    simp only [run?] at h
    split at h
    · rename_i hdue
      cases h
      refine ⟨rfl, ?_⟩
      rw [apply, Schedule.turn_fst_of_due sched hdue he]
      rfl
    · cases h
  | _ => cases h

/-- An operation that makes no run changes the settings and the endpoints at most. -/
theorem apply_of_run?_eq_none (h : op.run? s w = none) :
    ∃ settings resolver, op.apply s w = { s with settings := settings, resolver := resolver } := by
  cases op with
  | run => cases h
  | ensure =>
    refine ⟨s.settings, s.resolver, left_ensure_of_ne_none fun hv => ?_⟩
    simp [run?, hv] at h
  | needsRefresh now => exact ⟨_, _, rfl⟩
  | status => exact ⟨s.settings, (s.resolver.resolve s.settings).2, rfl⟩
  | turn sched now =>
    refine ⟨s.settings, s.resolver, left_turn_of_not_due sched fun hdue => ?_⟩
    simp [run?, hdue] at h
  | configure settings => exact ⟨_, _, rfl⟩
  | resetEndpoints => exact ⟨_, _, rfl⟩

end Operation

namespace Ledger

/-- The service of a ledger agrees with the runs beside it. -/
structure Agrees (l : Ledger) : Prop where
  counted : l.service.attempts = l.runs.length
  blank : (∀ r ∈ l.runs, ¬ r.IsReady) → l.service.published = (none, [], 0, none)
  latest : ∀ newer r older, l.runs = newer ++ r :: older → (∀ q ∈ newer, ¬ q.IsReady) → r.IsReady →
    l.service.published = r.after.published
  failed : l.service.lastError ≠ none ↔ l.service.stage = .failed
  idle : l.service.stage = .notStarted ↔ l.service.lastAttempt = none

variable {l : Ledger} {e : Operation × World} {r : Run}

theorem agrees_new (settings : Settings) (resolver : Resolver) : Agrees ⟨Service.new settings resolver, []⟩ where
  counted := rfl
  blank := fun _ => rfl
  latest := fun newer r older h => by cases newer <;> cases h
  failed := by simp [Service.new]
  idle := by simp [Service.new]

theorem step_of_run? (h : e.1.run? l.service e.2 = some r) : l.step e = ⟨r.after, r :: l.runs⟩ := by
  rw [step, h, (Operation.apply_of_run? h).2]
  rfl

theorem Agrees.of_run (hl : Agrees l) (h : r.service = l.service) : Agrees ⟨r.after, r :: l.runs⟩ where
  counted := by
    rw [r.attempts_after, h, hl.counted]
    rfl
  blank := fun hnone => by
    obtain ⟨hr, hruns⟩ := List.forall_mem_cons.1 hnone
    rw [Run.published_of_not_isReady hr, h, hl.blank hruns]
  latest := fun newer q older heq hnewer hq => by
    cases newer with
    | nil =>
      cases heq
      rfl
    | cons n newer =>
      rw [List.cons_append, List.cons.injEq] at heq
      obtain ⟨rfl, hruns⟩ := heq
      obtain ⟨hr, hnewer⟩ := List.forall_mem_cons.1 hnewer
      rw [Run.published_of_not_isReady hr, h]
      exact hl.latest newer q older hruns hnewer hq
  failed := r.lastError_after_iff
  idle := by
    obtain ⟨hstage, hattempt⟩ := r.started_after
    simp [hstage, hattempt]

theorem Agrees.step (hl : Agrees l) (e : Operation × World) : Agrees (l.step e) := by
  cases h : e.1.run? l.service e.2 with
  | some r =>
    rw [step_of_run? h]
    exact hl.of_run (Operation.apply_of_run? h).1
  | none =>
    obtain ⟨settings, resolver, happly⟩ := Operation.apply_of_run?_eq_none h
    have hstep : l.step e = ⟨{ l.service with settings := settings, resolver := resolver }, l.runs⟩ := by
      rw [Ledger.step, h, happly]
      rfl
    rw [hstep]
    exact ⟨hl.counted, hl.blank, hl.latest, hl.failed, hl.idle⟩

theorem Agrees.foldl : ∀ (trace : List (Operation × World)) {l : Ledger}, Agrees l → Agrees (trace.foldl Ledger.step l)
  | [], _, h => h
  | e :: trace, _, h => Agrees.foldl trace (h.step e)

theorem agrees_after (settings : Settings) (resolver : Resolver) (trace : List (Operation × World)) :
    Agrees (after settings resolver trace) :=
  (agrees_new settings resolver).foldl trace

/-- What is published is nothing, or what the last run that became ready has left. -/
theorem Agrees.published_cases (hl : Agrees l) :
    ((∀ r ∈ l.runs, ¬ r.IsReady) ∧ l.service.published = (none, [], 0, none)) ∨
    ∃ newer r older, l.runs = newer ++ r :: older ∧ (∀ q ∈ newer, ¬ q.IsReady) ∧ r.IsReady ∧
      l.service.published = r.after.published := by
  by_cases h : ∃ r ∈ l.runs, r.IsReady
  · obtain ⟨newer, r, older, heq, hnewer, hr⟩ := exists_first_of_exists h
    exact .inr ⟨newer, r, older, heq, hnewer, hr, hl.latest newer r older heq hnewer hr⟩
  · have hnone : ∀ r ∈ l.runs, ¬ r.IsReady := fun r hr hready => h ⟨r, hr, hready⟩
    exact .inl ⟨hnone, hl.blank hnone⟩

theorem Agrees.validator_eq_none_iff (hl : Agrees l) :
    (l.service.validator = none ↔ l.service.lastSuccess = none) ∧
    (l.service.lastSuccess = none ↔ ∀ r ∈ l.runs, ¬ r.IsReady) := by
  rcases hl.published_cases with ⟨hnone, hp⟩ | ⟨newer, r, older, heq, -, hr, hp⟩
  · simp only [Service.published, Prod.mk.injEq] at hp
    obtain ⟨hv, -, -, hs⟩ := hp
    exact ⟨by simp [hv, hs], fun _ => hnone, fun _ => hs⟩
  · obtain ⟨_, _, _, _, -, -, -, -, hleft⟩ := Run.published_of_isReady hr
    rw [hleft] at hp
    simp only [Service.published, Prod.mk.injEq] at hp
    obtain ⟨hv, -, -, hs⟩ := hp
    have hsome : ¬ ∀ q ∈ l.runs, ¬ q.IsReady := fun h => h r (by simp [heq]) hr
    simp [hv, hs, hsome]

theorem published_apply_of_not_ready {op : Operation} {s : Service} {w : World}
    (h : ∀ r, op.run? s w = some r → ¬ r.IsReady) : (op.apply s w).published = s.published := by
  cases hrun : op.run? s w with
  | some r =>
    obtain ⟨hs, happly⟩ := Operation.apply_of_run? hrun
    rw [happly, Run.published_of_not_isReady (h r hrun), hs]
  | none =>
    obtain ⟨settings, resolver, happly⟩ := Operation.apply_of_run?_eq_none hrun
    rw [happly]
    rfl

theorem runs_suffix_foldl : ∀ (rest : List (Operation × World)) (l : Ledger),
    l.runs <:+ (rest.foldl Ledger.step l).runs
  | [], _ => List.suffix_refl _
  | e :: rest, l => (List.suffix_append _ l.runs).trans (runs_suffix_foldl rest (l.step e))

/-- A validator that is published stays so, or gives way to another. -/
theorem validator_ne_none_of_append {settings : Settings} {resolver : Resolver} {trace : List (Operation × World)}
    (rest : List (Operation × World)) (h : (after settings resolver trace).service.validator ≠ none) :
    (after settings resolver (trace ++ rest)).service.validator ≠ none := by
  have hbefore := (agrees_after settings resolver trace).validator_eq_none_iff
  have hafter := (agrees_after settings resolver (trace ++ rest)).validator_eq_none_iff
  have hruns : (after settings resolver trace).runs <:+ (after settings resolver (trace ++ rest)).runs := by
    unfold after
    rw [List.foldl_append]
    exact runs_suffix_foldl rest _
  intro hnone
  refine h (hbefore.1.2 (hbefore.2.2 fun r hr => ?_))
  exact hafter.2.1 (hafter.1.1 hnone) r (hruns.subset hr)

/-- **What a service publishes**, after any operations in any worlds.  There is a validator just when a run has become
ready, and there is one ever after; it comes with the providers, the statements and the time of the last such run; an
error is reported of a run that failed, and none of a service that has not been run; and whatever does not make a run
that becomes ready leaves all that is published alone. -/
theorem after_publishes (settings : Settings) (resolver : Resolver) (trace : List (Operation × World)) :
    let l := after settings resolver trace
    ((l.service.validator = none ↔ l.service.lastSuccess = none) ∧
      (l.service.lastSuccess = none ↔ ∀ r ∈ l.runs, ¬ r.IsReady) ∧
      ∀ rest, l.service.validator ≠ none → (after settings resolver (trace ++ rest)).service.validator ≠ none) ∧
    (∀ v, l.service.validator = some v → ∃ newer r older w' found,
      l.runs = newer ++ r :: older ∧ (∀ q ∈ newer, ¬ q.IsReady) ∧ r.IsReady ∧
      r.after.published = l.service.published ∧ l.service.lastSuccess = some r.world.clock ∧
      Service.Gathers (r.service.start r.world.clock) r.world l.service.providers w' ∧
      (r.service.statementsIn w').1 = .ok found ∧ l.service.localStatements = found.count ∧
      v.repository.blobSources = l.service.providers.map Provider.source ∧
      v.repository.statementCount = l.service.localStatements) ∧
    ((l.service.lastError ≠ none ↔ l.service.stage = .failed) ∧
      (l.service.stage = .notStarted ↔ l.service.lastAttempt = none)) ∧
    ∀ (op : Operation) (w : World), (∀ r, op.run? l.service w = some r → ¬ r.IsReady) →
      (op.apply l.service w).published = l.service.published := by
  intro l
  have hl : Agrees l := agrees_after settings resolver trace
  refine ⟨⟨hl.validator_eq_none_iff.1, hl.validator_eq_none_iff.2, fun rest => validator_ne_none_of_append rest⟩, ?_,
    ⟨hl.failed, hl.idle⟩, fun op w => published_apply_of_not_ready⟩
  intro v hv
  rcases hl.published_cases with ⟨-, hp⟩ | ⟨newer, r, older, heq, hnewer, hr, hp⟩
  · simp only [Service.published, Prod.mk.injEq] at hp
    rw [hp.1] at hv
    cases hv
  · obtain ⟨providers, w', found, repository, hg, hfound, hblobs, hcount, hleft⟩ := Run.published_of_isReady hr
    have hfields := hp.trans hleft
    simp only [Service.published, Prod.mk.injEq] at hfields
    obtain ⟨hvalidator, hproviders, hlocal, hsuccess⟩ := hfields
    rw [hv, Option.some.injEq] at hvalidator
    subst hvalidator
    rw [← hproviders] at hg hblobs
    exact ⟨newer, r, older, w', found, heq, hnewer, hr, hp.symm, hsuccess, hg, hfound, hlocal, hblobs,
      hcount.trans hlocal.symm⟩

end Ledger
end AttestationTrust
