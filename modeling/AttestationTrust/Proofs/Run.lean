import AttestationTrust.Proofs.Providers
import AttestationTrust.Schedule
/-!
# How a run ends

A run of the service always answers, and there are seven ways in which it does (`Service.Ends`): three without a
failure and one with a failure of the service, which settle it, and three with a failure of another kind, which leave
it at the stage it had come to.  Each way is stated with all that it leaves behind, and by what the run has found up to
there (`Service.run_fst_eq_ok_iff`).  Whoever asks for a run takes the service as the run has left it, and makes an
answer or a time to sleep of the end (`Service.ensure_fst_of_none`, `Schedule.turn_fst_of_due`).
-/
namespace AttestationTrust

open AttestationTrust.Action (Scope Within Depends)
open X509 (Certificate)
open Metadata (LocalStatements StatementFiles)

variable [Json.Limits]

namespace Metadata

/-- Loading statements looks at the files, makes no requests, and may fail by anything. -/
def StatementFiles.scope : Scope FileTree := ⟨World.files, False, fun _ => True, fun _ => True⟩

theorem StatementFiles.within_loadAll : ∀ paths, Within StatementFiles.scope (StatementFiles.loadAll paths)
  | [] => Within.pure _
  | path :: paths => by
    refine Within.get (fun w => ?_) fun w w' hfiles => ?_
    · split
      · exact Within.bind (within_loadAll paths) fun _ => Within.pure _
      · exact Within.ite (Within.bind (Within.log trivial _ _) fun _ => within_loadAll paths) (Within.throw trivial)
    · have hfiles : w.files = w'.files := hfiles
      rw [hfiles]

theorem LocalStatements.within_load (directory : String) :
    Within StatementFiles.scope (LocalStatements.load directory) := by
  refine Within.get (fun w => Within.ite (Within.pure _) ?_) fun w w' hfiles => ?_
  · split
    · exact Within.bind (Within.log trivial _ _) fun _ => Within.pure _
    · exact Within.bind (Within.log trivial _ _) fun _ => Within.pure _
    · refine Within.bind (Within.bind (StatementFiles.within_loadAll _) fun _ => Within.pure _) fun found => ?_
      exact Within.ite (Within.bind (Within.log trivial _ _) fun _ => Within.pure _)
        (Within.bind (Within.log trivial _ _) fun _ => Within.pure _)
  · have hfiles : w.files = w'.files := hfiles
    rw [hfiles]

/-- What comes of loading statements is a matter of the files alone. -/
theorem LocalStatements.load_depends (directory : String) : Depends World.files (LocalStatements.load directory) :=
  (within_load directory).depends ⟨fun _ _ h => h, fun _ _ _ _ => rfl, fun _ _ => rfl, fun h => h.elim⟩

end Metadata

namespace Service

/-- The root certificate that the settings name. -/
def rootIn (s : Service) (files : FileTree) : Except Failure Certificate :=
  Certificate.loadFile files (s.settings.readPath Setting.rootCertificate.key)

def endpoints (s : Service) : List String := (s.resolver.resolve s.settings).1.1

/-- A run that builds its providers, with the endpoints resolved. -/
def building (s : Service) : Service :=
  { s with stage := .buildingProviders, resolver := (s.resolver.resolve s.settings).2 }

/-- The world in which the providers are built. -/
def buildingWorld (s : Service) (w : World) : World :=
  { w with log := w.log ++ (s.resolver.resolve s.settings).1.2 }

/-- The local statements that the settings name. -/
def statementsIn (s : Service) : Action LocalStatements :=
  LocalStatements.load (s.settings.readPath Setting.statements.key)

/-- A run has its root certificate and its timeout, and has built its providers. -/
structure Builds (s : Service) (w : World) (root : Certificate) (timeout : Binary64) (providers : List Provider)
    (w' : World) : Prop where
  loaded : s.rootIn w.files = .ok root
  bounded : s.settings.readTimeout = .ok timeout
  built : Provider.buildAll (providerFactory root timeout) (s.settings.readFlag Setting.revocationCheck.key true)
    s.endpoints (s.buildingWorld w) = (.ok providers, w')

/-- A run comes to its statements: it has no endpoints, or a provider for one of them. -/
structure Gathers (s : Service) (w : World) (providers : List Provider) (w' : World) : Prop where
  builds : ∃ root timeout, Builds s w root timeout providers w'
  usable : s.endpoints = [] ∨ providers ≠ []

/-- How a run that has started ends, from the service and the world at its start. -/
inductive Ends (s : Service) (w : World) : Service → Except Failure Stage → Prop
  | noRoot {f : CertificateFault} (h : s.rootIn w.files = .error (.certificate f)) :
      Ends s w { s with stage := .failed, lastError := some f.message } (.error (.service f))
  | badRoot {f : Failure} (h : s.rootIn w.files = .error f) (hf : ∀ g, f ≠ .certificate g) : Ends s w s (.error f)
  | badTimeout {root : Certificate} {f : Failure} (hr : s.rootIn w.files = .ok root)
      (h : s.settings.readTimeout = .error f) : Ends s w s.building (.error f)
  | noProvider {root : Certificate} {timeout : Binary64} {w' : World} (hb : Builds s w root timeout [] w')
      (hne : s.endpoints ≠ []) : Ends s w { s.building with stage := .aborted } (.ok .aborted)
  | badStatements {providers : List Provider} {w' : World} {f : Failure} (hg : Gathers s w providers w')
      (h : (s.statementsIn w').1 = .error f) : Ends s w { s.building with stage := .buildingRepository } (.error f)
  | noSource {providers : List Provider} {w' : World} {found : LocalStatements} (hg : Gathers s w providers w')
      (h : (s.statementsIn w').1 = .ok found) (hc : Repository.combine (blobRepository providers) found = none) :
      Ends s w { s.building with stage := .aborted } (.ok .aborted)
  | ready {providers : List Provider} {w' : World} {found : LocalStatements} {repository : Repository}
      (hg : Gathers s w providers w') (h : (s.statementsIn w').1 = .ok found)
      (hc : Repository.combine (blobRepository providers) found = some repository) :
      Ends s w { s.building with
        stage := .ready, lastSuccess := some w.clock, providers := providers, localStatements := found.count,
        validator := some ⟨repository, true⟩ } (.ok .ready)

variable {s s' : Service} {w w' : World} {r : Except Failure Stage}

omit [Json.Limits] in
theorem resolveEndpoints_apply (s : Service) (w : World) : resolveEndpoints s w =
    (.ok ({ s with resolver := (s.resolver.resolve s.settings).2 }, s.endpoints), s.buildingWorld w) := rfl

theorem Builds.given {root : Certificate} {timeout : Binary64} {providers : List Provider}
    (h : Builds s w root timeout providers w') : w'.given = w.given := by
  have hgiven : w'.given = (s.buildingWorld w).given := (Provider.within_buildAll _ _ _).leaves_given.eq h.built
  exact hgiven

theorem proceed_fst_of_noRoot {f : CertificateFault} (h : s.rootIn w.files = .error (.certificate f)) :
    (proceed s w).1 = .ok ({ s with stage := .failed, lastError := some f.message }, .error (.service f)) := by
  unfold proceed
  simp only [Action.bind_apply, Action.get_apply]
  unfold rootIn at h
  rw [h]
  rfl

theorem proceed_fst_of_badRoot {f : Failure} (h : s.rootIn w.files = .error f) (hf : ∀ g, f ≠ .certificate g) :
    (proceed s w).1 = .ok (s, .error f) := by
  unfold proceed
  simp only [Action.bind_apply, Action.get_apply]
  unfold rootIn at h
  rw [h]
  cases f with
  | certificate g => exact absurd rfl (hf g)
  | _ => rfl

theorem proceed_apply_of_root {root : Certificate} (h : s.rootIn w.files = .ok root) :
    proceed s w = runWith s root w := by
  unfold proceed
  simp only [Action.bind_apply, Action.get_apply]
  unfold rootIn at h
  rw [h]

theorem buildProviders_apply_of_badTimeout {settings : Settings} {root : Certificate} {urls : List String}
    {f : Failure} (h : settings.readTimeout = .error f) : buildProviders settings root urls w = (.error f, w) := by
  unfold buildProviders
  rw [Action.bind_of_error]
  rw [Action.ofExcept_apply, h]

theorem Builds.buildProviders_apply {root : Certificate} {timeout : Binary64} {providers : List Provider}
    (h : Builds s w root timeout providers w') :
    buildProviders s.settings root s.endpoints (s.buildingWorld w) = (.ok providers, w') := by
  have hbound : Action.ofExcept s.settings.readTimeout (s.buildingWorld w) = (.ok timeout, s.buildingWorld w) := by
    rw [Action.ofExcept_apply, h.bounded]
  unfold buildProviders
  rw [Action.bind_of_ok _ hbound]
  exact h.built

/-- A run after its providers, or where they could not be built. -/
theorem runWith_apply {root : Certificate} {built : Except Failure (List Provider)}
    (h : buildProviders s.settings root s.endpoints (s.buildingWorld w) = (built, w')) :
    runWith s root w = conclude s.building s.endpoints built w' := by
  have hattempt : Action.attempt (buildProviders s.settings root s.endpoints) (s.buildingWorld w) =
      (.ok built, w') := by
    rw [Action.attempt_apply, h]
  unfold runWith
  rw [Action.bind_of_ok _ (resolveEndpoints_apply { s with stage := .buildingProviders } w)]
  exact Action.bind_of_ok _ hattempt

theorem conclude_of_error (s : Service) (endpoints : List String) (f : Failure) (w : World) :
    conclude s endpoints (.error f) w = (.ok (s, .error f), w) := rfl

theorem conclude_of_nil (s : Service) {endpoints : List String} (hne : endpoints ≠ []) (w : World) :
    conclude s endpoints (.ok []) w = (.ok ({ s with stage := .aborted }, .ok .aborted), w.record .debug topic
      ("Ended up in an empty url based metadata BLOB providers list. " ++
        "Hence aborting the current initialization.")) := by
  simp [conclude, hne, Action.bind_apply]

theorem conclude_of_usable (s : Service) {endpoints : List String} {providers : List Provider}
    (h : endpoints = [] ∨ providers ≠ []) (w : World) :
    conclude s endpoints (.ok providers) w = addStatements s providers w := by
  have hkept : (!endpoints.isEmpty && providers.isEmpty) = false := by
    rcases h with he | hp
    · simp [he]
    · simp [hp]
  simp [conclude, hkept]

theorem proceed_fst_of_badTimeout {root : Certificate} {f : Failure} (hr : s.rootIn w.files = .ok root)
    (h : s.settings.readTimeout = .error f) : (proceed s w).1 = .ok (s.building, .error f) := by
  rw [proceed_apply_of_root hr, runWith_apply (buildProviders_apply_of_badTimeout h), conclude_of_error]

theorem Builds.proceed_of_noProvider {root : Certificate} {timeout : Binary64} (h : Builds s w root timeout [] w')
    (hne : s.endpoints ≠ []) :
    proceed s w = (.ok ({ s.building with stage := .aborted }, .ok .aborted), w'.record .debug topic
      ("Ended up in an empty url based metadata BLOB providers list. " ++
        "Hence aborting the current initialization.")) := by
  rw [proceed_apply_of_root h.loaded, runWith_apply h.buildProviders_apply, conclude_of_nil _ hne]

theorem Gathers.proceed_apply {providers : List Provider} (h : Gathers s w providers w') :
    proceed s w = addStatements s.building providers w' := by
  obtain ⟨⟨root, timeout, hb⟩, husable⟩ := h
  rw [proceed_apply_of_root hb.loaded, runWith_apply hb.buildProviders_apply, conclude_of_usable _ husable]

/-- A run after its statements, or where they could not be loaded. -/
theorem addStatements_apply (s : Service) (providers : List Provider) (w : World) :
    addStatements s providers w = match (s.statementsIn w).1 with
      | .error f => (.ok ({ s with stage := .buildingRepository }, .error f), (s.statementsIn w).2)
      | .ok found => publish { s with stage := .buildingRepository } providers found (s.statementsIn w).2 := by
  unfold addStatements
  refine (Action.bind_of_ok _ (Action.attempt_apply s.statementsIn w)).trans ?_
  cases (s.statementsIn w).1 <;> rfl

omit [Json.Limits] in
theorem publish_fst_of_none {providers : List Provider} {found : LocalStatements}
    (h : Repository.combine (blobRepository providers) found = none) :
    (publish s providers found w).1 = .ok ({ s with stage := .aborted }, .ok .aborted) := by
  simp [publish, h, Action.bind_apply]

omit [Json.Limits] in
theorem publish_fst_of_some {providers : List Provider} {found : LocalStatements} {repository : Repository}
    (h : Repository.combine (blobRepository providers) found = some repository) :
    (publish s providers found w).1 = .ok ({ s with
      providers := providers, localStatements := found.count, validator := some ⟨repository, true⟩,
      stage := .ready, lastSuccess := some w.clock }, .ok .ready) := by
  unfold publish
  rw [h]
  simp only [Action.bind_apply, Action.get_apply, Action.log_apply, Action.pure_apply]

theorem Gathers.given {providers : List Provider} (h : Gathers s w providers w') : w'.given = w.given := by
  obtain ⟨⟨root, timeout, hb⟩, -⟩ := h
  exact hb.given

/-- Building the providers has left the files alone, so the statements are what they were at the start. -/
theorem Gathers.statements_fst {providers : List Provider} (h : Gathers s w providers w') :
    (s.statementsIn w').1 = (s.statementsIn w).1 := by
  have hfiles : w'.files = w.files := congrArg Prod.snd h.given
  exact (LocalStatements.load_depends _ w' w hfiles).1

theorem Gathers.statements_clock {providers : List Provider} (h : Gathers s w providers w') :
    (s.statementsIn w').2.clock = w.clock := by
  have hload : (s.statementsIn w').2.given = w'.given := (LocalStatements.within_load _).leaves_given w'
  exact congrArg Prod.fst (hload.trans h.given)

theorem Gathers.proceed_fst {providers : List Provider} (h : Gathers s w providers w') :
    (proceed s w).1 = match (s.statementsIn w').1 with
      | .error f => .ok ({ s.building with stage := .buildingRepository }, .error f)
      | .ok found =>
        (publish { s.building with stage := .buildingRepository } providers found (s.statementsIn w').2).1 := by
  have hin : s.building.statementsIn = s.statementsIn := rfl
  rw [h.proceed_apply, addStatements_apply, hin]
  cases (s.statementsIn w').1 <;> rfl

theorem Ends.proceed_fst (h : Ends s w s' r) : (proceed s w).1 = .ok (s', r) := by
  cases h with
  | noRoot h => exact proceed_fst_of_noRoot h
  | badRoot h hf => exact proceed_fst_of_badRoot h hf
  | badTimeout hr h => exact proceed_fst_of_badTimeout hr h
  | noProvider hb hne => rw [hb.proceed_of_noProvider hne]
  | badStatements hg h => rw [hg.proceed_fst, h]
  | noSource hg h hc =>
    rw [hg.proceed_fst, h]
    exact publish_fst_of_none hc
  | ready hg h hc =>
    rw [hg.proceed_fst, h, ← hg.statements_clock]
    exact publish_fst_of_some hc

theorem exists_builds {root : Certificate} {timeout : Binary64} (hr : s.rootIn w.files = .ok root)
    (ht : s.settings.readTimeout = .ok timeout) : ∃ providers w', Builds s w root timeout providers w' := by
  obtain ⟨providers, hbuilt⟩ := Provider.exists_buildAll_fst (providerFactory root timeout)
    (s.settings.readFlag Setting.revocationCheck.key true) s.endpoints (s.buildingWorld w)
  exact ⟨providers, _, hr, ht, Prod.ext hbuilt rfl⟩

theorem Builds.noProvider_or_gathers {root : Certificate} {timeout : Binary64} {providers : List Provider}
    (h : Builds s w root timeout providers w') :
    (s.endpoints ≠ [] ∧ providers = []) ∨ Gathers s w providers w' := by
  by_cases hp : s.endpoints = [] ∨ providers ≠ []
  · exact .inr ⟨⟨root, timeout, h⟩, hp⟩
  · obtain ⟨hne, hnil⟩ := not_or.1 hp
    exact .inl ⟨hne, Classical.not_not.1 hnil⟩

/-- Every run that has started ends in one of the ways. -/
theorem exists_ends (s : Service) (w : World) : ∃ s' r, Ends s w s' r := by
  cases hr : s.rootIn w.files with
  | error f =>
    by_cases hf : ∃ g, f = .certificate g
    · obtain ⟨g, rfl⟩ := hf
      exact ⟨_, _, .noRoot hr⟩
    · exact ⟨_, _, .badRoot hr fun g hg => hf ⟨g, hg⟩⟩
  | ok root =>
    cases ht : s.settings.readTimeout with
    | error f => exact ⟨_, _, .badTimeout hr ht⟩
    | ok timeout =>
      obtain ⟨providers, w', hb⟩ := exists_builds hr ht
      obtain ⟨hne, rfl⟩ | hg := hb.noProvider_or_gathers
      · exact ⟨_, _, .noProvider hb hne⟩
      · cases hl : (s.statementsIn w').1 with
        | error f => exact ⟨_, _, .badStatements hg hl⟩
        | ok found =>
          cases hc : Repository.combine (blobRepository providers) found with
          | none => exact ⟨_, _, .noSource hg hl hc⟩
          | some repository => exact ⟨_, _, .ready hg hl hc⟩

theorem proceed_fst_eq_ok_iff : (proceed s w).1 = .ok (s', r) ↔ Ends s w s' r := by
  constructor
  · intro h
    obtain ⟨t, q, he⟩ := exists_ends s w
    rw [he.proceed_fst] at h
    cases h
    exact he
  · exact Ends.proceed_fst

theorem run_apply (s : Service) (w : World) : run s w = proceed (s.start w.clock) w := rfl

/-- A run ends in one of the ways, from the service as it is once the run has started. -/
theorem run_fst_eq_ok_iff : (run s w).1 = .ok (s', r) ↔ Ends (s.start w.clock) w s' r := by
  rw [run_apply]
  exact proceed_fst_eq_ok_iff

theorem exists_run_fst (s : Service) (w : World) : ∃ s' r, (run s w).1 = .ok (s', r) := by
  obtain ⟨s', r, h⟩ := exists_ends (s.start w.clock) w
  exact ⟨s', r, run_fst_eq_ok_iff.2 h⟩

theorem Ends.attempts (h : Ends s w s' r) : s'.attempts = s.attempts := by
  cases h <;> rfl

/-- Only a run that becomes ready publishes a validator, and none takes one away. -/
theorem Ends.validator_eq_none_iff (h : Ends s w s' r) :
    s'.validator = none ↔ s.validator = none ∧ r ≠ .ok .ready := by
  cases h <;> simp [building]

/-- The answer of a caller whose run has ended. -/
def answerAfter (s : Service) : Except Failure Stage → Except Failure (Option Validator)
  | .ok _ => .ok s.validator
  | .error (.service _) => .ok none
  | .error f => .error f

omit [Json.Limits] in
theorem answerOf_fst (s : Service) (r : Except Failure Stage) (w : World) :
    (answerOf (s, r) w).1 = .ok (s, s.answerAfter r) := by
  cases r with
  | ok stage => rfl
  | error f => cases f <;> rfl

theorem settle_fst_of_not_answered {seen : Nat} (h : s.isAnswered seen = false) (hr : (run s w).1 = .ok (s', r)) :
    (settle s seen w).1 = .ok (s', s'.answerAfter r) := by
  unfold settle
  simp only [h, Bool.false_eq_true, if_false]
  rw [Action.bind_of_ok _ (Prod.ext hr rfl)]
  exact answerOf_fst s' r _

theorem ensure_fst_of_some {v : Validator} (h : s.validator = some v) : (ensure s w).1 = .ok (s, .ok (some v)) := by
  simp [ensure, arrive, h]

/-- A caller that finds no validator makes a run, and answers as that ends. -/
theorem ensure_fst_of_none (h : s.validator = none) (hr : (run s w).1 = .ok (s', r)) :
    (ensure s w).1 = .ok (s', s'.answerAfter r) := by
  have hanswered : s.isAnswered s.attempts = false := by simp [isAnswered, h]
  simp only [ensure, arrive, h]
  exact settle_fst_of_not_answered hanswered hr

end Service

namespace Schedule

variable {s s' : Service} {w : World} {now : Moment} {r : Except Failure Stage}

/-- The world in which a turn makes its run. -/
def runningWorld (w : World) : World :=
  w.record .info topic "Beginning scheduled metadata service initialisation."

/-- What a turn comes to when its run has ended. -/
def sleepAfter (sched : Schedule) (s : Service) : Except Failure Stage → Except Failure Binary64
  | .ok _ => .ok (if s.validator.isSome then sched.checkInterval.seconds else sched.retryInterval.seconds)
  | .error (.service _) => .ok sched.retryInterval.seconds
  | .error f => .error f

theorem turn_fst_of_error {f : Failure} (sched : Schedule) (h : s.needsRefresh now = .error f) :
    (sched.turn Service.refreshable s now w).1 = .ok (s, .error f) := by
  have hdue : Service.refreshable.isDue s now = .error f := h
  unfold turn
  rw [hdue]
  rfl

theorem turn_fst_of_not_due (sched : Schedule) (h : s.needsRefresh now = .ok false) :
    (sched.turn Service.refreshable s now w).1 = .ok (s, .ok sched.checkInterval.seconds) := by
  have hdue : Service.refreshable.isDue s now = .ok false := h
  unfold turn
  rw [hdue]
  rfl

/-- A turn at which a run is due makes it, and sleeps as that ends. -/
theorem turn_fst_of_due (sched : Schedule) (h : s.needsRefresh now = .ok true)
    (hr : (s.run (runningWorld w)).1 = .ok (s', r)) :
    (sched.turn Service.refreshable s now w).1 = .ok (s', sched.sleepAfter s' r) := by
  have hdue : Service.refreshable.isDue s now = .ok true := h
  have hrefresh : Service.refreshable.refresh s (runningWorld w) =
      (.ok (s', Refreshed.ofRun r), (s.run (runningWorld w)).2) :=
    Action.bind_of_ok _ (Prod.ext hr rfl)
  unfold turn
  rw [hdue]
  refine (congrArg Prod.fst (Action.bind_of_ok _ (Action.log_apply _ _ _ _))).trans ?_
  refine (congrArg Prod.fst (Action.bind_of_ok _ hrefresh)).trans ?_
  cases r with
  | ok stage =>
    have havailable : Service.refreshable.isAvailable s' = s'.validator.isSome := rfl
    simp only [Refreshed.ofRun, sleepAfter, havailable]
    cases s'.validator <;> rfl
  | error f => cases f <;> rfl

end Schedule
end AttestationTrust
