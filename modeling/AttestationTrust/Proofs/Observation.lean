import AttestationTrust.Proofs.Visits
/-!
# Looking at a service

A report of the service names the endpoints, so a look at the service resolves them, and a resolver answers with what it
has once resolved until it is reset.  That is all that a look does (`Situation.seen_spec`), but it can be told: where the
endpoints are taken out of the settings between a look and a run, the run still asks for them
(`Situation.effects_of_look_before_configure`).  Looks are without effect as long as each finds for the endpoints what
comes of them without any look (`Situation.Harmless`).  One event is compared with itself a look later first
(`Operation.perform_of_ahead`), then whole histories (`Situation.effects_of_looks`).
-/
namespace AttestationTrust

open X509 (Certificate)
open Metadata (LocalStatements)

namespace Operation

/-- What an operation answers with. -/
inductive Answer where
  | stage (r : Except Failure Stage)
  | validator (r : Except Failure (Option Validator))
  | due (r : Except Failure Bool)
  | report (fields : Value.Fields)
  | sleep (r : Except Failure Binary64)
  | nothing

variable [Json.Limits] in
/-- An operation with its answer. -/
def perform (op : Operation) (s : Service) : Action (Service × Answer) :=
  match op with
  | .run => do
    let (s, r) ← s.run
    pure (s, .stage r)
  | .ensure => do
    let (s, r) ← s.ensure
    pure (s, .validator r)
  | .needsRefresh now => pure (s, .due (s.needsRefresh now))
  | .status => do
    let (s, fields) ← s.status
    pure (s, .report fields)
  | .turn schedule now => do
    let (s, r) ← schedule.turn Service.refreshable s now
    pure (s, .sleep r)
  | .configure settings => pure ({ s with settings := settings }, .nothing)
  | .resetEndpoints => pure ({ s with resolver := s.resolver.reset }, .nothing)

/-- What an operation makes of the end of the run that it has made. -/
def answerOf (op : Operation) (s : Service) (r : Except Failure Stage) : Answer :=
  match op with
  | .run => .stage r
  | .ensure => .validator (s.answerAfter r)
  | .turn schedule _ => .sleep (schedule.sleepAfter s r)
  | _ => .nothing

end Operation

/-- What happens with a service: an operation, or a change of its surroundings. -/
inductive Event where
  | operation (op : Operation)
  | surroundings (clock : Int) (files : FileTree) (network : Network)

variable [Json.Limits] in
def Event.perform (e : Event) (s : Service) : Action (Service × Operation.Answer) :=
  match e with
  | .operation op => op.perform s
  | .surroundings clock files network => do
    modify fun w => { w with clock := clock, files := files, network := network }
    pure (s, .nothing)

namespace Http

/-- A request for a report. -/
structure AsksForStatus (r : Request) : Prop where
  method : r.method = "GET"
  target : Target.ofText r.target = .ok ⟨"/api/mds/status".toList, false⟩

end Http

/-- A look at a service: a call for its report, or a request for it. -/
inductive Look where
  | call
  | request (r : Http.Request) (h : Http.AsksForStatus r)

/-- A service in its world. -/
structure Situation where
  service : Service
  world : World

namespace Service

variable {s t s' : Service} {w v w' : World} {r : Except Failure Stage} {q : Resolver} {found : List String}

/-- A service with another resolver. -/
def withResolver (s : Service) (q : Resolver) : Service := { s with resolver := q }

@[simp] theorem withResolver_resolver (s : Service) (q : Resolver) : (s.withResolver q).resolver = q := rfl

@[simp] theorem withResolver_settings (s : Service) (q : Resolver) : (s.withResolver q).settings = s.settings := rfl

@[simp] theorem withResolver_validator (s : Service) (q : Resolver) : (s.withResolver q).validator = s.validator := rfl

@[simp] theorem withResolver_self (s : Service) : s.withResolver s.resolver = s := rfl

@[simp] theorem withResolver_withResolver (s : Service) (q q' : Resolver) :
    (s.withResolver q).withResolver q' = s.withResolver q' := rfl

theorem withResolver_rootIn (s : Service) (q : Resolver) (files : FileTree) :
    (s.withResolver q).rootIn files = s.rootIn files := rfl

theorem withResolver_start (s : Service) (q : Resolver) (clock : Int) :
    (s.withResolver q).start clock = (s.start clock).withResolver q := rfl

variable [Json.Limits]

/-- A run without its root certificate has not come to the endpoints. -/
theorem Ends.of_unresolved (h : Ends s w s' r) {f : Failure} (hr : s.rootIn w.files = .error f) (q : Resolver)
    (hv : v.environment = w.environment) : Ends (s.withResolver q) v (s'.withResolver q) r ∧
      s'.resolver = s.resolver := by
  have hfiles : v.files = w.files := congrArg (·.2.1) hv
  have hroot : (s.withResolver q).rootIn v.files = s.rootIn w.files := by rw [hfiles, withResolver_rootIn]
  have hbuilt : ∀ {root timeout providers w'}, ¬ Builds s w root timeout providers w' := by
    intro root timeout providers w' hb
    cases hr.symm.trans hb.loaded
  cases h with
  | noRoot h => exact ⟨.noRoot (hroot.trans h), rfl⟩
  | badRoot h hf => exact ⟨.badRoot (hroot.trans h) hf, rfl⟩
  | badTimeout hr' h => cases hr.symm.trans hr'
  | noProvider hb hne => exact absurd hb hbuilt
  | badStatements hg h => exact absurd hg.builds.choose_spec.choose_spec hbuilt
  | noSource hg h hc => exact absurd hg.builds.choose_spec.choose_spec hbuilt
  | ready hg h hc => exact absurd hg.builds.choose_spec.choose_spec hbuilt

/-- A run with its root certificate has come to the endpoints, and those are all that it takes from a resolver. -/
theorem Ends.of_resolved (h : Ends s w s' r) {root : Certificate} (hr : s.rootIn w.files = .ok root) (q : Resolver)
    (halike : Alike s (s.withResolver q) w v) :
    Ends (s.withResolver q) v (s'.withResolver (q.resolve s.settings).2) r ∧
      s'.resolver = (s.resolver.resolve s.settings).2 := by
  have hclock := halike.clock
  have hendpoints := halike.endpoints
  cases h with
  | noRoot h => cases hr.symm.trans h
  | badRoot h hf => cases hr.symm.trans h
  | badTimeout hr' h => exact ⟨.badTimeout (halike.rootIn.trans hr') h, rfl⟩
  | noProvider hb hne =>
    obtain ⟨v', hb', -⟩ := halike.builds hb
    exact ⟨.noProvider hb' (hendpoints ▸ hne), rfl⟩
  | badStatements hg hl =>
    obtain ⟨v', hg', hsame⟩ := halike.gathers hg
    exact ⟨.badStatements hg' (hsame.trans hl), rfl⟩
  | noSource hg hl hc =>
    obtain ⟨v', hg', hsame⟩ := halike.gathers hg
    exact ⟨.noSource hg' (hsame.trans hl) hc, rfl⟩
  | ready hg hl hc =>
    obtain ⟨v', hg', hsame⟩ := halike.gathers hg
    have hready := Ends.ready hg' (hsame.trans hl) hc
    rw [hclock] at hready
    exact ⟨hready, rfl⟩

/-- A run takes from the resolver the endpoints at most, and them only when it has its root certificate. -/
theorem run_of_resolver (hrun : s.run w = (.ok (s', r), w')) (hv : v.outside = w.outside)
    (hendpoints : ∀ root, s.rootIn w.files = .ok root → (s.withResolver q).endpoints = s.endpoints) :
    ∃ q' v', (s.withResolver q).run v = (.ok (s'.withResolver q', r), v') ∧
      v'.outside = w'.outside ∧
      (s'.resolver = s.resolver ∧ q' = q ∨
        s'.resolver = (s.resolver.resolve s.settings).2 ∧ q' = (q.resolve s.settings).2 ∧
          (s.withResolver q).endpoints = s.endpoints) := by
  obtain ⟨henv, hrequests⟩ := World.outside_eq_iff.1 hv
  have hclock : v.clock = w.clock := congrArg Prod.fst henv
  have hends : Ends (s.start w.clock) w s' r := run_fst_eq_ok_iff.1 (by rw [hrun])
  have hw' : (proceed (s.start w.clock) w).2 = w' := by rw [← run_apply, hrun]
  have hfiles : v.files = w.files := congrArg (·.2.1) henv
  have happly : (s.withResolver q).run v = proceed ((s.start w.clock).withResolver q) v := by
    rw [run_apply, hclock, withResolver_start]
  cases hr : (s.start w.clock).rootIn w.files with
  | error f =>
    obtain ⟨hends', hresolver⟩ := hends.of_unresolved hr q henv
    have hr' : ((s.start w.clock).withResolver q).rootIn v.files = .error f := by
      rw [hfiles, withResolver_rootIn, hr]
    refine ⟨q, _, happly.trans (Prod.ext hends'.proceed_fst rfl), ?_, .inl ⟨hresolver, rfl⟩⟩
    rw [proceed_outside_of_rootIn hr', ← hw', proceed_outside_of_rootIn hr, hv]
  | ok root =>
    have hsame := hendpoints root hr
    have halike : Alike (s.start w.clock) ((s.start w.clock).withResolver q) w v := ⟨rfl, hsame, henv⟩
    obtain ⟨hends', hresolver⟩ := hends.of_resolved hr q halike
    refine ⟨_, _, happly.trans (Prod.ext hends'.proceed_fst rfl), ?_, .inr ⟨hresolver, rfl, hsame⟩⟩
    obtain ⟨henv', requests, hwr, hvr⟩ := halike.inStep
    rw [hw'] at henv' hwr
    exact World.outside_eq_iff.2 ⟨henv', by rw [hvr, hwr, hrequests]⟩

end Service

namespace Schedule

variable [Json.Limits] {s : Service} {w : World} {now : Moment}

theorem turn_outside_of_due (sched : Schedule) (h : s.needsRefresh now = .ok true) :
    (sched.turn Service.refreshable s now w).2.outside = (s.run (runningWorld w)).2.outside := by
  have hdue : Service.refreshable.isDue s now = .ok true := h
  obtain ⟨s', r, hr⟩ := Service.exists_run_fst s (runningWorld w)
  have hrefresh : Service.refreshable.refresh s (runningWorld w) =
      (.ok (s', Refreshed.ofRun r), (s.run (runningWorld w)).2) :=
    Action.bind_of_ok _ (Prod.ext hr rfl)
  unfold turn
  rw [hdue]
  refine (congrArg (World.outside ∘ Prod.snd) (Action.bind_of_ok _ (Action.log_apply _ _ _ _))).trans ?_
  refine (congrArg (World.outside ∘ Prod.snd) (Action.bind_of_ok _ hrefresh)).trans ?_
  cases r with
  | ok stage =>
    have havailable : Service.refreshable.isAvailable s' = s'.validator.isSome := rfl
    simp only [Refreshed.ofRun, havailable]
    cases s'.validator <;> rfl
  | error f => cases f <;> rfl

/-- A turn at which no run is due takes nothing from the service but that. -/
theorem exists_turn_of_not_due (sched : Schedule) (h : s.needsRefresh now ≠ .ok true) :
    ∃ r, ∀ (t : Service) (v : World), t.needsRefresh now = s.needsRefresh now →
      ∃ v', sched.turn Service.refreshable t now v = (.ok (t, r), v') ∧ v'.outside = v.outside := by
  cases hs : s.needsRefresh now with
  | error f =>
    refine ⟨.error f, fun t v ht => ⟨v, ?_, rfl⟩⟩
    have hdue : Service.refreshable.isDue t now = .error f := ht
    rw [turn, hdue]
    rfl
  | ok due =>
    cases due with
    | true => exact absurd hs h
    | false =>
      refine ⟨.ok sched.checkInterval.seconds, fun t v ht => ?_⟩
      have hdue : Service.refreshable.isDue t now = .ok false := ht
      rw [turn, hdue]
      exact ⟨_, rfl, rfl⟩

end Schedule

namespace Operation

variable [Json.Limits] {op : Operation} {s s' : Service} {w v w' : World} {ρ : Run} {r : Except Failure Stage} {q : Resolver}

/-- An operation that makes a run leaves what the run leaves, and makes its answer of how the run has ended. -/
theorem perform_of_run? (h : op.run? s w = some ρ) (hr : ρ.service.run ρ.world = (.ok (s', r), w')) :
    ∃ w'', op.perform s w = (.ok (s', op.answerOf s' r), w'') ∧ w''.outside = w'.outside := by
  cases op with
  | run =>
    cases h
    exact ⟨w', Action.bind_of_ok _ hr, rfl⟩
  | ensure =>
    cases hv : s.validator with
    | some v => simp [run?, hv] at h
    | none =>
      simp only [run?, hv, Option.isNone_none, if_true, Option.some.injEq] at h
      subst h
      obtain ⟨x, -, hout⟩ := Service.ensure_of_none (w := w) hv
      rw [hr] at hout
      have hensure := Service.ensure_fst_of_none hv (congrArg Prod.fst hr)
      exact ⟨_, Action.bind_of_ok _ (Prod.ext hensure rfl), hout⟩
  | turn sched now =>
    simp only [run?] at h
    split at h
    · rename_i hdue
      cases h
      have hout := sched.turn_outside_of_due (w := w) hdue
      rw [hr] at hout
      have hturn := sched.turn_fst_of_due hdue (congrArg Prod.fst hr)
      exact ⟨_, Action.bind_of_ok _ (Prod.ext hturn rfl), hout⟩
    · cases h
  | _ => cases h

omit [Json.Limits] in
/-- Whether an operation makes a run is not a matter of the resolver. -/
theorem run?_withResolver (h : op.run? s w = some ρ) (hv : v.outside = w.outside) :
    ρ.service = s ∧ ∃ v', op.run? (s.withResolver q) v = some ⟨s.withResolver q, v'⟩ ∧
      v'.outside = ρ.world.outside := by
  cases op with
  | run =>
    cases h
    exact ⟨rfl, v, rfl, hv⟩
  | ensure =>
    simp only [run?] at h
    split at h
    · rename_i hnone
      cases h
      exact ⟨rfl, v, by simp [run?, hnone], hv⟩
    · cases h
  | turn sched now =>
    have hsame : (s.withResolver q).needsRefresh now = s.needsRefresh now := rfl
    simp only [run?] at h
    split at h
    · rename_i hdue
      cases h
      exact ⟨rfl, Schedule.runningWorld v, by simp only [run?, hsame, hdue], hv⟩
    · cases h
  | _ => cases h

end Operation

/-! ## The endpoints before their time -/

namespace Resolver

variable {r q : Resolver} {found : List String}

/-- A resolver that has found endpoints. -/
def resolvedTo (r : Resolver) (found : List String) : Resolver := { r with resolved := some found }

/-- A resolver is another, or is that with its endpoints resolved before their time. -/
def Ahead (found : List String) (r q : Resolver) : Prop := q = r ∨ r.resolved = none ∧ q = r.resolvedTo found

theorem resolve_snd (r : Resolver) (settings : Settings) :
    (r.resolve settings).2 = r.resolvedTo (r.resolve settings).1.1 := by
  obtain ⟨key, resolved⟩ := r
  cases resolved <;> rfl

theorem resolvedTo_of_resolved (h : r.resolved = some found) (settings : Settings) :
    r.resolvedTo (r.resolve settings).1.1 = r := by
  obtain ⟨key, resolved⟩ := r
  cases h
  rfl

theorem Ahead.resolve_snd (h : Ahead found r q) (settings : Settings)
    (hsame : (q.resolve settings).1.1 = (r.resolve settings).1.1) : (q.resolve settings).2 = (r.resolve settings).2 := by
  rw [Resolver.resolve_snd, Resolver.resolve_snd, hsame]
  rcases h with rfl | ⟨-, rfl⟩ <;> rfl

theorem Ahead.reset (h : Ahead found r q) : q.reset = r.reset := by
  rcases h with rfl | ⟨-, rfl⟩ <;> rfl

end Resolver

namespace Service

variable [Json.Limits] {s s' : Service} {w w' : World} {r : Except Failure Stage} {q : Resolver}
  {found : List String}

theorem run_resolver_of_rootIn {root : Certificate} (hrun : s.run w = (.ok (s', r), w'))
    (hr : s.rootIn w.files = .ok root) : s'.resolver = s.resolver.resolvedTo s.endpoints := by
  have hends : Ends (s.start w.clock) w s' r := run_fst_eq_ok_iff.1 (by rw [hrun])
  have halike : Alike (s.start w.clock) ((s.start w.clock).withResolver s.resolver) w w := ⟨rfl, rfl, rfl⟩
  rw [(hends.of_resolved hr s.resolver halike).2]
  exact s.resolver.resolve_snd s.settings

omit [Json.Limits] in
/-- A report is the same whatever the endpoints come from. -/
theorem status_of_resolver {fields : Value.Fields} (h : s.status w = (.ok (s', fields), w'))
    (hendpoints : (s.withResolver q).endpoints = s.endpoints) (v : World) :
    (s.withResolver q).status v =
        (.ok (s'.withResolver (q.resolve s.settings).2, fields), (s.withResolver q).buildingWorld v) ∧
      s'.resolver = (s.resolver.resolve s.settings).2 ∧ w' = s.buildingWorld w := by
  unfold status at h ⊢
  rw [Action.bind_of_ok _ (resolveEndpoints_apply s w)] at h
  cases h
  refine ⟨?_, rfl, rfl⟩
  rw [Action.bind_of_ok _ (resolveEndpoints_apply (s.withResolver q) v), hendpoints]
  rfl

omit [Json.Limits] in
/-- Where the endpoints that an operation comes to are those that were found before, nothing is lost. -/
theorem endpoints_of_ahead (h : Resolver.Ahead found s.resolver q)
    (hfound : q ≠ s.resolver → s.endpoints = found) : (s.withResolver q).endpoints = s.endpoints := by
  by_cases hq : q = s.resolver
  · rw [hq, withResolver_self]
  · obtain ⟨-, rfl⟩ := h.resolve_left hq
    exact (hfound hq).symm

end Service

namespace Operation

variable [Json.Limits] {op : Operation} {s s' : Service} {w v w' : World} {ρ : Run} {q : Resolver}
  {found : List String} {a : Answer}

theorem perform_ensure {x : Except Failure (Option Validator)} (h : s.ensure w = (.ok (s', x), w')) :
    perform .ensure s w = (.ok (s', .validator x), w') := Action.bind_of_ok _ h

theorem perform_status {fields : Value.Fields} (h : s.status w = (.ok (s', fields), w')) :
    perform .status s w = (.ok (s', .report fields), w') := Action.bind_of_ok _ h

theorem perform_turn {sched : Schedule} {now : Moment} {r : Except Failure Binary64}
    (h : sched.turn Service.refreshable s now w = (.ok (s', r), w')) :
    perform (.turn sched now) s w = (.ok (s', .sleep r), w') := Action.bind_of_ok _ h

/-- An operation that makes a run, on a service whose endpoints are known before their time. -/
theorem perform_of_ahead_of_run? (hrun : op.run? s w = some ρ) (h : op.perform s w = (.ok (s', a), w'))
    (hv : v.outside = w.outside) (hq : Resolver.Ahead found s.resolver q)
    (hfound : q ≠ s.resolver → s'.resolver.resolved = none ∨ s'.resolver.resolved = some found) :
    ∃ q' v', op.perform (s.withResolver q) v = (.ok (s'.withResolver q', a), v') ∧ v'.outside = w'.outside ∧
      Resolver.Ahead found s'.resolver q' ∧ (q' ≠ s'.resolver → q ≠ s.resolver) := by
  obtain ⟨hs, v₁, hrun', hv₁⟩ := run?_withResolver (q := q) hrun hv
  obtain ⟨s₁, world⟩ := ρ
  obtain rfl : s₁ = s := hs
  obtain ⟨s₂, r, hfst⟩ := Service.exists_run_fst s₁ world
  have hends : s₁.run world = (.ok (s₂, r), (s₁.run world).2) := Prod.ext hfst rfl
  obtain ⟨w₂, hperform, hw₂⟩ := perform_of_run? hrun hends
  obtain ⟨hanswer, rfl⟩ := Prod.mk.inj (h.symm.trans hperform)
  obtain ⟨rfl, rfl⟩ := Prod.mk.inj (Except.ok.inj hanswer)
  have hendpoints : ∀ root, s₁.rootIn world.files = .ok root → (s₁.withResolver q).endpoints = s₁.endpoints := by
    intro root hr
    have hresolver := Service.run_resolver_of_rootIn hends hr
    refine Service.endpoints_of_ahead hq fun hne => ?_
    rw [hresolver] at hfound
    exact Option.some.inj ((hfound hne).resolve_left nofun)
  obtain ⟨q', v', hends', hv', hresolver⟩ := Service.run_of_resolver hends hv₁ hendpoints
  obtain ⟨v₂, hperform', hv₂⟩ := perform_of_run? hrun' hends'
  have hanswerOf : op.answerOf (s'.withResolver q') r = op.answerOf s' r := by cases op <;> rfl
  refine ⟨q', v₂, hanswerOf ▸ hperform', hv₂.trans (hv'.trans hw₂.symm), ?_⟩
  rcases hresolver with ⟨hkept, rfl⟩ | ⟨hresolved, rfl, hsame⟩
  · rw [hkept]
    exact ⟨hq, id⟩
  · have hresolver := (hq.resolve_snd _ hsame).trans hresolved.symm
    exact ⟨.inl hresolver, fun hne => absurd hresolver hne⟩

/-- **One operation** on a service whose endpoints are known before their time: it comes to the same, unless it comes to
other endpoints itself, and it leaves them known before their time unless it comes to them. -/
theorem perform_of_ahead (h : op.perform s w = (.ok (s', a), w')) (hv : v.outside = w.outside)
    (hq : Resolver.Ahead found s.resolver q)
    (hfound : q ≠ s.resolver → op = .resetEndpoints ∨ s'.resolver.resolved = none ∨ s'.resolver.resolved = some found) :
    ∃ q' v', op.perform (s.withResolver q) v = (.ok (s'.withResolver q', a), v') ∧ v'.outside = w'.outside ∧
      Resolver.Ahead found s'.resolver q' ∧ (q' ≠ s'.resolver → q ≠ s.resolver ∧ op ≠ .resetEndpoints) := by
  by_cases hop : op = .resetEndpoints
  · subst hop
    cases h
    exact ⟨q.reset, v, rfl, hv, .inl hq.reset, fun hne => absurd hq.reset hne⟩
  cases hrun : op.run? s w with
  | some ρ =>
    obtain ⟨q', v', hperform, hv', hahead, hne⟩ :=
      perform_of_ahead_of_run? hrun h hv hq fun hne => (hfound hne).resolve_left hop
    exact ⟨q', v', hperform, hv', hahead, fun hq' => ⟨hne hq', hop⟩⟩
  | none =>
    cases op with
    | run => cases hrun
    | ensure =>
      cases hvalidator : s.validator with
      | none => simp [run?, hvalidator] at hrun
      | some validator =>
        rw [perform_ensure (Service.ensure_of_some hvalidator w)] at h
        cases h
        exact ⟨q, v, perform_ensure (Service.ensure_of_some (s := s.withResolver q) hvalidator v), hv, hq,
          fun hne => ⟨hne, hop⟩⟩
    | needsRefresh now =>
      cases h
      exact ⟨q, v, rfl, hv, hq, fun hne => ⟨hne, hop⟩⟩
    | status =>
      obtain ⟨t, fields, u, hstatus⟩ : ∃ t fields u, s.status w = (.ok (t, fields), u) := ⟨_, _, _, rfl⟩
      rw [perform_status hstatus] at h
      cases h
      have hendpoints : (s.withResolver q).endpoints = s.endpoints := by
        obtain ⟨-, hresolver, -⟩ := Service.status_of_resolver (q := s.resolver) hstatus rfl w
        refine Service.endpoints_of_ahead hq fun hne => ?_
        rw [hresolver, Resolver.resolve_snd] at hfound
        exact Option.some.inj (((hfound hne).resolve_left hop).resolve_left (Option.some_ne_none _))
      obtain ⟨hstatus', hresolver, rfl⟩ := Service.status_of_resolver hstatus hendpoints v
      have hsame := (hq.resolve_snd _ hendpoints).trans hresolver.symm
      exact ⟨_, _, perform_status hstatus', hv, .inl hsame, fun hne => absurd hsame hne⟩
    | turn sched now =>
      have hdue : s.needsRefresh now ≠ .ok true := by
        intro hdue
        simp [run?, hdue] at hrun
      obtain ⟨r, hidle⟩ := sched.exists_turn_of_not_due hdue
      obtain ⟨u, hturn, hu⟩ := hidle s w rfl
      rw [perform_turn hturn] at h
      cases h
      obtain ⟨u', hturn', hu'⟩ := hidle (s.withResolver q) v rfl
      exact ⟨q, u', perform_turn hturn', hu'.trans (hv.trans hu.symm), hq, fun hne => ⟨hne, hop⟩⟩
    | configure settings =>
      cases h
      exact ⟨q, v, rfl, hv, hq, fun hne => ⟨hne, hop⟩⟩
    | resetEndpoints => exact absurd rfl hop

theorem exists_perform (op : Operation) (s : Service) (w : World) : ∃ s' a w', op.perform s w = (.ok (s', a), w') := by
  cases hrun : op.run? s w with
  | some ρ =>
    obtain ⟨s', r, hfst⟩ := Service.exists_run_fst ρ.service ρ.world
    obtain ⟨w', hperform, -⟩ := perform_of_run? hrun (Prod.ext hfst rfl)
    exact ⟨_, _, _, hperform⟩
  | none =>
    cases op with
    | run => cases hrun
    | ensure =>
      cases hv : s.validator with
      | none => simp [run?, hv] at hrun
      | some v => exact ⟨_, _, _, perform_ensure (Service.ensure_of_some hv w)⟩
    | turn sched now =>
      have hdue : s.needsRefresh now ≠ .ok true := fun hdue => by simp [run?, hdue] at hrun
      obtain ⟨r, hidle⟩ := sched.exists_turn_of_not_due hdue
      obtain ⟨u, hturn, -⟩ := hidle s w rfl
      exact ⟨_, _, _, perform_turn hturn⟩
    | _ => exact ⟨_, _, _, rfl⟩

end Operation

/-! ## Looks among events -/

section

variable [Json.Limits]

namespace Event

variable {e : Event} {s s' : Service} {w v w' : World} {q : Resolver} {found : List String} {a : Operation.Answer}

theorem exists_perform (e : Event) (s : Service) (w : World) : ∃ s' a w', e.perform s w = (.ok (s', a), w') := by
  cases e with
  | surroundings clock files network => exact ⟨_, _, _, rfl⟩
  | operation op => exact op.exists_perform s w

theorem perform_of_ahead (h : e.perform s w = (.ok (s', a), w')) (hv : v.outside = w.outside)
    (hq : Resolver.Ahead found s.resolver q) (hfound : q ≠ s.resolver →
      e = .operation .resetEndpoints ∨ s'.resolver.resolved = none ∨ s'.resolver.resolved = some found) :
    ∃ q' v', e.perform (s.withResolver q) v = (.ok (s'.withResolver q', a), v') ∧ v'.outside = w'.outside ∧
      Resolver.Ahead found s'.resolver q' ∧
      (q' ≠ s'.resolver → q ≠ s.resolver ∧ e ≠ .operation .resetEndpoints) := by
  cases e with
  | surroundings clock files network =>
    cases h
    obtain ⟨-, hrequests⟩ := World.outside_eq_iff.1 hv
    exact ⟨q, _, rfl, World.outside_eq_iff.2 ⟨rfl, hrequests⟩, hq, fun hne => ⟨hne, nofun⟩⟩
  | operation op =>
    have hfound' : q ≠ s.resolver → op = .resetEndpoints ∨ s'.resolver.resolved = none ∨
        s'.resolver.resolved = some found := fun hne => by simpa using hfound hne
    obtain ⟨q', v', hperform, hv', hahead, hne⟩ := Operation.perform_of_ahead h hv hq hfound'
    exact ⟨q', v', hperform, hv', hahead, fun hq' => by simpa using hne hq'⟩

end Event

/-- What an event comes to: the answer, the service but for the endpoints, and what is outside of it. -/
structure Effect where
  answer : Except Failure Operation.Answer
  service : Service
  outside : Int × FileTree × Network × List (String × Binary64)

/-- An event, or a look between events. -/
inductive Step where
  | event (e : Event)
  | look (l : Look)

namespace Situation

/-- The situation that an event leaves behind. -/
def after (x : Situation) (e : Event) : Situation :=
  ⟨x.service.left (e.perform x.service x.world).1, (e.perform x.service x.world).2⟩

def effect (x : Situation) (e : Event) : Effect :=
  ⟨(e.perform x.service x.world).1.map Prod.snd,
    (x.after e).service.withResolver (x.after e).service.resolver.reset, (x.after e).world.outside⟩

/-- The situation that a look leaves behind. -/
def seen (x : Situation) : Look → Situation
  | .call => ⟨x.service.left (x.service.status x.world).1, (x.service.status x.world).2⟩
  | .request r _ => ⟨Http.leaves x.service r x.world, (Http.handle x.service r x.world).2⟩

def step (x : Situation) : Step → Situation
  | .event e => x.after e
  | .look l => x.seen l

/-- The effects of the events among steps, in their order. -/
def effects (x : Situation) : List Step → List Effect
  | [] => []
  | .event e :: steps => x.effect e :: (x.after e).effects steps
  | .look l :: steps => (x.seen l).effects steps

end Situation

namespace Step

/-- The events among steps. -/
def events : List Step → List Event
  | [] => []
  | .event e :: steps => e :: events steps
  | .look _ :: steps => events steps

end Step

/-- What has been found for the endpoints is what comes of them without a look: the next event that comes to the
endpoints comes to these, if there is one before they are reset. -/
inductive FindsAgain (found : List String) : Situation → List Event → Prop
  | nothing {x : Situation} : FindsAgain found x []
  | reset {x : Situation} {events : List Event} : FindsAgain found x (.operation .resetEndpoints :: events)
  | resolved {x : Situation} {e : Event} {events : List Event}
      (h : (x.after e).service.resolver.resolved = some found) : FindsAgain found x (e :: events)
  | unresolved {x : Situation} {e : Event} {events : List Event} (h : (x.after e).service.resolver.resolved = none)
      (hrest : FindsAgain found (x.after e) events) : FindsAgain found x (e :: events)

namespace Situation

/-- Each look finds for the endpoints what comes of them without any look. -/
def Harmless (x : Situation) (steps : List Step) : Prop :=
  ∀ before l after, steps = before ++ .look l :: after →
    FindsAgain (before.foldl step x).service.endpoints ((Step.events before).foldl Situation.after x) (Step.events after)

/-- A situation is another but for the log, and for the endpoints that a look has found before their time. -/
structure Resembles (x y : Situation) (events : List Event) : Prop where
  service : ∃ q, y.service = x.service.withResolver q
  outside : y.world.outside = x.world.outside
  resolver : y.service.resolver = x.service.resolver ∨ ∃ found,
    Resolver.Ahead found x.service.resolver y.service.resolver ∧ FindsAgain found x events

variable {x y : Situation} {e : Event} {l : Look} {events : List Event}

/-- A look resolves the endpoints, and nothing else comes of it. -/
theorem seen_spec (x : Situation) (l : Look) :
    (x.seen l).service = x.service.withResolver (x.service.resolver.resolvedTo x.service.endpoints) ∧
      (x.seen l).world.outside = x.world.outside := by
  obtain ⟨s, w⟩ := x
  have hresolved : (s.resolver.resolve s.settings).2 = s.resolver.resolvedTo s.endpoints :=
    s.resolver.resolve_snd s.settings
  rw [← hresolved]
  cases l with
  | call => exact ⟨rfl, rfl⟩
  | request r h =>
    have hfind : Http.find r.method false "/api/mds/status".toList = .route Http.statusRoute := by
      rw [h.method]
      rfl
    have hmethod : r.method ≠ "OPTIONS" := by
      rw [h.method]
      decide
    have hrun : ∃ x, Http.statusRoute.run s r w =
        (.ok (s.withResolver (s.resolver.resolve s.settings).2, x), s.buildingWorld w) := ⟨_, rfl⟩
    obtain ⟨_, hrun⟩ := hrun
    obtain ⟨hs, hw⟩ := Http.handle_of_route h.target hfind hmethod hrun
    exact ⟨hs, hw.trans rfl⟩

theorem after_of_perform {s' : Service} {a : Operation.Answer} {w' : World}
    (h : e.perform x.service x.world = (.ok (s', a), w')) : x.after e = ⟨s', w'⟩ ∧
      x.effect e = ⟨.ok a, s'.withResolver s'.resolver.reset, w'.outside⟩ := by
  simp [after, effect, h, Service.left, Except.map]

/-- An event in a situation with the endpoints known before their time, unless it comes to others. -/
theorem after_of_ahead {q : Resolver} {found : List String} (hservice : y.service = x.service.withResolver q)
    (houtside : y.world.outside = x.world.outside) (hq : Resolver.Ahead found x.service.resolver q)
    (hfound : q ≠ x.service.resolver → e = .operation .resetEndpoints ∨
      (x.after e).service.resolver.resolved = none ∨ (x.after e).service.resolver.resolved = some found) :
    y.effect e = x.effect e ∧ (y.after e).world.outside = (x.after e).world.outside ∧
    ∃ q', (y.after e).service = (x.after e).service.withResolver q' ∧
      Resolver.Ahead found (x.after e).service.resolver q' ∧
      (q' ≠ (x.after e).service.resolver → q ≠ x.service.resolver ∧ e ≠ .operation .resetEndpoints) := by
  obtain ⟨s', a, w', hx⟩ := e.exists_perform x.service x.world
  obtain ⟨hxafter, hxeffect⟩ := after_of_perform hx
  rw [hxafter] at hfound ⊢
  obtain ⟨q', v', hy, hv', hahead, hne⟩ := Event.perform_of_ahead hx houtside hq hfound
  rw [← hservice] at hy
  obtain ⟨hyafter, hyeffect⟩ := after_of_perform hy
  rw [hyafter]
  refine ⟨?_, hv', q', rfl, hahead, hne⟩
  rw [hyeffect, hxeffect, hv', Service.withResolver_withResolver, Service.withResolver_resolver, hahead.reset]

/-- One event, with a look before it and without. -/
theorem Resembles.event (h : Resembles x y (e :: events)) :
    y.effect e = x.effect e ∧ Resembles (x.after e) (y.after e) events := by
  obtain ⟨⟨q, hservice⟩, houtside, hresolver⟩ := h
  rw [hservice, Service.withResolver_resolver] at hresolver
  -- either the endpoints are those of the event's own making afterwards, or they are still known before their time
  have hresembles : ∀ {q'}, (y.after e).world.outside = (x.after e).world.outside →
      (y.after e).service = (x.after e).service.withResolver q' → (q' = (x.after e).service.resolver ∨
        ∃ found, Resolver.Ahead found (x.after e).service.resolver q' ∧ FindsAgain found (x.after e) events) →
      Resembles (x.after e) (y.after e) events := by
    intro q' hworld hafter hcases
    refine ⟨⟨q', hafter⟩, hworld, ?_⟩
    rwa [hafter, Service.withResolver_resolver]
  rcases hresolver with heq | ⟨found, hahead, hfinds⟩
  · have hahead : Resolver.Ahead [] x.service.resolver q := .inl heq
    obtain ⟨heffect, hworld, q', hafter, -, hne⟩ := after_of_ahead (e := e) hservice houtside hahead (absurd heq)
    exact ⟨heffect, hresembles hworld hafter (.inl (Classical.byContradiction fun h => (hne h).1 heq))⟩
  · cases hfinds with
    | reset =>
      obtain ⟨heffect, hworld, q', hafter, -, hne⟩ := after_of_ahead hservice houtside hahead fun _ => .inl rfl
      exact ⟨heffect, hresembles hworld hafter (.inl (Classical.byContradiction fun h => (hne h).2 rfl))⟩
    | resolved hfound =>
      obtain ⟨heffect, hworld, q', hafter, hahead', -⟩ :=
        after_of_ahead hservice houtside hahead fun _ => .inr (.inr hfound)
      refine ⟨heffect, hresembles hworld hafter (.inl (hahead'.resolve_right fun h => ?_))⟩
      cases hfound.symm.trans h.1
    | unresolved hnone hrest =>
      obtain ⟨heffect, hworld, q', hafter, hahead', -⟩ :=
        after_of_ahead hservice houtside hahead fun _ => .inr (.inl hnone)
      exact ⟨heffect, hresembles hworld hafter (.inr ⟨found, hahead', hrest⟩)⟩

/-- A look, where what it finds comes of the endpoints anyway. -/
theorem Resembles.look (h : Resembles x y events) (hfinds : FindsAgain y.service.endpoints x events) :
    Resembles x (y.seen l) events := by
  obtain ⟨hservice, hworld⟩ := y.seen_spec l
  obtain ⟨q, hq⟩ := h.service
  refine ⟨⟨_, by rw [hservice, hq, Service.withResolver_withResolver]⟩, hworld.trans h.outside, ?_⟩
  rw [hservice, Service.withResolver_resolver]
  cases hresolved : y.service.resolver.resolved with
  | some found =>
    have hkept : y.service.resolver.resolvedTo y.service.endpoints = y.service.resolver :=
      Resolver.resolvedTo_of_resolved hresolved y.service.settings
    rw [hkept]
    exact h.resolver
  | none =>
    have hsame : y.service.resolver = x.service.resolver := by
      rcases h.resolver with heq | ⟨found, heq | ⟨-, hahead⟩, -⟩
      · exact heq
      · exact heq
      · rw [hahead] at hresolved
        cases hresolved
    rw [hsame] at hresolved ⊢
    exact .inr ⟨_, .inr ⟨hresolved, rfl⟩, hfinds⟩

theorem effects_of_resembles : ∀ (steps : List Step) {x y : Situation}, Resembles x y (Step.events steps) →
    (∀ before l after, steps = before ++ .look l :: after → FindsAgain (before.foldl step y).service.endpoints
      ((Step.events before).foldl Situation.after x) (Step.events after)) →
    y.effects steps = x.effects ((Step.events steps).map .event)
  | [], _, _, _, _ => rfl
  | .event e :: steps, x, y, hxy, h => by
    obtain ⟨heffect, hafter⟩ := hxy.event
    have hrest := effects_of_resembles steps hafter fun before l after hsteps =>
      h (.event e :: before) l after (congrArg (.event e :: ·) hsteps)
    exact congrArg₂ List.cons heffect hrest
  | .look l :: steps, x, y, hxy, h =>
    effects_of_resembles steps (hxy.look (h [] l steps rfl)) fun before l' after hsteps =>
      h (.look l :: before) l' after (congrArg (.look l :: ·) hsteps)

/-- **Looks among events.**  A look resolves the endpoints and does nothing else; so looks at any places change nothing in
what comes of the events, as long as what each of them finds for the endpoints is what the events find without it. -/
theorem effects_of_looks (x : Situation) (steps : List Step) :
    (∀ (y : Situation) (l : Look),
      (y.seen l).service = y.service.withResolver (y.service.resolver.resolvedTo y.service.endpoints) ∧
      (y.seen l).world.outside = y.world.outside) ∧
    (x.Harmless steps → x.effects steps = x.effects ((Step.events steps).map .event)) :=
  ⟨fun y l => y.seen_spec l, effects_of_resembles steps ⟨⟨x.service.resolver, rfl⟩, rfl, .inl rfl⟩⟩

/-- A single look, before the events. -/
theorem harmless_of_first (h : FindsAgain x.service.endpoints x events) :
    x.Harmless (.look l :: events.map .event) := by
  have hevents : Step.events (events.map .event) = events := by
    clear h
    induction events with
    | nil => rfl
    | cons e events ih => exact congrArg (e :: ·) ih
  intro before l' after hsteps
  cases before with
  | nil =>
    obtain ⟨-, rfl⟩ := List.cons.inj hsteps
    rw [hevents]
    exact h
  | cons s before =>
    obtain ⟨-, hrest⟩ := List.cons.inj hsteps
    have hmem : Step.look l' ∈ events.map Step.event := hrest ▸ by simp
    simp at hmem

end Situation

end

namespace Situation

/-- A new service in a world with a root certificate. -/
def rooted (settings : Settings) : Situation :=
  ⟨Service.new ((Setting.rootCertificate.key, .text "root") :: settings) Resolver.default,
    ⟨0, FileTree.empty.put ["root"] (.file Validator.shortRoot true), .empty, [], [], []⟩⟩

/-- A run after a change of the settings. -/
def configuredRun (settings : Settings) : List Event :=
  [.operation (.configure ((Setting.rootCertificate.key, .text "root") :: settings)), .operation .run]

open scoped Json.Limits

theorem effects_of_looks_at_one_endpoint :
    let x := rooted [(Setting.endpoints.key, .text "https://a")]
    let steps := Step.look .call ::
      (configuredRun [(Setting.endpoints.key, .list [.text "https://a"]), (Setting.statements.key, .text "s")]).map .event
    x.Harmless steps ∧ x.effects steps = x.effects ((Step.events steps).map .event) := by
  intro x steps
  have hharmless : x.Harmless steps := harmless_of_first (.unresolved rfl (.resolved (by decide +kernel)))
  exact ⟨hharmless, (effects_of_looks x steps).2 hharmless⟩

/-- A look before the endpoints are taken out of the settings: the run still asks for one of them. -/
theorem effects_of_look_before_configure :
    let x := rooted [(Setting.endpoints.key, .text "https://a")]
    let steps := Step.look .call :: (configuredRun []).map .event
    x.effects steps ≠ x.effects ((Step.events steps).map .event) := by
  intro x steps h
  have hrequests : (x.effects steps).map (fun e => e.outside.2.2.2) ≠
      (x.effects ((Step.events steps).map .event)).map (fun e => e.outside.2.2.2) := by decide +kernel
  exact hrequests (congrArg (List.map fun e => e.outside.2.2.2) h)

end Situation
end AttestationTrust
