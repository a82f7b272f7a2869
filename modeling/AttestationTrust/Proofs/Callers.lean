import Mathlib.Logic.Function.Basic
import AttestationTrust.Proofs.Run
/-!
# Callers that wait for each other

Any number of callers that ask one service for its validator, each a process of its own: it looks for a validator,
notes how many runs have been started, waits for the lock that runs are made under, and then answers or makes a run.
The steps of different callers come in any order, and everything that is not under the lock comes between any two of
them.  A caller alone does what `Service.ensure` does (`Callers.exists_steps_of_ensure`).

A run counts from its start.  So a run that is started after a caller has noted the number answers for that caller,
however it ends; one that was started before answers for it only by the validator that it publishes.
-/
namespace AttestationTrust

/-- How far a caller has come. -/
inductive Place where
  | outside
  /-- No validator was published when it looked. -/
  | looked
  | waiting (seen : Nat)
  | deciding (seen : Nat)
  | running
  /-- Its run is over, and it still holds the lock. -/
  | ended (r : Except Failure Stage)
  | fetching
  | left (r : Except Failure (Option Validator))

/-- Between taking the lock and letting go of it. -/
def Place.IsInside : Place → Prop
  | .deciding _ => True
  | .running => True
  | .ended _ => True
  | _ => False

/-- Callers of one service, and which of them holds the lock. -/
structure Callers (ι : Type) where
  service : Service
  holder : Option ι
  place : ι → Place

/-- A step of a caller, or a change of the settings. -/
inductive CallEvent (ι : Type) where
  | find (i : ι)
  | miss (i : ι)
  | note (i : ι)
  | enter (i : ι)
  | answer (i : ι)
  | launch (i : ι) (clock : Int)
  | finish (i : ι) (w : World)
  | release (i : ι)
  | fetch (i : ι)
  | again (i : ι)
  | configure (settings : Settings)

namespace CallEvent

variable {ι : Type}

def caller? : CallEvent ι → Option ι
  | .find i => some i
  | .miss i => some i
  | .note i => some i
  | .enter i => some i
  | .answer i => some i
  | .launch i _ => some i
  | .finish i _ => some i
  | .release i => some i
  | .fetch i => some i
  | .again i => some i
  | .configure _ => none

/-- A run is started. -/
def launches : CallEvent ι → Bool
  | .launch _ _ => true
  | _ => false

end CallEvent

namespace Callers

variable {ι : Type}

/-- Nobody has called yet. -/
def before (s : Service) : Callers ι := ⟨s, none, fun _ => .outside⟩

/-- The lock is held by whoever is inside, a run is under way only where nothing is published, and one that has ended
under the lock has published a validator or left none. -/
structure Guarded (σ : Callers ι) : Prop where
  inside : ∀ i, (σ.place i).IsInside ↔ σ.holder = some i
  unpublished : ∀ i, σ.place i = .running → σ.service.validator = none
  settled : ∀ i r, σ.place i = .ended r → (σ.service.validator = none ↔ r ≠ .ok .ready)

theorem guarded_before (s : Service) : Guarded (before s : Callers ι) := by
  refine ⟨fun i => ?_, fun i h => ?_, fun i r h => ?_⟩
  · simp [before, Place.IsInside]
  · cases h
  · cases h

/-- Two callers are not inside at once. -/
theorem Guarded.eq_of_inside {σ : Callers ι} {i j : ι} (hσ : Guarded σ) (hi : (σ.place i).IsInside)
    (hj : (σ.place j).IsInside) : i = j := by
  have h := (hσ.inside i).1 hi
  rw [(hσ.inside j).1 hj] at h
  exact (Option.some.inj h).symm

section

variable [DecidableEq ι] {σ : Callers ι} {i j : ι} {p : Place}

def move (σ : Callers ι) (i : ι) (p : Place) : Callers ι := { σ with place := Function.update σ.place i p }

@[simp] theorem move_place_self : (σ.move i p).place i = p := by simp [move]

theorem move_place_of_ne (h : j ≠ i) : (σ.move i p).place j = σ.place j := by simp [move, h]

@[simp] theorem move_holder : (σ.move i p).holder = σ.holder := rfl

variable [Json.Limits]

/-- Where a caller goes when it lets go of the lock after a run of its own. -/
def afterRun : Except Failure Stage → Place
  | .ok _ => .fetching
  | .error (.service _) => .left (.ok none)
  | .error f => .left (.error f)

inductive Step : Callers ι → CallEvent ι → Callers ι → Prop
  | find {σ : Callers ι} {i : ι} {v : Validator} (h : σ.place i = .outside) (hv : σ.service.validator = some v) :
      Step σ (.find i) (σ.move i (.left (.ok (some v))))
  | miss {σ : Callers ι} {i : ι} (h : σ.place i = .outside) (hv : σ.service.validator = none) :
      Step σ (.miss i) (σ.move i .looked)
  | note {σ : Callers ι} {i : ι} (h : σ.place i = .looked) :
      Step σ (.note i) (σ.move i (.waiting σ.service.attempts))
  | enter {σ : Callers ι} {i : ι} {seen : Nat} (h : σ.place i = .waiting seen) (hfree : σ.holder = none) :
      Step σ (.enter i) { σ.move i (.deciding seen) with holder := some i }
  | answer {σ : Callers ι} {i : ι} {seen : Nat} (h : σ.place i = .deciding seen)
      (ha : σ.service.isAnswered seen = true) :
      Step σ (.answer i) { σ.move i (.left (.ok σ.service.validator)) with holder := none }
  | launch {σ : Callers ι} {i : ι} {seen : Nat} (clock : Int) (h : σ.place i = .deciding seen)
      (ha : σ.service.isAnswered seen = false) :
      Step σ (.launch i clock) { σ.move i .running with service := σ.service.start clock }
  | finish {σ : Callers ι} {i : ι} {w : World} {s : Service} {r : Except Failure Stage} (h : σ.place i = .running)
      (hr : (σ.service.proceed w).1 = .ok (s, r)) :
      Step σ (.finish i w) { σ.move i (.ended r) with service := s }
  | release {σ : Callers ι} {i : ι} {r : Except Failure Stage} (h : σ.place i = .ended r) :
      Step σ (.release i) { σ.move i (afterRun r) with holder := none }
  | fetch {σ : Callers ι} {i : ι} (h : σ.place i = .fetching) :
      Step σ (.fetch i) (σ.move i (.left (.ok σ.service.validator)))
  | again {σ : Callers ι} {i : ι} {r : Except Failure (Option Validator)} (h : σ.place i = .left r) :
      Step σ (.again i) (σ.move i .outside)
  | configure {σ : Callers ι} (settings : Settings) :
      Step σ (.configure settings) { σ with service := { σ.service with settings := settings } }

inductive Steps : Callers ι → List (CallEvent ι) → Callers ι → Prop
  | nil (σ : Callers ι) : Steps σ [] σ
  | cons {σ τ υ : Callers ι} {e : CallEvent ι} {es : List (CallEvent ι)} (h : Step σ e τ) (hs : Steps τ es υ) :
      Steps σ (e :: es) υ

variable {τ υ : Callers ι} {e : CallEvent ι} {es : List (CallEvent ι)}

theorem Steps.append {fs : List (CallEvent ι)} (h : Steps σ es τ) (h' : Steps τ fs υ) : Steps σ (es ++ fs) υ := by
  induction h with
  | nil => exact h'
  | cons h _ ih => exact .cons h (ih h')

/-- A caller stays where it is while others take their steps. -/
theorem Step.place_of_ne (h : Step σ e τ) (hi : e.caller? ≠ some i) : τ.place i = σ.place i := by
  cases h with
  | configure settings => rfl
  | _ => exact move_place_of_ne fun heq => hi (congrArg some heq.symm)

theorem Steps.place_of_ne (h : Steps σ es τ) (hi : ∀ e ∈ es, e.caller? ≠ some i) : τ.place i = σ.place i := by
  induction h with
  | nil => rfl
  | cons h _ ih =>
    obtain ⟨he, hes⟩ := List.forall_mem_cons.1 hi
    rw [ih hes, h.place_of_ne he]

theorem Step.attempts (h : Step σ e τ) :
    τ.service.attempts = σ.service.attempts + if e.launches then 1 else 0 := by
  cases h with
  | finish h hr => exact (Service.proceed_fst_eq_ok_iff.1 hr).attempts
  | _ => rfl

/-- The number of attempts grows by one with every run that is started. -/
theorem Steps.attempts (h : Steps σ es τ) :
    τ.service.attempts = σ.service.attempts + es.countP CallEvent.launches := by
  induction h with
  | nil => rfl
  | cons h _ ih =>
    rw [ih, h.attempts, List.countP_cons]
    omega

section

omit [Json.Limits]

theorem Guarded.inside_move {holder : Option ι} (hσ : Guarded σ) (hp : p.IsInside ↔ holder = some i)
    (hothers : ∀ j, j ≠ i → (σ.holder = some j ↔ holder = some j)) (j : ι) :
    ((σ.move i p).place j).IsInside ↔ holder = some j := by
  by_cases hj : j = i
  · subst hj
    rw [move_place_self]
    exact hp
  · rw [move_place_of_ne hj, hσ.inside j]
    exact hothers j hj

theorem ne_of_not_isInside {q : Place} (hp : ¬ p.IsInside) (hq : q.IsInside) : p ≠ q := by
  rintro rfl
  exact hp hq

/-- Where one caller moves, another place holds whom it held before. -/
theorem place_of_move {q : Place} (hp : p ≠ q) (h : (σ.move i p).place j = q) : σ.place j = q := by
  by_cases hj : j = i
  · subst hj
    rw [move_place_self] at h
    exact absurd h hp
  · rwa [move_place_of_ne hj] at h

/-- A caller moves without the lock. -/
theorem Guarded.move (hσ : Guarded σ) (hi : ¬ (σ.place i).IsInside) (hp : ¬ p.IsInside) : Guarded (σ.move i p) := by
  have hholder : σ.holder ≠ some i := fun h => hi ((hσ.inside i).2 h)
  refine ⟨hσ.inside_move (by simp [hp, hholder]) fun _ _ => Iff.rfl, fun j hj => ?_, fun j r hj => ?_⟩
  · exact hσ.unpublished j (place_of_move (ne_of_not_isInside hp trivial) hj)
  · exact hσ.settled j r (place_of_move (ne_of_not_isInside hp trivial) hj)

/-- A caller takes the lock. -/
theorem Guarded.lock {seen : Nat} (hσ : Guarded σ) (hfree : σ.holder = none) :
    Guarded { σ.move i (.deciding seen) with holder := some i } := by
  refine ⟨hσ.inside_move (by simp [Place.IsInside]) fun j hj => ?_, fun j hj => ?_, fun j r hj => ?_⟩
  · simp [hfree, Ne.symm hj]
  · exact hσ.unpublished j (place_of_move (by simp) hj)
  · exact hσ.settled j r (place_of_move (by simp) hj)

/-- A caller lets go of the lock. -/
theorem Guarded.unlock (hσ : Guarded σ) (hi : (σ.place i).IsInside) (hp : ¬ p.IsInside) :
    Guarded { σ.move i p with holder := none } := by
  have hholder := (hσ.inside i).1 hi
  refine ⟨hσ.inside_move (by simp [hp]) fun j hj => ?_, fun j hj => ?_, fun j r hj => ?_⟩
  · simp [hholder, Ne.symm hj]
  · exact hσ.unpublished j (place_of_move (ne_of_not_isInside hp trivial) hj)
  · exact hσ.settled j r (place_of_move (ne_of_not_isInside hp trivial) hj)

/-- A caller changes the service under the lock. -/
theorem Guarded.change {s : Service} (hσ : Guarded σ) (hi : (σ.place i).IsInside) (hp : p.IsInside)
    (hrun : p = .running → s.validator = none) (hend : ∀ r, p = .ended r → (s.validator = none ↔ r ≠ .ok .ready)) :
    Guarded { σ.move i p with service := s } := by
  have hholder := (hσ.inside i).1 hi
  have honly : ∀ j, ((σ.move i p).place j).IsInside → j = i := by
    intro j hj
    by_cases hji : j = i
    · exact hji
    · rw [move_place_of_ne hji] at hj
      exact hσ.eq_of_inside hj hi
  refine ⟨hσ.inside_move (by simp [hp, hholder]) fun _ _ => Iff.rfl, fun j hj => ?_, fun j r hj => ?_⟩
  · obtain rfl := honly j (hj ▸ trivial)
    exact hrun (move_place_self.symm.trans hj)
  · obtain rfl := honly j (hj ▸ trivial)
    exact hend r (move_place_self.symm.trans hj)

theorem afterRun_not_isInside (r : Except Failure Stage) : ¬ (afterRun r).IsInside := by
  cases r with
  | ok stage => exact id
  | error f => cases f <;> exact id

theorem validator_eq_none_of_not_answered {s : Service} {seen : Nat} (h : s.isAnswered seen = false) :
    s.validator = none ∧ s.attempts = seen := by
  simpa [Service.isAnswered] using h

end

theorem Guarded.step (hσ : Guarded σ) (h : Step σ e τ) : Guarded τ := by
  cases h with
  | find h hv => exact hσ.move (by rw [h]; exact id) id
  | miss h hv => exact hσ.move (by rw [h]; exact id) id
  | note h => exact hσ.move (by rw [h]; exact id) id
  | enter h hfree => exact hσ.lock hfree
  | answer h ha => exact hσ.unlock (by rw [h]; trivial) id
  | launch clock h ha =>
    exact hσ.change (by rw [h]; trivial) trivial (fun _ => (validator_eq_none_of_not_answered ha).1)
      fun r hend => nomatch hend
  | @finish i w s r h hr =>
    have hnone := hσ.unpublished i h
    refine hσ.change (by rw [h]; trivial) trivial (fun hrun => nomatch hrun) fun r' hend => ?_
    cases hend
    rw [(Service.proceed_fst_eq_ok_iff.1 hr).validator_eq_none_iff]
    simp [hnone]
  | release h => exact hσ.unlock (by rw [h]; trivial) (afterRun_not_isInside _)
  | fetch h => exact hσ.move (by rw [h]; exact id) id
  | again h => exact hσ.move (by rw [h]; exact id) id
  | configure settings => exact ⟨hσ.inside, hσ.unpublished, hσ.settled⟩

theorem Guarded.steps (hσ : Guarded σ) (h : Steps σ es τ) : Guarded τ := by
  induction h with
  | nil => exact hσ
  | cons h _ ih => exact ih (hσ.step h)

/-- While one caller holds the lock, the others change neither what is published nor the number of runs. -/
theorem Guarded.step_of_held (hσ : Guarded σ) (hheld : σ.holder = some i) (h : Step σ e τ) (hi : e.caller? ≠ some i) :
    τ.holder = some i ∧ τ.service.validator = σ.service.validator ∧ τ.service.attempts = σ.service.attempts := by
  have honly : ∀ j, (σ.place j).IsInside → some j = some i := fun j hj => ((hσ.inside j).1 hj).symm.trans hheld
  cases h with
  | enter h hfree =>
    rw [hfree] at hheld
    cases hheld
  | answer h ha => exact absurd (honly _ (by rw [h]; trivial)) hi
  | launch clock h ha => exact absurd (honly _ (by rw [h]; trivial)) hi
  | finish h hr => exact absurd (honly _ (by rw [h]; trivial)) hi
  | release h => exact absurd (honly _ (by rw [h]; trivial)) hi
  | _ => exact ⟨hheld, rfl, rfl⟩

theorem Guarded.steps_of_held (hσ : Guarded σ) (hheld : σ.holder = some i) (h : Steps σ es τ)
    (hi : ∀ e ∈ es, e.caller? ≠ some i) :
    τ.service.validator = σ.service.validator ∧ τ.service.attempts = σ.service.attempts := by
  induction h with
  | nil => exact ⟨rfl, rfl⟩
  | cons h _ ih =>
    obtain ⟨he, hes⟩ := List.forall_mem_cons.1 hi
    obtain ⟨hheld', hvalidator, hattempts⟩ := hσ.step_of_held hheld h he
    obtain ⟨hvalidator', hattempts'⟩ := ih (hσ.step h) hheld' hes
    exact ⟨hvalidator'.trans hvalidator, hattempts'.trans hattempts⟩

/-- Where no run is under way and none is started, nothing is published. -/
theorem Step.validator_of_quiet (h : Step σ e τ) (hl : e.launches = false) (hq : ∀ j, σ.place j ≠ .running) :
    (∀ j, τ.place j ≠ .running) ∧ τ.service.validator = σ.service.validator := by
  cases h with
  | launch clock h ha => cases hl
  | finish h hr => exact absurd h (hq _)
  | release h =>
    exact ⟨fun j hj => hq j (place_of_move (ne_of_not_isInside (afterRun_not_isInside _) trivial) hj), rfl⟩
  | configure settings => exact ⟨hq, rfl⟩
  | _ => exact ⟨fun j hj => hq j (place_of_move (by simp) hj), rfl⟩

theorem Steps.validator_of_quiet (h : Steps σ es τ) (hl : ∀ e ∈ es, e.launches = false)
    (hq : ∀ j, σ.place j ≠ .running) : τ.service.validator = σ.service.validator := by
  induction h with
  | nil => rfl
  | cons h _ ih =>
    obtain ⟨he, hes⟩ := List.forall_mem_cons.1 hl
    obtain ⟨hq', hvalidator⟩ := h.validator_of_quiet he hq
    exact (ih hes hq').trans hvalidator

/-- The next step of a caller that makes a run finishes it. -/
theorem Step.of_running (h : Step σ e τ) (hrun : σ.place j = .running) (hj : e.caller? = some j) :
    ∃ w r, e = .finish j w ∧ τ.place j = .ended r := by
  have hplace : ∀ {k p}, σ.place k = p → some k = some j → p = .running := by
    rintro k p rfl hk
    cases hk
    exact hrun
  cases h with
  | @finish k w s r h hr =>
    cases hj
    exact ⟨w, r, rfl, move_place_self⟩
  | find h _ => cases hplace h hj
  | miss h _ => cases hplace h hj
  | note h => cases hplace h hj
  | enter h _ => cases hplace h hj
  | answer h _ => cases hplace h hj
  | launch _ h _ => cases hplace h hj
  | release h => cases hplace h hj
  | fetch h => cases hplace h hj
  | again h => cases hplace h hj
  | configure settings => cases hj

/-- A run that is under way is finished before the lock is free. -/
theorem Steps.exists_finish (h : Steps σ es τ) (hσ : Guarded σ) (hrun : σ.place j = .running)
    (hfree : τ.holder = none) :
    ∃ earlier w later μ ν r, es = earlier ++ .finish j w :: later ∧ Steps σ earlier μ ∧ Step μ (.finish j w) ν ∧
      ν.place j = .ended r ∧ Steps ν later τ := by
  induction h with
  | nil =>
    have hheld := (hσ.inside j).1 (by rw [hrun]; trivial)
    rw [hfree] at hheld
    cases hheld
  | @cons σ τ υ e es h hs ih =>
    by_cases hj : e.caller? = some j
    · obtain ⟨w, r, rfl, hended⟩ := h.of_running hrun hj
      exact ⟨[], w, es, σ, τ, r, rfl, .nil σ, h, hended, hs⟩
    · obtain ⟨earlier, w, later, μ, ν, r, rfl, hearlier, hfinish, hended, hlater⟩ :=
        ih (hσ.step h) ((h.place_of_ne hj).trans hrun) hfree
      exact ⟨e :: earlier, w, later, μ, ν, r, rfl, .cons h hearlier, hfinish, hended, hlater⟩

/-- What is published once a run has ended, where none is started after it, is what that run has left. -/
theorem Guarded.validator_of_ended {r : Except Failure Stage} (hσ : Guarded σ) (hended : σ.place j = .ended r)
    (h : Steps σ es τ) (hl : ∀ e ∈ es, e.launches = false) : τ.service.validator = none ↔ r ≠ .ok .ready := by
  have hquiet : ∀ k, σ.place k ≠ .running := by
    intro k hk
    have hkj : k = j := hσ.eq_of_inside (by rw [hk]; trivial) (by rw [hended]; trivial)
    rw [hkj, hended] at hk
    cases hk
  rw [h.validator_of_quiet hl hquiet]
  exact hσ.settled j r hended

/-- A caller that is to decide launches a run or answers, whichever the service says. -/
theorem launch_iff {seen : Nat} (h : σ.place i = .deciding seen) :
    (∃ clock τ, Step σ (.launch i clock) τ) ↔ σ.service.isAnswered seen = false := by
  constructor
  · rintro ⟨clock, τ, hstep⟩
    cases hstep with
    | launch _ h' ha =>
      rw [h] at h'
      cases h'
      exact ha
  · exact fun ha => ⟨0, _, .launch 0 h ha⟩

theorem answer_iff {seen : Nat} (h : σ.place i = .deciding seen) :
    (∃ τ, Step σ (.answer i) τ) ↔ σ.service.isAnswered seen = true := by
  constructor
  · rintro ⟨τ, hstep⟩
    cases hstep with
    | answer h' ha =>
      rw [h] at h'
      cases h'
      exact ha
  · exact fun ha => ⟨_, .answer h ha⟩

theorem Step.place_of_answer (h : Step σ (.answer i) τ) : τ.place i = .left (.ok σ.service.validator) := by
  cases h
  exact move_place_self

/-- A caller that is alone does what `Service.ensure` does. -/
theorem exists_steps_of_ensure (i : ι) {s s' : Service} {w : World} {r : Except Failure (Option Validator)}
    (h : (s.ensure w).1 = .ok (s', r)) :
    ∃ es τ, Steps (before s) es τ ∧ τ.service = s' ∧ τ.holder = none ∧ τ.place i = .left r := by
  cases hv : s.validator with
  | some v =>
    rw [Service.ensure_fst_of_some hv] at h
    cases h
    exact ⟨[.find i], _, .cons (.find rfl hv) (.nil _), rfl, rfl, move_place_self⟩
  | none =>
    obtain ⟨s₁, e, hrun⟩ := Service.exists_run_fst s w
    rw [Service.ensure_fst_of_none hv hrun] at h
    cases h
    have hunanswered : s.isAnswered s.attempts = false := by simp [Service.isAnswered, hv]
    obtain ⟨τ, hsteps, hservice, hfree, hplace⟩ : ∃ τ : Callers ι, Steps (before s)
        [.miss i, .note i, .enter i, .launch i w.clock, .finish i w, .release i] τ ∧
        τ.service = s' ∧ τ.holder = none ∧ τ.place i = afterRun e :=
      ⟨_, .cons (.miss rfl hv) (.cons (.note move_place_self) (.cons (.enter move_place_self rfl)
        (.cons (.launch w.clock move_place_self hunanswered) (.cons (.finish move_place_self hrun)
          (.cons (.release move_place_self) (.nil _)))))), rfl, rfl, move_place_self⟩
    cases e with
    | ok stage =>
      refine ⟨_, _, hsteps.append (.cons (.fetch hplace) (.nil _)), hservice, hfree, ?_⟩
      rw [move_place_self, hservice]
      rfl
    | error f =>
      refine ⟨_, τ, hsteps, hservice, hfree, ?_⟩
      rw [hplace]
      cases f <;> rfl

/-- **Which caller makes a run of its own.**  A caller that has noted the number of runs at `σ` and has the lock from
`τ` on makes a run just when no validator is published by then and no run has been started since its note; otherwise it
answers, with what is published by then.  A run that was under way at its note, or had ended and not yet let go of the
lock, therefore answers for it if and only if that run becomes ready, unless another is started in between. -/
theorem launches_iff {s : Service} {start mid rest : List (CallEvent ι)} {σ σ' τ τ' υ : Callers ι}
    (hstart : Steps (before s) start σ) (hnote : Step σ (.note i) σ') (hmid : Steps σ' mid τ)
    (hmidi : ∀ e ∈ mid, e.caller? ≠ some i) (henter : Step τ (.enter i) τ') (hrest : Steps τ' rest υ)
    (hresti : ∀ e ∈ rest, e.caller? ≠ some i) :
    ((∃ clock φ, Step υ (.launch i clock) φ) ↔
      τ.service.validator = none ∧ ∀ e ∈ mid, e.launches = false) ∧
    ((∃ φ, Step υ (.answer i) φ) ↔ ¬ (τ.service.validator = none ∧ ∀ e ∈ mid, e.launches = false)) ∧
    (∀ φ, Step υ (.answer i) φ → φ.place i = .left (.ok τ.service.validator)) ∧
    (∀ j, σ.place j = .running → ∃ earlier w later μ ν r,
      mid = earlier ++ .finish j w :: later ∧ Steps σ' earlier μ ∧ Step μ (.finish j w) ν ∧ ν.place j = .ended r ∧
      Steps ν later τ ∧
      ((∃ clock φ, Step υ (.launch i clock) φ) ↔ r ≠ .ok .ready ∧ ∀ e ∈ mid, e.launches = false)) ∧
    ∀ j r, σ.place j = .ended r →
      ((∃ clock φ, Step υ (.launch i clock) φ) ↔ r ≠ .ok .ready ∧ ∀ e ∈ mid, e.launches = false) := by
  have hσ : Guarded σ := (guarded_before s).steps hstart
  have hσ' : Guarded σ' := hσ.step hnote
  have hτ : Guarded τ := hσ'.steps hmid
  have hτ' : Guarded τ' := hτ.step henter
  -- the note is kept up to the decision, and so is the number of runs once the lock is taken
  have hnoted : σ'.place i = .waiting σ.service.attempts := by
    cases hnote
    exact move_place_self
  have hwaiting : τ.place i = .waiting σ.service.attempts := (hmid.place_of_ne hmidi).trans hnoted
  obtain ⟨hdeciding, hfree, hheld, hservice⟩ : τ'.place i = .deciding σ.service.attempts ∧ τ.holder = none ∧
      τ'.holder = some i ∧ τ'.service = τ.service := by
    cases henter with
    | enter h hfree =>
      rw [hwaiting] at h
      cases h
      exact ⟨move_place_self, hfree, rfl, rfl⟩
  have hplace : υ.place i = .deciding σ.service.attempts := (hrest.place_of_ne hresti).trans hdeciding
  obtain ⟨hvalidator, hattempts⟩ := hτ'.steps_of_held hheld hrest hresti
  rw [hservice] at hvalidator hattempts
  have hσ'attempts : σ'.service.attempts = σ.service.attempts := hnote.attempts
  have hcount : υ.service.attempts = σ.service.attempts + mid.countP CallEvent.launches := by
    rw [hattempts, hmid.attempts, hσ'attempts]
  have hnotanswered : υ.service.isAnswered σ.service.attempts = false ↔
      τ.service.validator = none ∧ ∀ e ∈ mid, e.launches = false := by
    rw [Service.isAnswered, hvalidator, hcount]
    simp [List.countP_eq_zero]
  have hlaunch := (launch_iff hplace).trans hnotanswered
  refine ⟨hlaunch, ?_, ?_, ?_, ?_⟩
  · rw [answer_iff hplace, ← hnotanswered, Bool.not_eq_false]
  · intro φ hφ
    rw [hφ.place_of_answer, hvalidator]
  · intro j hrun
    have hrun' : σ'.place j = .running := by
      have hij : some i ≠ some j := by
        rintro hij
        cases hij
        cases hnote with
        | note h =>
          rw [hrun] at h
          cases h
      exact (hnote.place_of_ne hij).trans hrun
    obtain ⟨earlier, w, later, μ, ν, r, heq, hearlier, hfinish, hended, hlater⟩ :=
      hmid.exists_finish hσ' hrun' hfree
    refine ⟨earlier, w, later, μ, ν, r, heq, hearlier, hfinish, hended, hlater, ?_⟩
    rw [hlaunch]
    refine and_congr_left fun hnone => ?_
    have hν : Guarded ν := (hσ'.steps hearlier).step hfinish
    exact hν.validator_of_ended hended hlater fun e he => hnone e (by simp [heq, he])
  · intro j r hended
    rw [hlaunch]
    refine and_congr_left fun hnone => ?_
    exact hσ.validator_of_ended hended (.cons hnote hmid) (List.forall_mem_cons.2 ⟨rfl, hnone⟩)

end

open scoped Json.Limits in
/-- A caller that arrives in the middle of a run makes a run of its own when that one fails. -/
theorem launches_after_failed_run : ∃ (start mid : List (CallEvent Bool)) (σ σ' τ τ' : Callers Bool),
    Steps (before (Service.new [] Resolver.default)) start σ ∧ σ.place false = .running ∧ Step σ (.note true) σ' ∧
    Steps σ' mid τ ∧ (∀ e ∈ mid, e.caller? ≠ some true) ∧ Step τ (.enter true) τ' ∧
    ∃ clock φ, Step τ' (.launch true clock) φ := by
  let w : World := ⟨0, .empty, .empty, [], [], []⟩
  obtain ⟨σ, hstart, hlooked, hrunning, hservice⟩ : ∃ σ : Callers Bool,
      Steps (before (Service.new [] Resolver.default))
        [.miss false, .note false, .enter false, .launch false 0, .miss true] σ ∧
      σ.place true = .looked ∧ σ.place false = .running ∧ σ.service = (Service.new [] Resolver.default).start 0 :=
    ⟨_, .cons (.miss rfl rfl) (.cons (.note rfl) (.cons (.enter rfl rfl) (.cons (.launch 0 rfl rfl)
      (.cons (.miss rfl rfl) (.nil _))))), rfl, rfl, rfl⟩
  have hnote : Step σ (.note true) (σ.move true (.waiting σ.service.attempts)) := .note hlooked
  -- without a root certificate the run fails
  have hroot : σ.service.rootIn w.files = .error (.certificate .noPath) := by
    rw [hservice]
    rfl
  obtain ⟨τ, hmid, hwaiting, hfree, hnone⟩ : ∃ τ : Callers Bool,
      Steps (σ.move true (.waiting σ.service.attempts)) [.finish false w, .release false] τ ∧
      τ.place true = .waiting σ.service.attempts ∧ τ.holder = none ∧ τ.service.validator = none :=
    ⟨_, .cons (.finish ((move_place_of_ne (by decide)).trans hrunning) (Service.proceed_fst_of_noRoot hroot))
      (.cons (.release rfl) (.nil _)), rfl, rfl, congrArg Service.validator hservice⟩
  have hmidi : ∀ e ∈ [CallEvent.finish false w, .release false], e.caller? ≠ some true := by
    simp [CallEvent.caller?]
  have henter := Step.enter hwaiting hfree
  refine ⟨_, _, σ, _, τ, _, hstart, hrunning, hnote, hmid, hmidi, henter, ?_⟩
  have hlaunches := (launches_iff hstart hnote hmid hmidi henter (.nil _) (by simp)).1
  exact hlaunches.2 ⟨hnone, by simp [CallEvent.launches]⟩

end Callers
end AttestationTrust
