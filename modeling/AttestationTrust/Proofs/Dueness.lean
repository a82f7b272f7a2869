import AttestationTrust.Proofs.Observation
import AttestationTrust.Proofs.Signatures
/-!
# When a run is due

A run is due at an instant while nothing is published, and once a provider has lapsed: it holds no BLOB, or the day has
come on which its BLOB is to be replaced (`Service.IsDue`).  So a run that is due stays so until one is made
(`Ledger.isDue_foldl`), and what a turn of the schedule does is settled by the instant of its moment alone, in whatever
offset that is written (`Schedule.turn_of_instant`).
-/
namespace AttestationTrust

/-- Days begin at midnight in universal time. -/
theorem Moment.day_le_dateOfInstant_iff {d : Date} {t : Int} :
    d.day ≤ (dateOfInstant t).day ↔ (d.day - 1) * dayLength ≤ t := by
  have hpos : (0 : Int) < dayLength := by decide
  have hday : (dateOfInstant t).day = t / dayLength + 1 := rfl
  rw [hday, ← Int.le_ediv_iff_mul_le hpos]
  omega

/-- A provider holds no payload, or one whose next update is on the date of an instant or before it. -/
def Provider.HasLapsed (p : Provider) (t : Int) : Prop :=
  p.payload = none ∨ ∃ m ∈ p.payload, m.nextUpdate.day ≤ (Moment.dateOfInstant t).day

/-- Nothing is published, or a provider behind that has lapsed. -/
def Service.IsDue (s : Service) (t : Int) : Prop := s.validator = none ∨ ∃ p ∈ s.providers, p.HasLapsed t

instance (p : Provider) (t : Int) : Decidable (p.HasLapsed t) :=
  inferInstanceAs (Decidable (p.payload = none ∨ ∃ m ∈ p.payload, m.nextUpdate.day ≤ (Moment.dateOfInstant t).day))

instance (s : Service) (t : Int) : Decidable (s.IsDue t) :=
  inferInstanceAs (Decidable (s.validator = none ∨ ∃ p ∈ s.providers, p.HasLapsed t))

variable {s s' : Service} {now : Moment} {t t' : Int}

theorem Provider.HasLapsed.mono {p : Provider} (h : p.HasLapsed t) (hle : t ≤ t') : p.HasLapsed t' := by
  refine h.imp_right fun ⟨m, hm, hday⟩ => ⟨m, hm, ?_⟩
  rw [Moment.day_le_dateOfInstant_iff] at hday ⊢
  exact Int.le_trans hday hle

theorem Provider.isStale_eq_hasLapsed (p : Provider) (hnow : now.instant? = some t) :
    p.isStale now = .ok (decide (p.HasLapsed t)) := by
  cases hp : p.payload <;> simp [isStale, nextUpdate, HasLapsed, hp, hnow]

namespace Service

theorem IsDue.mono (h : s.IsDue t) (hle : t ≤ t') : s.IsDue t' :=
  h.imp_right fun ⟨p, hp, hlapsed⟩ => ⟨p, hp, hlapsed.mono hle⟩

/-- Whether a run is due is a matter of what is published. -/
theorem IsDue.of_published (h : s.IsDue t) (hp : s'.published = s.published) : s'.IsDue t := by
  simp only [published, Prod.mk.injEq] at hp
  obtain ⟨hvalidator, hproviders, -, -⟩ := hp
  unfold IsDue
  rwa [hvalidator, hproviders]

theorem anyStale_eq_hasLapsed (hnow : now.instant? = some t) : ∀ providers : List Provider,
    anyStale now providers = .ok (decide (∃ p ∈ providers, p.HasLapsed t))
  | [] => by simp [anyStale]
  | p :: providers => by
    rw [anyStale, p.isStale_eq_hasLapsed hnow, anyStale_eq_hasLapsed hnow providers]
    by_cases h : p.HasLapsed t <;> simp [h, bind, Except.bind]

theorem needsRefresh_eq_isDue (s : Service) (hnow : now.instant? = some t) :
    s.needsRefresh now = .ok (decide (s.IsDue t)) := by
  cases hv : s.validator <;> simp [needsRefresh, IsDue, hv, anyStale_eq_hasLapsed hnow]

end Service

namespace Ledger

variable [Json.Limits] {l : Ledger} {e : Operation × World}

theorem published_step_of_runs_eq (h : (l.step e).runs = l.runs) :
    (l.step e).service.published = l.service.published := by
  refine published_apply_of_not_ready fun r hrun => ?_
  rw [step_of_run? hrun] at h
  exact absurd h (List.cons_ne_self r l.runs)

/-- Operations that make no run leave alone what is published. -/
theorem published_foldl_of_runs_eq : ∀ (trace : List (Operation × World)) {l : Ledger},
    (trace.foldl step l).runs = l.runs → (trace.foldl step l).service.published = l.service.published
  | [], _, _ => rfl
  | e :: trace, l, h => by
    have hstep : l.runs <:+ (l.step e).runs := runs_suffix_foldl [e] l
    rw [List.foldl_cons] at h ⊢
    have hrest : (l.step e).runs <:+ l.runs := h ▸ runs_suffix_foldl trace (l.step e)
    have heq : (l.step e).runs = l.runs := (hstep.eq_of_length_le hrest.length_le).symm
    rw [published_foldl_of_runs_eq trace (h.trans heq.symm), published_step_of_runs_eq heq]

/-- A run that is due is so later, while none has been made. -/
theorem isDue_foldl {trace : List (Operation × World)} (h : l.service.IsDue t) (hle : t ≤ t')
    (hruns : (trace.foldl step l).runs = l.runs) : (trace.foldl step l).service.IsDue t' :=
  (h.mono hle).of_published (published_foldl_of_runs_eq trace hruns)

end Ledger

namespace Schedule

section

variable [Json.Limits] {w : World}

/-- A turn at which no run is due does nothing but say so. -/
theorem turn_apply_of_not_isDue (sched : Schedule) (hnow : now.instant? = some t) (h : ¬ s.IsDue t) :
    sched.turn Service.refreshable s now w = (.ok (s, .ok sched.checkInterval.seconds), w.record .debug topic
      ("Attestation validator is current; next check in " ++ sched.checkInterval.text ++ ".")) := by
  have hdue : Service.refreshable.isDue s now = .ok false := by
    rw [← decide_eq_false h]
    exact s.needsRefresh_eq_isDue hnow
  unfold turn
  rw [hdue]
  rfl

/-- A turn at which a run is due makes one, and nothing that the run does not. -/
theorem exists_turn_of_isDue (sched : Schedule) (w : World) (hnow : now.instant? = some t) (h : s.IsDue t) :
    ∃ s' r, (s.run (runningWorld w)).1 = .ok (s', r) ∧ s'.attempts = s.attempts + 1 ∧
      (sched.turn Service.refreshable s now w).2.outside = (s.run (runningWorld w)).2.outside ∧
      (sched.turn Service.refreshable s now w).1 = .ok (s', sched.sleepAfter s' r) := by
  have hdue : s.needsRefresh now = .ok true := by rw [s.needsRefresh_eq_isDue hnow, decide_eq_true h]
  obtain ⟨s', r, hr⟩ := Service.exists_run_fst s (runningWorld w)
  exact ⟨s', r, hr, (Service.run_fst_eq_ok_iff.1 hr).attempts, sched.turn_outside_of_due hdue,
    sched.turn_fst_of_due hdue hr⟩

/-- A turn takes nothing from its moment but whether a run is due. -/
theorem turn_congr {now' : Moment} (sched : Schedule) (h : s.needsRefresh now' = s.needsRefresh now) :
    sched.turn Service.refreshable s now' w = sched.turn Service.refreshable s now w := by
  have hdue : Service.refreshable.isDue s now' = Service.refreshable.isDue s now := h
  unfold turn
  rw [hdue]

/-- **A turn of the schedule** at a moment that shows an instant, of any service in any world.  It starts a run exactly
if one is due; else it leaves the service and all but the log of the world alone, and sleeps for the check interval.
A run that it starts it makes as a whole, and nothing beside it.  It sleeps for the retry interval if that fails for the
want of a root certificate or leaves nothing published, and for the check interval if it leaves something; any other
failure of the run goes on.  Another moment that shows the same instant makes the same turn; and a run that is due is
due at every later instant, whatever is done with the service that makes no run. -/
theorem turn_of_instant (sched : Schedule) (s : Service) (w : World) {now : Moment} {t : Int}
    (hnow : now.instant? = some t) :
    ((∃ s' r, (sched.turn Service.refreshable s now w).1 = .ok (s', r) ∧ s'.attempts = s.attempts + 1) ↔ s.IsDue t) ∧
    (¬ s.IsDue t → sched.turn Service.refreshable s now w = (.ok (s, .ok sched.checkInterval.seconds),
      w.record .debug topic ("Attestation validator is current; next check in " ++ sched.checkInterval.text ++ "."))) ∧
    (s.IsDue t → ∃ s' r, (s.run (runningWorld w)).1 = .ok (s', r) ∧
      (sched.turn Service.refreshable s now w).2.outside = (s.run (runningWorld w)).2.outside ∧
      ((∃ f, r = .error (.service f)) ∨ (∃ stage, r = .ok stage) ∧ s'.validator = none →
        (sched.turn Service.refreshable s now w).1 = .ok (s', .ok sched.retryInterval.seconds)) ∧
      ((∃ stage, r = .ok stage) ∧ s'.validator ≠ none →
        (sched.turn Service.refreshable s now w).1 = .ok (s', .ok sched.checkInterval.seconds)) ∧
      ∀ f, (∀ g, f ≠ .service g) → r = .error f → (sched.turn Service.refreshable s now w).1 = .ok (s', .error f)) ∧
    (∀ now' : Moment, now'.instant? = some t →
      sched.turn Service.refreshable s now' w = sched.turn Service.refreshable s now w) ∧
    ∀ (trace : List (Operation × World)) (t' : Int), s.IsDue t → t ≤ t' → (trace.foldl Ledger.step ⟨s, []⟩).runs = [] →
      (trace.foldl Ledger.step ⟨s, []⟩).service.IsDue t' := by
  refine ⟨⟨?_, ?_⟩, sched.turn_apply_of_not_isDue hnow, ?_, ?_,
    fun trace t' h hle hruns => Ledger.isDue_foldl h hle hruns⟩
  · rintro ⟨s', r, hturn, hattempts⟩
    by_contra h
    rw [sched.turn_apply_of_not_isDue hnow h] at hturn
    cases hturn
    exact absurd hattempts (Nat.ne_of_lt (Nat.lt_succ_self _))
  · intro h
    obtain ⟨s', r, -, hattempts, -, hturn⟩ := sched.exists_turn_of_isDue w hnow h
    exact ⟨s', _, hturn, hattempts⟩
  · intro h
    obtain ⟨s', r, hr, -, houtside, hturn⟩ := sched.exists_turn_of_isDue w hnow h
    refine ⟨s', r, hr, houtside, ?_, ?_, ?_⟩
    · rintro (⟨f, rfl⟩ | ⟨⟨stage, rfl⟩, hnone⟩)
      · exact hturn
      · rw [hturn, sleepAfter, hnone]
        rfl
    · rintro ⟨⟨stage, rfl⟩, hsome⟩
      rw [hturn, sleepAfter, if_pos (Option.isSome_iff_ne_none.2 hsome)]
    · rintro f hf rfl
      rw [hturn, Service.sleepAfter_of_ne_service sched hf]
  · intro now' hnow'
    exact sched.turn_congr ((s.needsRefresh_eq_isDue hnow').trans (s.needsRefresh_eq_isDue hnow).symm)

end

/-- What holds a BLOB whose next is due on the first of February of the year 2025. -/
def winterProvider : Provider :=
  ⟨"https://mds/", Validator.shortAnchor.certificate, .integer 1, false, none, some ⟨.int 1, ⟨739283⟩, []⟩⟩

def winterService : Service :=
  { Service.new [] Resolver.default with
    validator := some ⟨.blobs [winterProvider.source] true, true⟩, providers := [winterProvider] }

open scoped Json.Limits in
/-- Half past midnight of that day is still in January where the clocks are an hour ahead, and half past eleven of the
day before is in February where they are an hour behind. -/
theorem turn_of_instant_around_midnight :
    (⟨63873966600000000, 3600000000⟩ : Moment).instant? = some 63873963000000000 ∧
    ¬ winterService.IsDue 63873963000000000 ∧
    (default.turn Service.refreshable winterService ⟨63873966600000000, 3600000000⟩ Validator.shortWorld).1 =
      .ok (winterService, .ok default.checkInterval.seconds) ∧
    (⟨63873963000000000, -3600000000⟩ : Moment).instant? = some 63873966600000000 ∧
    winterService.IsDue 63873966600000000 ∧
    ∃ s' r, (default.turn Service.refreshable winterService ⟨63873963000000000, -3600000000⟩ Validator.shortWorld).1 =
      .ok (s', r) ∧ s'.attempts = winterService.attempts + 1 := by
  have hahead : (⟨63873966600000000, 3600000000⟩ : Moment).instant? = some 63873963000000000 := by decide
  have hbehind : (⟨63873963000000000, -3600000000⟩ : Moment).instant? = some 63873966600000000 := by decide
  have hcurrent : ¬ winterService.IsDue 63873963000000000 := by decide
  have hdue : winterService.IsDue 63873966600000000 := by decide
  obtain ⟨-, hidle, -⟩ := turn_of_instant default winterService Validator.shortWorld hahead
  obtain ⟨hstarts, -⟩ := turn_of_instant default winterService Validator.shortWorld hbehind
  exact ⟨hahead, hcurrent, congrArg Prod.fst (hidle hcurrent), hbehind, hdue, hstarts.2 hdue⟩

end Schedule
end AttestationTrust
