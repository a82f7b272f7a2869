import AttestationTrust.Proofs.Links
import AttestationTrust.Proofs.Run
/-!
# Runs that do not settle

A run settles the service: it becomes ready, is aborted, or fails for the want of a root certificate.  There are three
ways past that (`Service.Derails`), each by a failure that the step it comes from does not take for one of its own: a
root certificate of a version that is not read, a timeout beyond the floating point numbers, and a file among the
statements that neither reads nor can be left out.  Such a run leaves the service at the stage of that step, and its
failure goes on to whoever asked for the run (`Service.run_settles_or_derails`).
-/
namespace AttestationTrust

open X509 (Certificate)
open Metadata (LocalStatements StatementFiles)

variable [Json.Limits]

namespace Metadata

/-- A document that is no statement is no failure of the service. -/
theorem Statement.parse_ne_service {source : String} {bs : Bytes} {f : Failure} {g : CertificateFault}
    (h : Statement.parse source bs = .error f) : f ≠ .service g := by
  rintro rfl
  unfold Statement.parse at h
  split at h
  · cases h
  · cases h
  · rename_i raw _
    rcases except_bind_eq_error_iff.1 h with h | ⟨fields, -, h⟩
    · cases raw <;> cases h
    · obtain ⟨fault, -, hfault⟩ := mapError_eq_error_iff.1 h
      cases fault <;> cases hfault

namespace StatementFiles

variable {files : FileTree} {path : String} {paths : List String} {f : Failure} {w : World}

/-- A file is loaded or left out. -/
def Passes (files : FileTree) (path : String) : Prop :=
  ∀ g, readFile path files = .error g → isSkipped g = true

/-- A file cannot be read, and that is no reason to leave it out. -/
def Breaks (files : FileTree) (path : String) (f : Failure) : Prop :=
  readFile path files = .error f ∧ isSkipped f = false

theorem passes_of_ok {s : Statement} (h : readFile path files = .ok s) : Passes files path := by
  intro g hg
  rw [h] at hg
  cases hg

theorem passes_of_skipped {g : Failure} (h : readFile path files = .error g) (hs : isSkipped g = true) :
    Passes files path := by
  intro g' hg'
  rw [h] at hg'
  cases hg'
  exact hs

theorem Passes.not_breaks (h : Passes files path) : ¬ Breaks files path f := by
  rintro ⟨hread, hs⟩
  rw [h f hread] at hs
  cases hs

theorem loadAll_fst_of_ok {s : Statement} (h : readFile path w.files = .ok s) :
    (loadAll (path :: paths) w).1 = (loadAll paths w).1.map ((path, s) :: ·) := by
  simp only [loadAll, Action.bind_apply, Action.get_apply, h]
  rcases loadAll paths w with ⟨r | r, w'⟩ <;> rfl

/-- What is said of a path that is left out. -/
def skipping (path : String) (f : Failure) : LogRecord :=
  ⟨.error, topic, "Skipping metadata statement " ++ path ++ ": " ++ f.shown⟩

theorem loadAll_of_skipped {g : Failure} (paths : List String) (h : readFile path w.files = .error g)
    (hs : isSkipped g = true) :
    loadAll (path :: paths) w = loadAll paths { w with log := w.log ++ [skipping path g] } := by
  simp only [loadAll, Action.bind_apply, Action.get_apply, h, hs, if_true, Action.log_apply]
  rfl

theorem loadAll_fst_of_breaks (h : Breaks w.files path f) : (loadAll (path :: paths) w).1 = .error f := by
  simp [loadAll, Action.bind_apply, h.1, h.2]

/-- Loading fails at the first file that breaks it. -/
theorem loadAll_fst_eq_error_iff : ∀ (paths : List String) (w : World), (loadAll paths w).1 = .error f ↔
    ∃ before path after, paths = before ++ path :: after ∧ (∀ b ∈ before, Passes w.files b) ∧ Breaks w.files path f
  | [], w => by simp [loadAll]
  | path :: paths, w => by
    rw [exists_first_cons_iff]
    cases hread : readFile path w.files with
    | ok s =>
      have hp := passes_of_ok hread
      rw [loadAll_fst_of_ok hread, ← loadAll_fst_eq_error_iff paths w]
      cases (loadAll paths w).1 <;> simp [hp, hp.not_breaks, Except.map]
    | error g =>
      cases hs : isSkipped g with
      | true =>
        have hp := passes_of_skipped hread hs
        rw [loadAll_of_skipped paths hread hs, loadAll_fst_eq_error_iff paths _]
        simp [hp, hp.not_breaks]
      | false =>
        have hb : Breaks w.files path g := ⟨hread, hs⟩
        have hnot : ¬ Passes w.files path := fun hp => hp.not_breaks hb
        rw [loadAll_fst_of_breaks hb]
        constructor
        · intro h
          cases h
          exact .inl hb
        · rintro (⟨h, -⟩ | ⟨hp, -⟩)
          · rw [hread] at h
            cases h
            rfl
          · exact absurd hp hnot

/-- The failures that break the loading are none of the service. -/
theorem Breaks.ne_service (h : Breaks files path f) (g : CertificateFault) : f ≠ .service g := by
  rintro rfl
  obtain ⟨hread, -⟩ := h
  unfold readFile at hread
  split at hread
  · cases hread
  · split at hread
    · cases hread
    · exact Statement.parse_ne_service hread rfl

end StatementFiles

open StatementFiles (Passes Breaks)

theorem LocalStatements.load_fst_eq_error_iff {directory : String} {w : World} {f : Failure} :
    (LocalStatements.load directory w).1 = .error f ↔ w.files.isDirectory directory = true ∧
      ∃ before path after, w.files.list? directory = some (before ++ path :: after) ∧
        (∀ b ∈ before, Passes w.files b) ∧ Breaks w.files path f := by
  unfold LocalStatements.load
  simp only [Action.bind_apply, Action.get_apply]
  cases w.files.isDirectory directory with
  | false => simp
  | true =>
    cases w.files.list? directory with
    | none => simp [Action.bind_apply]
    | some paths =>
      cases paths with
      | nil => simp [Action.bind_apply]
      | cons path paths =>
        have hloadAll := StatementFiles.loadAll_fst_eq_error_iff (f := f) (path :: paths) w
        simp only [Bool.not_true, Bool.false_eq_true, if_false, StatementFiles.load, Action.bind_apply]
        rcases hload : StatementFiles.loadAll (path :: paths) w with ⟨r, w'⟩
        rw [hload] at hloadAll
        simp only [true_and, Option.some.injEq]
        rw [← hloadAll]
        cases r with
        | error g => simp
        | ok loaded => cases hempty : loaded.isEmpty <;> simp [Action.bind_apply, hempty]

end Metadata

namespace Service

open Metadata.StatementFiles (Passes Breaks)

/-- A run does not settle: the stage at which it stops, and with which failure. -/
inductive Derails (s : Service) (w : World) : Stage → Failure → Prop
  | badRoot (h : s.rootIn w.files = .error (.x509 .unsupportedVersion)) :
      Derails s w .loadingRoot (.x509 .unsupportedVersion)
  | badTimeout {root : Certificate} {n : Int} (hr : s.rootIn w.files = .ok root)
      (hset : s.settings.get Setting.fetchTimeout.key = .int n) (hpos : 0 < n) (hbig : Binary64.ofInt? n = none) :
      Derails s w .buildingProviders (.range .integerTooLarge)
  | badStatements {providers : List Provider} {w' : World} {before after : List String} {path : String} {f : Failure}
      (hg : Gathers s w providers w')
      (hdir : w.files.isDirectory (s.settings.readPath Setting.statements.key) = true)
      (hlist : w.files.list? (s.settings.readPath Setting.statements.key) = some (before ++ path :: after))
      (hbefore : ∀ b ∈ before, Passes w.files b) (h : Breaks w.files path f) : Derails s w .buildingRepository f

/-- How a run ends that settles the service. -/
inductive Settles : Stage → Except Failure Stage → Prop
  | ready : Settles .ready (.ok .ready)
  | aborted : Settles .aborted (.ok .aborted)
  | failed (f : CertificateFault) : Settles .failed (.error (.service f))

variable {s s' : Service} {w w' : World} {r : Except Failure Stage} {stage : Stage} {f : Failure}

omit [Json.Limits] in
theorem rootIn_error_cases {files : FileTree} (h : s.rootIn files = .error f) :
    (∃ g, f = .certificate g) ∨ f = .x509 .unsupportedVersion := by
  unfold rootIn Certificate.loadFile at h
  split at h
  · cases h
    exact .inl ⟨_, rfl⟩
  · split at h
    · cases h
      exact .inl ⟨_, rfl⟩
    · split at h
      · cases h
        exact .inl ⟨_, rfl⟩
      · exact Certificate.load_error_cases h

omit [Json.Limits] in
theorem readTimeout_eq_error_iff {settings : Settings} : settings.readTimeout = .error f ↔
    f = .range .integerTooLarge ∧
      ∃ n, settings.get Setting.fetchTimeout.key = .int n ∧ 0 < n ∧ Binary64.ofInt? n = none := by
  unfold Settings.readTimeout
  cases settings.get Setting.fetchTimeout.key with
  | int n =>
    by_cases hpos : 0 < n
    · cases hn : Binary64.ofInt? n <;> simp [hpos, hn, eq_comm]
    · simp [hpos]
  | _ => simp

/-- What breaks the loading is there from the start of the run. -/
theorem Gathers.statements_fst_eq_error_iff {providers : List Provider} (hg : Gathers s w providers w') :
    (s.statementsIn w').1 = .error f ↔
      w.files.isDirectory (s.settings.readPath Setting.statements.key) = true ∧
      ∃ before path after, w.files.list? (s.settings.readPath Setting.statements.key) = some (before ++ path :: after) ∧
        (∀ b ∈ before, Passes w.files b) ∧ Breaks w.files path f := by
  rw [hg.statements_fst]
  exact LocalStatements.load_fst_eq_error_iff

/-- A run that is derailed ends at the stage of its derailment, and with the failure. -/
theorem Derails.ends (h : Derails s w stage f) (hstage : s.stage = .loadingRoot) :
    ∃ s', Ends s w s' (.error f) ∧ s'.stage = stage := by
  cases h with
  | badRoot h => exact ⟨s, .badRoot h (by simp), hstage⟩
  | badTimeout hr hset hpos hbig =>
    exact ⟨_, .badTimeout hr (readTimeout_eq_error_iff.2 ⟨rfl, _, hset, hpos, hbig⟩), rfl⟩
  | badStatements hg hdir hlist hbefore h =>
    exact ⟨_, .badStatements hg (hg.statements_fst_eq_error_iff.2 ⟨hdir, _, _, _, hlist, hbefore, h⟩), rfl⟩

omit [Json.Limits] in
theorem Settles.eq_service (h : Settles stage (.error f)) : ∃ g, f = .service g := by
  cases h with
  | failed g => exact ⟨g, rfl⟩

theorem Derails.ne_service (h : Derails s w stage f) (g : CertificateFault) : f ≠ .service g := by
  cases h with
  | badRoot h => simp
  | badTimeout hr hset hpos hbig => simp
  | badStatements hg hdir hlist hbefore h => exact h.ne_service g

/-- Every other run settles. -/
theorem Ends.settles_or_derails (h : Ends s w s' r) : Settles s'.stage r ∨ ∃ stage f, Derails s w stage f := by
  cases h with
  | noRoot h => exact .inl (.failed _)
  | badRoot h hf =>
    rcases rootIn_error_cases h with ⟨g, rfl⟩ | rfl
    · exact absurd rfl (hf g)
    · exact .inr ⟨_, _, .badRoot h⟩
  | badTimeout hr h =>
    obtain ⟨rfl, n, hset, hpos, hbig⟩ := readTimeout_eq_error_iff.1 h
    exact .inr ⟨_, _, .badTimeout hr hset hpos hbig⟩
  | noProvider hb hne => exact .inl .aborted
  | badStatements hg h =>
    obtain ⟨hdir, before, path, after, hlist, hbefore, hbreaks⟩ := hg.statements_fst_eq_error_iff.1 h
    exact .inr ⟨_, _, .badStatements hg hdir hlist hbefore hbreaks⟩
  | noSource hg h hc => exact .inl .aborted
  | ready hg h hc => exact .inl .ready

theorem run_settles_or_derails (s : Service) (w : World) : ∃ s' r, (run s w).1 = .ok (s', r) ∧
    (Settles s'.stage r ↔ ¬ ∃ stage f, Derails (s.start w.clock) w stage f) ∧
    ∀ stage f, Derails (s.start w.clock) w stage f → s'.stage = stage ∧ r = .error f := by
  obtain ⟨s', r, hrun⟩ := exists_run_fst s w
  have hends := run_fst_eq_ok_iff.1 hrun
  have hderails : ∀ stage f, Derails (s.start w.clock) w stage f → s'.stage = stage ∧ r = .error f := by
    intro stage f hd
    obtain ⟨t, ht, hstage⟩ := hd.ends rfl
    have heq := run_fst_eq_ok_iff.2 ht
    rw [hrun] at heq
    cases heq
    exact ⟨hstage, rfl⟩
  refine ⟨s', r, hrun, ⟨?_, fun hno => hends.settles_or_derails.resolve_right hno⟩, hderails⟩
  rintro hsettles ⟨stage, f, hd⟩
  obtain ⟨-, rfl⟩ := hderails stage f hd
  obtain ⟨g, hg⟩ := hsettles.eq_service
  exact hd.ne_service g hg

section

omit [Json.Limits]

/-- A run that settles answers whoever waits for it, and one that is derailed does not. -/
theorem answerAfter_of_settles {s : Service} (h : Settles stage r) : ∃ v, s.answerAfter r = .ok v := by
  cases h <;> exact ⟨_, rfl⟩

theorem answerAfter_of_ne_service {s : Service} (h : ∀ g, f ≠ .service g) : s.answerAfter (.error f) = .error f := by
  cases f with
  | service g => exact absurd rfl (h g)
  | _ => rfl

theorem sleepAfter_of_settles {s : Service} (sched : Schedule) (h : Settles stage r) : ∃ x,
    sched.sleepAfter s r = .ok x ∧ (x = sched.checkInterval.seconds ∨ x = sched.retryInterval.seconds) := by
  have hok : ∀ stage, ∃ x, sched.sleepAfter s (.ok stage) = .ok x ∧
      (x = sched.checkInterval.seconds ∨ x = sched.retryInterval.seconds) := by
    intro stage
    cases hv : s.validator.isSome <;> simp [Schedule.sleepAfter, hv]
  cases h with
  | ready => exact hok .ready
  | aborted => exact hok .aborted
  | failed g => exact ⟨_, rfl, .inr rfl⟩

theorem sleepAfter_of_ne_service {s : Service} (sched : Schedule) (h : ∀ g, f ≠ .service g) :
    sched.sleepAfter s (.error f) = .error f := by
  cases f with
  | service g => exact absurd rfl (h g)
  | _ => rfl

/-- Whether a provider is stale cannot be told at a moment outside the calendar. -/
theorem isStale_eq_error_iff {p : Provider} {now : Moment} :
    p.isStale now = .error f ↔ f = .range .unworded ∧ now.instant? = none ∧ p.payload ≠ none := by
  unfold Provider.isStale Provider.nextUpdate
  cases p.payload with
  | none => simp
  | some payload => cases now.instant? <;> simp [eq_comm]

theorem instant?_ne_none_of_isStale {p : Provider} {now : Moment} (h : p.isStale now = .ok false) :
    now.instant? ≠ none := by
  intro hnow
  unfold Provider.isStale at h
  rw [hnow] at h
  cases hnext : p.nextUpdate <;> rw [hnext] at h <;> cases h

/-- The first provider that has a payload tells that a moment is outside the calendar; one without it is stale. -/
theorem anyStale_eq_error_iff {now : Moment} : ∀ {providers : List Provider}, anyStale now providers = .error f ↔
    f = .range .unworded ∧ now.instant? = none ∧ ∃ p rest, providers = p :: rest ∧ p.payload ≠ none
  | [] => by simp [anyStale]
  | p :: rest => by
    rw [anyStale, except_bind_eq_error_iff]
    constructor
    · rintro (h | ⟨stale, hstale, h⟩)
      · obtain ⟨rfl, hnow, hp⟩ := isStale_eq_error_iff.1 h
        exact ⟨rfl, hnow, p, rest, rfl, hp⟩
      · cases stale with
        | true => cases h
        | false => exact absurd (anyStale_eq_error_iff.1 h).2.1 (instant?_ne_none_of_isStale hstale)
    · rintro ⟨rfl, hnow, p', rest', heq, hp⟩
      cases heq
      exact .inl (isStale_eq_error_iff.2 ⟨rfl, hnow, hp⟩)

theorem needsRefresh_eq_error_iff {now : Moment} : s.needsRefresh now = .error f ↔ f = .range .unworded ∧
    s.validator ≠ none ∧ now.instant? = none ∧ ∃ p rest, s.providers = p :: rest ∧ p.payload ≠ none := by
  unfold needsRefresh
  cases s.validator with
  | none => simp
  | some v => simp [anyStale_eq_error_iff]

end

/-- A caller gets no answer just when it makes a run and that is derailed. -/
theorem ensure_escapes_iff (s : Service) (w : World) : ∃ s' r, (ensure s w).1 = .ok (s', r) ∧
    ((∃ f, r = .error f) ↔ s.validator = none ∧ ∃ stage f, Derails (s.start w.clock) w stage f) := by
  cases hv : s.validator with
  | some v => exact ⟨s, .ok (some v), ensure_fst_of_some hv, by simp⟩
  | none =>
    obtain ⟨s', r, hrun, hsettles, hderails⟩ := run_settles_or_derails s w
    refine ⟨s', s'.answerAfter r, ensure_fst_of_none hv hrun, ?_⟩
    by_cases hd : ∃ stage f, Derails (s.start w.clock) w stage f
    · obtain ⟨stage, f, hd⟩ := hd
      obtain ⟨-, rfl⟩ := hderails stage f hd
      rw [answerAfter_of_ne_service hd.ne_service]
      simp only [true_and]
      exact ⟨fun _ => ⟨stage, f, hd⟩, fun _ => ⟨f, rfl⟩⟩
    · obtain ⟨v, hanswer⟩ := answerAfter_of_settles (s := s') (hsettles.2 hd)
      simp [hanswer, hd]

/-- A turn ends the schedule just when it cannot tell whether a run is due, or makes one that is derailed; otherwise it
sleeps for one of the two intervals. -/
theorem turn_escapes_iff (s : Service) (w : World) (sched : Schedule) (now : Moment) :
    ∃ s' r, (sched.turn refreshable s now w).1 = .ok (s', r) ∧
      ((∃ f, r = .error f) ↔ (∃ f, s.needsRefresh now = .error f) ∨ s.needsRefresh now = .ok true ∧
        ∃ stage f, Derails (s.start w.clock) (Schedule.runningWorld w) stage f) ∧
      ∀ x, r = .ok x → x = sched.checkInterval.seconds ∨ x = sched.retryInterval.seconds := by
  cases hdue : s.needsRefresh now with
  | error f => exact ⟨s, .error f, Schedule.turn_fst_of_error sched hdue, by simp, by simp⟩
  | ok due =>
    cases due with
    | false =>
      refine ⟨s, _, Schedule.turn_fst_of_not_due sched hdue, by simp, fun x hx => ?_⟩
      cases hx
      exact .inl rfl
    | true =>
      obtain ⟨s', r, hrun, hsettles, hderails⟩ := run_settles_or_derails s (Schedule.runningWorld w)
      refine ⟨s', _, Schedule.turn_fst_of_due sched hdue hrun, ?_⟩
      have hclock : (Schedule.runningWorld w).clock = w.clock := rfl
      rw [hclock] at hsettles hderails
      by_cases hd : ∃ stage f, Derails (s.start w.clock) (Schedule.runningWorld w) stage f
      · obtain ⟨stage, f, hd⟩ := hd
        obtain ⟨-, rfl⟩ := hderails stage f hd
        rw [sleepAfter_of_ne_service sched hd.ne_service]
        refine ⟨⟨fun _ => .inr ⟨rfl, stage, f, hd⟩, fun _ => ⟨f, rfl⟩⟩, fun x hx => nomatch hx⟩
      · obtain ⟨x, hsleep, hx⟩ := sleepAfter_of_settles (s := s') sched (hsettles.2 hd)
        rw [hsleep]
        refine ⟨by simp [hd], fun y hy => ?_⟩
        cases hy
        exact hx

/-- **Which runs settle, and where the failures of the others go.**  A run settles the service unless it is derailed,
in one of three ways; then it stops at the stage of its derailment.  A caller is left without an answer by such a run
alone.  A turn of a schedule fails by such a run, or where it is asked about a moment outside the calendar; otherwise it
sleeps for one of its two intervals. -/
theorem escapes_iff_derails (s : Service) (w : World) :
    (∃ s' r, (run s w).1 = .ok (s', r) ∧
      (Settles s'.stage r ↔ ¬ ∃ stage f, Derails (s.start w.clock) w stage f) ∧
      ∀ stage f, Derails (s.start w.clock) w stage f → s'.stage = stage ∧ r = .error f ∧ ∀ g, f ≠ .service g) ∧
    (∃ s' r, (ensure s w).1 = .ok (s', r) ∧
      ((∃ f, r = .error f) ↔ s.validator = none ∧ ∃ stage f, Derails (s.start w.clock) w stage f)) ∧
    ∀ (sched : Schedule) (now : Moment), ∃ s' r, (sched.turn refreshable s now w).1 = .ok (s', r) ∧
      ((∃ f, r = .error f) ↔
        (s.validator ≠ none ∧ now.instant? = none ∧ ∃ p rest, s.providers = p :: rest ∧ p.payload ≠ none) ∨
        s.needsRefresh now = .ok true ∧
          ∃ stage f, Derails (s.start w.clock) (Schedule.runningWorld w) stage f) ∧
      ∀ x, r = .ok x → x = sched.checkInterval.seconds ∨ x = sched.retryInterval.seconds := by
  refine ⟨?_, ensure_escapes_iff s w, fun sched now => ?_⟩
  · obtain ⟨s', r, hrun, hsettles, hderails⟩ := run_settles_or_derails s w
    refine ⟨s', r, hrun, hsettles, fun stage f hd => ?_⟩
    obtain ⟨hstage, hr⟩ := hderails stage f hd
    exact ⟨hstage, hr, hd.ne_service⟩
  · obtain ⟨s', r, hturn, hescapes, hsleeps⟩ := turn_escapes_iff s w sched now
    refine ⟨s', r, hturn, ?_, hsleeps⟩
    simpa [needsRefresh_eq_error_iff] using hescapes

end Service
end AttestationTrust
