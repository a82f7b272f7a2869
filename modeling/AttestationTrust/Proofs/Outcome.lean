import AttestationTrust.Proofs.Publication
import AttestationTrust.Proofs.Settling
import AttestationTrust.Proofs.Survivors
/-!
# What a run comes to

A run that raises no failure but the service's own comes to one of three ends, and which of them is decided by the root
certificate, the providers that are left of the endpoints and the local statements (`Service.Concludes`).  Nothing that
earlier runs have left behind has a part in it: two services with the same settings and the same endpoints, in worlds
with the same clock, files and network, come to the same, by the same requests (`Service.Alike`).
-/
namespace AttestationTrust

open AttestationTrust.Action (Leaves)
open X509 (Certificate)
open Metadata (LocalStatements)

namespace World

/-- What a run sees of the world. -/
def environment (w : World) : Int × FileTree × Network := (w.clock, w.files, w.network)

/-- Two worlds have gone on in step: they look the same, and the same requests have been made in both. -/
def InStep (w v w' v' : World) : Prop :=
  v'.environment = w'.environment ∧
    ∃ requests, w'.requests = w.requests ++ requests ∧ v'.requests = v.requests ++ requests

variable {w v w' v' w'' v'' : World}

theorem outside_eq_iff : w'.outside = w.outside ↔ w'.environment = w.environment ∧ w'.requests = w.requests := by
  simp [outside, environment, and_assoc]

namespace InStep

theorem refl (h : v.environment = w.environment) : InStep w v w v :=
  ⟨h, [], (List.append_nil _).symm, (List.append_nil _).symm⟩

/-- What is logged afterwards makes no difference. -/
theorem outside (h : InStep w v w' v') (hw : w''.outside = w'.outside) (hv : v''.outside = v'.outside) :
    InStep w v w'' v'' := by
  obtain ⟨henv, requests, hwr, hvr⟩ := h
  obtain ⟨hw, hwr'⟩ := outside_eq_iff.1 hw
  obtain ⟨hv, hvr'⟩ := outside_eq_iff.1 hv
  exact ⟨hv.trans (henv.trans hw.symm), requests, hwr'.trans hwr, hvr'.trans hvr⟩

theorem files (h : InStep w v w' v') : v'.files = w'.files := congrArg (·.2.1) h.1

end InStep
end World

namespace Service

variable [Json.Limits] {s s' t : Service} {w v w' : World} {r : Except Failure Stage} {root : Certificate}
  {timeout : Binary64}
  {providers : List Provider}

/-- The first turn finds the world as it was at the start of the run, but for the log. -/
theorem Builds.survive (h : Builds s w root timeout providers w') : ∃ log,
    Provider.Survive (providerFactory root timeout) (s.settings.readFlag Setting.revocationCheck.key true) s.endpoints
      { w with log := log } providers w' := by
  obtain ⟨log, hsurvive⟩ := Provider.survive_of_buildAll h.built
  exact ⟨log, hsurvive⟩

omit [Json.Limits] in
theorem providerFactory_binds (root : Certificate) (timeout : Binary64) :
    (providerFactory root timeout).Binds root (.float timeout) := by
  intro url p h
  obtain ⟨hurl, hroot, htimeout⟩ := Provider.make_eq_ok h
  unfold Provider.timeoutOf at htimeout
  dsimp only at htimeout
  split at htimeout
  · exact ⟨hurl, hroot, (Except.ok.inj htimeout).symm⟩
  · cases htimeout

theorem Builds.sublist (h : Builds s w root timeout providers w') :
    (providers.map Provider.url).Sublist s.endpoints := by
  obtain ⟨log, hsurvive⟩ := h.survive
  exact hsurvive.sublist (providerFactory_binds root timeout)

/-- Where the endpoints are the same, and the clock and the network, the same providers are built by the same requests,
whatever else is different. -/
theorem Builds.again (h : Builds s w root timeout providers w') (hsettings : t.settings = s.settings)
    (hendpoints : t.endpoints = s.endpoints) (hr : t.rootIn v.files = .ok root) (hv : v.online = w.online) :
    ∃ v', Builds t v root timeout providers v' ∧ v'.online = w'.online ∧ ∃ requests log,
      (s.buildingWorld w).Adds w' requests log ∧ (t.buildingWorld v).Adds v' requests log := by
  obtain ⟨hanswer, honline, requests, log, hv, hw⟩ := Provider.buildAll_depends (providerFactory root timeout)
    (s.settings.readFlag Setting.revocationCheck.key true) s.endpoints (t.buildingWorld v) (s.buildingWorld w) hv
  rw [h.built] at hanswer honline hw
  generalize hbuilt : Provider.buildAll _ _ _ (t.buildingWorld v) = built at hanswer honline hv
  obtain ⟨answer, v'⟩ := built
  obtain rfl : answer = .ok providers := hanswer
  rw [← hsettings, ← hendpoints] at hbuilt
  exact ⟨v', ⟨hr, by rw [hsettings, h.bounded], hbuilt⟩, honline, requests, log, hw, hv⟩

/-! ## Requests

Only the providers make requests, so what a run leaves of the world is what they have left of it. -/

theorem proceed_outside_of_rootIn {f : Failure} (h : s.rootIn w.files = .error f) :
    (proceed s w).2.outside = w.outside := by
  unfold proceed
  simp only [Action.bind_apply, Action.get_apply]
  unfold rootIn at h
  rw [h]
  cases f <;> rfl

theorem proceed_outside_of_readTimeout {f : Failure} (hr : s.rootIn w.files = .ok root)
    (h : s.settings.readTimeout = .error f) : (proceed s w).2.outside = w.outside := by
  rw [proceed_apply_of_root hr, runWith_apply (buildProviders_apply_of_badTimeout h)]
  rfl

omit [Json.Limits] in
theorem publish_leaves_outside (s : Service) (providers : List Provider) (found : LocalStatements) :
    Leaves World.outside (publish s providers found) := by
  intro w
  unfold publish
  cases Repository.combine (blobRepository providers) found <;> rfl

theorem addStatements_leaves_outside (s : Service) (providers : List Provider) :
    Leaves World.outside (addStatements s providers) := by
  intro w
  have hload : (s.statementsIn w).2.outside = w.outside := (LocalStatements.within_load _).leaves_outside id w
  rw [addStatements_apply]
  cases (s.statementsIn w).1 with
  | error f => exact hload
  | ok found => exact (publish_leaves_outside _ _ _ _).trans hload

theorem Builds.proceed_outside (h : Builds s w root timeout providers w') : (proceed s w).2.outside = w'.outside := by
  obtain ⟨hne, rfl⟩ | hg := h.noProvider_or_gathers
  · rw [h.proceed_of_noProvider hne]
    rfl
  · rw [hg.proceed_apply]
    exact addStatements_leaves_outside _ _ w'

/-- A run that ends for want of a provider has not looked at the statements: any other files with the same root
certificate make no difference to it. -/
theorem Builds.proceed_of_other_files {files : FileTree} (h : Builds s w root timeout [] w') (hne : s.endpoints ≠ [])
    (hfiles : s.rootIn files = .ok root) : ∃ w'', proceed s { w with files := files } =
      (.ok ({ s.building with stage := .aborted }, .ok .aborted), w'') ∧
      w''.network = (proceed s w).2.network ∧ w''.requests = (proceed s w).2.requests ∧
      w''.log = (proceed s w).2.log := by
  obtain ⟨v', hb, honline, requests, log, hw, hv⟩ := h.again rfl rfl (v := { w with files := files }) hfiles rfl
  rw [hb.proceed_of_noProvider hne, h.proceed_of_noProvider hne]
  refine ⟨_, rfl, congrArg Prod.snd honline, hv.1.trans hw.1.symm, ?_⟩
  have hlog : v'.log = w'.log := hv.2.trans hw.2.symm
  simp only [World.record, hlog]

/-! ## The three ends -/

/-- What a run with a root certificate comes to, by its endpoints, the providers that are left of them and what has come
of loading the local statements. -/
structure Concludes (endpoints : List String) (loaded : Except Failure LocalStatements) (providers : List Provider)
    (s' : Service) (r : Except Failure Stage) : Prop where
  answers : r = .ok .aborted ∨ r = .ok .ready
  stage : r = .ok s'.stage
  aborted : r = .ok .aborted ↔ providers = [] ∧ (endpoints ≠ [] ∨ ∃ reason, loaded = .ok (.absent reason))
  found : r = .ok .ready → ∃ found, loaded = .ok found
  blobs : ∀ reason, r = .ok .ready → loaded = .ok (.absent reason) →
    s'.validator = some ⟨.blobs (providers.map Provider.source) true, true⟩
  statements : ∀ files, r = .ok .ready → loaded = .ok (.present files) → endpoints = [] →
    s'.validator = some ⟨.statements files, true⟩
  together : ∀ files, r = .ok .ready → loaded = .ok (.present files) → endpoints ≠ [] →
    s'.validator = some ⟨.together (.blobs (providers.map Provider.source) true) (.statements files) [], true⟩

/-- A run fails with the service's own failure for want of the root certificate only. -/
theorem Ends.of_service {g : CertificateFault} (h : Ends s w s' (.error (.service g))) :
    s'.stage = .failed ∧ ∃ f, s.rootIn w.files = .error f := by
  cases h with
  | noRoot h => exact ⟨rfl, _, h⟩
  | badRoot h hf => rcases rootIn_error_cases h with ⟨f, hf⟩ | hf <;> cases hf
  | badTimeout _ h => cases (readTimeout_eq_error_iff.1 h).1
  | badStatements hg h =>
    obtain ⟨-, before, path, after, -, -, hbreaks⟩ := hg.statements_fst_eq_error_iff.1 h
    exact absurd rfl (hbreaks.ne_service g)

theorem Ends.eq_error_of_rootIn {f : Failure} (h : Ends s w s' r) (hf : s.rootIn w.files = .error f) :
    ∃ e, r = .error e := by
  have hbuilt : ∀ {root timeout providers w'}, ¬ Builds s w root timeout providers w' := by
    intro root timeout providers w' hb
    cases hf.symm.trans hb.loaded
  cases h with
  | noProvider hb hne => exact absurd hb hbuilt
  | noSource hg h hc =>
    obtain ⟨⟨_, _, hb⟩, -⟩ := hg
    exact absurd hb hbuilt
  | ready hg h hc =>
    obtain ⟨⟨_, _, hb⟩, -⟩ := hg
    exact absurd hb hbuilt
  | _ => exact ⟨_, rfl⟩

section

omit [Json.Limits]

theorem combine_eq_none_iff {found : LocalStatements} :
    Repository.combine (blobRepository providers) found = none ↔ providers = [] ∧ ∃ reason, found = .absent reason := by
  cases found <;> cases providers <;> simp [Repository.combine, blobRepository]

theorem blobRepository_of_ne_nil (h : providers ≠ []) :
    blobRepository providers = some (.blobs (providers.map Provider.source) true) := by
  cases providers with
  | nil => exact absurd rfl h
  | cons p ps => rfl

theorem Ends.concludes_of_aborted (hp : providers = []) {loaded : Except Failure LocalStatements}
    (h : s.endpoints ≠ [] ∨ ∃ reason, loaded = .ok (.absent reason)) :
    Concludes s.endpoints loaded providers { s.building with stage := .aborted } (.ok .aborted) where
  answers := .inl rfl
  stage := rfl
  aborted := ⟨fun _ => ⟨hp, h⟩, fun _ => rfl⟩
  found := nofun
  blobs := nofun
  statements := nofun
  together := nofun

end

/-- The root certificate is at hand, and no failure but the service's own is raised: then nothing stops a run before its
end. -/
theorem Ends.concludes (h : Ends s w s' r) (hservice : ∀ f, r = .error f → ∃ g, f = .service g)
    (hr : s.rootIn w.files = .ok root) : ∃ timeout providers w', Builds s w root timeout providers w' ∧
      Concludes s.endpoints (s.statementsIn w).1 providers s' r := by
  cases h with
  | noRoot h =>
    rw [hr] at h
    cases h
  | badRoot h hf =>
    rw [hr] at h
    cases h
  | badTimeout hr' h =>
    obtain ⟨g, rfl⟩ := hservice _ rfl
    obtain ⟨-, f, hf⟩ := (Ends.badTimeout hr' h).of_service
    cases hr.symm.trans hf
  | noProvider hb hne =>
    cases hr.symm.trans hb.loaded
    exact ⟨_, _, _, hb, Ends.concludes_of_aborted rfl (.inl hne)⟩
  | badStatements hg h =>
    obtain ⟨g, rfl⟩ := hservice _ rfl
    obtain ⟨-, f, hf⟩ := (Ends.badStatements hg h).of_service
    cases hr.symm.trans hf
  | noSource hg h hc =>
    obtain ⟨rfl, reason, rfl⟩ := combine_eq_none_iff.1 hc
    have hloaded := hg.statements_fst.symm.trans h
    obtain ⟨⟨root', timeout, hb⟩, -⟩ := hg
    cases hr.symm.trans hb.loaded
    exact ⟨_, _, _, hb, Ends.concludes_of_aborted rfl (.inr ⟨reason, hloaded⟩)⟩
  | @ready providers w' found repository hg h hc =>
    -- which repository there is depends on `found` and on whether there were endpoints at all
    have hloaded := hg.statements_fst.symm.trans h
    obtain ⟨⟨root', timeout, hb⟩, husable⟩ := hg
    cases hr.symm.trans hb.loaded
    refine ⟨_, _, _, hb, .inr rfl, rfl, ?_, fun _ => ⟨found, hloaded⟩, ?_, ?_, ?_⟩
    · refine iff_of_false nofun ?_
      rintro ⟨rfl, hne | ⟨reason, habsent⟩⟩
      · exact husable.elim hne (absurd rfl)
      · obtain rfl : found = .absent reason := Except.ok.inj (hloaded.symm.trans habsent)
        cases hc
    · intro reason _ habsent
      obtain rfl : found = .absent reason := Except.ok.inj (hloaded.symm.trans habsent)
      have hne : providers ≠ [] := by
        rintro rfl
        cases hc
      rw [blobRepository_of_ne_nil hne] at hc
      cases hc
      rfl
    · intro files _ hpresent hnil
      obtain rfl : found = .present files := Except.ok.inj (hloaded.symm.trans hpresent)
      have hsublist := hb.sublist
      rw [hnil, List.sublist_nil, List.map_eq_nil_iff] at hsublist
      subst hsublist
      cases hc
      rfl
    · intro files _ hpresent hne
      obtain rfl : found = .present files := Except.ok.inj (hloaded.symm.trans hpresent)
      rw [blobRepository_of_ne_nil (husable.resolve_left hne)] at hc
      cases hc
      rfl

/-! ## The same run again -/

/-- A service in its world looks the same to a run as another service in another world. -/
structure Alike (s t : Service) (w v : World) : Prop where
  settings : t.settings = s.settings
  endpoints : t.endpoints = s.endpoints
  environment : v.environment = w.environment

namespace Alike

section

omit [Json.Limits]

theorem clock (h : Alike s t w v) : v.clock = w.clock := congrArg Prod.fst h.environment

theorem files (h : Alike s t w v) : v.files = w.files := congrArg (·.2.1) h.environment

theorem network (h : Alike s t w v) : v.network = w.network := congrArg (·.2.2) h.environment

theorem start (h : Alike s t w v) : Alike (s.start w.clock) (t.start v.clock) w v :=
  ⟨h.settings, h.endpoints, h.environment⟩

theorem rootIn (h : Alike s t w v) : t.rootIn v.files = s.rootIn w.files := by
  unfold Service.rootIn
  rw [h.settings, h.files]

end

theorem builds (h : Alike s t w v) (hb : Builds s w root timeout providers w') :
    ∃ v', Builds t v root timeout providers v' ∧ World.InStep w v w' v' := by
  obtain ⟨v', hb', honline, requests, log, hw, hv⟩ := hb.again h.settings h.endpoints (h.rootIn.trans hb.loaded)
    (Prod.ext h.clock h.network)
  obtain ⟨hclock, hnetwork⟩ := Prod.mk.inj honline
  have hfiles : v'.files = w'.files :=
    congrArg Prod.snd (hb'.given.trans ((Prod.ext h.clock h.files).trans hb.given.symm))
  exact ⟨v', hb', Prod.ext hclock (Prod.ext hfiles hnetwork), requests, hw.1, hv.1⟩

theorem gathers (h : Alike s t w v) (hg : Gathers s w providers w') : ∃ v', Gathers t v providers v' ∧
    (t.statementsIn v').1 = (s.statementsIn w').1 := by
  obtain ⟨⟨root, timeout, hb⟩, husable⟩ := hg
  obtain ⟨v', hb', hstep⟩ := h.builds hb
  refine ⟨v', ⟨⟨root, timeout, hb'⟩, ?_⟩, ?_⟩
  · rw [h.endpoints]
    exact husable
  · have hin : t.statementsIn = s.statementsIn := by rw [statementsIn, statementsIn, h.settings]
    rw [hin]
    exact (LocalStatements.load_depends _ v' w' hstep.files).1

/-- What a run comes to and publishes, it comes to and publishes again. -/
theorem ends (h : Alike s t w v) (hstage : t.stage = s.stage) (herror : t.lastError = s.lastError)
    (he : Ends s w s' r) : ∃ t', Ends t v t' r ∧ t'.stage = s'.stage ∧ t'.lastError = s'.lastError ∧
      (r = .ok .ready → t'.published = s'.published) := by
  cases he with
  | noRoot hr => exact ⟨_, .noRoot (h.rootIn.trans hr), rfl, rfl, nofun⟩
  | badRoot hr hf => exact ⟨t, .badRoot (h.rootIn.trans hr) hf, hstage, herror, nofun⟩
  | badTimeout hr ht =>
    rw [← h.settings] at ht
    exact ⟨_, .badTimeout (h.rootIn.trans hr) ht, rfl, herror, nofun⟩
  | noProvider hb hne =>
    obtain ⟨v', hb', -⟩ := h.builds hb
    rw [← h.endpoints] at hne
    exact ⟨_, .noProvider hb' hne, rfl, herror, nofun⟩
  | badStatements hg hl =>
    obtain ⟨v', hg', hsame⟩ := h.gathers hg
    exact ⟨_, .badStatements hg' (hsame.trans hl), rfl, herror, nofun⟩
  | noSource hg hl hc =>
    obtain ⟨v', hg', hsame⟩ := h.gathers hg
    exact ⟨_, .noSource hg' (hsame.trans hl) hc, rfl, herror, nofun⟩
  | ready hg hl hc =>
    obtain ⟨v', hg', hsame⟩ := h.gathers hg
    refine ⟨_, .ready hg' (hsame.trans hl) hc, rfl, herror, fun _ => ?_⟩
    simp only [published, h.clock]

/-- The requests of a run are made again, and leave the same environment behind. -/
theorem inStep (h : Alike s t w v) : World.InStep w v (proceed s w).2 (proceed t v).2 := by
  have hstart : World.InStep w v w v := .refl h.environment
  -- only a run that builds its providers makes requests
  cases hr : s.rootIn w.files with
  | error f => exact hstart.outside (proceed_outside_of_rootIn hr) (proceed_outside_of_rootIn (h.rootIn.trans hr))
  | ok root =>
    cases ht : s.settings.readTimeout with
    | error f =>
      have ht' : t.settings.readTimeout = .error f := by rw [h.settings, ht]
      exact hstart.outside (proceed_outside_of_readTimeout hr ht)
        (proceed_outside_of_readTimeout (h.rootIn.trans hr) ht')
    | ok timeout =>
      obtain ⟨providers, w', hb⟩ := exists_builds hr ht
      obtain ⟨v', hb', hstep⟩ := h.builds hb
      exact hstep.outside hb.proceed_outside hb'.proceed_outside

end Alike

/-- Two services that look the same run alike, whatever earlier runs have made of them. -/
theorem Alike.run (h : Alike s t w v) (hr : s.run w = (.ok (s', r), w')) : ∃ t' v', t.run v = (.ok (t', r), v') ∧
    t'.stage = s'.stage ∧ t'.lastError = s'.lastError ∧ (r = .ok .ready → t'.published = s'.published) ∧
    World.InStep w v w' v' := by
  have hends : Ends (s.start w.clock) w s' r := run_fst_eq_ok_iff.1 (by rw [hr])
  obtain ⟨t', hends', hstage, herror, hpublished⟩ := h.start.ends rfl rfl hends
  have hstep := h.start.inStep
  rw [← run_apply, ← run_apply, hr] at hstep
  exact ⟨t', _, Prod.ext (run_fst_eq_ok_iff.2 hends') rfl, hstage, herror, hpublished, hstep⟩

/-- **A run is decided by its root certificate, its endpoints and its statements.**  Without the root certificate it
fails, and asks for nothing.  Otherwise each endpoint has its turn, and what is left of them are the providers: the run
is aborted when none is left, though there were endpoints or there are no statements either, and becomes ready over
what there is.  A service with the same settings and endpoints comes to the same in the same environment, whatever runs
have gone before. -/
theorem run_concludes (s : Service) (w : World) : ∃ s' r w', s.run w = (.ok (s', r), w') ∧
    ((∀ f, r = .error f → ∃ g, f = .service g) →
      ((∃ g, r = .error (.service g)) ↔ ∃ f, s.rootIn w.files = .error f) ∧
      (∀ f, r = .error f → s'.stage = .failed ∧ w'.outside = w.outside) ∧
      ∀ root, s.rootIn w.files = .ok root → ∃ timeout log providers w₁,
        s.settings.readTimeout = .ok timeout ∧
        Provider.Survive (providerFactory root timeout) (s.settings.readFlag Setting.revocationCheck.key true)
          s.endpoints { w with log := log } providers w₁ ∧
        (providers.map Provider.url).Sublist s.endpoints ∧ w'.outside = w₁.outside ∧
        Concludes s.endpoints (s.statementsIn w).1 providers s' r ∧
        (s.endpoints ≠ [] → providers = [] → ∀ files, s.rootIn files = .ok root → ∃ w₂,
          s.run { w with files := files } = (.ok (s', r), w₂) ∧
          w₂.network = w'.network ∧ w₂.requests = w'.requests ∧ w₂.log = w'.log)) ∧
    ∀ t v, Alike s t w v → ∃ t' v', t.run v = (.ok (t', r), v') ∧ t'.stage = s'.stage ∧ t'.lastError = s'.lastError ∧
      (r = .ok .ready → t'.published = s'.published) ∧ World.InStep w v w' v' := by
  obtain ⟨s', r, hfst⟩ := exists_run_fst s w
  have hends : Ends (s.start w.clock) w s' r := run_fst_eq_ok_iff.1 hfst
  rw [run_apply] at hfst
  have hproceed : proceed (s.start w.clock) w = (.ok (s', r), (proceed (s.start w.clock) w).2) := Prod.ext hfst rfl
  have hrun := (run_apply s w).trans hproceed
  refine ⟨s', r, _, hrun, fun hservice => ⟨?_, ?_, ?_⟩, fun t v h => h.run hrun⟩
  · constructor
    · rintro ⟨g, rfl⟩
      exact hends.of_service.2
    · rintro ⟨f, hf⟩
      obtain ⟨e, rfl⟩ := hends.eq_error_of_rootIn hf
      obtain ⟨g, rfl⟩ := hservice e rfl
      exact ⟨g, rfl⟩
  · rintro f rfl
    obtain ⟨g, rfl⟩ := hservice f rfl
    obtain ⟨hstage, e, hr⟩ := hends.of_service
    exact ⟨hstage, proceed_outside_of_rootIn hr⟩
  · intro root hr
    obtain ⟨timeout, providers, w₁, hb, hconcludes⟩ := hends.concludes hservice hr
    obtain ⟨log, hsurvive⟩ := hb.survive
    refine ⟨timeout, log, providers, w₁, hb.bounded, hsurvive, hb.sublist, hb.proceed_outside, hconcludes, ?_⟩
    rintro hne rfl files hfiles
    obtain ⟨w₂, hrun₂, hsame⟩ := hb.proceed_of_other_files hne hfiles
    obtain ⟨hanswer, -⟩ := Prod.mk.inj (hproceed.symm.trans (hb.proceed_of_noProvider hne))
    rw [hanswer]
    exact ⟨w₂, (run_apply s _).trans hrun₂, hsame⟩

end Service
end AttestationTrust
