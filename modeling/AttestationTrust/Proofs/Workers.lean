import AttestationTrust.Proofs.Run
import AttestationTrust.Proofs.Sharing
/-!
# Runs whose endpoints are shared by workers

A run may leave its endpoints to workers, as many as the settings ask for.  Their steps come in any order, so such a run is
a relation between the service and the world at its start and what they may be in the end (`Service.RunsBy`).  One worker
takes the endpoints as a run without workers does, and so does any number with one endpoint.  With more of both the order
of the requests is open; where locations have one reply for all requests, the run still comes to the same, but for the
times that are noted on the way (`Service.runsBy_agrees`).
-/
namespace AttestationTrust

open X509 (Certificate)
open Metadata (LocalStatements)

namespace Provider

/-- A source of anchors is told by what tells providers apart. -/
theorem map_source_congr {ps qs : List Provider} (h : qs.map row = ps.map row) : qs.map source = ps.map source := by
  have hsource : source = (fun x => ⟨x.1, x.2.2.2.map (·.entries)⟩) ∘ row := rfl
  rw [hsource, ← List.map_map, h, List.map_map]

/-- One worker takes the locations one after another. -/
theorem buildsBy_one [Json.Limits] (factory : Factory) (revocationCheck : Bool) (urls : List String) (w : World) :
    BuildsBy factory revocationCheck 1 urls w (buildAll factory revocationCheck urls w).1
      (buildAll factory revocationCheck urls w).2 :=
  .serial (by simp [poolSize]) rfl

end Provider

namespace Service

variable {s : Service} {w v w' : World} {x : Except Failure (Outcome Stage)} {providers others : List Provider}

/-- Two services are the same but for the times at which something has succeeded: a run, or the refresh of a provider. -/
def SameButTimes (s t : Service) : Prop :=
  ∃ providers time, t = { s with providers := providers, lastSuccess := time } ∧
    providers.map Provider.row = s.providers.map Provider.row ∧ time.isSome = s.lastSuccess.isSome

theorem SameButTimes.refl (s : Service) : SameButTimes s s := ⟨s.providers, s.lastSuccess, rfl, rfl, rfl⟩

/-! ## What follows the providers -/

theorem blobRepository_congr (h : others.map Provider.row = providers.map Provider.row) :
    blobRepository others = blobRepository providers := by
  have hsource := Provider.map_source_congr h
  cases providers with
  | nil => rw [List.map_eq_nil_iff.1 h]
  | cons p ps =>
    cases others with
    | nil => cases h
    | cons q qs =>
      have hsame := congrArg (fun sources => some (Repository.blobs sources true)) hsource
      exact hsame

/-- A run that has come to its statements comes to the same with providers that differ in their times alone. -/
theorem publish_congr (s : Service) (h : others.map Provider.row = providers.map Provider.row) (found : LocalStatements)
    (w v : World) : ∃ s' t' r, (publish s providers found w).1 = .ok (s', r) ∧
      (publish s others found v).1 = .ok (t', r) ∧ SameButTimes s' t' := by
  cases hc : Repository.combine (blobRepository providers) found with
  | none =>
    have hc' := (congrArg (Repository.combine · found) (blobRepository_congr h)).trans hc
    exact ⟨_, _, _, publish_fst_of_none hc, publish_fst_of_none hc', .refl _⟩
  | some repository =>
    have hc' := (congrArg (Repository.combine · found) (blobRepository_congr h)).trans hc
    exact ⟨_, _, _, publish_fst_of_some hc, publish_fst_of_some hc', others, some v.clock, rfl, h, rfl⟩

variable [Json.Limits]

theorem addStatements_congr (s : Service) (h : others.map Provider.row = providers.map Provider.row)
    (hfiles : v.files = w.files) : ∃ s' t' r, (addStatements s providers w).1 = .ok (s', r) ∧
      (addStatements s others v).1 = .ok (t', r) ∧ SameButTimes s' t' := by
  have hfound : (s.statementsIn v).1 = (s.statementsIn w).1 := (LocalStatements.load_depends _ v w hfiles).1
  rw [addStatements_apply, addStatements_apply, hfound]
  cases (s.statementsIn w).1 with
  | error f => exact ⟨_, _, _, rfl, rfl, .refl _⟩
  | ok found => exact publish_congr _ h found _ _

theorem conclude_congr (s : Service) (endpoints : List String)
    (h : others.map Provider.row = providers.map Provider.row) (hfiles : v.files = w.files) :
    ∃ s' t' r, (conclude s endpoints (.ok providers) w).1 = .ok (s', r) ∧
      (conclude s endpoints (.ok others) v).1 = .ok (t', r) ∧ SameButTimes s' t' := by
  by_cases husable : endpoints = [] ∨ providers ≠ []
  · have husable' : endpoints = [] ∨ others ≠ [] := husable.imp_right fun hne hnil => by
      rw [hnil] at h
      exact hne (List.map_eq_nil_iff.1 h.symm)
    rw [conclude_of_usable s husable, conclude_of_usable s husable']
    exact addStatements_congr s h hfiles
  · obtain ⟨hne, hnil⟩ := not_or.1 husable
    obtain rfl := Classical.not_not.1 hnil
    obtain rfl := List.map_eq_nil_iff.1 h
    rw [conclude_of_nil s hne, conclude_of_nil s hne]
    exact ⟨_, _, _, rfl, rfl, .refl _⟩

/-! ## Runs -/

/-- A run whose endpoints are shared by the workers that the settings ask for, and what it may come to.  One that has no
root certificate, or no timeout, does not come to its endpoints. -/
inductive RunsBy (s : Service) (w : World) : Except Failure (Outcome Stage) → World → Prop
  | unbuilt {x : Except Failure (Outcome Stage)} {w' : World}
      (h : ∀ root timeout, s.rootIn w.files = .ok root → s.settings.readTimeout ≠ .ok timeout)
      (hrun : s.run w = (x, w')) : RunsBy s w x w'
  | built {root : Certificate} {timeout : Binary64} {built : Except Failure (List Provider)} {v w' : World}
      {x : Except Failure (Outcome Stage)} (hr : s.rootIn w.files = .ok root) (ht : s.settings.readTimeout = .ok timeout)
      (hb : Provider.BuildsBy (providerFactory root timeout) (s.settings.readFlag Setting.revocationCheck.key true)
        s.settings.readWorkers s.endpoints (s.buildingWorld w) built v)
      (hx : conclude (s.start w.clock).building s.endpoints built v = (x, w')) : RunsBy s w x w'

/-- A run without workers is one whose endpoints are taken one after another. -/
theorem run_of_built {root : Certificate} {timeout : Binary64} (hr : s.rootIn w.files = .ok root)
    (ht : s.settings.readTimeout = .ok timeout) :
    s.run w = conclude (s.start w.clock).building s.endpoints
      (Provider.buildAll (providerFactory root timeout) (s.settings.readFlag Setting.revocationCheck.key true)
        s.endpoints (s.buildingWorld w)).1
      (Provider.buildAll (providerFactory root timeout) (s.settings.readFlag Setting.revocationCheck.key true)
        s.endpoints (s.buildingWorld w)).2 := by
  obtain ⟨providers, w', hb⟩ := exists_builds (s := s.start w.clock) (w := w) hr ht
  rw [run_apply, proceed_apply_of_root hb.loaded, runWith_apply hb.buildProviders_apply]
  have hbuilt : Provider.buildAll (providerFactory root timeout)
      (s.settings.readFlag Setting.revocationCheck.key true) s.endpoints (s.buildingWorld w) = (.ok providers, w') :=
    hb.built
  rw [hbuilt]
  rfl

theorem exists_runsBy (s : Service) (w : World) : ∃ x w', RunsBy s w x w' := by
  by_cases h : ∃ root timeout, s.rootIn w.files = .ok root ∧ s.settings.readTimeout = .ok timeout
  · obtain ⟨root, timeout, hr, ht⟩ := h
    obtain ⟨built, v, hb⟩ := Provider.exists_buildsBy (providerFactory root timeout)
      (s.settings.readFlag Setting.revocationCheck.key true) s.settings.readWorkers s.endpoints (s.buildingWorld w)
    exact ⟨_, _, .built hr ht hb rfl⟩
  · exact ⟨_, _, .unbuilt (fun root timeout hr ht => h ⟨root, timeout, hr, ht⟩) rfl⟩

theorem RunsBy.exists_ok (h : RunsBy s w x w') : ∃ s' r, x = .ok (s', r) := by
  cases h with
  | unbuilt _ hrun =>
    obtain ⟨s', r, hfst⟩ := exists_run_fst s w
    exact ⟨s', r, by rw [← hfst, hrun]⟩
  | @built root timeout built v _ _ hr ht hb hx =>
    obtain ⟨ps, rfl, -⟩ := hb.exists_ok fun url made hmade => (Provider.make_eq_ok hmade).1
    obtain ⟨s', -, r, hfst, -⟩ := conclude_congr (s.start w.clock).building s.endpoints (Eq.refl (ps.map Provider.row))
      (Eq.refl v.files)
    exact ⟨s', r, by rw [← hfst, hx]⟩

theorem runsBy_iff_run (h : Provider.poolSize s.settings.readWorkers s.endpoints = none) :
    RunsBy s w x w' ↔ s.run w = (x, w') := by
  constructor
  · rintro (⟨-, hrun⟩ | ⟨hr, ht, hb, hx⟩)
    · exact hrun
    · cases hb with
      | serial _ hb =>
        rw [run_of_built hr ht, hb]
        exact hx
      | pooled hsize => cases h.symm.trans hsize
  · intro hrun
    by_cases hbuilt : ∃ root timeout, s.rootIn w.files = .ok root ∧ s.settings.readTimeout = .ok timeout
    · obtain ⟨root, timeout, hr, ht⟩ := hbuilt
      rw [run_of_built hr ht] at hrun
      exact .built hr ht (.serial h rfl) hrun
    · exact .unbuilt (fun root timeout hr ht => hbuilt ⟨root, timeout, hr, ht⟩) hrun

/-- Where replies do not change, workers make no difference to what a run comes to but in the times that it notes. -/
theorem RunsBy.sameButTimes (hn : w.network.IsSteady) (h : RunsBy s w x w') : ∃ s' t' r,
    (s.run w).1 = .ok (s', r) ∧ x = .ok (t', r) ∧ SameButTimes s' t' := by
  cases h with
  | unbuilt _ hrun =>
    obtain ⟨s', r, hfst⟩ := exists_run_fst s w
    exact ⟨s', s', r, hfst, by rw [← hfst, hrun], .refl s'⟩
  | @built root timeout built v _ _ hr ht hb hx =>
    have hserial := Provider.buildsBy_one (providerFactory root timeout)
      (s.settings.readFlag Setting.revocationCheck.key true) s.endpoints (s.buildingWorld w)
    obtain ⟨ps, _, hps, -, hfiles, -, hisolates⟩ := Provider.BuildsBy.isolates hn (v := s.buildingWorld w) rfl hserial
      (w := w) rfl
    obtain ⟨qs, _, rfl, -, hfiles', -, hisolates'⟩ := Provider.BuildsBy.isolates hn (v := s.buildingWorld w) rfl hb
      (w := w) rfl
    obtain ⟨s', t', r, hs', ht', hsame⟩ := conclude_congr (s.start w.clock).building s.endpoints
      (hisolates'.rows.trans hisolates.rows.symm) (hfiles'.trans hfiles.symm)
    refine ⟨s', t', r, ?_, by rw [← ht', hx], hsame⟩
    rw [run_of_built hr ht, hps]
    exact hs'

/-- **Workers make no difference.**  A run whose endpoints are shared by as many workers as the settings ask for always
comes to an end, and raises nothing but what it answers with.  With a single worker, or a single endpoint, it is the run
whose endpoints are taken one after another; and so it is with any number of both where locations have one reply for all
requests, but for the times at which the providers were refreshed and the run became ready. -/
theorem runsBy_agrees (s : Service) (w : World) :
    (∃ x w', RunsBy s w x w') ∧
    (∀ x w', RunsBy s w x w' → ∃ s' r, x = .ok (s', r)) ∧
    (Provider.poolSize s.settings.readWorkers s.endpoints = none → ∀ x w', RunsBy s w x w' ↔ s.run w = (x, w')) ∧
    (w.network.IsSteady → ∀ x w', RunsBy s w x w' → ∃ s' t' r,
      (s.run w).1 = .ok (s', r) ∧ x = .ok (t', r) ∧ SameButTimes s' t') :=
  ⟨exists_runsBy s w, fun _ _ h => h.exists_ok, fun h _ _ => runsBy_iff_run h, fun hn _ _ h => h.sameButTimes hn⟩

end Service
end AttestationTrust
