import AttestationTrust.Proofs.Exchange
import AttestationTrust.Proofs.Providers
/-!
# What a refresh leaves behind

A refresh comes by what a BLOB carries when the location serves one that the root accepts and the check of its signers
passes (`Provider.Obtains`).  From then on the provider holds it; otherwise the provider is what it was.  A BLOB that
carries nothing is accepted too: such a refresh fails and takes effect all the same, and the provider is left without
the payload that it held (`Provider.refresh_of_obtains_none`).  After refreshes in a row the last that came by a BLOB
counts (`Provider.refreshedIn_eq`).
-/
namespace AttestationTrust
namespace Provider

open X509 (Certificate)
open Metadata (Payload)

variable [Json.Limits]

/-- A refresh comes by what a BLOB carries: it is fetched and accepted, and the check of its signers passes. -/
def Obtains (p : Provider) (w : World) (payload : Option Payload) : Prop :=
  ∃ blob, (w.network.ask p.timeout p.url).1 = .ok blob ∧ Blob.accept p.root blob = some payload ∧
    (p.revocationCheck = true →
      (Revocation.checkBlob blob p.root p.timeout (Action.fetch p.url p.timeout w).2).1 = .ok ())

/-- The provider that holds what a refresh has come by. -/
def holding (p : Provider) (w : World) (payload : Option Payload) : Provider :=
  { p with payload := payload, lastRefreshed := some w.clock }

variable {p : Provider} {w : World}

theorem obtain_of_error {f : Failure} (h : (w.network.ask p.timeout p.url).1 = .error f) :
    p.obtain w = (.error f, (Action.fetch p.url p.timeout w).2) := by
  have hfetch : Action.fetch p.url p.timeout w = (.error f, (Action.fetch p.url p.timeout w).2) :=
    Prod.ext (by rw [Action.fetch_apply, h]) rfl
  exact Action.bind_of_error _ hfetch

theorem obtain_of_ok {blob : Bytes} (h : (w.network.ask p.timeout p.url).1 = .ok blob) : p.obtain w =
    (match Blob.accept p.root blob with
      | none => throw (.blob (.unverified p.url))
      | some payload => do
        if p.revocationCheck then Revocation.checkBlob blob p.root p.timeout
        pure payload : Action (Option Payload)) (Action.fetch p.url p.timeout w).2 := by
  have hfetch : Action.fetch p.url p.timeout w = (.ok blob, (Action.fetch p.url p.timeout w).2) :=
    Prod.ext (by rw [Action.fetch_apply, h]) rfl
  exact Action.bind_of_ok _ hfetch

theorem obtain_of_rejected {blob : Bytes} (h : (w.network.ask p.timeout p.url).1 = .ok blob)
    (hrejected : Blob.accept p.root blob = none) :
    p.obtain w = (.error (.blob (.unverified p.url)), (Action.fetch p.url p.timeout w).2) := by
  rw [obtain_of_ok h, hrejected]
  rfl

theorem obtain_of_unchecked {blob : Bytes} {payload : Option Payload}
    (h : (w.network.ask p.timeout p.url).1 = .ok blob) (haccept : Blob.accept p.root blob = some payload)
    (hcheck : p.revocationCheck = false) : p.obtain w = (.ok payload, (Action.fetch p.url p.timeout w).2) := by
  rw [obtain_of_ok h, haccept, hcheck]
  rfl

theorem obtain_of_checked {blob : Bytes} {payload : Option Payload}
    (h : (w.network.ask p.timeout p.url).1 = .ok blob) (haccept : Blob.accept p.root blob = some payload)
    (hcheck : p.revocationCheck = true) : p.obtain w =
      ((Revocation.checkBlob blob p.root p.timeout (Action.fetch p.url p.timeout w).2).1.map fun _ => payload,
        (Revocation.checkBlob blob p.root p.timeout (Action.fetch p.url p.timeout w).2).2) := by
  rw [obtain_of_ok h, haccept, hcheck]
  dsimp only
  rw [if_pos rfl, Action.bind_apply]
  rcases Revocation.checkBlob blob p.root p.timeout (Action.fetch p.url p.timeout w).2 with ⟨f | u, w'⟩ <;> rfl

theorem obtain_fst_eq_ok_iff {payload : Option Payload} : (p.obtain w).1 = .ok payload ↔ p.Obtains w payload := by
  cases h : (w.network.ask p.timeout p.url).1 with
  | error f => simp [obtain_of_error h, Obtains, h]
  | ok blob =>
    cases haccept : Blob.accept p.root blob with
    | none => simp [obtain_of_rejected h haccept, Obtains, h, haccept]
    | some payload' =>
      cases hcheck : p.revocationCheck with
      | false => simp [obtain_of_unchecked h haccept hcheck, Obtains, h, haccept, hcheck]
      | true =>
        rw [obtain_of_checked h haccept hcheck]
        simp only [Obtains, h, Except.ok.injEq, exists_eq_left', haccept, Option.some.injEq, hcheck, forall_const]
        cases (Revocation.checkBlob blob p.root p.timeout (Action.fetch p.url p.timeout w).2).1 with
        | error f => simp [Except.map]
        | ok => simp [Except.map]

theorem Obtains.unique {payload payload' : Option Payload} (h : p.Obtains w payload) (h' : p.Obtains w payload') :
    payload = payload' :=
  Except.ok.inj ((obtain_fst_eq_ok_iff.2 h).symm.trans (obtain_fst_eq_ok_iff.2 h'))

theorem refresh_of_obtain_error {f : Failure} {w' : World} (h : p.obtain w = (.error f, w')) :
    p.refresh w = (.ok (p, .error f), w') := by
  unfold refresh
  rw [Action.bind_of_ok _ (Action.attempt_apply p.obtain w), h]
  rfl

theorem refresh_of_obtain_none {w' : World} (h : p.obtain w = (.ok none, w')) :
    p.refresh w = (.ok (p.holding w' none, .error .noSuchPart), w') := by
  unfold refresh
  rw [Action.bind_of_ok _ (Action.attempt_apply p.obtain w), h]
  rfl

theorem refresh_of_obtain_some {m : Payload} {w' : World} (h : p.obtain w = (.ok (some m), w')) :
    p.refresh w = (.ok (p.holding w' (some m), .ok m), w'.record .info topic (p.loadedText m)) := by
  unfold refresh
  rw [Action.bind_of_ok _ (Action.attempt_apply p.obtain w), h]
  rfl

/-- The clock stands still while a provider obtains a BLOB, so the time of a refresh is the time it is asked for. -/
theorem holding_obtain_snd (p : Provider) (w : World) (payload : Option Payload) :
    p.holding (p.obtain w).2 payload = p.holding w payload := by
  have hclock : (p.obtain w).2.clock = w.clock := congrArg Prod.fst ((within_obtain p).leaves_given w)
  rw [holding, hclock]
  rfl

theorem refresh_of_obtains_some {m : Payload} (h : p.Obtains w (some m)) :
    (p.refresh w).1 = .ok (p.holding w (some m), .ok m) := by
  rw [refresh_of_obtain_some (Prod.ext (obtain_fst_eq_ok_iff.2 h) rfl), holding_obtain_snd]

theorem refresh_of_obtains_none (h : p.Obtains w none) :
    (p.refresh w).1 = .ok (p.holding w none, .error .noSuchPart) := by
  rw [refresh_of_obtain_none (Prod.ext (obtain_fst_eq_ok_iff.2 h) rfl), holding_obtain_snd]

theorem refresh_of_not_obtains (h : ∀ payload, ¬ p.Obtains w payload) :
    ∃ f, (p.refresh w).1 = .ok (p, .error f) := by
  cases hobtain : (p.obtain w).1 with
  | error f => exact ⟨f, by rw [refresh_of_obtain_error (Prod.ext hobtain rfl)]⟩
  | ok payload => exact absurd (obtain_fst_eq_ok_iff.1 hobtain) (h payload)

/-- A refresh answers with what it has come by. -/
theorem refresh_fst_eq_ok_iff {p' : Provider} {m : Payload} :
    (p.refresh w).1 = .ok (p', .ok m) ↔ p.Obtains w (some m) ∧ p' = p.holding w (some m) := by
  constructor
  · intro h
    cases hobtain : (p.obtain w).1 with
    | error f =>
      rw [refresh_of_obtain_error (Prod.ext hobtain rfl)] at h
      cases h
    | ok payload =>
      have hobtains := obtain_fst_eq_ok_iff.1 hobtain
      cases payload with
      | none =>
        rw [refresh_of_obtains_none hobtains] at h
        cases h
      | some m' =>
        rw [refresh_of_obtains_some hobtains] at h
        cases h
        exact ⟨hobtains, rfl⟩
  · rintro ⟨hobtains, rfl⟩
    exact refresh_of_obtains_some hobtains

/-- The provider that a refresh leaves behind. -/
def refreshed (p : Provider) (w : World) : Provider :=
  match (p.refresh w).1 with
  | .ok (p', _) => p'
  | .error _ => p

/-- The provider after refreshes in a row, each in a world of its own. -/
def refreshedIn (p : Provider) (ws : List World) : Provider := ws.foldl refreshed p

theorem refreshed_of_obtains {payload : Option Payload} (h : p.Obtains w payload) :
    p.refreshed w = p.holding w payload := by
  cases payload with
  | none => rw [refreshed, refresh_of_obtains_none h]
  | some m => rw [refreshed, refresh_of_obtains_some h]

theorem refreshed_of_not_obtains (h : ∀ payload, ¬ p.Obtains w payload) : p.refreshed w = p := by
  obtain ⟨f, hf⟩ := refresh_of_not_obtains h
  rw [refreshed, hf]

/-- The state after refreshes in a row is that after the last of them that has come by a BLOB. -/
theorem refreshedIn_eq (p : Provider) (ws : List World) :
    (∀ w ∈ ws, ∀ payload, ¬ p.Obtains w payload) ∧ p.refreshedIn ws = p ∨
    ∃ before w after payload, ws = before ++ w :: after ∧ p.Obtains w payload ∧
      (∀ v ∈ after, ∀ payload, ¬ p.Obtains v payload) ∧ p.refreshedIn ws = p.holding w payload := by
  induction ws generalizing p with
  | nil => exact .inl ⟨by simp, rfl⟩
  | cons w ws ih =>
    have hcons : p.refreshedIn (w :: ws) = (p.refreshed w).refreshedIn ws := rfl
    rw [hcons]
    by_cases hw : ∃ payload, p.Obtains w payload
    · obtain ⟨payload, hobtains⟩ := hw
      rw [refreshed_of_obtains hobtains]
      -- what a provider holds makes no difference to what a refresh comes by
      obtain ⟨hnone, heq⟩ | ⟨before, v, after, payload', rfl, hv, hafter, heq⟩ := ih (p.holding w payload)
      · exact .inr ⟨[], w, ws, payload, rfl, hobtains, hnone, heq⟩
      · exact .inr ⟨w :: before, v, after, payload', rfl, hv, hafter, heq⟩
    · have hw : ∀ payload, ¬ p.Obtains w payload := fun payload h => hw ⟨payload, h⟩
      rw [refreshed_of_not_obtains hw]
      obtain ⟨hnone, heq⟩ | ⟨before, v, after, payload', rfl, hv, hafter, heq⟩ := ih p
      · exact .inl ⟨List.forall_mem_cons.2 ⟨hw, hnone⟩, heq⟩
      · exact .inr ⟨w :: before, v, after, payload', rfl, hv, hafter, heq⟩

/-- A refresh that answers replaces what the provider holds, and one that fails leaves the provider as it was, unless
the BLOB carried nothing: then it fails, and the provider is left without a payload.  So after refreshes in a row the
provider holds what the last of them came by that came by a BLOB. -/
theorem refresh_replaces_or_keeps (p : Provider) :
    (∀ w, ∃ r, (p.refresh w).1 = .ok (p.refreshed w, r) ∧
      (∀ m, r = .ok m ↔ p.Obtains w (some m)) ∧
      (∀ m, r = .ok m → p.refreshed w = p.holding w (some m) ∧
        (p.refreshed w).metadata = .ok m ∧ (p.refreshed w).lastRefreshed = some w.clock) ∧
      (∀ f, r = .error f →
        ¬ p.Obtains w none ∧ p.refreshed w = p ∨
        p.Obtains w none ∧ f = .noSuchPart ∧ p.refreshed w = p.holding w none ∧
          (p.refreshed w).metadata = .error (.blob (.notLoaded p.url)))) ∧
    ∀ ws, (∀ w ∈ ws, ∀ payload, ¬ p.Obtains w payload) ∧ p.refreshedIn ws = p ∨
      ∃ before w after payload, ws = before ++ w :: after ∧ p.Obtains w payload ∧
        (∀ v ∈ after, ∀ payload, ¬ p.Obtains v payload) ∧ p.refreshedIn ws = p.holding w payload := by
  refine ⟨fun w => ?_, refreshedIn_eq p⟩
  by_cases hw : ∃ payload, p.Obtains w payload
  · obtain ⟨payload, hobtains⟩ := hw
    have heq := refreshed_of_obtains hobtains
    cases payload with
    | none =>
      refine ⟨.error .noSuchPart, by rw [heq, refresh_of_obtains_none hobtains], fun m => ?_, by simp, ?_⟩
      · exact iff_of_false (by simp) fun h => Option.some_ne_none m (h.unique hobtains)
      · rintro f hf
        cases hf
        exact .inr ⟨hobtains, rfl, heq, by rw [heq]; rfl⟩
    | some m =>
      refine ⟨.ok m, by rw [heq, refresh_of_obtains_some hobtains], fun m' => ⟨?_, fun h => ?_⟩, ?_, by simp⟩
      · rintro hm
        cases hm
        exact hobtains
      · cases hobtains.unique h
        rfl
      · rintro m' hm
        cases hm
        exact ⟨heq, by rw [heq]; rfl, by rw [heq]; rfl⟩
  · have hw : ∀ payload, ¬ p.Obtains w payload := fun payload h => hw ⟨payload, h⟩
    have heq := refreshed_of_not_obtains hw
    obtain ⟨f, hf⟩ := refresh_of_not_obtains hw
    refine ⟨.error f, by rw [heq, hf], fun m => iff_of_false (by simp) (hw (some m)), by simp, ?_⟩
    exact fun g _ => .inl ⟨hw none, heq⟩

end Provider
end AttestationTrust
