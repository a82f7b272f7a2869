import AttestationTrust.Proofs.Action
import AttestationTrust.Provider
/-!
# Providers from outside

Building providers makes requests, logs and looks at the clock, and has to do with nothing else in the world
(`Provider.within_buildAll`): the clock and the files stay what they were, and what comes of it is a matter of the clock
and the network alone, whatever files there are and whatever has been asked before (`Provider.buildAll_depends`).  It
never fails: a location whose provider cannot be made or refreshed is left out (`Provider.exists_buildAll_fst`).
-/
namespace AttestationTrust

open AttestationTrust.Action (Scope Within Depends)
open X509 (Certificate)

/-- What comes of requests is a matter of the clock and the network. -/
def World.online (w : World) : Int × Network := (w.clock, w.network)

/-- Providers look at the clock and make requests, may fail by anything, and may say so. -/
def Provider.scope : Scope Int := ⟨World.clock, True, fun _ => True, fun _ => True⟩

/-- The check of signers looks at nothing, and what it logs are no errors. -/
def Revocation.scope : Scope Unit := ⟨fun _ => (), True, fun _ => True, fun l => l ≠ .error⟩

namespace Revocation

theorem within_log {l : Level} (h : l ≠ .error) (topic text : String) : Within scope (Action.log l topic text) :=
  Within.log h topic text

theorem within_checkUrls (c issuer : Certificate) (timeout : Timeout) :
    ∀ (urls : List String) (last : ListFault), Within scope (checkUrls c issuer timeout last urls)
  | [], last => by
    rw [checkUrls]
    exact Within.bind (Within.ofX509 fun _ _ => trivial) fun _ => Within.throw trivial
  | url :: urls, last => by
    have hobtain : Within scope (obtain url timeout) :=
      Within.bind (Within.fetch trivial (fun _ => trivial) _ _) fun _ => Within.ofX509 fun _ _ => trivial
    rw [checkUrls]
    refine Within.bind (Within.attempt hobtain) fun r => ?_
    cases r with
    | error f =>
      dsimp only
      split
      · exact Within.throw trivial
      · exact Within.bind (within_log (by decide) _ _) fun _ => within_checkUrls c issuer timeout urls _
    | ok crl =>
      refine Within.bind (Within.ofX509 fun _ _ => trivial) fun key =>
        Within.bind (Within.ofX509 fun _ _ => trivial) fun signed => ?_
      refine Within.ite ?_ ?_
      · exact Within.bind (within_log (by decide) _ _) fun _ => within_checkUrls c issuer timeout urls _
      · refine Within.bind (Within.ofExcept fun _ _ => trivial) fun listed => ?_
        exact Within.ite (Within.bind (Within.ofX509 fun _ _ => trivial) fun _ => Within.throw trivial) (Within.pure _)

theorem within_checkCertificate (c issuer : Certificate) (timeout : Timeout) :
    Within scope (checkCertificate c issuer timeout) := by
  refine Within.bind (Within.ofX509 fun _ _ => trivial) fun urls => ?_
  split
  · exact Within.bind (Within.ofX509 fun _ _ => trivial) fun _ => within_log (by decide) _ _
  · exact within_checkUrls c issuer timeout _ _

variable [Json.Limits] in
theorem within_checkBlob (blob : Bytes) (root : Certificate) (timeout : Timeout) :
    Within scope (checkBlob blob root timeout) := by
  have heach : ∀ p : Certificate × Certificate, Within scope (checkCertificate p.1 p.2 timeout) :=
    fun p => within_checkCertificate p.1 p.2 timeout
  unfold checkBlob
  exact Within.bind (Within.ofExcept fun _ _ => trivial) fun chain => Within.forM heach _

end Revocation

namespace Provider

variable [Json.Limits]

theorem within_obtain (p : Provider) : Within Revocation.scope p.obtain := by
  refine Within.bind (Within.fetch trivial (fun _ => trivial) _ _) fun blob => ?_
  split
  · exact Within.throw trivial
  · exact Within.ite (Within.bind (Revocation.within_checkBlob _ _ _) fun _ => Within.pure _) (Within.pure _)

theorem within_refresh (p : Provider) : Within scope p.refresh := by
  have hobtain : Within scope p.obtain :=
    (within_obtain p).mono (fun _ _ _ => rfl) id (fun _ _ => trivial) fun _ _ => trivial
  refine Within.bind (Within.attempt hobtain) fun r => ?_
  cases r with
  | error f => exact Within.pure _
  | ok payload =>
    refine Within.get (fun w => ?_) fun w w' hclock => ?_
    · cases payload with
      | none => exact Within.pure _
      | some m => exact Within.bind (Within.log trivial _ _) fun _ => Within.pure _
    · have hclock : w.clock = w'.clock := hclock
      rw [hclock]

variable (factory : Factory) (revocationCheck : Bool)

theorem within_build (url : String) : Within scope (build factory revocationCheck url) := by
  unfold build
  split
  · exact Within.bind (Within.log trivial _ _) fun _ => Within.pure _
  · refine Within.bind (within_refresh _) fun r => ?_
    split
    · exact Within.pure _
    · exact Within.bind (Within.log trivial _ _) fun _ => Within.pure _

theorem within_buildEach : ∀ urls, Within scope (buildEach factory revocationCheck urls)
  | [] => Within.pure _
  | url :: urls =>
    Within.bind (within_build factory revocationCheck url) fun _ =>
      Within.bind (within_buildEach urls) fun _ => Within.pure _

theorem within_buildAll (urls : List String) : Within scope (buildAll factory revocationCheck urls) :=
  Within.ite (Within.bind (Within.log trivial _ _) fun _ => within_buildEach factory revocationCheck urls)
    (within_buildEach factory revocationCheck urls)

omit [Json.Limits] in
theorem scope_coveredBy_online : scope.CoveredBy World.online where
  sees w₁ w₂ h := congrArg Prod.fst h
  record _ _ _ _ := rfl
  note _ _ := rfl
  fetch _ url timeout w₁ w₂ h := by
    obtain ⟨hclock, hnetwork⟩ := Prod.mk.inj h
    unfold World.fetch World.online
    dsimp only
    rw [hnetwork]
    rcases w₂.network.next url with ⟨bs | f, n⟩
    · exact ⟨rfl, Prod.ext hclock rfl⟩
    · exact ⟨rfl, Prod.ext hclock rfl⟩

/-- What comes of building providers is a matter of the clock and the network alone. -/
theorem buildAll_depends (urls : List String) : Depends World.online (buildAll factory revocationCheck urls) :=
  (within_buildAll factory revocationCheck urls).depends scope_coveredBy_online

/-- Whatever becomes of a refresh, the provider is there after it. -/
theorem exists_refresh_fst (p : Provider) (w : World) : ∃ r, (p.refresh w).1 = .ok r := by
  unfold refresh
  rw [Action.bind_of_ok _ (Action.attempt_apply p.obtain w)]
  cases (p.obtain w).1 with
  | error f => exact ⟨_, rfl⟩
  | ok payload => cases payload <;> exact ⟨_, rfl⟩

theorem exists_build_fst (url : String) (w : World) :
    ∃ kept, (build factory revocationCheck url w).1 = .ok kept := by
  unfold build
  cases factory url with
  | error f => exact ⟨_, rfl⟩
  | ok p =>
    obtain ⟨⟨p', r⟩, h⟩ := exists_refresh_fst { p with revocationCheck := revocationCheck } w
    dsimp only
    rw [Action.bind_of_ok _ (Prod.ext h rfl)]
    cases r <;> exact ⟨_, rfl⟩

theorem exists_buildEach_fst : ∀ (urls : List String) (w : World),
    ∃ ps, (buildEach factory revocationCheck urls w).1 = .ok ps
  | [], _ => ⟨[], rfl⟩
  | url :: urls, w => by
    obtain ⟨here, h⟩ := exists_build_fst factory revocationCheck url w
    obtain ⟨rest, hrest⟩ := exists_buildEach_fst urls (build factory revocationCheck url w).2
    refine ⟨here.toList ++ rest, ?_⟩
    rw [buildEach, Action.bind_of_ok _ (Prod.ext h rfl), Action.bind_of_ok _ (Prod.ext hrest rfl)]
    rfl

/-- Building providers always answers. -/
theorem exists_buildAll_fst (urls : List String) (w : World) :
    ∃ ps, (buildAll factory revocationCheck urls w).1 = .ok ps := by
  unfold buildAll
  cases revocationCheck with
  | true => exact exists_buildEach_fst factory true urls w
  | false => exact exists_buildEach_fst factory false urls _

end Provider
end AttestationTrust
