import AttestationTrust.Proofs.Header
import AttestationTrust.Proofs.Refresh
import AttestationTrust.Proofs.Signers
/-!
# What a refresh asks for

A refresh asks for the location of its provider first.  It asks for another only when revocation is checked and the
root has accepted what that location served, and then only for the locations that certificates of the BLOB's chain name
(`Provider.Names`, `Provider.exists_exchanged_refresh`).  Where providers are built, this holds location by location
(`Provider.Led`, `Provider.exists_exchanged_buildAll`).
-/
namespace AttestationTrust
namespace Provider

open X509 (Certificate)

variable [Json.Limits]

/-- A BLOB that the root has accepted names a location, in a certificate of its chain that is not the root; the chain
leads to the root. -/
structure Names (root : Certificate) (blob : Bytes) (url : String) : Prop where
  accepted : Blob.accept root blob ≠ none
  named : ∃ chain c urls, Revocation.signingChain blob = .ok chain ∧ Blob.leadsTo root chain = true ∧
    c ∈ chain ∧ c ≠ root ∧ c.crlUrls = .ok urls ∧ url ∈ urls

/-- Exchanges follow one that has brought a BLOB: revocation is checked, and the BLOB names their locations. -/
def Follows (root : Certificate) (revocationCheck : Bool) (x : Exchange) (ys : List Exchange) : Prop :=
  ∀ y ∈ ys, revocationCheck = true ∧ ∃ blob, x.reply = .ok blob ∧ Names root blob y.url

/-- What is asked for because of a location: nothing, or the location and what follows it. -/
def Leads (root : Certificate) (revocationCheck : Bool) (url : String) (xs : List Exchange) : Prop :=
  xs = [] ∨ ∃ x ys, xs = x :: ys ∧ x.url = url ∧ Follows root revocationCheck x ys

/-- Exchanges are led by locations in a row: each is asked for, and what follows it after that, or it is left out. -/
inductive Led (root : Certificate) (revocationCheck : Bool) : List String → List Exchange → Prop
  | nil : Led root revocationCheck [] []
  | asked {x : Exchange} {urls : List String} {ys zs : List Exchange} (hys : Follows root revocationCheck x ys)
      (hzs : Led root revocationCheck urls zs) : Led root revocationCheck (x.url :: urls) (x :: ys ++ zs)
  | leftOut {url : String} {urls : List String} {zs : List Exchange} (hzs : Led root revocationCheck urls zs) :
      Led root revocationCheck (url :: urls) zs

theorem Led.url_mem {root : Certificate} {revocationCheck : Bool} {urls : List String} {xs : List Exchange}
    (h : Led root revocationCheck urls xs) : ∀ y ∈ xs, y.url ∈ urls ∨
      revocationCheck = true ∧ ∃ x ∈ xs, x.url ∈ urls ∧ ∃ blob, x.reply = .ok blob ∧ Names root blob y.url := by
  induction h with
  | nil => simp
  | leftOut _ ih =>
    intro y hy
    obtain hurl | ⟨hcheck, x, hx, hurl, hblob⟩ := ih y hy
    · exact .inl (List.mem_cons_of_mem _ hurl)
    · exact .inr ⟨hcheck, x, hx, List.mem_cons_of_mem _ hurl, hblob⟩
  | @asked x urls ys zs hys _ ih =>
    intro y hy
    rw [List.cons_append, List.mem_cons, List.mem_append] at hy
    obtain rfl | hy | hy := hy
    · exact .inl List.mem_cons_self
    · obtain ⟨hcheck, hblob⟩ := hys y hy
      exact .inr ⟨hcheck, x, List.mem_cons_self, List.mem_cons_self, hblob⟩
    · obtain hurl | ⟨hcheck, z, hz, hurl, hblob⟩ := ih y hy
      · exact .inl (List.mem_cons_of_mem _ hurl)
      · exact .inr ⟨hcheck, z, by simp [hz], List.mem_cons_of_mem _ hurl, hblob⟩

variable {p : Provider} {w : World}

theorem exists_exchanged_obtain (p : Provider) (w : World) : ∃ x ys, x.url = p.url ∧
    w.Exchanged p.timeout (x :: ys) (p.obtain w).2 ∧ Follows p.root p.revocationCheck x ys := by
  have hfetch := Action.exchanged_fetch p.url p.timeout w
  have halone : ∀ {x}, Follows p.root p.revocationCheck x [] := by simp [Follows]
  refine ⟨⟨p.url, (w.network.ask p.timeout p.url).1⟩, ?_⟩
  cases hreply : (w.network.ask p.timeout p.url).1 with
  | error f =>
    rw [hreply] at hfetch
    exact ⟨[], rfl, by rw [obtain_of_error hreply]; exact hfetch, halone⟩
  | ok blob =>
    rw [hreply] at hfetch
    cases haccept : Blob.accept p.root blob with
    | none => exact ⟨[], rfl, by rw [obtain_of_rejected hreply haccept]; exact hfetch, halone⟩
    | some payload =>
      cases hcheck : p.revocationCheck with
      | false => exact ⟨[], rfl, by rw [obtain_of_unchecked hreply haccept hcheck]; exact hfetch, by simp [Follows]⟩
      | true =>
        obtain ⟨ys, hworld, hurl⟩ := Revocation.exists_exchanged_checkBlob blob p.root p.timeout
          (Action.fetch p.url p.timeout w).2
        refine ⟨ys, rfl, by rw [obtain_of_checked hreply haccept hcheck]; exact hfetch.append hworld, fun y hy => ?_⟩
        obtain ⟨chain, c, urls, hchain, hc, hroot, hurls, hy⟩ := hurl y hy
        have haccepted : Blob.accept p.root blob ≠ none := by simp [haccept]
        exact ⟨rfl, blob, rfl, haccepted, chain, c, urls, hchain, Blob.leadsTo_of_accept haccepted hchain, hc, hroot,
          hurls, hy⟩

theorem refresh_snd (p : Provider) (w : World) : (p.refresh w).2 = (p.obtain w).2 ∨
    ∃ text, (p.refresh w).2 = (p.obtain w).2.record .info topic text := by
  rcases h : p.obtain w with ⟨f | _ | m, w'⟩
  · exact .inl (by rw [refresh_of_obtain_error h])
  · exact .inl (by rw [refresh_of_obtain_none h])
  · exact .inr ⟨_, by rw [refresh_of_obtain_some h]⟩

/-- What is logged about a refresh makes no difference to what it has asked for. -/
theorem exchanged_refresh {timeout : Timeout} {xs : List Exchange} (h : w.Exchanged timeout xs (p.obtain w).2) :
    w.Exchanged timeout xs (p.refresh w).2 := by
  obtain hsnd | ⟨text, hsnd⟩ := refresh_snd p w
  · rw [hsnd]
    exact h
  · rw [hsnd]
    exact h.record _ _ _

theorem exists_exchanged_refresh (p : Provider) (w : World) : ∃ x ys, x.url = p.url ∧
    w.Exchanged p.timeout (x :: ys) (p.refresh w).2 ∧ Follows p.root p.revocationCheck x ys := by
  obtain ⟨x, ys, hx, hworld, hys⟩ := exists_exchanged_obtain p w
  exact ⟨x, ys, hx, exchanged_refresh hworld, hys⟩

/-- A factory makes the providers of locations for one root and one bound on the time of a request. -/
def Factory.Binds (factory : Factory) (root : Certificate) (timeout : Timeout) : Prop :=
  ∀ url p, factory url = .ok p → p.url = url ∧ p.root = root ∧ p.timeout = timeout

section Build

variable {factory : Factory} {root : Certificate} {timeout : Timeout} (revocationCheck : Bool)

theorem exists_exchanged_build (hfactory : factory.Binds root timeout) (url : String) (w : World) :
    ∃ xs, w.Exchanged timeout xs (build factory revocationCheck url w).2 ∧ Leads root revocationCheck url xs := by
  unfold build
  cases hmade : factory url with
  | error f => exact ⟨[], .of_outside timeout rfl, .inl rfl⟩
  | ok p =>
    obtain ⟨rfl, rfl, rfl⟩ := hfactory url p hmade
    obtain ⟨x, ys, hx, hworld, hys⟩ := exists_exchanged_refresh { p with revocationCheck := revocationCheck } w
    refine ⟨x :: ys, ?_, .inr ⟨x, ys, rfl, hx, hys⟩⟩
    obtain ⟨⟨p', r⟩, hr⟩ := exists_refresh_fst { p with revocationCheck := revocationCheck } w
    dsimp only
    rw [Action.bind_of_ok _ (Prod.ext hr rfl)]
    cases r with
    | ok m => exact hworld
    | error f => exact hworld.record _ _ _

/-- Each location is asked for in its turn, and what its BLOB names after that. -/
theorem exists_exchanged_buildEach (hfactory : factory.Binds root timeout) : ∀ (urls : List String) (w : World),
    ∃ xs, w.Exchanged timeout xs (buildEach factory revocationCheck urls w).2 ∧ Led root revocationCheck urls xs
  | [], w => ⟨[], .of_outside timeout rfl, .nil⟩
  | url :: urls, w => by
    obtain ⟨here, hhere⟩ := exists_build_fst factory revocationCheck url w
    obtain ⟨xs, hworld, hxs⟩ := exists_exchanged_build revocationCheck hfactory url w
    obtain ⟨rest, hrest⟩ := exists_buildEach_fst factory revocationCheck urls (build factory revocationCheck url w).2
    obtain ⟨zs, hworld', hzs⟩ := exists_exchanged_buildEach hfactory urls (build factory revocationCheck url w).2
    refine ⟨xs ++ zs, ?_, ?_⟩
    · rw [buildEach, Action.bind_of_ok _ (Prod.ext hhere rfl), Action.bind_of_ok _ (Prod.ext hrest rfl)]
      exact hworld.append hworld'
    · obtain rfl | ⟨x, ys, rfl, rfl, hys⟩ := hxs
      · exact .leftOut hzs
      · exact .asked hys hzs

theorem exists_exchanged_buildAll (hfactory : factory.Binds root timeout) (urls : List String) (w : World) :
    ∃ xs, w.Exchanged timeout xs (buildAll factory revocationCheck urls w).2 ∧ Led root revocationCheck urls xs := by
  unfold buildAll
  cases revocationCheck with
  | true => exact exists_exchanged_buildEach true hfactory urls w
  | false =>
    obtain ⟨xs, hworld, hxs⟩ := exists_exchanged_buildEach false hfactory urls
      (w.record .warning topic "Revocation checking of metadata BLOB signing certificates is disabled.")
    have hlog : w.Exchanged timeout []
      (w.record .warning topic "Revocation checking of metadata BLOB signing certificates is disabled.") :=
      .of_outside timeout rfl
    exact ⟨xs, hlog.append hworld, hxs⟩

end Build

omit [Json.Limits] in
theorem make_eq_ok {url : String} {root : Certificate} {timeout : Value} (h : make (.text url) root timeout = .ok p) :
    p.url = url ∧ p.root = root ∧ timeoutOf timeout = .ok p.timeout := by
  obtain ⟨url', hurl, h⟩ := except_bind_eq_ok_iff.1 h
  obtain ⟨timeout', htimeout, h⟩ := except_bind_eq_ok_iff.1 h
  cases h
  refine ⟨?_, rfl, htimeout⟩
  unfold checkUrl at hurl
  dsimp only at hurl
  split at hurl
  · cases hurl
  · split at hurl
    · cases hurl
      rfl
    · cases hurl

omit [Json.Limits] in
theorem exists_binds_make (root : Certificate) (timeout : Value) :
    ∃ bound, Factory.Binds (fun url => make (.text url) root timeout) root bound := by
  cases htimeout : timeoutOf timeout with
  | error f =>
    refine ⟨.integer 0, fun url p h => ?_⟩
    obtain ⟨-, -, h⟩ := make_eq_ok h
    rw [htimeout] at h
    cases h
  | ok bound =>
    refine ⟨bound, fun url p h => ?_⟩
    obtain ⟨hurl, hroot, h⟩ := make_eq_ok h
    rw [htimeout] at h
    cases h
    exact ⟨hurl, hroot, rfl⟩

end Provider
end AttestationTrust
