import AttestationTrust.Proofs.Links
/-!
# Lookups from outside

Looking anchors up makes no request and reads nothing but what the repository holds (`Repository.within_find`): the
clock, the files, the network and the requests made are as they were before, whatever the repository is, and the answer
is the same in every world.  A lookup may fail, but never by a reason not to trust a chain (`Failure.Foreign`).
-/
namespace AttestationTrust

open AttestationTrust.Action (Scope Within)
open X509 (Certificate)

/-- A failure that does not say why a chain is not trusted. -/
def Failure.Foreign (f : Failure) : Prop := ∀ g, f ≠ .chain g

namespace Value

theorem octet?_foreign {v : Value} {f : Failure} (h : v.octet? = .error f) : f.Foreign := by
  unfold octet? at h
  split at h
  · split at h
    · cases h
    · cases h
      simp [Failure.Foreign]
  · cases h
  · cases h
    simp [Failure.Foreign]

theorem octets_foreign {v : Value} {f : Failure} (h : v.octets = .error f) : f.Foreign := by
  have hitems : ∀ xs : List Value, xs.mapM octet? = .error f → f.Foreign := fun xs hxs => by
    obtain ⟨x, -, hx⟩ := exists_of_mapM_eq_error hxs
    exact octet?_foreign hx
  unfold octets at h
  split at h
  · cases h
  · cases h
  · split at h
    · cases h
      simp [Failure.Foreign]
    · split at h
      · cases h
      · cases h
        simp [Failure.Foreign]
  · exact hitems _ h
  · exact hitems _ h
  · cases h
  · cases h
    simp [Failure.Foreign]

end Value

theorem Aaguid.ofValue_foreign {v : Value} {f : Failure} (h : ofValue v = .error f) : f.Foreign := by
  unfold ofValue at h
  split at h
  · cases h
  · cases h
  · cases ho : v.octets with
    | error g =>
      rw [ho] at h
      cases h
      exact Value.octets_foreign ho
    | ok bs =>
      rw [ho] at h
      cases h

namespace Anchors

theorem itemsOf_foreign {v : Value} {f : Failure} (h : itemsOf v = .error f) : f.Foreign := by
  unfold itemsOf at h
  split at h
  · cases h
  · split at h
    · cases h
    · cases h
      simp [Failure.Foreign]

end Anchors

theorem Query.isFor_foreign {q : Query} {aaguid keys : Value} {f : Failure} (h : q.isFor aaguid keys = .error f) :
    f.Foreign := by
  unfold isFor at h
  cases q with
  | aaguid bs =>
    simp only [Anchors.matchesAaguid] at h
    split at h
    · cases h
    · cases ho : aaguid.octets with
      | error g =>
        rw [ho] at h
        cases h
        exact Value.octets_foreign ho
      | ok bs =>
        rw [ho] at h
        cases h
  | key v =>
    rcases except_bind_eq_error_iff.1 h with h | ⟨wanted, -, h⟩
    · exact Value.octets_foreign h
    · unfold Anchors.matchesKey at h
      cases hi : Anchors.itemsOf keys with
      | error g =>
        rw [hi] at h
        cases h
        exact Anchors.itemsOf_foreign hi
      | ok xs =>
        rw [hi] at h
        cases h

theorem Metadata.Entry.isTrusted?_foreign {e : Metadata.Entry} {f : Failure} (h : e.isTrusted? = .error f) :
    f.Foreign := by
  unfold isTrusted? at h
  split at h
  · cases h
  · split at h
    · cases h
    · cases h
      simp [Failure.Foreign]

/-- A lookup looks at nothing in the world, makes no requests, and fails for no fault of a chain. -/
def Lookup.scope : Scope Unit := ⟨fun _ => (), False, Failure.Foreign, fun _ => True⟩

namespace Anchors

theorem within_ofRoots (source : String) : ∀ roots, Within Lookup.scope (ofRoots source roots)
  | [] => Within.pure _
  | root :: roots => by
    refine Within.bind (Within.ofExcept fun f h => Value.octets_foreign h) fun bs => ?_
    split
    · exact Within.bind (within_ofRoots source roots) fun _ => Within.pure _
    · exact Within.bind (Within.log trivial _ _) fun _ => within_ofRoots source roots
    · rename_i f hne h
      refine Within.throw ?_
      rcases Certificate.load_error_cases h with ⟨g, rfl⟩ | rfl
      · exact (hne g rfl).elim
      · intro g hg
        cases hg

theorem within_ofListing (l : Metadata.Listing) (source : String) : Within Lookup.scope (ofListing l source) :=
  Within.bind (Within.ofExcept fun _ h => itemsOf_foreign h) fun _ => within_ofRoots source _

end Anchors

namespace Repository

variable (q : Query)

theorem within_ofEntry (url : String) (e : Metadata.Entry) : Within Lookup.scope (ofEntry q url e) := by
  unfold ofEntry
  split
  · exact Within.pure _
  · refine Within.bind (Within.ofExcept fun _ h => Query.isFor_foreign h) fun isMeant => ?_
    exact Within.ite (Anchors.within_ofListing _ _) (Within.pure _)

theorem within_ofEntries (filtered : Bool) (url : String) : ∀ es, Within Lookup.scope (ofEntries q filtered url es)
  | [] => Within.pure _
  | e :: es => by
    have hrest : ∀ here, Within Lookup.scope (do let rest ← ofEntries q filtered url es; pure (here ++ rest)) :=
      fun here => Within.bind (within_ofEntries filtered url es) fun _ => Within.pure _
    have hhere : ∀ trusted : Bool, Within Lookup.scope (do
        let here ← if trusted then ofEntry q url e else pure []
        let rest ← ofEntries q filtered url es
        pure (here ++ rest)) := by
      intro trusted
      cases trusted with
      | true => exact Within.bind (within_ofEntry q url e) hrest
      | false => exact Within.bind (Within.pure _) hrest
    cases filtered with
    | true => exact Within.bind (Within.ofExcept fun _ h => Metadata.Entry.isTrusted?_foreign h) hhere
    | false => exact Within.bind (Within.pure _) hhere

theorem within_ofSources (filtered : Bool) : ∀ sources, Within Lookup.scope (ofSources q filtered sources)
  | [] => Within.pure _
  | s :: rest => by
    have hrest : ∀ here, Within Lookup.scope (do let more ← ofSources q filtered rest; pure (here ++ more)) :=
      fun here => Within.bind (within_ofSources filtered rest) fun _ => Within.pure _
    rw [ofSources]
    dsimp only
    split
    · exact Within.bind (within_ofEntries q filtered _ _) hrest
    · exact Within.bind (Within.log trivial _ _) fun _ => Within.bind (Within.pure _) hrest

theorem within_ofStatements : ∀ loaded, Within Lookup.scope (ofStatements q loaded)
  | [] => Within.pure _
  | (path, s) :: rest => by
    have hrest : ∀ here, Within Lookup.scope (do let more ← ofStatements q rest; pure (here ++ more)) :=
      fun here => Within.bind (within_ofStatements rest) fun _ => Within.pure _
    rw [ofStatements]
    refine Within.bind (Within.ofExcept fun _ h => Query.isFor_foreign h) fun isMeant => ?_
    cases isMeant with
    | true => exact Within.bind (Anchors.within_ofListing _ _) hrest
    | false => exact Within.bind (Within.pure _) hrest

mutual

theorem within_find : ∀ r, Within Lookup.scope (find q r)
  | .blobs sources filtered => by
    rw [find]
    exact within_ofSources q filtered sources
  | .statements files => by
    rw [find]
    exact within_ofStatements q files.loaded
  | .together first second more => by
    rw [find]
    exact Within.bind (within_find first) fun _ => Within.bind (within_find second) fun _ =>
      Within.bind (within_findAll more) fun _ => Within.pure _
  | .fixed anchors => by
    rw [find]
    have hoctets : ∀ f, q.octets = .error f → f.Foreign := by
      intro f h
      cases q with
      | aaguid bs => cases h
      | key v => exact Value.octets_foreign h
    exact Within.bind (Within.ofExcept hoctets) fun _ => Within.bind (Within.note _) fun _ => Within.pure _

theorem within_findAll : ∀ rs, Within Lookup.scope (findAll q rs)
  | [] => by
    rw [findAll]
    exact Within.pure _
  | r :: rs => by
    rw [findAll]
    exact Within.bind (within_find r) fun _ => Within.bind (within_findAll rs) fun _ => Within.pure _

end

/-- A lookup makes nothing of the world, so its answer is the same in all of them. -/
theorem find_fst_eq (r : Repository) (w w' : World) : (find q r w).1 = (find q r w').1 := by
  have hcovered : Lookup.scope.CoveredBy fun _ => () :=
    ⟨fun _ _ h => h, fun _ _ _ _ => rfl, fun _ _ => rfl, fun h => h.elim⟩
  exact ((within_find q r).depends hcovered w w' rfl).1

end Repository

namespace Validator

theorem within_findAnchors (v : Validator) (leaf : Certificate) (att : Attestation) :
    Within Lookup.scope (v.findAnchors leaf att) := by
  have hleaf : ∀ f : X509.Fault, Failure.Foreign (.x509 f) := by simp [Failure.Foreign]
  have hkey : Within Lookup.scope (findAnchors.findByKey v att leaf) :=
    Within.ite (Repository.within_find _ _)
      (Within.bind (Within.ofX509 fun f _ => hleaf f) fun _ => Repository.within_find _ _)
  refine Within.bind (Within.ofExcept fun f h => Aaguid.ofValue_foreign h) fun wanted => ?_
  split
  · exact Within.ite hkey (Repository.within_find _ _)
  · exact hkey

/-- The clock after a lookup is the clock before it. -/
theorem findAnchors_clock {v : Validator} {leaf : Certificate} {att : Attestation} {w w' : World}
    {r : Except Failure (List TrustAnchor)} (h : v.findAnchors leaf att w = (r, w')) : w'.clock = w.clock :=
  congrArg Prod.fst ((within_findAnchors v leaf att).leaves_given.eq h)

end Validator
end AttestationTrust
