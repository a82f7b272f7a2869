import AttestationTrust.Proofs.Anchors
import AttestationTrust.Proofs.Verdict
/-!
# Registries

A validation asks no more of a repository than an answer to a lookup.  A `Registry` is anything that gives one: every
repository is a registry, and so is whatever else stands in the place of one, even if it fails at times or changes the
world.  What a validation makes of a registry (`Registry.validate`) is what it makes of a repository
(`Registry.validate_ofRepository`).

Registries together answer with each certificate once (`Registry.merged`).  For a verdict this is as good as answering
with everything that they hold (`Registry.joined`): a certificate that has come before has been tried before, to no
avail, and the copy that is kept is the one that would have been come to first (`Registry.validate_aggregate`).
-/
namespace AttestationTrust

open X509 (Certificate)
open Validator (PassesBy LeadsTo)

/-! ## Actions that differ in what they log -/

def World.unlogged (w : World) : World := { w with log := [] }

namespace Action

variable {α β : Type}

/-- Two actions come to the same in every world, and leave the same behind, apart from the log. -/
def SameBut (a b : Action α) : Prop := ∀ w, (a w).1 = (b w).1 ∧ (a w).2.unlogged = (b w).2.unlogged

theorem SameBut.refl (a : Action α) : SameBut a a := fun _ => ⟨rfl, rfl⟩

theorem SameBut.bind {f g : α → Action β} (a : Action α) (h : ∀ x, SameBut (f x) (g x)) : SameBut (a >>= f) (a >>= g) := by
  intro w
  rw [bind_apply, bind_apply]
  rcases a w with ⟨x | x, w'⟩
  · exact ⟨rfl, rfl⟩
  · exact h x w'

end Action

open AttestationTrust.Action (SameBut Leaves)

/-! ## Validation against a registry -/

/-- Anything that anchors can be looked up in. -/
structure Registry where
  find : Query → Action (List TrustAnchor)

namespace Validator

def conclude (prohibited : Bool) (att : Attestation) (chain : List Certificate) (last : Certificate)
    (anchors : List TrustAnchor) : Action TrustAnchor := do
  if anchors.isEmpty then throw (.chain .noAnchor)
  if prohibited then
    if ← Action.ofExcept (holdsRoot chain last anchors) then throw (.chain .holdsRoot)
  let instant ← Action.ofExcept (instantOf att.moment (← get).clock)
  Action.ofExcept (checkValidity instant chain)
  findIssuer chain last anchors

end Validator

namespace Attestation

/-- What is looked up for a key: the one that is given, else that of the first certificate. -/
def keyQuery (att : Attestation) (leaf : Certificate) : Except Failure Query :=
  if att.keyIdentifier.truthy then .ok (.key att.keyIdentifier)
  else (leaf.keyIdentifier.mapError .x509).map fun bs => .key (.bytes bs)

def query (att : Attestation) (leaf : Certificate) : Except Failure Query := do
  match ← Aaguid.ofValue att.aaguid with
  | some bs => if bs = Aaguid.zero then att.keyQuery leaf else .ok (.aaguid bs)
  | none => att.keyQuery leaf

end Attestation

namespace Registry

def ofRepository (r : Repository) : Registry := ⟨fun q => r.find q⟩

def findAnchors (g : Registry) (leaf : Certificate) (att : Attestation) : Action (List TrustAnchor) := do
  match ← Action.ofExcept (Aaguid.ofValue att.aaguid) with
  | some bs => if bs = Aaguid.zero then findByKey leaf else g.find (.aaguid bs)
  | none => findByKey leaf
where
  findByKey (leaf : Certificate) : Action (List TrustAnchor) := do
    if att.keyIdentifier.truthy then g.find (.key att.keyIdentifier)
    else g.find (.key (.bytes (← Action.ofX509 leaf.keyIdentifier)))

def validate (g : Registry) (prohibited : Bool) (members : List ChainMember) (att : Attestation) :
    Action TrustAnchor := do
  match ← Action.ofExcept (ChainMember.loadAll 1 members) with
  | [] => throw (.chain .empty)
  | leaf :: rest =>
    let anchors ← g.findAnchors leaf att
    Validator.conclude prohibited att (leaf :: rest) (rest.getLastD leaf) anchors

theorem findByKey_eq (g : Registry) (leaf : Certificate) (att : Attestation) :
    findAnchors.findByKey g att leaf = (do g.find (← Action.ofExcept (att.keyQuery leaf))) := by
  unfold findAnchors.findByKey Attestation.keyQuery
  split
  · exact (pure_bind _ _).symm
  · unfold Action.ofX509
    cases leaf.keyIdentifier.mapError Failure.x509 with
    | error f => rfl
    | ok bs => rfl

/-- Anchors are found by one lookup, of what the attestation comes to. -/
theorem findAnchors_eq (g : Registry) (leaf : Certificate) (att : Attestation) :
    g.findAnchors leaf att = (do g.find (← Action.ofExcept (att.query leaf))) := by
  unfold findAnchors Attestation.query
  rw [findByKey_eq]
  cases Aaguid.ofValue att.aaguid with
  | error f => rfl
  | ok wanted =>
    cases wanted with
    | none => rfl
    | some bs =>
      show (if bs = Aaguid.zero then _ else g.find (.aaguid bs)) =
        (do g.find (← Action.ofExcept (if bs = Aaguid.zero then att.keyQuery leaf else .ok (.aaguid bs))))
      split
      · rfl
      · rfl

theorem findAnchors_ofRepository (v : Validator) (leaf : Certificate) (att : Attestation) :
    (ofRepository v.repository).findAnchors leaf att = v.findAnchors leaf att := rfl

theorem validate_ofRepository (v : Validator) (members : List ChainMember) (att : Attestation) :
    (ofRepository v.repository).validate v.fullChainProhibited members att = v.validate members att := rfl

end Registry

/-! ## Each certificate once -/

namespace Validator

variable {chain : List Certificate} {last : Certificate} {a b : TrustAnchor}

theorem isEmpty_distinct (anchors : List TrustAnchor) : (Repository.distinct [] anchors).isEmpty = anchors.isEmpty := by
  cases anchors <;> rfl

theorem holdsAnchor_distinct_iff (chain : List Certificate) (anchors : List TrustAnchor) :
    HoldsAnchor chain (Repository.distinct [] anchors) ↔ HoldsAnchor chain anchors := by
  refine exists_congr fun c => and_congr_right fun _ => ⟨?_, ?_⟩
  · rintro ⟨a, ha, hc⟩
    exact ⟨a, (Repository.mem_of_mem_distinct ha).1, hc⟩
  · rintro ⟨a, ha, hc⟩
    obtain ⟨x, hx, hxa⟩ := (Repository.exists_mem_distinct [] ha).resolve_left nofun
    exact ⟨x, hx, hxa.trans hc⟩

theorem holdsRoot_distinct (chain : List Certificate) (last : Certificate) (anchors : List TrustAnchor) :
    holdsRoot chain last (Repository.distinct [] anchors) = holdsRoot chain last anchors := by
  by_cases h : HoldsAnchor chain anchors
  · rw [holdsRoot_of_holdsAnchor h, holdsRoot_of_holdsAnchor ((holdsAnchor_distinct_iff chain anchors).2 h)]
  · rw [holdsRoot_of_not_holdsAnchor h, holdsRoot_of_not_holdsAnchor fun h' => h ((holdsAnchor_distinct_iff chain anchors).1 h')]

theorem PassesBy.of_certificate_eq (h : PassesBy chain last a) (hc : b.certificate = a.certificate) :
    PassesBy chain last b := by
  unfold PassesBy at *
  rwa [hc]

/-- The search goes by what it has seen already, so the anchors that are left out make no difference to it. -/
theorem findIssuer_distinct_fst : ∀ (anchors : List TrustAnchor) (seen : List Certificate) (w w' : World),
    (∀ b : TrustAnchor, b.certificate ∈ seen → PassesBy chain last b) →
      (findIssuer chain last (Repository.distinct seen anchors) w).1 = (findIssuer chain last anchors w').1
  | [], _, _, _, _ => rfl
  | a :: rest, seen, w, w', hseen => by
    rw [Repository.distinct]
    split
    · -- A copy that is left out has been tried before, and so only lengthens the log of the longer search.
      rename_i ha
      obtain ⟨w'', hw''⟩ := findIssuer_cons_of_passesBy (hseen a ha) rest w'
      rw [hw'', findIssuer_distinct_fst rest seen w w'' hseen]
    · rcases leadsTo_or_passesBy_or_unclear chain last a with h | h | ⟨f, h⟩
      · rw [findIssuer_cons_of_leadsTo h, findIssuer_cons_of_leadsTo h]
      · obtain ⟨v, hv⟩ := findIssuer_cons_of_passesBy h (Repository.distinct (a.certificate :: seen) rest) w
        obtain ⟨v', hv'⟩ := findIssuer_cons_of_passesBy h rest w'
        rw [hv, hv']
        refine findIssuer_distinct_fst rest (a.certificate :: seen) v v' fun b hb => ?_
        obtain hb | hb := List.mem_cons.1 hb
        · exact h.of_certificate_eq hb
        · exact hseen b hb
      · rw [findIssuer_cons_of_unclear h, findIssuer_cons_of_unclear h]

theorem leaves_findIssuer (chain : List Certificate) (last : Certificate) :
    ∀ anchors, Leaves World.unlogged (findIssuer chain last anchors)
  | [] => fun _ => rfl
  | a :: rest => by
    have hrest := leaves_findIssuer chain last rest
    refine Leaves.bind (fun w => by rw [Action.ofX509_apply]) fun issuer => ?_
    refine Leaves.bind (fun w => by rw [Action.ofX509_apply]) fun subject => ?_
    split
    · exact hrest
    · split
      · exact fun _ => rfl
      · exact fun _ => rfl
      · exact Leaves.bind (fun _ => rfl) fun _ => hrest

theorem sameBut_findIssuer (chain : List Certificate) (last : Certificate) (anchors : List TrustAnchor) :
    SameBut (findIssuer chain last (Repository.distinct [] anchors)) (findIssuer chain last anchors) := by
  intro w
  refine ⟨findIssuer_distinct_fst anchors [] w w nofun, ?_⟩
  rw [leaves_findIssuer, leaves_findIssuer]

/-- A chain is concluded as if every certificate were registered once. -/
theorem sameBut_conclude (prohibited : Bool) (att : Attestation) (chain : List Certificate) (last : Certificate)
    (anchors : List TrustAnchor) : SameBut (conclude prohibited att chain last (Repository.distinct [] anchors))
      (conclude prohibited att chain last anchors) := by
  have hjudge : SameBut (do
      let instant ← Action.ofExcept (instantOf att.moment (← get).clock)
      Action.ofExcept (checkValidity instant chain)
      findIssuer chain last (Repository.distinct [] anchors)) (do
      let instant ← Action.ofExcept (instantOf att.moment (← get).clock)
      Action.ofExcept (checkValidity instant chain)
      findIssuer chain last anchors) :=
    SameBut.bind _ fun _ => SameBut.bind _ fun _ => SameBut.bind _ fun _ => sameBut_findIssuer chain last anchors
  unfold conclude
  rw [isEmpty_distinct, holdsRoot_distinct]
  cases anchors.isEmpty with
  | true => exact fun _ => ⟨rfl, rfl⟩
  | false =>
    cases prohibited with
    | false => exact hjudge
    | true =>
      refine SameBut.bind _ fun holds => ?_
      cases holds with
      | true => exact fun _ => ⟨rfl, rfl⟩
      | false => exact hjudge

end Validator

namespace Registry

/-! ## Registries together -/

def askAll (q : Query) : List Registry → Action (List (List TrustAnchor))
  | [] => pure []
  | g :: gs => do
    let here ← g.find q
    let rest ← askAll q gs
    pure (here :: rest)

/-- Registries that together answer with each certificate once. -/
def merged (gs : List Registry) : Registry := ⟨fun q => do pure (Repository.merge (← askAll q gs))⟩

/-- Registries that together answer with all that they answer, one after another. -/
def joined (gs : List Registry) : Registry := ⟨fun q => do pure (← askAll q gs).flatten⟩

theorem findAll_eq_askAll (q : Query) (rs : List Repository) :
    Repository.findAll q rs = askAll q (rs.map ofRepository) := by
  induction rs with
  | nil =>
    rw [Repository.findAll]
    rfl
  | cons r rs ih =>
    rw [Repository.findAll, ih]
    rfl

theorem ofRepository_together (first second : Repository) (more : List Repository) :
    ofRepository (.together first second more) = merged ((first :: second :: more).map ofRepository) := by
  refine congrArg Registry.mk (funext fun q => ?_)
  rw [Repository.find, findAll_eq_askAll]
  simp only [List.map_cons, askAll, bind_assoc, pure_bind]
  rfl

theorem sameBut_validate (gs : List Registry) (prohibited : Bool) (members : List ChainMember) (att : Attestation) :
    SameBut ((merged gs).validate prohibited members att) ((joined gs).validate prohibited members att) := by
  refine SameBut.bind _ fun chain => ?_
  cases chain with
  | nil => exact SameBut.refl _
  | cons leaf rest =>
    simp only [findAnchors_eq, merged, joined, bind_assoc, pure_bind]
    refine SameBut.bind _ fun q => SameBut.bind _ fun answers => ?_
    exact Validator.sameBut_conclude prohibited att (leaf :: rest) (rest.getLastD leaf) answers.flatten

/-- **Leaving duplicates out changes no verdict.**  Whatever several registries answer, a chain comes to the same against
all of them with each certificate once as against all that they answer: to the same anchor of the same source, or to the
same failure.  For several repositories together, in whichever way each of them is made up, it is so too. -/
theorem validate_aggregate (prohibited : Bool) (members : List ChainMember) (att : Attestation) :
    (∀ gs : List Registry,
      SameBut ((merged gs).validate prohibited members att) ((joined gs).validate prohibited members att)) ∧
    ∀ first second more, ∃ r, Repository.aggregate (first :: second :: more) = .ok r ∧
      SameBut (Validator.validate ⟨r, prohibited⟩ members att)
        ((joined ((first :: second :: more).map ofRepository)).validate prohibited members att) := by
  refine ⟨fun gs => sameBut_validate gs prohibited members att, fun first second more => ?_⟩
  refine ⟨.together first second more, rfl, ?_⟩
  rw [← validate_ofRepository, ofRepository_together]
  exact sameBut_validate _ prohibited members att

end Registry
end AttestationTrust
