import AttestationTrust.Proofs.Issuers
import AttestationTrust.Proofs.Lookup
import AttestationTrust.Proofs.Validity
/-!
# How a chain is decided

The checks of a chain in the order in which they are made, each in terms of the chain, of the anchors that are
registered for it and of the instant at which it is judged.  A chain is refused for the first check that it does not
pass (`Validator.Refused`).  One that deserves an anchor (`Validator.Deserves`) is given it, unless a check that comes
before cannot be made at all (`Validator.Obstructed`): such a check refuses the chain, whatever stands behind it.
-/
namespace AttestationTrust

open X509 (Certificate Fault)

namespace Validator

variable {v : Validator} {members : List ChainMember} {att : Attestation} {w : World}
variable {chain : List Certificate} {last : Certificate} {anchors : List TrustAnchor}

/-- A registered certificate stands in the chain. -/
def HoldsAnchor (chain : List Certificate) (anchors : List TrustAnchor) : Prop :=
  ∃ c ∈ chain, ∃ a ∈ anchors, a.certificate = c

theorem holdsRoot_of_holdsAnchor (h : HoldsAnchor chain anchors) : holdsRoot chain last anchors = .ok true := by
  obtain ⟨c, hc, a, ha, heq⟩ := h
  have hany : (chain.any fun c => anchors.any fun a => a.certificate = c) = true := by
    simp only [List.any_eq_true, decide_eq_true_eq]
    exact ⟨c, hc, a, ha, heq⟩
  rw [holdsRoot, if_pos hany]

theorem holdsRoot_of_not_holdsAnchor (h : ¬ HoldsAnchor chain anchors) :
    holdsRoot chain last anchors = last.isSelfSigned.mapError .x509 := by
  have hany : ¬ (chain.any fun c => anchors.any fun a => a.certificate = c) = true := by
    simp only [List.any_eq_true, decide_eq_true_eq]
    rintro ⟨c, hc, a, ha, heq⟩
    exact h ⟨c, hc, a, ha, heq⟩
  rw [holdsRoot, if_neg hany]

/-- The check that a chain stops short of its root. -/
def checkRoot (v : Validator) (chain : List Certificate) (last : Certificate) (anchors : List TrustAnchor) :
    Except Failure Unit :=
  if v.fullChainProhibited then do
    if ← holdsRoot chain last anchors then .error (.chain .holdsRoot) else .ok ()
  else .ok ()

/-- The chain is not to hold its root, and does not; where nothing is asked of it, nothing is looked at. -/
def StopsShort (v : Validator) (chain : List Certificate) (last : Certificate) (anchors : List TrustAnchor) : Prop :=
  v.fullChainProhibited = true → ¬ HoldsAnchor chain anchors ∧ last.isSelfSigned = .ok false

/-- Why a chain that is not to hold its root is refused. -/
inductive NotShort (chain : List Certificate) (last : Certificate) (anchors : List TrustAnchor) : Failure → Prop
  | holds (h : HoldsAnchor chain anchors ∨ last.isSelfSigned = .ok true) :
      NotShort chain last anchors (.chain .holdsRoot)
  /-- Whether the last certificate signed itself cannot be told. -/
  | unclear {f : Fault} (hno : ¬ HoldsAnchor chain anchors) (h : last.isSelfSigned = .error f) :
      NotShort chain last anchors (.x509 f)

theorem checkRoot_eq_ok_iff {u : Unit} :
    v.checkRoot chain last anchors = .ok u ↔ v.StopsShort chain last anchors := by
  unfold checkRoot StopsShort
  cases v.fullChainProhibited with
  | false => simp
  | true =>
    by_cases hh : HoldsAnchor chain anchors
    · rw [holdsRoot_of_holdsAnchor hh]
      simp [hh, bind, Except.bind]
    · rw [holdsRoot_of_not_holdsAnchor hh]
      cases last.isSelfSigned with
      | error f => simp [bind, Except.bind]
      | ok self => cases self <;> simp [hh, bind, Except.bind]

theorem checkRoot_eq_error_iff {f : Failure} : v.checkRoot chain last anchors = .error f ↔
    v.fullChainProhibited = true ∧ NotShort chain last anchors f := by
  unfold checkRoot
  cases v.fullChainProhibited with
  | false => simp
  | true =>
    simp only [if_true, true_and]
    by_cases hh : HoldsAnchor chain anchors
    · rw [holdsRoot_of_holdsAnchor hh]
      constructor
      · intro h
        cases h
        exact .holds (.inl hh)
      · rintro (h | ⟨hno, h⟩)
        · rfl
        · exact absurd hh hno
    · rw [holdsRoot_of_not_holdsAnchor hh]
      constructor
      · intro h
        cases hs : last.isSelfSigned with
        | error g =>
          rw [hs] at h
          cases h
          exact .unclear hh hs
        | ok self =>
          rw [hs] at h
          cases self with
          | true =>
            cases h
            exact .holds (.inr hs)
          | false => cases h
      · rintro (h | ⟨hno, h⟩)
        · rw [h.resolve_left hh]
          rfl
        · rw [h]
          rfl

/-- What is left of a chain's checks once its anchors are found. -/
theorem validate_fst_of_found {w' : World} {leaf : Certificate} {rest : List Certificate}
    (hread : ChainMember.loadAll 1 members = .ok (leaf :: rest))
    (hfound : v.findAnchors leaf att w = (.ok anchors, w')) (hne : anchors ≠ []) :
    (v.validate members att w).1 =
      (v.checkRoot (leaf :: rest) (rest.getLastD leaf) anchors >>= fun _ =>
        instantOf att.moment w.clock >>= fun t => checkValidity t (leaf :: rest) >>= fun _ =>
          (findIssuer (leaf :: rest) (rest.getLastD leaf) anchors w').1) := by
  have hclock := findAnchors_clock hfound
  have hempty : anchors.isEmpty = false := by simp [hne]
  have htail : ((do
      let instant ← Action.ofExcept (instantOf att.moment (← get).clock)
      Action.ofExcept (checkValidity instant (leaf :: rest))
      findIssuer (leaf :: rest) (rest.getLastD leaf) anchors : Action TrustAnchor) w').1 =
        (instantOf att.moment w.clock >>= fun t => checkValidity t (leaf :: rest) >>= fun _ =>
          (findIssuer (leaf :: rest) (rest.getLastD leaf) anchors w').1) := by
    simp only [Action.bind_apply, Action.get_apply, Action.ofExcept_apply, hclock]
    cases instantOf att.moment w.clock with
    | error f => rfl
    | ok t => cases hv : checkValidity t (leaf :: rest) <;> simp [hv, bind, Except.bind]
  unfold validate
  simp only [Action.bind_apply, Action.ofExcept_apply, hread, hfound, hempty, Bool.false_eq_true, if_false]
  unfold checkRoot
  cases v.fullChainProhibited with
  | false => exact htail
  | true =>
    simp only [if_true, Action.bind_apply, Action.ofExcept_apply]
    cases holdsRoot (leaf :: rest) (rest.getLastD leaf) anchors with
    | error f => rfl
    | ok holds =>
      cases holds with
      | true => rfl
      | false => exact htail

/-- A chain that reads, its last certificate, and the anchors that are registered for its first. -/
structure Registered (v : Validator) (members : List ChainMember) (att : Attestation) (w : World)
    (chain : List Certificate) (last : Certificate) (anchors : List TrustAnchor) : Prop where
  reads : List.Forall₂ ChainMember.Reads members chain
  ends : chain.getLast? = some last
  found : ∃ leaf, chain.head? = some leaf ∧ (v.findAnchors leaf att w).1 = .ok anchors
  ne : anchors ≠ []

/-- A chain that has passed every check but that of its issuer, judged at an instant. -/
structure Passed (v : Validator) (members : List ChainMember) (att : Attestation) (w : World)
    (chain : List Certificate) (last : Certificate) (anchors : List TrustAnchor) (t : Int) : Prop
    extends Registered v members att w chain last anchors where
  short : v.StopsShort chain last anchors
  judged : att.JudgedAt w.clock t
  valid : ∀ c ∈ chain, c.ValidAt t

/-- Why a chain is refused, one row for each check; the row of a check holds only where those before are passed. -/
inductive Refused (v : Validator) (members : List ChainMember) (att : Attestation) (w : World) : Failure → Prop
  | unread {before after : List ChainMember} {m : ChainMember} {chain : List Certificate} {f : Failure}
      (heq : members = before ++ m :: after) (hread : List.Forall₂ ChainMember.Reads before chain)
      (h : m.Unread (1 + before.length) f) : Refused v members att w f
  | empty (h : members = []) : Refused v members att w (.chain .empty)
  | unsought {leaf : Certificate} {rest : List Certificate} {f : Failure}
      (hread : List.Forall₂ ChainMember.Reads members (leaf :: rest)) (h : (v.findAnchors leaf att w).1 = .error f) :
      Refused v members att w f
  | unregistered {leaf : Certificate} {rest : List Certificate}
      (hread : List.Forall₂ ChainMember.Reads members (leaf :: rest)) (h : (v.findAnchors leaf att w).1 = .ok []) :
      Refused v members att w (.chain .noAnchor)
  | notShort {chain : List Certificate} {last : Certificate} {anchors : List TrustAnchor} {f : Failure}
      (hr : Registered v members att w chain last anchors) (hp : v.fullChainProhibited = true)
      (h : NotShort chain last anchors f) : Refused v members att w f
  | beyond {chain : List Certificate} {last : Certificate} {anchors : List TrustAnchor}
      (hr : Registered v members att w chain last anchors) (hs : v.StopsShort chain last anchors) (h : att.IsBeyond) :
      Refused v members att w (.range .unworded)
  | untimely {chain : List Certificate} {last : Certificate} {anchors : List TrustAnchor} {t : Int}
      {before after : List Certificate} {c : Certificate} {f : Failure}
      (hr : Registered v members att w chain last anchors) (hs : v.StopsShort chain last anchors)
      (ht : att.JudgedAt w.clock t) (heq : chain = before ++ c :: after) (hbefore : ∀ b ∈ before, b.ValidAt t)
      (h : c.Untimely t f) : Refused v members att w f
  | unverified {chain : List Certificate} {last : Certificate} {anchors : List TrustAnchor} {t : Int}
      (hp : Passed v members att w chain last anchors t) (h : ∀ a ∈ anchors, PassesBy chain last a) :
      Refused v members att w (.chain .unverified)
  | unclear {chain : List Certificate} {last : Certificate} {before after : List TrustAnchor} {a : TrustAnchor}
      {t : Int} {f : Failure} (hp : Passed v members att w chain last (before ++ a :: after) t)
      (hbefore : ∀ b ∈ before, PassesBy chain last b) (h : Unclear chain last a f) : Refused v members att w f

/-- What is asked of a chain for the sake of an anchor: it reads, stops short of its root where it has to, is valid,
and leads to the anchor and to none that is registered before it. -/
structure Deserves (v : Validator) (members : List ChainMember) (att : Attestation) (w : World)
    (chain : List Certificate) (last : Certificate) (t : Int) (before : List TrustAnchor) (a : TrustAnchor)
    (after : List TrustAnchor) : Prop
    extends Registered v members att w chain last (before ++ a :: after) where
  short : v.fullChainProhibited = true →
    ¬ HoldsAnchor chain (before ++ a :: after) ∧ last.isSelfSigned ≠ .ok true
  judged : att.JudgedAt w.clock t
  valid : ∀ c ∈ chain, c.ValidAt t
  leads : LeadsTo chain last a
  first : ∀ b ∈ before, ¬ LeadsTo chain last b

/-- A check that comes before the anchor cannot be made. -/
def Obstructed (v : Validator) (chain : List Certificate) (last : Certificate) (before : List TrustAnchor) : Prop :=
  (v.fullChainProhibited = true ∧ ∃ f, last.isSelfSigned = .error f) ∨ ∃ b ∈ before, ∃ f, Unclear chain last b f

theorem Registered.validate_fst (hr : Registered v members att w chain last anchors) : ∃ w',
    (v.validate members att w).1 = (v.checkRoot chain last anchors >>= fun _ =>
      instantOf att.moment w.clock >>= fun t => checkValidity t chain >>= fun _ =>
        (findIssuer chain last anchors w').1) := by
  obtain ⟨hread, hends, ⟨leaf, hhead, hfound⟩, hne⟩ := hr
  obtain ⟨rest, rfl⟩ := List.head?_eq_some_iff.1 hhead
  rw [List.getLast?_cons, ← List.getLastD_eq_getLast?, Option.some.injEq] at hends
  subst hends
  exact ⟨_, validate_fst_of_found (ChainMember.loadAll_eq_ok_iff.2 hread) (Prod.ext hfound rfl) hne⟩

/-- The checks that follow the anchors, in their order. -/
theorem Registered.validate_fst_eq_error_iff {f : Failure} (hr : Registered v members att w chain last anchors) :
    (v.validate members att w).1 = .error f ↔ (v.fullChainProhibited = true ∧ NotShort chain last anchors f) ∨
      v.StopsShort chain last anchors ∧ ((f = .range .unworded ∧ att.IsBeyond) ∨ ∃ t, att.JudgedAt w.clock t ∧
        ((∃ before c after, chain = before ++ c :: after ∧ (∀ b ∈ before, b.ValidAt t) ∧ c.Untimely t f) ∨
          (∀ c ∈ chain, c.ValidAt t) ∧ Search chain last anchors (.error f))) := by
  obtain ⟨w', hw'⟩ := hr.validate_fst
  simp only [hw', except_bind_eq_error_iff, checkRoot_eq_error_iff, checkRoot_eq_ok_iff, instantOf_eq_error_iff,
    instantOf_eq_ok_iff, checkValidity_eq_error_iff, checkValidity_eq_ok_iff, findIssuer_eq_iff_search,
    exists_const]

theorem Registered.validate_fst_eq_ok_iff {a : TrustAnchor} (hr : Registered v members att w chain last anchors) :
    (v.validate members att w).1 = .ok a ↔
      ∃ t, Passed v members att w chain last anchors t ∧ Search chain last anchors (.ok a) := by
  obtain ⟨w', hw'⟩ := hr.validate_fst
  simp only [hw', except_bind_eq_ok_iff, checkRoot_eq_ok_iff, instantOf_eq_ok_iff, checkValidity_eq_ok_iff,
    findIssuer_eq_iff_search, exists_const]
  constructor
  · rintro ⟨hs, t, ht, hv, h⟩
    exact ⟨t, ⟨hr, hs, ht, hv⟩, h⟩
  · rintro ⟨t, hp, h⟩
    exact ⟨hp.short, t, hp.judged, hp.valid, h⟩

theorem validate_fst_of_unread {f : Failure} (h : ChainMember.loadAll 1 members = .error f) :
    (v.validate members att w).1 = .error f := by
  simp [validate, Action.bind_apply, h]

theorem validate_fst_of_unsought {leaf : Certificate} {rest : List Certificate} {f : Failure}
    (hread : ChainMember.loadAll 1 members = .ok (leaf :: rest)) (h : (v.findAnchors leaf att w).1 = .error f) :
    (v.validate members att w).1 = .error f := by
  have hfound : v.findAnchors leaf att w = (.error f, (v.findAnchors leaf att w).2) := Prod.ext h rfl
  unfold validate
  simp only [Action.bind_apply, Action.ofExcept_apply, hread]
  rw [hfound]

theorem validate_fst_of_unregistered {leaf : Certificate} {rest : List Certificate}
    (hread : ChainMember.loadAll 1 members = .ok (leaf :: rest)) (h : (v.findAnchors leaf att w).1 = .ok []) :
    (v.validate members att w).1 = .error (.chain .noAnchor) := by
  have hfound : v.findAnchors leaf att w = (.ok [], (v.findAnchors leaf att w).2) := Prod.ext h rfl
  unfold validate
  simp only [Action.bind_apply, Action.ofExcept_apply, hread]
  rw [hfound]
  rfl

theorem validate_fst_of_refused {f : Failure} (h : Refused v members att w f) :
    (v.validate members att w).1 = .error f := by
  cases h with
  | unread heq hread h =>
    exact validate_fst_of_unread (ChainMember.loadAll_eq_error_iff.2 ⟨_, _, _, _, heq, hread, h⟩)
  | empty h =>
    subst h
    rfl
  | unsought hread h => exact validate_fst_of_unsought (ChainMember.loadAll_eq_ok_iff.2 hread) h
  | unregistered hread h => exact validate_fst_of_unregistered (ChainMember.loadAll_eq_ok_iff.2 hread) h
  | notShort hr hp h => exact hr.validate_fst_eq_error_iff.2 (.inl ⟨hp, h⟩)
  | beyond hr hs h => exact hr.validate_fst_eq_error_iff.2 (.inr ⟨hs, .inl ⟨rfl, h⟩⟩)
  | untimely hr hs ht heq hbefore h =>
    exact hr.validate_fst_eq_error_iff.2 (.inr ⟨hs, .inr ⟨_, ht, .inl ⟨_, _, _, heq, hbefore, h⟩⟩⟩)
  | unverified hp h =>
    exact hp.validate_fst_eq_error_iff.2 (.inr ⟨hp.short, .inr ⟨_, hp.judged, .inr ⟨hp.valid, .unreached h⟩⟩⟩)
  | unclear hp hbefore h =>
    exact hp.validate_fst_eq_error_iff.2
      (.inr ⟨hp.short, .inr ⟨_, hp.judged, .inr ⟨hp.valid, .unclear rfl hbefore h⟩⟩⟩)

/-- Either the anchors of a chain are found, or the chain is refused before it comes to them. -/
theorem registered_or_refused (v : Validator) (members : List ChainMember) (att : Attestation) (w : World) :
    (∃ chain last anchors, Registered v members att w chain last anchors) ∨ ∃ f, Refused v members att w f := by
  cases hread : ChainMember.loadAll 1 members with
  | error f =>
    obtain ⟨before, m, after, chain, heq, hreads, h⟩ := ChainMember.loadAll_eq_error_iff.1 hread
    exact .inr ⟨f, .unread heq hreads h⟩
  | ok chain =>
    have hreads := ChainMember.loadAll_eq_ok_iff.1 hread
    cases chain with
    | nil => exact .inr ⟨_, .empty (List.forall₂_nil_right_iff.1 hreads)⟩
    | cons leaf rest =>
      cases hfound : (v.findAnchors leaf att w).1 with
      | error f => exact .inr ⟨f, .unsought hreads hfound⟩
      | ok anchors =>
        cases anchors with
        | nil => exact .inr ⟨_, .unregistered hreads hfound⟩
        | cons a anchors =>
          exact .inl ⟨_, _, _, hreads, List.getLast?_cons, ⟨leaf, rfl, hfound⟩, List.cons_ne_nil _ _⟩

theorem refused_of_validate_fst {f : Failure} (h : (v.validate members att w).1 = .error f) :
    Refused v members att w f := by
  obtain ⟨chain, last, anchors, hr⟩ | ⟨g, hg⟩ := registered_or_refused v members att w
  · rcases hr.validate_fst_eq_error_iff.1 h with ⟨hp, hroot⟩ | ⟨hs, ⟨rfl, hbeyond⟩ | ⟨t, ht, hrest⟩⟩
    · exact .notShort hr hp hroot
    · exact .beyond hr hs hbeyond
    · rcases hrest with ⟨before, c, after, heq, hbefore, hc⟩ | ⟨hv, hsearch⟩
      · exact .untimely hr hs ht heq hbefore hc
      · cases hsearch with
        | unreached hall => exact .unverified ⟨hr, hs, ht, hv⟩ hall
        | unclear heq hbefore ha =>
          subst heq
          exact .unclear ⟨hr, hs, ht, hv⟩ hbefore ha
  · rw [validate_fst_of_refused hg] at h
    cases h
    exact hg

theorem deserves_of_validate_fst {a : TrustAnchor} (h : (v.validate members att w).1 = .ok a) :
    ∃ chain last t before after, Deserves v members att w chain last t before a after := by
  obtain ⟨chain, last, anchors, hr⟩ | ⟨g, hg⟩ := registered_or_refused v members att w
  · obtain ⟨t, hp, hsearch⟩ := hr.validate_fst_eq_ok_iff.1 h
    cases hsearch with
    | @reached before after a heq hbefore ha =>
      subst heq
      refine ⟨chain, last, t, before, after, hr, ?_, hp.judged, hp.valid, ha, ?_⟩
      · intro hprohibited
        obtain ⟨hno, hself⟩ := hp.short hprohibited
        exact ⟨hno, by simp [hself]⟩
      · exact fun b hb hl => hl.not_passesBy (hbefore b hb)
  · rw [validate_fst_of_refused hg] at h
    cases h

/-- A chain that deserves an anchor is given it, or a check before it cannot be made and that is what comes of it. -/
theorem Deserves.validate_fst_cases {t : Int} {before after : List TrustAnchor} {a : TrustAnchor}
    (hd : Deserves v members att w chain last t before a after) :
    ((v.validate members att w).1 = .ok a ∧ ¬ Obstructed v chain last before) ∨
    Obstructed v chain last before ∧ ∃ f, (v.validate members att w).1 = .error f ∧ ∀ g, f ≠ .chain g := by
  obtain ⟨w', hw'⟩ := hd.toRegistered.validate_fst
  by_cases hself : v.fullChainProhibited = true ∧ ∃ f, last.isSelfSigned = .error f
  · obtain ⟨hprohibited, f, hf⟩ := hself
    have hroot : v.checkRoot chain last (before ++ a :: after) = .error (.x509 f) :=
      checkRoot_eq_error_iff.2 ⟨hprohibited, .unclear (hd.short hprohibited).1 hf⟩
    refine .inr ⟨.inl ⟨hprohibited, f, hf⟩, .x509 f, ?_, by simp⟩
    rw [hw', hroot]
    rfl
  · have hshort : v.StopsShort chain last (before ++ a :: after) := by
      intro hprohibited
      obtain ⟨hno, hnot⟩ := hd.short hprohibited
      refine ⟨hno, ?_⟩
      cases hs : last.isSelfSigned with
      | error f => exact absurd ⟨hprohibited, f, hs⟩ hself
      | ok self =>
        cases self with
        | false => rfl
        | true => exact absurd hs hnot
    have hroot : v.checkRoot chain last (before ++ a :: after) = .ok () := checkRoot_eq_ok_iff.2 hshort
    have hvalid : checkValidity t chain = .ok () := checkValidity_eq_ok_iff.2 hd.valid
    have hfound : (v.validate members att w).1 = (findIssuer chain last (before ++ a :: after) w').1 := by
      rw [hw', hroot, instantOf_eq_ok_iff.2 hd.judged]
      change (checkValidity t chain >>= fun _ => _) = _
      rw [hvalid]
      rfl
    rw [hfound]
    rcases findIssuer_append_of_leadsTo hd.leads after before w' hd.first with ⟨hok, hall⟩ | ⟨b, hb, f, hf, herror⟩
    · refine .inl ⟨hok, ?_⟩
      rintro (h | ⟨b, hb, f, hf⟩)
      · exact hself h
      · exact hf.not_passesBy (hall b hb)
    · exact .inr ⟨.inr ⟨b, hb, f, hf⟩, f, herror, hf.ne_chain⟩

/-- **The decision of a chain**: it is refused for the first check that it does not pass, in the order of the rows;
an anchor that it is given is one that it deserves; and the anchor that it deserves is given to it exactly when no
check that comes before that anchor is impossible to make.  A chain that is refused for such a check is refused by a
failure that is no fault of chains. -/
theorem validate_decides (v : Validator) (members : List ChainMember) (att : Attestation) (w : World) :
    (∀ f, (v.validate members att w).1 = .error f ↔ v.Refused members att w f) ∧
    (∀ a, (v.validate members att w).1 = .ok a →
      ∃ chain last t before after, v.Deserves members att w chain last t before a after) ∧
    ∀ chain last t before a after, v.Deserves members att w chain last t before a after →
      ((v.validate members att w).1 = .ok a ↔ ¬ v.Obstructed chain last before) ∧
      (v.Obstructed chain last before → ∃ f, (v.validate members att w).1 = .error f ∧ ∀ g, f ≠ .chain g) := by
  refine ⟨fun f => ⟨refused_of_validate_fst, validate_fst_of_refused⟩, fun a h => deserves_of_validate_fst h, ?_⟩
  intro chain last t before a after hd
  rcases hd.validate_fst_cases with ⟨hok, hno⟩ | ⟨hobstructed, f, herror, hf⟩
  · exact ⟨⟨fun _ => hno, fun _ => hok⟩, fun h => absurd h hno⟩
  · refine ⟨⟨fun hok => ?_, fun hno => absurd hobstructed hno⟩, fun _ => ⟨f, herror, hf⟩⟩
    rw [herror] at hok
    cases hok

end Validator
end AttestationTrust
