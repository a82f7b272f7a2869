import AttestationTrust.Proofs.Links
/-!
# The search for an issuer

A chain leads to an anchor (`Validator.LeadsTo`), passes by it (`Validator.PassesBy`), or the check itself cannot be
made (`Validator.Unclear`), and these three exclude each other.  The search goes past the anchors that the chain
passes by and ends at the first that it does not, in whichever of the other two ways that one is
(`Validator.findIssuer_eq_iff_search`).
-/
namespace AttestationTrust

open X509 (Certificate Fault)

namespace Validator

variable {chain : List Certificate} {last : Certificate} {a : TrustAnchor}

/-- An anchor bears the name that the last certificate gives to its issuer. -/
def Names (last : Certificate) (a : TrustAnchor) : Prop :=
  ∃ issuer subject, last.issuer = .ok issuer ∧ a.certificate.subject = .ok subject ∧
    X509.Name.same issuer subject = true

/-- A chain leads to an anchor: the anchor bears the issuer's name, and every link up to it is signed. -/
def LeadsTo (chain : List Certificate) (last : Certificate) (a : TrustAnchor) : Prop :=
  Names last a ∧ (chain ++ [a.certificate]).IsChain Link.Signed

/-- A chain passes by an anchor: the anchor bears another name, or the first link that is not signed is broken. -/
def PassesBy (chain : List Certificate) (last : Certificate) (a : TrustAnchor) : Prop :=
  ∃ issuer subject, last.issuer = .ok issuer ∧ a.certificate.subject = .ok subject ∧
    (X509.Name.same issuer subject = false ∨ Link.EndsAs .broken (chain ++ [a.certificate]))

/-- Whether a chain leads to an anchor cannot be told, and why. -/
inductive Unclear (chain : List Certificate) (last : Certificate) (a : TrustAnchor) : Failure → Prop
  | issuer {f : Fault} (h : last.issuer = .error f) : Unclear chain last a (.x509 f)
  | subject {issuer : X509.Name} {f : Fault} (hi : last.issuer = .ok issuer) (h : a.certificate.subject = .error f) :
      Unclear chain last a (.x509 f)
  | link {f : Failure} (hn : Names last a) (h : Link.EndsAs (.failed f) (chain ++ [a.certificate])) :
      Unclear chain last a f

theorem leadsTo_or_passesBy_or_unclear (chain : List Certificate) (last : Certificate) (a : TrustAnchor) :
    LeadsTo chain last a ∨ PassesBy chain last a ∨ ∃ f, Unclear chain last a f := by
  cases hi : last.issuer with
  | error f => exact .inr (.inr ⟨_, .issuer hi⟩)
  | ok issuer =>
    cases hs : a.certificate.subject with
    | error f => exact .inr (.inr ⟨_, .subject hi hs⟩)
    | ok subject =>
      cases hn : X509.Name.same issuer subject with
      | false => exact .inr (.inl ⟨issuer, subject, hi, hs, .inl hn⟩)
      | true =>
        cases hl : Link.ofChain (chain ++ [a.certificate]) with
        | verified => exact .inl ⟨⟨issuer, subject, hi, hs, hn⟩, Link.ofChain_eq_verified_iff.1 hl⟩
        | broken =>
          exact .inr (.inl ⟨issuer, subject, hi, hs, .inr ((Link.ofChain_eq_iff_of_ne (by simp)).1 hl)⟩)
        | failed f =>
          exact .inr (.inr ⟨f, .link ⟨issuer, subject, hi, hs, hn⟩ ((Link.ofChain_eq_iff_of_ne (by simp)).1 hl)⟩)

theorem findIssuer_cons_of_leadsTo (h : LeadsTo chain last a) (rest : List TrustAnchor) (w : World) :
    findIssuer chain last (a :: rest) w = (.ok a, w) := by
  obtain ⟨⟨issuer, subject, hi, hs, hn⟩, hl⟩ := h
  simp [findIssuer, Action.bind_apply, hi, hs, hn, Link.ofChain_eq_verified_iff.2 hl]

theorem findIssuer_cons_of_passesBy (h : PassesBy chain last a) (rest : List TrustAnchor) (w : World) :
    ∃ w', findIssuer chain last (a :: rest) w = findIssuer chain last rest w' := by
  obtain ⟨issuer, subject, hi, hs, hn⟩ := h
  cases hsame : X509.Name.same issuer subject with
  | false => exact ⟨w, by simp [findIssuer, Action.bind_apply, hi, hs, hsame]⟩
  | true =>
    have hl : Link.ofChain (chain ++ [a.certificate]) = .broken :=
      (Link.ofChain_eq_iff_of_ne (by simp)).2 (hn.resolve_left (by simp [hsame]))
    exact ⟨_, by simp [findIssuer, Action.bind_apply, hi, hs, hsame, hl]; rfl⟩

theorem findIssuer_cons_of_unclear {f : Failure} (h : Unclear chain last a f) (rest : List TrustAnchor) (w : World) :
    findIssuer chain last (a :: rest) w = (.error f, w) := by
  cases h with
  | issuer hi => simp [findIssuer, Action.bind_apply, hi]
  | subject hi hs => simp [findIssuer, Action.bind_apply, hi, hs]
  | link hn hl =>
    obtain ⟨issuer, subject, hi, hs, hn⟩ := hn
    simp [findIssuer, Action.bind_apply, hi, hs, hn, (Link.ofChain_eq_iff_of_ne (by simp)).2 hl]

theorem LeadsTo.not_passesBy (h : LeadsTo chain last a) : ¬ PassesBy chain last a := by
  obtain ⟨⟨issuer, subject, hi, hs, hn⟩, hl⟩ := h
  rintro ⟨issuer', subject', hi', hs', hother⟩
  rw [hi] at hi'
  rw [hs] at hs'
  cases hi'
  cases hs'
  rcases hother with hn' | hbroken
  · rw [hn] at hn'
    cases hn'
  · rw [← Link.ofChain_eq_iff_of_ne (by simp), Link.ofChain_eq_verified_iff.2 hl] at hbroken
    cases hbroken

theorem Unclear.not_passesBy {f : Failure} (h : Unclear chain last a f) : ¬ PassesBy chain last a := by
  rintro ⟨issuer, subject, hi, hs, hother⟩
  cases h with
  | issuer hi' =>
    rw [hi] at hi'
    cases hi'
  | subject hi' hs' =>
    rw [hs] at hs'
    cases hs'
  | link hn hl =>
    obtain ⟨issuer', subject', hi', hs', hn⟩ := hn
    rw [hi] at hi'
    rw [hs] at hs'
    cases hi'
    cases hs'
    rcases hother with hn' | hbroken
    · rw [hn] at hn'
      cases hn'
    · rw [← Link.ofChain_eq_iff_of_ne (by simp)] at hl hbroken
      rw [hl] at hbroken
      cases hbroken

/-- What comes of trying the anchors in turn. -/
inductive Search (chain : List Certificate) (last : Certificate) (anchors : List TrustAnchor) :
    Except Failure TrustAnchor → Prop
  | reached {before after : List TrustAnchor} {a : TrustAnchor} (heq : anchors = before ++ a :: after)
      (hbefore : ∀ b ∈ before, PassesBy chain last b) (ha : LeadsTo chain last a) : Search chain last anchors (.ok a)
  | unreached (h : ∀ a ∈ anchors, PassesBy chain last a) : Search chain last anchors (.error (.chain .unverified))
  | unclear {before after : List TrustAnchor} {a : TrustAnchor} {f : Failure} (heq : anchors = before ++ a :: after)
      (hbefore : ∀ b ∈ before, PassesBy chain last b) (ha : Unclear chain last a f) : Search chain last anchors (.error f)

theorem Search.cons {r : Except Failure TrustAnchor} {anchors : List TrustAnchor} (ha : PassesBy chain last a)
    (h : Search chain last anchors r) : Search chain last (a :: anchors) r := by
  cases h with
  | reached heq hbefore hb =>
    exact .reached (by rw [heq]; rfl) (List.forall_mem_cons.2 ⟨ha, hbefore⟩) hb
  | unreached h => exact .unreached (List.forall_mem_cons.2 ⟨ha, h⟩)
  | unclear heq hbefore hb =>
    exact .unclear (by rw [heq]; rfl) (List.forall_mem_cons.2 ⟨ha, hbefore⟩) hb

/-- The search comes to the first anchor that is not passed by. -/
theorem search_findIssuer : ∀ (anchors : List TrustAnchor) (w : World),
    Search chain last anchors (findIssuer chain last anchors w).1
  | [], _ => .unreached (by simp)
  | a :: anchors, w => by
    rcases leadsTo_or_passesBy_or_unclear chain last a with h | h | ⟨f, h⟩
    · rw [findIssuer_cons_of_leadsTo h]
      exact .reached (show a :: anchors = [] ++ a :: anchors from rfl) (by simp) h
    · obtain ⟨w', hw'⟩ := findIssuer_cons_of_passesBy h anchors w
      rw [hw']
      exact (search_findIssuer anchors w').cons h
    · rw [findIssuer_cons_of_unclear h]
      exact .unclear (show a :: anchors = [] ++ a :: anchors from rfl) (by simp) h

theorem findIssuer_append_of_passesBy (anchors : List TrustAnchor) : ∀ (before : List TrustAnchor) (w : World),
    (∀ b ∈ before, PassesBy chain last b) →
      ∃ w', findIssuer chain last (before ++ anchors) w = findIssuer chain last anchors w'
  | [], w, _ => ⟨w, rfl⟩
  | b :: before, w, h => by
    obtain ⟨hb, hbefore⟩ := List.forall_mem_cons.1 h
    obtain ⟨w', hw'⟩ := findIssuer_cons_of_passesBy hb (before ++ anchors) w
    obtain ⟨w'', hw''⟩ := findIssuer_append_of_passesBy anchors before w' hbefore
    exact ⟨w'', hw'.trans hw''⟩

/-- A search whose first anchor to lead to is known comes to it, or to one before it that is unclear. -/
theorem findIssuer_append_of_leadsTo (ha : LeadsTo chain last a) (after : List TrustAnchor) :
    ∀ (before : List TrustAnchor) (w : World), (∀ b ∈ before, ¬ LeadsTo chain last b) →
      ((findIssuer chain last (before ++ a :: after) w).1 = .ok a ∧ ∀ b ∈ before, PassesBy chain last b) ∨
      ∃ b ∈ before, ∃ f, Unclear chain last b f ∧ (findIssuer chain last (before ++ a :: after) w).1 = .error f
  | [], w, _ => by
    refine .inl ⟨?_, by simp⟩
    rw [List.nil_append, findIssuer_cons_of_leadsTo ha]
  | b :: before, w, h => by
    obtain ⟨hb, hbefore⟩ := List.forall_mem_cons.1 h
    rw [List.cons_append]
    rcases leadsTo_or_passesBy_or_unclear chain last b with hleads | hpasses | ⟨f, hunclear⟩
    · exact absurd hleads hb
    · obtain ⟨w', hw'⟩ := findIssuer_cons_of_passesBy hpasses (before ++ a :: after) w
      rw [hw']
      rcases findIssuer_append_of_leadsTo ha after before w' hbefore with ⟨hfound, hall⟩ | ⟨c, hc, f, hf⟩
      · exact .inl ⟨hfound, List.forall_mem_cons.2 ⟨hpasses, hall⟩⟩
      · exact .inr ⟨c, List.mem_cons_of_mem _ hc, f, hf⟩
    · refine .inr ⟨b, List.mem_cons_self, f, hunclear, ?_⟩
      rw [findIssuer_cons_of_unclear hunclear]

/-- Whether a chain leads to an anchor is unclear for no fault of the chain. -/
theorem Unclear.ne_chain {f : Failure} (h : Unclear chain last a f) (g : ChainFault) : f ≠ .chain g := by
  cases h with
  | issuer h => simp
  | subject hi h => simp
  | link hn h =>
    obtain ⟨before, child, issuer, after, -, -, hbetween⟩ := h
    exact Link.between_failed_ne_chain hbetween g

theorem findIssuer_eq_iff_search {anchors : List TrustAnchor} {w : World} {r : Except Failure TrustAnchor} :
    (findIssuer chain last anchors w).1 = r ↔ Search chain last anchors r := by
  constructor
  · rintro rfl
    exact search_findIssuer anchors w
  · rintro (⟨rfl, hbefore, ha⟩ | h | ⟨rfl, hbefore, ha⟩)
    · obtain ⟨w', hw'⟩ := findIssuer_append_of_passesBy _ _ w hbefore
      rw [hw', findIssuer_cons_of_leadsTo ha]
    · obtain ⟨w', hw'⟩ := findIssuer_append_of_passesBy [] anchors w h
      rw [List.append_nil] at hw'
      rw [hw']
      rfl
    · obtain ⟨w', hw'⟩ := findIssuer_append_of_passesBy _ _ w hbefore
      rw [hw', findIssuer_cons_of_unclear ha]

end Validator
end AttestationTrust
