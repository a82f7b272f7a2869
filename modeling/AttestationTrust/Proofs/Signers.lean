import AttestationTrust.Proofs.Clearance
/-!
# The revocation check of a BLOB's signers

The certificates of a BLOB's chain are checked in order, each beside its issuer, and the first that is not cleared ends
the check.  So the check passes when the exchanges that it made clear every certificate (`Revocation.Clears`), and a
finding is about the first that they do not clear (`Revocation.Refused`, `Revocation.checkAll_decides`).
-/
namespace AttestationTrust
namespace Revocation

open X509 (Certificate)

/-- Exchanges clear certificates in a row, each beside its issuer: the one behind it, or the root for the last. -/
inductive Clears (root : Certificate) : List Certificate → List Exchange → Prop
  | nil : Clears root [] []
  | cons {c : Certificate} {cs : List Certificate} {xs ys : List Exchange} (h : Cleared c (cs.headD root) xs)
      (hrest : Clears root cs ys) : Clears root (c :: cs) (xs ++ ys)

/-- The first certificate that is not cleared is revoked, or left unsettled.  It is the issuer of the one before it. -/
inductive Refused (root : Certificate) (cs : List Certificate) : List Exchange → RevocationFault → Prop
  | revoked {before after : List Certificate} {c : Certificate} {xs ys : List Exchange} {subject : String}
      (hcs : cs = before ++ c :: after) (hbefore : Clears c before xs) (h : Revoked c (after.headD root) ys)
      (hs : c.subjectText = .ok subject) : Refused root cs (xs ++ ys) (.revoked subject c)
  | unsettled {before after : List Certificate} {c : Certificate} {xs ys : List Exchange} {subject : String}
      {reason : ListFault} (hcs : cs = before ++ c :: after) (hbefore : Clears c before xs)
      (h : Unsettled c (after.headD root) ys reason) (hs : c.subjectText = .ok subject) :
      Refused root cs (xs ++ ys) (.noUsableList subject reason)

/-- A request is answered, or fails as a download or as a value that does not fit. -/
def Ordinary (x : Exchange) : Prop := ∀ f, x.reply = .error f → (∃ g, f = .download g) ∨ f.isValueFault = true

/-- The check of certificates in a row. -/
def checkAll (root : Certificate) (cs : List Certificate) (timeout : Timeout) : Action Unit :=
  (withIssuers root cs).forM fun (c, issuer) => checkCertificate c issuer timeout

variable {root : Certificate} {timeout : Timeout} {w : World}

variable [Json.Limits] in
theorem checkBlob_eq (blob : Bytes) (root : Certificate) (timeout : Timeout) : checkBlob blob root timeout = (do
    let chain ← Action.ofExcept (signingChain blob)
    checkAll root (chain.filter (· ≠ root)) timeout) := rfl

theorem withIssuers_cons (root c : Certificate) (cs : List Certificate) :
    withIssuers root (c :: cs) = (c, cs.headD root) :: withIssuers root cs := by
  cases cs <;> rfl

theorem headD_append_cons (root c : Certificate) (before after : List Certificate) :
    (before ++ c :: after).headD root = before.headD c := by
  cases before <;> rfl

/-- The issuer of the certificate before another is that one. -/
theorem withIssuers_append (root c : Certificate) (after : List Certificate) : ∀ before : List Certificate,
    withIssuers root (before ++ c :: after) = withIssuers c before ++ withIssuers root (c :: after)
  | [] => rfl
  | b :: before => by
    rw [List.cons_append, withIssuers_cons, withIssuers_cons, withIssuers_append root c after before,
      headD_append_cons, List.cons_append]

theorem checkAll_cons (root c : Certificate) (cs : List Certificate) (timeout : Timeout) :
    checkAll root (c :: cs) timeout = (do
      checkCertificate c (cs.headD root) timeout
      checkAll root cs timeout) := by
  unfold checkAll
  rw [withIssuers_cons]
  exact List.forM_cons

theorem checkAll_append (root c : Certificate) (before after : List Certificate) (timeout : Timeout) :
    checkAll root (before ++ c :: after) timeout = (do
      checkAll c before timeout
      checkAll root (c :: after) timeout) := by
  unfold checkAll
  rw [withIssuers_append]
  exact List.forM_append

/-- Certificates that are cleared pass the check. -/
theorem Clears.checkAll {cs : List Certificate} {xs : List Exchange} (h : Clears root cs xs) :
    ∀ {w : World}, w.network.exchanges timeout (xs.map Exchange.url) = xs →
      (Revocation.checkAll root cs timeout w).1 = .ok () ∧
        w.Exchanged timeout xs (Revocation.checkAll root cs timeout w).2 := by
  induction h with
  | nil => exact fun {w} _ => ⟨rfl, .of_outside timeout rfl⟩
  | @cons c cs xs ys hc hrest ih =>
    intro w hserved
    obtain ⟨-, hxs, hys⟩ := Network.exchanges_eq_append hserved
    obtain ⟨hok, hworld⟩ := hc.checkCertificate hxs
    rw [← hworld.network] at hys
    obtain ⟨hok', hworld'⟩ := ih hys
    rw [checkAll_cons, Action.bind_of_ok _ (Prod.ext hok rfl)]
    exact ⟨hok', hworld.append hworld'⟩

/-- The first certificate that is not cleared ends the check. -/
theorem checkAll_of_ends_error {before after : List Certificate} {c : Certificate} {xs ys : List Exchange} {f : Failure}
    (hbefore : Clears c before xs) (hends : Ends c (after.headD root) ys (.error f))
    (hserved : w.network.exchanges timeout ((xs ++ ys).map Exchange.url) = xs ++ ys) :
    (checkAll root (before ++ c :: after) timeout w).1 = .error f ∧
      w.Exchanged timeout (xs ++ ys) (checkAll root (before ++ c :: after) timeout w).2 := by
  obtain ⟨-, hxs, hys⟩ := Network.exchanges_eq_append hserved
  obtain ⟨hok, hworld⟩ := hbefore.checkAll hxs
  rw [← hworld.network] at hys
  obtain ⟨herror, hworld'⟩ := hends.checkCertificate hys
  rw [checkAll_append, Action.bind_of_ok _ (Prod.ext hok rfl), checkAll_cons,
    Action.bind_of_error _ (Prod.ext herror rfl)]
  exact ⟨rfl, hworld.append hworld'⟩

/-- All certificates are cleared, or there is a first one that is not. -/
theorem exists_clears_or_ends_error (root : Certificate) (timeout : Timeout) : ∀ (cs : List Certificate) (n : Network),
    (∃ xs, n.exchanges timeout (xs.map Exchange.url) = xs ∧ Clears root cs xs) ∨
    ∃ before c after xs ys f, cs = before ++ c :: after ∧
      n.exchanges timeout ((xs ++ ys).map Exchange.url) = xs ++ ys ∧
      Clears c before xs ∧ Ends c (after.headD root) ys (.error f)
  | [], _ => .inl ⟨[], rfl, .nil⟩
  | c :: cs, n => by
    obtain ⟨xs, r, hserved, hends⟩ := exists_ends c (cs.headD root) timeout n
    -- the certificates behind it are checked in the network that its check has left
    have happend : ∀ ys, (n.after timeout (xs.map Exchange.url)).exchanges timeout (ys.map Exchange.url) = ys →
        n.exchanges timeout ((xs ++ ys).map Exchange.url) = xs ++ ys := by
      intro ys hys
      rw [List.map_append, Network.exchanges_append, hserved, hys]
    cases r with
    | error f => exact .inr ⟨[], c, cs, [], xs, f, rfl, hserved, .nil, hends⟩
    | ok =>
      obtain hc : Cleared c (cs.headD root) xs := by cases hends with | cleared h => exact h
      obtain ⟨ys, hys, hrest⟩ | ⟨before, d, after, ys, zs, f, rfl, hys, hbefore, hd⟩ :=
        exists_clears_or_ends_error root timeout cs (n.after timeout (xs.map Exchange.url))
      · exact .inl ⟨xs ++ ys, happend ys hys, .cons hc hrest⟩
      · rw [headD_append_cons] at hc
        refine .inr ⟨c :: before, d, after, xs ++ ys, zs, f, rfl, ?_, .cons hc hbefore, hd⟩
        rw [List.append_assoc]
        exact happend _ hys

theorem Refused.checkAll {cs : List Certificate} {xs : List Exchange} {f : RevocationFault} (h : Refused root cs xs f)
    (hserved : w.network.exchanges timeout (xs.map Exchange.url) = xs) :
    (Revocation.checkAll root cs timeout w).1 = .error (.revocation f) := by
  cases h with
  | revoked hcs hbefore h hs =>
    subst hcs
    exact (checkAll_of_ends_error hbefore (.revoked h hs) hserved).1
  | unsettled hcs hbefore h hs =>
    subst hcs
    exact (checkAll_of_ends_error hbefore (.unsettled h hs) hserved).1

/-- Where requests fail only as downloads and values do, what obstructs a check is no finding about a certificate. -/
theorem Obstructed.ne_revocation {c issuer : Certificate} {xs : List Exchange} {f : Failure}
    (h : Obstructed c issuer xs f) (hordinary : ∀ x ∈ xs, Ordinary x) (g : RevocationFault) : f ≠ .revocation g := by
  cases h with
  | @stopped before x f hr h =>
    cases h with
    | undelivered h hf =>
      obtain ⟨g, rfl⟩ | hvalue := hordinary x (by simp) _ h
      · cases hf
      · rintro rfl
        cases hvalue
    | unread => simp
    | noKey => simp
    | untested => simp
  | _ => simp

theorem itemCertificates_length : ∀ {items : List Value} {position : Nat} {cs : List Certificate},
    itemCertificates position items = .ok cs → cs.length = items.length
  | [], _, _, h => by
    cases h
    rfl
  | item :: items, position, cs, h => by
    obtain ⟨c, -, h⟩ := except_bind_eq_ok_iff.1 h
    obtain ⟨rest, hrest, h⟩ := except_bind_eq_ok_iff.1 h
    cases h
    rw [List.length_cons, List.length_cons, itemCertificates_length hrest]

theorem Clears.url_mem {cs : List Certificate} {xs : List Exchange} (h : Clears root cs xs) :
    ∀ x ∈ xs, ∃ c ∈ cs, ∃ urls, c.crlUrls = .ok urls ∧ x.url ∈ urls := by
  induction h with
  | nil => simp
  | @cons c cs xs ys hc hrest ih =>
    intro x hx
    obtain hx | hx := List.mem_append.1 hx
    · exact ⟨c, List.mem_cons_self, (Ends.cleared hc).url_mem x hx⟩
    · obtain ⟨d, hd, hurl⟩ := ih x hx
      exact ⟨d, List.mem_cons_of_mem c hd, hurl⟩

/-- Only locations of certificates in the row are asked. -/
theorem exists_exchanged_checkAll (root : Certificate) (cs : List Certificate) (timeout : Timeout) (w : World) :
    ∃ xs, w.Exchanged timeout xs (Revocation.checkAll root cs timeout w).2 ∧
      ∀ x ∈ xs, ∃ c ∈ cs, ∃ urls, c.crlUrls = .ok urls ∧ x.url ∈ urls := by
  obtain ⟨xs, hserved, hclears⟩ | ⟨before, c, after, xs, ys, f, rfl, hserved, hbefore, hends⟩ :=
    exists_clears_or_ends_error root timeout cs w.network
  · exact ⟨xs, (hclears.checkAll hserved).2, hclears.url_mem⟩
  · refine ⟨xs ++ ys, (checkAll_of_ends_error hbefore hends hserved).2, fun x hx => ?_⟩
    obtain hx | hx := List.mem_append.1 hx
    · obtain ⟨d, hd, hurl⟩ := hbefore.url_mem x hx
      exact ⟨d, List.mem_append_left _ hd, hurl⟩
    · exact ⟨c, by simp, hends.url_mem x hx⟩

variable [Json.Limits] in
/-- Only locations of certificates in the BLOB's chain that are not the root are asked. -/
theorem exists_exchanged_checkBlob (blob : Bytes) (root : Certificate) (timeout : Timeout) (w : World) :
    ∃ xs, w.Exchanged timeout xs (checkBlob blob root timeout w).2 ∧
      ∀ x ∈ xs, ∃ chain c urls, signingChain blob = .ok chain ∧ c ∈ chain ∧ c ≠ root ∧
        c.crlUrls = .ok urls ∧ x.url ∈ urls := by
  rw [checkBlob_eq, Action.bind_apply, Action.ofExcept_apply]
  cases signingChain blob with
  | error g => exact ⟨[], .of_outside timeout rfl, by simp⟩
  | ok chain =>
    obtain ⟨xs, hworld, hurl⟩ := exists_exchanged_checkAll root (chain.filter (· ≠ root)) timeout w
    refine ⟨xs, hworld, fun x hx => ?_⟩
    obtain ⟨c, hc, urls, hurls, hx⟩ := hurl x hx
    obtain ⟨hchain, hroot⟩ := List.mem_filter.1 hc
    exact ⟨chain, c, urls, rfl, hchain, of_decide_eq_true hroot, hurls, hx⟩

theorem chainItems_ne_nil {v : Value} {items : List Value} (h : chainItems v = some items) : items ≠ [] := by
  unfold chainItems at h
  split at h
  · split at h
    · cases h
      simp
    · cases h
  · cases h

variable [Json.Limits] in
/-- A chain that is decoded is not empty. -/
theorem signingChain_ne_nil {blob : Bytes} {chain : List Certificate} (h : signingChain blob = .ok chain) :
    chain ≠ [] := by
  obtain ⟨v, -, h⟩ := except_bind_eq_ok_iff.1 h
  cases hitems : chainItems v with
  | none =>
    rw [hitems] at h
    cases h
  | some items =>
    rw [hitems] at h
    rw [← List.length_pos_iff, itemCertificates_length h]
    exact List.length_pos_iff.2 (chainItems_ne_nil hitems)

theorem itemCertificates_ne_revoked (subject : String) (c : Certificate) : ∀ (items : List Value) (position : Nat),
    itemCertificates position items ≠ .error (.revocation (.revoked subject c))
  | [], _ => by simp [itemCertificates]
  | item :: items, position => by
    intro h
    obtain h | ⟨d, -, h⟩ := except_bind_eq_error_iff.1 h
    · unfold itemCertificate at h
      split at h
      · cases h
      · split at h <;> cases h
    · obtain h | ⟨rest, -, h⟩ := except_bind_eq_error_iff.1 h
      · exact itemCertificates_ne_revoked subject c items _ h
      · cases h

variable [Json.Limits] in
/-- A chain that is not decoded says nothing about a certificate. -/
theorem signingChain_ne_revoked {blob : Bytes} (subject : String) (c : Certificate) :
    signingChain blob ≠ .error (.revocation (.revoked subject c)) := by
  intro h
  obtain h | ⟨v, -, h⟩ := except_bind_eq_error_iff.1 h
  · unfold header at h
    split at h <;> cases h
  · split at h
    · cases h
    · exact itemCertificates_ne_revoked subject c _ _ h

/-- The check passes when its exchanges clear the certificates, and a finding is about the first that they do not. -/
theorem checkAll_decides (root : Certificate) (cs : List Certificate) (timeout : Timeout) (w : World) :
    ∃ xs, w.Exchanged timeout xs (checkAll root cs timeout w).2 ∧
      ((checkAll root cs timeout w).1 = .ok () ↔ Clears root cs xs) ∧
      ((∀ x ∈ xs, Ordinary x) →
        ∀ f, (checkAll root cs timeout w).1 = .error (.revocation f) ↔ Refused root cs xs f) := by
  obtain ⟨xs, hserved, hclears⟩ | ⟨before, c, after, xs, ys, g, hcs, hserved, hbefore, hends⟩ :=
    exists_clears_or_ends_error root timeout cs w.network
  · obtain ⟨hok, hworld⟩ := hclears.checkAll hserved
    refine ⟨xs, hworld, iff_of_true hok hclears, fun _ f => iff_of_false (by simp [hok]) fun hrefused => ?_⟩
    have herror := hrefused.checkAll hserved
    rw [hok] at herror
    cases herror
  · obtain ⟨herror, hworld⟩ := checkAll_of_ends_error hbefore hends hserved
    rw [← hcs] at herror hworld
    refine ⟨xs ++ ys, hworld, iff_of_false (by simp [herror]) fun hclears => ?_, fun hordinary f => ⟨fun h => ?_, ?_⟩⟩
    · have hok := (hclears.checkAll hserved).1
      rw [herror] at hok
      cases hok
    · rw [herror, Except.error.injEq] at h
      subst h
      cases hends with
      | revoked h hs => exact .revoked hcs hbefore h hs
      | unsettled h hs => exact .unsettled hcs hbefore h hs
      | obstructed h => exact absurd rfl (h.ne_revocation (fun y hy => hordinary y (by simp [hy])) f)
    · exact fun hrefused => hrefused.checkAll hserved

variable [Json.Limits] in
/-- The check of a BLOB passes when its exchanges clear the certificates of its chain that are not the root, in order
and each beside its issuer.  A finding is about the chain itself, or about the first certificate that is not cleared. -/
theorem checkBlob_decides (blob : Bytes) (root : Certificate) (timeout : Timeout) (w : World) :
    ∃ xs, w.Exchanged timeout xs (checkBlob blob root timeout w).2 ∧
      ((checkBlob blob root timeout w).1 = .ok () ↔
        ∃ chain, signingChain blob = .ok chain ∧ chain ≠ [] ∧ Clears root (chain.filter (· ≠ root)) xs) ∧
      ((∀ x ∈ xs, Ordinary x) → ∀ f, (checkBlob blob root timeout w).1 = .error (.revocation f) ↔
        (signingChain blob = .error (.revocation f) ∧ ∀ subject c, f ≠ .revoked subject c) ∨
        ∃ chain, signingChain blob = .ok chain ∧ Refused root (chain.filter (· ≠ root)) xs f) := by
  rw [checkBlob_eq, Action.bind_apply, Action.ofExcept_apply]
  cases hchain : signingChain blob with
  | error g =>
    have hfault : ∀ subject c, g ≠ .revocation (.revoked subject c) := by
      rintro subject c rfl
      exact signingChain_ne_revoked subject c hchain
    refine ⟨[], .of_outside timeout rfl, by simp, fun _ f => ?_⟩
    simp only [Except.error.injEq, reduceCtorEq, false_and, exists_const, or_false]
    constructor
    · rintro rfl
      exact ⟨rfl, fun subject c h => hfault subject c (congrArg _ h)⟩
    · exact And.left
  | ok chain =>
    obtain ⟨xs, hworld, hok, herror⟩ := checkAll_decides root (chain.filter (· ≠ root)) timeout w
    refine ⟨xs, hworld, ?_, fun hordinary f => ?_⟩
    · simpa [signingChain_ne_nil hchain] using hok
    · simpa using herror hordinary f

end Revocation
end AttestationTrust
