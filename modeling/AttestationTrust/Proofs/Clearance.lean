import AttestationTrust.Proofs.Providers
import AttestationTrust.Proofs.Exchange
/-!
# The revocation check of a certificate

A request for a location brings a list that the issuer signed (`Revocation.Brings`), is of no use
(`Revocation.Useless`), or ends the check with a failure of its own (`Revocation.Stops`).  The check goes past the
locations that are of no use and is decided by the first that is not: the certificate is cleared, or revoked, or left
unsettled when there is none, or the check is obstructed (`Revocation.Ends`, `Revocation.exists_ends`).  The locations
behind the deciding one are never asked, and a list that stands there revokes nothing (`Revocation.Hidden`).
-/
namespace AttestationTrust
namespace Revocation

open X509 (Certificate Fault RevocationList)

/-- A request brings a list under the issuer's signature. -/
def Brings (issuer : Certificate) (x : Exchange) (crl : RevocationList) : Prop :=
  ∃ bs key, x.reply = .ok bs ∧ RevocationList.load bs = .ok crl ∧ issuer.publicKey = .ok key ∧
    crl.isSignedBy key = .ok true

/-- A request is of no use: nothing comes of it, or no list, or one that the issuer has not signed. -/
inductive Useless (issuer : Certificate) (x : Exchange) : ListFault → Prop
  | undelivered {f : DownloadFault} (h : x.reply = .error (.download f)) : Useless issuer x (.download f)
  | unfit {f : Failure} (h : x.reply = .error f) (hf : f.isValueFault = true) : Useless issuer x .unparsable
  | unread {bs : Bytes} (h : x.reply = .ok bs) (hload : RevocationList.load bs = .error .malformed) :
      Useless issuer x .unparsable
  | unsigned {bs : Bytes} {crl : RevocationList} {key : X509.PublicKey} (h : x.reply = .ok bs)
      (hload : RevocationList.load bs = .ok crl) (hkey : issuer.publicKey = .ok key)
      (hs : crl.isSignedBy key = .ok false) : Useless issuer x (.unsigned x.url)

/-- A request ends the check: it fails in a way that is no download's, or its list cannot be put to the test. -/
inductive Stops (issuer : Certificate) (x : Exchange) : Failure → Prop
  | undelivered {f : Failure} (h : x.reply = .error f) (hf : listFault f = none) : Stops issuer x f
  | unread {bs : Bytes} {f : Fault} (h : x.reply = .ok bs) (hload : RevocationList.load bs = .error f)
      (hf : f ≠ .malformed) : Stops issuer x (.x509 f)
  | noKey {bs : Bytes} {crl : RevocationList} {f : Fault} (h : x.reply = .ok bs)
      (hload : RevocationList.load bs = .ok crl) (hkey : issuer.publicKey = .error f) : Stops issuer x (.x509 f)
  | untested {bs : Bytes} {crl : RevocationList} {key : X509.PublicKey} {f : Fault} (h : x.reply = .ok bs)
      (hload : RevocationList.load bs = .ok crl) (hkey : issuer.publicKey = .ok key)
      (hs : crl.isSignedBy key = .error f) : Stops issuer x (.x509 f)

/-- The serial number of a certificate stands in a list. -/
def Lists (crl : RevocationList) (c : Certificate) : Prop := ∃ n ∈ crl.serials, c.content.serial = Int.ofNat n

/-- The serial number of a certificate is one that a list could hold and does not. -/
def Omits (crl : RevocationList) (c : Certificate) : Prop := ∃ n, c.content.serial = Int.ofNat n ∧ n ∉ crl.serials

/-- The locations that a certificate names are of no use up to one of them. -/
structure Reaches (c issuer : Certificate) (before : List Exchange) (x : Exchange) : Prop where
  named : ∃ after, c.crlUrls = .ok (before.map Exchange.url ++ x.url :: after)
  useless : ∀ y ∈ before, ∃ reason, Useless issuer y reason

/-- A certificate is cleared: it names no location, or the first list of its issuer omits it. -/
inductive Cleared (c issuer : Certificate) : List Exchange → Prop
  | unnamed {subject : String} (h : c.crlUrls = .ok []) (hs : c.subjectText = .ok subject) : Cleared c issuer []
  | omitted {before : List Exchange} {x : Exchange} {crl : RevocationList} (hr : Reaches c issuer before x)
      (hb : Brings issuer x crl) (h : Omits crl c) : Cleared c issuer (before ++ [x])

/-- A certificate is revoked: the first list of its issuer holds it. -/
inductive Revoked (c issuer : Certificate) : List Exchange → Prop
  | listed {before : List Exchange} {x : Exchange} {crl : RevocationList} (hr : Reaches c issuer before x)
      (hb : Brings issuer x crl) (h : Lists crl c) : Revoked c issuer (before ++ [x])

/-- Whether a certificate is revoked stays unsettled: it names locations, and none of them is of use. -/
inductive Unsettled (c issuer : Certificate) : List Exchange → ListFault → Prop
  | exhausted {before : List Exchange} {x : Exchange} {reason : ListFault}
      (h : c.crlUrls = .ok ((before ++ [x]).map Exchange.url))
      (hbefore : ∀ y ∈ before, ∃ reason, Useless issuer y reason) (hx : Useless issuer x reason) :
      Unsettled c issuer (before ++ [x]) reason

/-- The check of a certificate cannot be made, or what it has come to cannot be said. -/
inductive Obstructed (c issuer : Certificate) : List Exchange → Failure → Prop
  | unread {f : Fault} (h : c.crlUrls = .error f) : Obstructed c issuer [] (.x509 f)
  | unnamed {f : Fault} (h : c.crlUrls = .ok []) (hs : c.subjectText = .error f) : Obstructed c issuer [] (.x509 f)
  | stopped {before : List Exchange} {x : Exchange} {f : Failure} (hr : Reaches c issuer before x)
      (h : Stops issuer x f) : Obstructed c issuer (before ++ [x]) f
  | unlisted {before : List Exchange} {x : Exchange} {crl : RevocationList} (hr : Reaches c issuer before x)
      (hb : Brings issuer x crl) (h : c.content.serial < 0) : Obstructed c issuer (before ++ [x]) (.x509 .malformed)
  | revoked {xs : List Exchange} {f : Fault} (h : Revoked c issuer xs) (hs : c.subjectText = .error f) :
      Obstructed c issuer xs (.x509 f)
  | unsettled {xs : List Exchange} {reason : ListFault} {f : Fault} (h : Unsettled c issuer xs reason)
      (hs : c.subjectText = .error f) : Obstructed c issuer xs (.x509 f)

/-- How the check of a certificate ends, by the exchanges that it has made. -/
inductive Ends (c issuer : Certificate) (xs : List Exchange) : Except Failure Unit → Prop
  | cleared (h : Cleared c issuer xs) : Ends c issuer xs (.ok ())
  | revoked {subject : String} (h : Revoked c issuer xs) (hs : c.subjectText = .ok subject) :
      Ends c issuer xs (.error (.revocation (.revoked subject c)))
  | unsettled {subject : String} {reason : ListFault} (h : Unsettled c issuer xs reason)
      (hs : c.subjectText = .ok subject) : Ends c issuer xs (.error (.revocation (.noUsableList subject reason)))
  | obstructed {f : Failure} (h : Obstructed c issuer xs f) : Ends c issuer xs (.error f)

variable {c issuer : Certificate} {timeout : Timeout} {w : World} {x : Exchange} {url : String}

/-- The failure that a certificate is revoked, with its subject, or that this cannot be written. -/
def refusal (c : Certificate) : Except Failure Unit := do
  let subject ← c.subjectText.mapError .x509
  .error (.revocation (.revoked subject c))

/-- What a list under the issuer's signature comes to for a certificate. -/
def verdict (crl : RevocationList) (c : Certificate) : Except Failure Unit := do
  if ← listed crl c then
    refusal c

theorem brings_or_useless_or_stops (issuer : Certificate) (x : Exchange) :
    (∃ crl, Brings issuer x crl) ∨ (∃ reason, Useless issuer x reason) ∨ ∃ f, Stops issuer x f := by
  cases hreply : x.reply with
  | error f =>
    cases hf : listFault f with
    | none => exact .inr (.inr ⟨f, .undelivered hreply hf⟩)
    | some reason =>
      refine .inr (.inl ?_)
      unfold listFault at hf
      split at hf
      · exact ⟨_, .undelivered hreply⟩
      · split at hf
        · rename_i hvalue
          exact ⟨_, .unfit hreply hvalue⟩
        · cases hf
  | ok bs =>
    cases hload : RevocationList.load bs with
    | error f =>
      by_cases hf : f = .malformed
      · subst hf
        exact .inr (.inl ⟨_, .unread hreply hload⟩)
      · exact .inr (.inr ⟨_, .unread hreply hload hf⟩)
    | ok crl =>
      cases hkey : issuer.publicKey with
      | error f => exact .inr (.inr ⟨_, .noKey hreply hload hkey⟩)
      | ok key =>
        cases hs : crl.isSignedBy key with
        | error f => exact .inr (.inr ⟨_, .untested hreply hload hkey hs⟩)
        | ok signed =>
          cases signed with
          | true => exact .inl ⟨crl, bs, key, hreply, hload, hkey, hs⟩
          | false => exact .inr (.inl ⟨_, .unsigned hreply hload hkey hs⟩)

theorem verdict_apply (crl : RevocationList) (c : Certificate) (w : World) :
    (do if ← Action.ofExcept (listed crl c) then
          let subject ← Action.ofX509 c.subjectText
          throw (.revocation (.revoked subject c)) : Action Unit) w = (verdict crl c, w) := by
  unfold verdict refusal
  rw [Action.bind_apply, Action.ofExcept_apply]
  cases listed crl c with
  | error f => rfl
  | ok listed =>
    cases listed with
    | false => rfl
    | true => cases c.subjectText <;> rfl

/-- What a request is answered with, read as a list. -/
theorem obtain_apply (url : String) (timeout : Timeout) (w : World) : obtain url timeout w =
    ((w.network.ask timeout url).1 >>= fun bs => (RevocationList.load bs).mapError .x509,
      (Action.fetch url timeout w).2) := by
  have hfetch := Action.fetch_apply url timeout w
  unfold obtain
  rw [Action.bind_apply, hfetch]
  cases (w.network.ask timeout url).1 with
  | error f => rfl
  | ok bs => exact Action.ofX509_apply _ _

/-- A location that brings no list is passed over, unless its failure is one that ends the check. -/
theorem checkUrls_cons_of_error {f : Failure} (hf : (obtain url timeout w).1 = .error f) (last : ListFault)
    (urls : List String) : checkUrls c issuer timeout last (url :: urls) w =
      match listFault f with
      | none => (.error f, (Action.fetch url timeout w).2)
      | some reason => checkUrls c issuer timeout reason urls ((Action.fetch url timeout w).2.record .warning topic
          ("Unable to obtain CRL from " ++ url ++ ": " ++ f.shown)) := by
  have hobtain : obtain url timeout w = (.error f, (Action.fetch url timeout w).2) :=
    Prod.ext hf (by rw [obtain_apply])
  rw [checkUrls, Action.bind_of_ok _ (Action.attempt_apply _ _), hobtain]
  dsimp only
  cases listFault f <;> rfl

/-- A location that brings a list is left behind when the issuer has not signed it, and decides when it has. -/
theorem checkUrls_cons_of_ok {crl : RevocationList} (hcrl : (obtain url timeout w).1 = .ok crl) (last : ListFault)
    (urls : List String) : checkUrls c issuer timeout last (url :: urls) w =
      match issuer.publicKey.bind crl.isSignedBy with
      | .error f => (.error (.x509 f), (Action.fetch url timeout w).2)
      | .ok false => checkUrls c issuer timeout (.unsigned url) urls
          ((Action.fetch url timeout w).2.record .warning topic (ListFault.unsignedMessage url))
      | .ok true => (verdict crl c, (Action.fetch url timeout w).2) := by
  have hobtain : obtain url timeout w = (.ok crl, (Action.fetch url timeout w).2) :=
    Prod.ext hcrl (by rw [obtain_apply])
  rw [checkUrls, Action.bind_of_ok _ (Action.attempt_apply _ _), hobtain]
  dsimp only
  cases issuer.publicKey with
  | error f => rfl
  | ok key =>
    cases hs : crl.isSignedBy key with
    | error f => simp [Action.bind_apply, Except.bind, hs]
    | ok signed =>
      cases signed with
      | false => simp [Action.bind_apply, Except.bind, hs]
      | true =>
        simp only [Action.bind_apply, Action.ofX509_apply, Except.bind, mapError_ok, hs, Bool.not_true,
          Bool.false_eq_true, if_false]
        rw [← verdict_apply, Action.bind_apply]

theorem obtain_fst_of_error {f : Failure} (h : (w.network.ask timeout url).1 = .error f) :
    (obtain url timeout w).1 = .error f := by
  rw [obtain_apply, h]
  rfl

theorem obtain_fst_of_ok {bs : Bytes} {r : Except Fault RevocationList} (h : (w.network.ask timeout url).1 = .ok bs)
    (hload : RevocationList.load bs = r) : (obtain url timeout w).1 = r.mapError .x509 := by
  rw [obtain_apply, h, ← hload]
  rfl

/-- A location of no use is passed over. -/
theorem Useless.checkUrls_cons {reason : ListFault} (h : Useless issuer ⟨url, (w.network.ask timeout url).1⟩ reason)
    (last : ListFault) (urls : List String) :
    ∃ w', w.Exchanged timeout [⟨url, (w.network.ask timeout url).1⟩] w' ∧
      checkUrls c issuer timeout last (url :: urls) w = checkUrls c issuer timeout reason urls w' := by
  have hworld := Action.exchanged_fetch url timeout w
  have hfails : ∀ f, (obtain url timeout w).1 = .error f → listFault f = some reason →
      ∃ w', w.Exchanged timeout [⟨url, (w.network.ask timeout url).1⟩] w' ∧
        checkUrls c issuer timeout last (url :: urls) w = checkUrls c issuer timeout reason urls w' := by
    intro f hf hreason
    refine ⟨_, hworld.record .warning topic ("Unable to obtain CRL from " ++ url ++ ": " ++ f.shown), ?_⟩
    rw [checkUrls_cons_of_error hf, hreason]
  cases h with
  | undelivered h => exact hfails _ (obtain_fst_of_error h) rfl
  | unfit h hf =>
    refine hfails _ (obtain_fst_of_error h) ?_
    unfold listFault
    split
    · cases hf
    · rw [hf]
      rfl
  | unread h hload => exact hfails _ (obtain_fst_of_ok h hload) rfl
  | unsigned h hload hkey hs =>
    refine ⟨_, hworld.record .warning topic (ListFault.unsignedMessage url), ?_⟩
    rw [checkUrls_cons_of_ok (obtain_fst_of_ok h hload), hkey]
    simp only [Except.bind, hs]

/-- The first list of the issuer decides. -/
theorem Brings.checkUrls_cons {crl : RevocationList} (h : Brings issuer ⟨url, (w.network.ask timeout url).1⟩ crl)
    (last : ListFault) (urls : List String) :
    checkUrls c issuer timeout last (url :: urls) w = (verdict crl c, (Action.fetch url timeout w).2) := by
  obtain ⟨bs, key, hreply, hload, hkey, hs⟩ := h
  rw [checkUrls_cons_of_ok (obtain_fst_of_ok hreply hload), hkey]
  simp only [Except.bind, hs]

theorem Stops.checkUrls_cons {f : Failure} (h : Stops issuer ⟨url, (w.network.ask timeout url).1⟩ f)
    (last : ListFault) (urls : List String) :
    checkUrls c issuer timeout last (url :: urls) w = (.error f, (Action.fetch url timeout w).2) := by
  cases h with
  | undelivered h hf => rw [checkUrls_cons_of_error (obtain_fst_of_error h), hf]
  | unread h hload hf =>
    rw [checkUrls_cons_of_error (obtain_fst_of_ok h hload)]
    rename_i f
    cases f with
    | malformed => exact absurd rfl hf
    | _ => rfl
  | noKey h hload hkey =>
    rw [checkUrls_cons_of_ok (obtain_fst_of_ok h hload), hkey]
    rfl
  | untested h hload hkey hs =>
    rw [checkUrls_cons_of_ok (obtain_fst_of_ok h hload), hkey]
    simp only [Except.bind, hs]

theorem checkUrls_nil (last : ListFault) : checkUrls c issuer timeout last [] w =
    (c.subjectText.mapError .x509 >>= fun subject => .error (.revocation (.noUsableList subject last)), w) := by
  rw [checkUrls, Action.bind_apply, Action.ofX509_apply]
  cases c.subjectText <;> rfl

theorem verdict_of_omits {crl : RevocationList} (h : Omits crl c) : verdict crl c = .ok () := by
  obtain ⟨n, hn, hlists⟩ := h
  have hlisted : listed crl c = .ok false := by simp [listed, RevocationList.lists, hn, hlists]
  rw [verdict, hlisted]
  rfl

theorem verdict_of_lists {crl : RevocationList} (h : Lists crl c) : verdict crl c = refusal c := by
  obtain ⟨n, hlists, hn⟩ := h
  have hlisted : listed crl c = .ok true := by simp [listed, RevocationList.lists, hn, hlists]
  rw [verdict, hlisted]
  rfl

theorem verdict_of_neg {crl : RevocationList} (h : c.content.serial < 0) :
    verdict crl c = .error (.x509 .malformed) := by
  have hlisted : listed crl c = .error (.x509 .malformed) := if_pos h
  rw [verdict, hlisted]
  rfl

theorem lists_or_omits_or_neg (crl : RevocationList) (c : Certificate) :
    Lists crl c ∨ Omits crl c ∨ c.content.serial < 0 := by
  cases hn : c.content.serial with
  | ofNat n =>
    by_cases hlists : n ∈ crl.serials
    · exact .inl ⟨n, hlists, hn⟩
    · exact .inr (.inl ⟨n, hn, hlists⟩)
  | negSucc n => exact .inr (.inr (Int.negSucc_lt_zero n))

/-- The check comes to a location when those before it are of no use. -/
theorem checkUrls_append_of_useless (urls : List String) : ∀ (before : List Exchange) (last : ListFault) (w : World),
    w.network.exchanges timeout (before.map Exchange.url) = before →
    (∀ y ∈ before, ∃ reason, Useless issuer y reason) →
    ∃ w' last', w.Exchanged timeout before w' ∧ checkUrls c issuer timeout last (before.map Exchange.url ++ urls) w =
      checkUrls c issuer timeout last' urls w'
  | [], last, w, _, _ => ⟨w, last, .of_outside timeout rfl, rfl⟩
  | y :: before, last, w, hserved, huseless => by
    obtain ⟨hy, hbefore⟩ := List.forall_mem_cons.1 huseless
    obtain ⟨reason, hy⟩ := hy
    rw [List.map_cons, Network.exchanges, List.cons.injEq] at hserved
    obtain ⟨hreply, hserved⟩ := hserved
    rw [← hreply] at hy
    obtain ⟨w₁, hw₁, hstep⟩ := hy.checkUrls_cons (c := c) last (before.map Exchange.url ++ urls)
    have hnetwork : w₁.network = (w.network.ask timeout y.url).2 := hw₁.network
    rw [← hnetwork] at hserved
    obtain ⟨w', last', hw', hrun⟩ := checkUrls_append_of_useless urls before reason w₁ hserved hbefore
    rw [hreply] at hw₁
    exact ⟨w', last', hw₁.append hw', hstep.trans hrun⟩

theorem checkCertificate_of_error {f : Fault} (h : c.crlUrls = .error f) :
    checkCertificate c issuer timeout w = (.error (.x509 f), w) := by
  rw [checkCertificate, h]
  rfl

theorem checkCertificate_of_nil (issuer : Certificate) (timeout : Timeout) (w : World) (h : c.crlUrls = .ok []) :
    (checkCertificate c issuer timeout w).1 = (c.subjectText.mapError .x509).map (fun _ => ()) ∧
      w.Exchanged timeout [] (checkCertificate c issuer timeout w).2 := by
  rw [checkCertificate, h]
  cases c.subjectText with
  | error f => exact ⟨rfl, .of_outside timeout rfl⟩
  | ok subject => exact ⟨rfl, .of_outside timeout rfl⟩

theorem checkCertificate_of_append_cons {before after : List String} (h : c.crlUrls = .ok (before ++ url :: after)) :
    checkCertificate c issuer timeout w =
      checkUrls c issuer timeout .unparsable (before ++ url :: after) w := by
  rw [checkCertificate, h]
  cases before <;> rfl

/-- The check comes to the location that its certificate reaches. -/
theorem Reaches.checkCertificate {before : List Exchange} (hr : Reaches c issuer before x)
    (hserved : w.network.exchanges timeout ((before ++ [x]).map Exchange.url) = before ++ [x]) :
    ∃ w' last urls, w.Exchanged timeout before w' ∧ x = ⟨x.url, (w'.network.ask timeout x.url).1⟩ ∧
      Revocation.checkCertificate c issuer timeout w = checkUrls c issuer timeout last (x.url :: urls) w' := by
  obtain ⟨after, hnamed⟩ := hr.named
  obtain ⟨-, hbefore, hx⟩ := Network.exchanges_eq_append_cons hserved
  obtain ⟨w', last, hw', hrun⟩ :=
    checkUrls_append_of_useless (c := c) (x.url :: after) before .unparsable w hbefore hr.useless
  refine ⟨w', last, after, hw', ?_, ?_⟩
  · rw [hw'.network]
    exact hx.symm
  · rw [← hrun]
    exact checkCertificate_of_append_cons hnamed

theorem Reaches.of_brings {before : List Exchange} {crl : RevocationList} (hr : Reaches c issuer before x)
    (hserved : w.network.exchanges timeout ((before ++ [x]).map Exchange.url) = before ++ [x])
    (hb : Brings issuer x crl) : (Revocation.checkCertificate c issuer timeout w).1 = verdict crl c ∧
      w.Exchanged timeout (before ++ [x]) (Revocation.checkCertificate c issuer timeout w).2 := by
  obtain ⟨w', last, urls, hw', hx, hrun⟩ := hr.checkCertificate hserved
  rw [hx] at hb
  rw [hrun, hb.checkUrls_cons, hx]
  exact ⟨rfl, hw'.append (Action.exchanged_fetch _ _ _)⟩

theorem Reaches.of_stops {before : List Exchange} {f : Failure} (hr : Reaches c issuer before x)
    (hserved : w.network.exchanges timeout ((before ++ [x]).map Exchange.url) = before ++ [x])
    (h : Stops issuer x f) : (Revocation.checkCertificate c issuer timeout w).1 = .error f ∧
      w.Exchanged timeout (before ++ [x]) (Revocation.checkCertificate c issuer timeout w).2 := by
  obtain ⟨w', last, urls, hw', hx, hrun⟩ := hr.checkCertificate hserved
  rw [hx] at h
  rw [hrun, h.checkUrls_cons, hx]
  exact ⟨rfl, hw'.append (Action.exchanged_fetch _ _ _)⟩

theorem Unsettled.checkCertificate {xs : List Exchange} {reason : ListFault} (h : Unsettled c issuer xs reason)
    (hserved : w.network.exchanges timeout (xs.map Exchange.url) = xs) :
    (Revocation.checkCertificate c issuer timeout w).1 = (c.subjectText.mapError .x509 >>= fun subject =>
        .error (.revocation (.noUsableList subject reason))) ∧
      w.Exchanged timeout xs (Revocation.checkCertificate c issuer timeout w).2 := by
  cases h with
  | @exhausted before x reason hnamed hbefore hx =>
    rw [List.map_append, List.map_singleton] at hserved hnamed
    obtain ⟨-, hbefore', hx'⟩ := Network.exchanges_eq_append_cons hserved
    obtain ⟨w', last, hw', hrun⟩ :=
      checkUrls_append_of_useless (c := c) [x.url] before .unparsable w hbefore' hbefore
    rw [← hx', ← hw'.network] at hx
    obtain ⟨w'', hw'', hstep⟩ := hx.checkUrls_cons (c := c) last []
    rw [hw'.network, hx'] at hw''
    rw [checkCertificate_of_append_cons hnamed, hrun, hstep, checkUrls_nil]
    exact ⟨rfl, hw'.append hw''⟩

theorem Cleared.checkCertificate {xs : List Exchange} (h : Cleared c issuer xs)
    (hserved : w.network.exchanges timeout (xs.map Exchange.url) = xs) :
    (Revocation.checkCertificate c issuer timeout w).1 = .ok () ∧
      w.Exchanged timeout xs (Revocation.checkCertificate c issuer timeout w).2 := by
  cases h with
  | unnamed h hs =>
    have hrun := checkCertificate_of_nil issuer timeout w h
    rwa [hs] at hrun
  | omitted hr hb h =>
    have hrun := hr.of_brings hserved hb
    rwa [verdict_of_omits h] at hrun

theorem Revoked.checkCertificate {xs : List Exchange} (h : Revoked c issuer xs)
    (hserved : w.network.exchanges timeout (xs.map Exchange.url) = xs) :
    (Revocation.checkCertificate c issuer timeout w).1 = refusal c ∧
      w.Exchanged timeout xs (Revocation.checkCertificate c issuer timeout w).2 := by
  cases h with
  | listed hr hb h =>
    have hrun := hr.of_brings hserved hb
    rwa [verdict_of_lists h] at hrun

/-- The check comes to what the exchanges say that it ends with, and makes those and no others. -/
theorem Ends.checkCertificate {xs : List Exchange} {r : Except Failure Unit} (hends : Ends c issuer xs r)
    (hserved : w.network.exchanges timeout (xs.map Exchange.url) = xs) :
    (Revocation.checkCertificate c issuer timeout w).1 = r ∧
      w.Exchanged timeout xs (Revocation.checkCertificate c issuer timeout w).2 := by
  cases hends with
  | cleared h => exact h.checkCertificate hserved
  | revoked h hs =>
    have hrun := h.checkCertificate hserved
    rwa [refusal, hs] at hrun
  | unsettled h hs =>
    have hrun := h.checkCertificate hserved
    rwa [hs] at hrun
  | obstructed h =>
    cases h with
    | unread h =>
      rw [checkCertificate_of_error h]
      exact ⟨rfl, .of_outside timeout rfl⟩
    | unnamed h hs =>
      have hrun := checkCertificate_of_nil issuer timeout w h
      rwa [hs] at hrun
    | stopped hr h => exact hr.of_stops hserved h
    | unlisted hr hb h =>
      have hrun := hr.of_brings hserved hb
      rwa [verdict_of_neg h] at hrun
    | revoked h hs =>
      have hrun := h.checkCertificate hserved
      rwa [refusal, hs] at hrun
    | unsettled h hs =>
      have hrun := h.checkCertificate hserved
      rwa [hs] at hrun

theorem Revoked.exists_ends {xs : List Exchange} (h : Revoked c issuer xs) : ∃ r, Ends c issuer xs r := by
  cases hs : c.subjectText with
  | error f => exact ⟨_, .obstructed (.revoked h hs)⟩
  | ok subject => exact ⟨_, .revoked h hs⟩

theorem Unsettled.exists_ends {xs : List Exchange} {reason : ListFault} (h : Unsettled c issuer xs reason) :
    ∃ r, Ends c issuer xs r := by
  cases hs : c.subjectText with
  | error f => exact ⟨_, .obstructed (.unsettled h hs)⟩
  | ok subject => exact ⟨_, .unsettled h hs⟩

/-- The first location that is of use, or that ends the check, decides. -/
theorem Reaches.exists_ends {before : List Exchange} (hr : Reaches c issuer before x)
    (hx : ¬ ∃ reason, Useless issuer x reason) : ∃ r, Ends c issuer (before ++ [x]) r := by
  obtain ⟨crl, hb⟩ | huseless | ⟨f, hstops⟩ := brings_or_useless_or_stops issuer x
  · obtain hlists | homits | hneg := lists_or_omits_or_neg crl c
    · exact (Revoked.listed hr hb hlists).exists_ends
    · exact ⟨_, .cleared (.omitted hr hb homits)⟩
    · exact ⟨_, .obstructed (.unlisted hr hb hneg)⟩
  · exact absurd huseless hx
  · exact ⟨_, .obstructed (.stopped hr hstops)⟩

theorem exists_ends_of_nil (h : c.crlUrls = .ok []) : ∃ r, Ends c issuer [] r := by
  cases hs : c.subjectText with
  | error f => exact ⟨_, .obstructed (.unnamed h hs)⟩
  | ok subject => exact ⟨_, .cleared (.unnamed h hs)⟩

/-- The check ends in one of these ways, whatever the locations serve. -/
theorem exists_ends (c issuer : Certificate) (timeout : Timeout) (n : Network) :
    ∃ xs r, n.exchanges timeout (xs.map Exchange.url) = xs ∧ Ends c issuer xs r := by
  cases hurls : c.crlUrls with
  | error f => exact ⟨[], _, rfl, .obstructed (.unread hurls)⟩
  | ok urls =>
    obtain ⟨xs, rfl, hserved⟩ : ∃ xs : List Exchange, xs.map Exchange.url = urls ∧ n.exchanges timeout urls = xs :=
      ⟨_, Network.map_url_exchanges urls n, rfl⟩
    -- what all the locations would come to is looked at once, though the check stops at the one that decides
    obtain huseless | ⟨before, x, after, rfl, hbefore, hx⟩ :=
      forall_mem_or_exists_first (fun x => ∃ reason, Useless issuer x reason) xs
    · refine ⟨xs, ?_⟩
      simp only [hserved, true_and]
      obtain rfl | ⟨before, x, rfl⟩ := xs.eq_nil_or_concat
      · exact exists_ends_of_nil hurls
      · rw [List.concat_eq_append] at hurls huseless ⊢
        obtain ⟨reason, hx⟩ := huseless x (by simp)
        exact (Unsettled.exhausted hurls (fun y hy => huseless y (by simp [hy])) hx).exists_ends
    · rw [List.map_append, List.map_cons] at hurls
      have hreaches : Reaches c issuer before x := ⟨⟨_, hurls⟩, hbefore⟩
      obtain ⟨r, hends⟩ := hreaches.exists_ends hx
      rw [List.append_cons before x after] at hserved
      exact ⟨before ++ [x], r, (Network.exchanges_eq_append hserved).2.1, hends⟩

theorem Reaches.url_mem {before : List Exchange} (hr : Reaches c issuer before x) :
    ∀ y ∈ before ++ [x], ∃ urls, c.crlUrls = .ok urls ∧ y.url ∈ urls := by
  obtain ⟨after, hnamed⟩ := hr.named
  intro y hy
  refine ⟨_, hnamed, ?_⟩
  rw [List.mem_append, List.mem_singleton] at hy
  obtain hy | rfl := hy
  · exact List.mem_append_left _ (List.mem_map_of_mem hy)
  · simp

theorem Revoked.url_mem {xs : List Exchange} (h : Revoked c issuer xs) :
    ∀ x ∈ xs, ∃ urls, c.crlUrls = .ok urls ∧ x.url ∈ urls := by
  cases h with
  | listed hr hb h => exact hr.url_mem

theorem Unsettled.url_mem {xs : List Exchange} {reason : ListFault} (h : Unsettled c issuer xs reason) :
    ∀ x ∈ xs, ∃ urls, c.crlUrls = .ok urls ∧ x.url ∈ urls := by
  cases h with
  | exhausted h => exact fun x hx => ⟨_, h, List.mem_map_of_mem hx⟩

/-- Only locations of the certificate are asked. -/
theorem Ends.url_mem {xs : List Exchange} {r : Except Failure Unit} (hends : Ends c issuer xs r) :
    ∀ x ∈ xs, ∃ urls, c.crlUrls = .ok urls ∧ x.url ∈ urls := by
  cases hends with
  | cleared h =>
    cases h with
    | unnamed => simp
    | omitted hr => exact hr.url_mem
  | revoked h => exact h.url_mem
  | unsettled h => exact h.url_mem
  | obstructed h =>
    cases h with
    | unread => simp
    | unnamed => simp
    | stopped hr => exact hr.url_mem
    | unlisted hr => exact hr.url_mem
    | revoked h => exact h.url_mem
    | unsettled h => exact h.url_mem

/-- A location hides what stands behind it: its list omits the certificate, and the check ends with that, or the check
ends there with a failure. -/
inductive Hides (c issuer : Certificate) (x : Exchange) : Except Failure Unit → Prop
  | omitted {crl : RevocationList} (hb : Brings issuer x crl) (h : Omits crl c) : Hides c issuer x (.ok ())
  | stopped {f : Failure} (h : Stops issuer x f) : Hides c issuer x (.error f)

/-- A list is hidden by one of the locations before it, the first of them that is of use or ends the check. -/
def Hidden (c issuer : Certificate) (before : List Exchange) (r : Except Failure Unit) : Prop :=
  ∃ ys y zs, before = ys ++ y :: zs ∧ (∀ z ∈ ys, ∃ reason, Useless issuer z reason) ∧ Hides c issuer y r

theorem Hidden.checkCertificate {before after : List Exchange} {r : Except Failure Unit}
    (h : Hidden c issuer before r) (hnamed : c.crlUrls = .ok ((before ++ after).map Exchange.url))
    (hserved : w.network.exchanges timeout ((before ++ after).map Exchange.url) = before ++ after) :
    (Revocation.checkCertificate c issuer timeout w).1 = r := by
  obtain ⟨ys, y, zs, rfl, huseless, hides⟩ := h
  have hsplit : ys ++ y :: zs ++ after = ys ++ y :: (zs ++ after) := by simp
  rw [hsplit] at hnamed hserved
  have hreaches : Reaches c issuer ys y := ⟨⟨_, by rw [hnamed, List.map_append, List.map_cons]⟩, huseless⟩
  rw [List.append_cons ys y] at hserved
  have hserved' := (Network.exchanges_eq_append hserved).2.1
  cases hides with
  | omitted hb h => exact ((Cleared.omitted hreaches hb h).checkCertificate hserved').1
  | stopped h => exact ((Ends.obstructed (.stopped hreaches h)).checkCertificate hserved').1

/-- A list of the issuer that no location before it hides, and that holds the certificate, revokes it. -/
theorem revoked_of_not_hidden {before after : List Exchange} {crl : RevocationList}
    (hnamed : c.crlUrls = .ok ((before ++ x :: after).map Exchange.url))
    (hserved : w.network.exchanges timeout ((before ++ x :: after).map Exchange.url) = before ++ x :: after)
    (hb : Brings issuer x crl) (hlists : Lists crl c) (hhidden : ¬ ∃ r, Hidden c issuer before r) :
    (Revocation.checkCertificate c issuer timeout w).1 = refusal c := by
  -- the location that decides is the first of those up to the list that is not passed over
  have hfirst : ∃ y ys zs, before ++ x :: after = ys ++ y :: zs ∧ (∀ z ∈ ys, ∃ reason, Useless issuer z reason) ∧
      ∃ crl, Brings issuer y crl ∧ Lists crl c := by
    obtain huseless | ⟨ys, y, zs, rfl, hys, hy⟩ :=
      forall_mem_or_exists_first (fun y => ∃ reason, Useless issuer y reason) before
    · exact ⟨x, before, after, rfl, huseless, crl, hb, hlists⟩
    · refine ⟨y, ys, zs ++ x :: after, by simp, hys, ?_⟩
      obtain ⟨crl', hb'⟩ | huseless | ⟨f, hstops⟩ := brings_or_useless_or_stops issuer y
      · obtain hlists' | homits | hneg := lists_or_omits_or_neg crl' c
        · exact ⟨crl', hb', hlists'⟩
        · exact absurd ⟨_, ys, y, zs, rfl, hys, .omitted hb' homits⟩ hhidden
        · obtain ⟨n, -, hn⟩ := hlists
          rw [hn] at hneg
          exact absurd hneg (Int.not_lt.2 (Int.natCast_nonneg n))
      · exact absurd huseless hy
      · exact absurd ⟨_, ys, y, zs, rfl, hys, .stopped hstops⟩ hhidden
  obtain ⟨y, ys, zs, hsplit, hys, crl', hb', hlists'⟩ := hfirst
  rw [hsplit] at hnamed hserved
  have hreaches : Reaches c issuer ys y := ⟨⟨_, by rw [hnamed, List.map_append, List.map_cons]⟩, hys⟩
  rw [List.append_cons ys y] at hserved
  exact ((Revoked.listed hreaches hb' hlists').checkCertificate (Network.exchanges_eq_append hserved).2.1).1

/-- A list of the issuer that holds the certificate revokes it, wherever it stands and whatever the other locations
serve, unless a location before it hides the list; the check then comes to what that location comes to. -/
theorem list_revokes_or_hidden (c issuer : Certificate) (timeout : Timeout) (w : World) :
    ((Revocation.checkCertificate c issuer timeout w).1 = .ok () ↔
      ∃ xs, w.network.exchanges timeout (xs.map Exchange.url) = xs ∧ Cleared c issuer xs) ∧
    ∀ (urls : List String) (before after : List Exchange) (x : Exchange) (crl : RevocationList),
      c.crlUrls = .ok urls → w.network.exchanges timeout urls = before ++ x :: after →
      Brings issuer x crl → Lists crl c →
      ∀ r, (Revocation.checkCertificate c issuer timeout w).1 = r ↔
        Hidden c issuer before r ∨ (¬ ∃ r, Hidden c issuer before r) ∧ r = refusal c := by
  refine ⟨⟨fun h => ?_, ?_⟩, ?_⟩
  · obtain ⟨xs, r, hserved, hends⟩ := exists_ends c issuer timeout w.network
    rw [(hends.checkCertificate hserved).1] at h
    subst h
    cases hends with
    | cleared hc => exact ⟨xs, hserved, hc⟩
  · rintro ⟨xs, hserved, hc⟩
    exact (hc.checkCertificate hserved).1
  · intro urls before after x crl hurls hserved hb hlists r
    obtain ⟨rfl, -, -⟩ := Network.exchanges_eq_append_cons hserved
    rw [← List.map_cons, ← List.map_append] at hurls hserved
    by_cases hhidden : ∃ r, Hidden c issuer before r
    · obtain ⟨r', hr'⟩ := hhidden
      rw [hr'.checkCertificate hurls hserved]
      constructor
      · rintro rfl
        exact .inl hr'
      · rintro (hr | ⟨hnot, -⟩)
        · rw [← hr.checkCertificate hurls hserved, hr'.checkCertificate hurls hserved]
        · exact absurd ⟨r', hr'⟩ hnot
    · rw [revoked_of_not_hidden hurls hserved hb hlists hhidden]
      constructor
      · rintro rfl
        exact .inr ⟨hhidden, rfl⟩
      · rintro (hr | ⟨-, rfl⟩)
        · exact absurd ⟨r, hr⟩ hhidden
        · rfl

end Revocation
end AttestationTrust
