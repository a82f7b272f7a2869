import AttestationTrust.Proofs.Escapes
import AttestationTrust.Proofs.Outcome
/-!
# What requests can start

A request comes from anyone, and a run of the service makes requests of its own.  Where the settings do not allow runs
on demand, one request makes a run only to validate a chain that it brings and that can be read, and only while no
validator is published (`Http.handle_cases`); the body is looked at before the service is, so what is wrong with a body
never starts anything (`Http.exists_question_iff`).  Of requests in a row, then, no more make a run than ask for a
validation, and from the moment a validator is published they change nothing but what the endpoints are resolved to
(`Http.served_confined`).
-/
namespace AttestationTrust

open AttestationTrust.Action (Leaves Scope Within)
open X509 (Certificate)

namespace Validator

/-- A validation looks at the clock, and makes no requests. -/
def scope : Scope Int := ⟨World.clock, False, fun _ => True, fun _ => True⟩

theorem within_findIssuer (chain : List Certificate) (last : Certificate) :
    ∀ anchors, Within scope (findIssuer chain last anchors)
  | [] => Within.throw trivial
  | a :: rest => by
    have hrest := within_findIssuer chain last rest
    refine Within.bind (Within.ofX509 fun _ _ => trivial) fun issuer => ?_
    refine Within.bind (Within.ofX509 fun _ _ => trivial) fun subject => ?_
    refine Within.ite hrest ?_
    split
    · exact Within.pure _
    · exact Within.throw trivial
    · exact Within.bind (Within.log trivial _ _) fun _ => hrest

theorem within_validate (v : Validator) (members : List ChainMember) (att : Attestation) :
    Within scope (v.validate members att) := by
  unfold validate
  refine Within.bind (Within.ofExcept fun _ _ => trivial) fun chain => ?_
  split
  · exact Within.throw trivial
  · rename_i leaf rest
    have hfound : Within scope (v.findAnchors leaf att) :=
      (within_findAnchors v leaf att).mono (fun _ _ _ => rfl) id (fun _ _ => trivial) fun _ _ => trivial
    have hjudge : ∀ anchors, Within scope (do
        let instant ← Action.ofExcept (instantOf att.moment (← get).clock)
        Action.ofExcept (checkValidity instant (leaf :: rest))
        findIssuer (leaf :: rest) (rest.getLastD leaf) anchors) := fun anchors => by
      refine Within.get (fun w => ?_) fun w w' hclock => ?_
      · refine Within.bind (Within.ofExcept fun _ _ => trivial) fun instant => ?_
        exact Within.bind (Within.ofExcept fun _ _ => trivial) fun _ => within_findIssuer _ _ _
      · have hclock : w.clock = w'.clock := hclock
        rw [hclock]
    refine Within.bind hfound fun anchors => ?_
    refine Within.ite (Within.throw trivial) (Within.ite ?_ (hjudge anchors))
    refine Within.bind (Within.ofExcept fun _ _ => trivial) fun holds => ?_
    exact Within.ite (Within.throw trivial) (hjudge anchors)

end Validator

namespace Service

variable {s s' : Service} {w w' : World} {r : Except Failure Stage}

theorem answerOf_leaves_outside (s : Service) (r : Except Failure Stage) : Leaves World.outside (answerOf (s, r)) := by
  intro w
  cases r with
  | ok stage => rfl
  | error f => cases f <;> rfl

variable [Json.Limits]

theorem ensure_of_some {v : Validator} (h : s.validator = some v) (w : World) :
    s.ensure w = (.ok (s, .ok (some v)), w) := by
  unfold ensure arrive
  rw [h]
  rfl

/-- A caller that finds no validator leaves the service, and the world but for the log, as a run does. -/
theorem ensure_of_none (h : s.validator = none) : ∃ x,
    (s.ensure w).1 = .ok ((Run.mk s w).after, x) ∧ (s.ensure w).2.outside = (s.run w).2.outside := by
  obtain ⟨r, hr⟩ := (Run.mk s w).run_fst
  refine ⟨_, ensure_fst_of_none h hr, ?_⟩
  have hensure : s.ensure w = answerOf ((Run.mk s w).after, r) (s.run w).2 := by
    unfold ensure arrive settle isAnswered
    simp only [h, Option.isSome_none, bne_self_eq_false, Bool.or_self, Bool.false_eq_true, if_false]
    exact Action.bind_of_ok _ (Prod.ext hr rfl)
  rw [hensure]
  exact answerOf_leaves_outside _ _ _

end Service

namespace Http

variable {s s' : Service} {r : Request} {q : Question} {v : Validator} {w w' : World} {t : Target}
  {x : Except Failure Response} {y : Except Failure (Option Validator)}

/-- A document that asks for the validation of a chain: it lists one or more texts that can be decoded, and the model, if
it is there and not null, is a text. -/
structure Poses (fields : Value.Fields) (certificates : List String) : Prop where
  listed : Value.field? "x5c" fields = some (.list (certificates.map .text))
  nonempty : certificates ≠ []
  decodable : ∀ c ∈ certificates, ∃ bs, decodeCertificate (.text c) = .ok bs
  model : Value.field? "aaguid" fields = none ∨ Value.field? "aaguid" fields = some .null ∨
    ∃ s, Value.field? "aaguid" fields = some (.text s)

section

variable [Json.Limits]

/-- A request for the validation of a chain. -/
structure AsksForValidation (r : Request) : Prop where
  method : r.method = "POST"
  target : Target.ofText r.target = .ok ⟨"/api/mds/verify".toList, false⟩
  kind : isJson r.contentType = true
  body : ∃ fields certificates, Json.ofBytes r.body = .ok (.map fields) ∧ Poses fields certificates

omit [Json.Limits] in
/-- Only texts can be decoded. -/
theorem exists_mapM_decodeCertificate_iff {xs : List Value} : (∃ chain, xs.mapM decodeCertificate = .ok chain) ↔
    ∃ certificates : List String, xs = certificates.map .text ∧
      ∀ c ∈ certificates, ∃ bs, decodeCertificate (.text c) = .ok bs := by
  induction xs with
  | nil => exact ⟨fun _ => ⟨[], rfl, by simp⟩, fun _ => ⟨[], rfl⟩⟩
  | cons x xs ih =>
    simp only [List.mapM_cons, except_bind_eq_ok_iff]
    constructor
    · rintro ⟨chain, bs, hx, rest, hrest, -⟩
      obtain ⟨certificates, rfl, hall⟩ := ih.1 ⟨rest, hrest⟩
      cases x with
      | text c => exact ⟨c :: certificates, rfl, List.forall_mem_cons.2 ⟨⟨bs, hx⟩, hall⟩⟩
      | _ => cases hx
    · rintro ⟨certificates, hxs, hall⟩
      cases certificates with
      | nil => cases hxs
      | cons c certificates =>
        cases hxs
        obtain ⟨⟨bs, hc⟩, hall⟩ := List.forall_mem_cons.1 hall
        obtain ⟨rest, hrest⟩ := ih.2 ⟨certificates, rfl, hall⟩
        exact ⟨bs :: rest, bs, hc, rest, hrest, rfl⟩

omit [Json.Limits] in
theorem exists_readQuestion_iff {d : Option Value} : (∃ q, readQuestion d = .ok q) ↔
    ∃ fields certificates, d = some (.map fields) ∧ Poses fields certificates := by
  constructor
  · rintro ⟨q, hq⟩
    unfold readQuestion at hq
    split at hq
    · rename_i fields
      split at hq
      · rename_i x xs hlisted
        split at hq
        · cases hq
        · rename_i chain hchain
          obtain ⟨certificates, htexts, hdecodable⟩ := exists_mapM_decodeCertificate_iff.1 ⟨chain, hchain⟩
          refine ⟨fields, certificates, rfl, htexts ▸ hlisted, ?_, hdecodable, ?_⟩
          · rintro rfl
            cases htexts
          · cases hmodel : Value.field? "aaguid" fields with
            | none => exact .inl rfl
            | some v =>
              rw [hmodel] at hq
              cases v with
              | null => exact .inr (.inl rfl)
              | text s => exact .inr (.inr ⟨s, rfl⟩)
              | _ => cases hq
      · cases hq
    · cases hq
  · rintro ⟨fields, certificates, rfl, hlisted, hnonempty, hdecodable, hmodel⟩
    obtain ⟨chain, hchain⟩ := exists_mapM_decodeCertificate_iff.2 ⟨certificates, rfl, hdecodable⟩
    obtain ⟨c, rest, rfl⟩ := List.exists_cons_of_ne_nil hnonempty
    rw [List.map_cons] at hlisted hchain
    unfold readQuestion
    simp only [hlisted, hchain]
    rcases hmodel with h | h | ⟨s, h⟩ <;> exact ⟨_, by rw [h]; rfl⟩

theorem exists_question_iff : (∃ q, (document r).map readQuestion = .ok (.ok q)) ↔ isJson r.contentType = true ∧
    ∃ fields certificates, Json.ofBytes r.body = .ok (.map fields) ∧ Poses fields certificates := by
  simp only [map_eq_ok_iff]
  constructor
  · rintro ⟨q, d, hd, hq⟩
    obtain ⟨fields, certificates, rfl, hposes⟩ := exists_readQuestion_iff.1 ⟨q, hq⟩
    obtain ⟨hkind, hbody⟩ := document_eq_some_iff.1 hd
    exact ⟨hkind, fields, certificates, hbody, hposes⟩
  · rintro ⟨hkind, fields, certificates, hbody, hposes⟩
    obtain ⟨q, hq⟩ := exists_readQuestion_iff.2 ⟨fields, certificates, rfl, hposes⟩
    exact ⟨q, _, document_eq_some_iff.2 ⟨hkind, hbody⟩, hq⟩

/-! ## Handling a request -/

/-- What is found for a method at a path is one of the routes. -/
theorem find_eq_route {method : String} {isSocket : Bool} {path : List Char} {route : Route}
    (h : find method isSocket path = .route route) :
    route ∈ routes ∧ route.place.has path = true ∧ method ∈ route.methods ∧ isSocket = false := by
  unfold find at h
  split at h
  · cases h
  · rename_i found hfound
    split at h
    · cases h
    · rename_i hmethod
      split at h
      · cases h
      · rename_i hsocket
        cases h
        exact ⟨List.mem_of_find?_eq_some hfound, by simpa using List.find?_some hfound, by simpa using hmethod,
          by simpa using hsocket⟩

theorem asksForValidation_iff : AsksForValidation r ↔ ∃ q, Asks r q := by
  constructor
  · rintro ⟨hmethod, htarget, hkind, hbody⟩
    obtain ⟨q, hq⟩ := exists_question_iff.2 ⟨hkind, hbody⟩
    refine ⟨q, ⟨_, htarget, ?_⟩, ?_, hq⟩
    · rw [hmethod]
      rfl
    · rw [hmethod]
      decide
  · rintro ⟨q, ⟨t, htarget, hfind⟩, hmethod, hq⟩
    obtain ⟨hkind, hbody⟩ := exists_question_iff.1 ⟨q, hq⟩
    obtain ⟨-, hplace, hmethods, hsocket⟩ := find_eq_route hfind
    have hpath : t.path = "/api/mds/verify".toList := by simpa [verifyRoute, Place.has] using hplace
    have hpost : r.method = "POST" := by
      have hmethods : r.method = "POST" ∨ r.method = "OPTIONS" := by simpa [verifyRoute, postMethods] using hmethods
      exact hmethods.resolve_right hmethod
    have ht : t = ⟨"/api/mds/verify".toList, false⟩ := by
      rw [← hpath, ← hsocket]
    exact ⟨hpost, ht ▸ htarget, hkind, hbody⟩

/-- The service that a request leaves behind. -/
def leaves (s : Service) (r : Request) (w : World) : Service := s.left (handle s r w).1

/-- Nothing has changed but that the endpoints may have been resolved, and nothing was requested. -/
structure Idle (s : Service) (w : World) (s' : Service) (w' : World) : Prop where
  service : ∃ resolver, s' = { s with resolver := resolver }
  world : w'.outside = w.outside

/-- One run was made, and nothing besides. -/
structure Ran (s : Service) (w : World) (s' : Service) (w' : World) : Prop where
  service : s' = (Run.mk s w).after
  world : w'.outside = (s.run w).2.outside

omit [Json.Limits] in
theorem Idle.refl (s : Service) (w : World) : Idle s w s w := ⟨⟨s.resolver, rfl⟩, rfl⟩

omit [Json.Limits] in
theorem settle_fst (r : Request) (t : Target) (s : Service) (x : Except Failure Response) (w : World) :
    ∃ response, (settle r t (s, x) w).1 = .ok (s, response) ∧ (settle r t (s, x) w).2.outside = w.outside := by
  cases x with
  | ok response => exact ⟨response, rfl, rfl⟩
  | error f => exact ⟨⟨500, none⟩, rfl, rfl⟩

/-- A request that is routed leaves what the route leaves. -/
theorem handle_of_route {route : Route} (ht : Target.ofText r.target = .ok t)
    (hfind : find r.method t.isSocket t.path = .route route) (hm : r.method ≠ "OPTIONS")
    (hrun : route.run s r w = (.ok (s', x), w')) : leaves s r w = s' ∧ (handle s r w).2.outside = w'.outside := by
  obtain ⟨response, hfst, hsnd⟩ := settle_fst r t s' x w'
  rw [leaves, handle_of_run ht hfind hm hrun, hfst]
  exact ⟨rfl, hsnd⟩

theorem handle_of_no_route (h : ∀ t route, Target.ofText r.target = .ok t →
    find r.method t.isSocket t.path = .route route → r.method = "OPTIONS") : leaves s r w = s ∧ (handle s r w).2 = w := by
  unfold leaves handle
  rw [Action.bind_apply, Action.ofExcept_apply]
  cases ht : Target.ofText r.target with
  | error f => exact ⟨rfl, rfl⟩
  | ok t =>
    dsimp only
    cases hfind : find r.method t.isSocket t.path with
    | route route =>
      dsimp only
      rw [if_pos (h t route ht hfind)]
      exact ⟨rfl, rfl⟩
    | _ => exact ⟨rfl, rfl⟩

omit [Json.Limits] in
theorem validate_leaves_outside (q : Question) (v : Validator) : Leaves World.outside (validate q v) := by
  have hvalidate : Leaves World.outside (v.validate (q.chain.map .octets) ⟨q.aaguid, .null, none⟩) :=
    (Validator.within_validate v _ _).leaves_outside id
  refine Leaves.bind (fun w => hvalidate w) fun found => fun w => ?_
  cases found with
  | error f => cases f <;> rfl
  | ok a =>
    refine Leaves.bind (fun w => ?_) (fun subject => fun _ => rfl) w
    rw [Action.ofX509_apply]

/-- A run on demand is refused where the settings do not allow it. -/
theorem refresh_of_disabled (h : s.settings.readFlag Setting.refreshRoute.key false = false) :
    refresh s w = (.ok (s, .ok (answer 404 (errorBody "Manual metadata refresh is disabled."))), w) := by
  unfold refresh
  rw [h]
  rfl

/-- A request whose question cannot be read is answered as the service stands. -/
theorem verify_of_no_question (h : ∀ q, (document r).map readQuestion ≠ .ok (.ok q)) :
    ∃ x, verify s r w = (.ok (s, x), w) := by
  unfold verify
  cases hd : (document r).map readQuestion with
  | error f => exact ⟨_, rfl⟩
  | ok asked =>
    cases asked with
    | error message => exact ⟨_, rfl⟩
    | ok q => exact absurd hd (h q)

theorem verify_of_question (h : (document r).map readQuestion = .ok (.ok q)) (hensure : (s.ensure w).1 = .ok (s', y)) :
    ∃ x w', verify s r w = (.ok (s', x), w') ∧ w'.outside = (s.ensure w).2.outside := by
  unfold verify
  rw [h]
  dsimp only
  rw [Action.bind_of_ok _ (Prod.ext hensure rfl)]
  cases y with
  | error f => exact ⟨_, _, rfl, rfl⟩
  | ok found =>
    cases found with
    | none => exact ⟨_, _, rfl, rfl⟩
    | some v => exact ⟨_, _, rfl, validate_leaves_outside q v _⟩

/-- A question makes a run when no validator is published. -/
theorem verify_cases (s : Service) (r : Request) (w : World) : ∃ s' x w', verify s r w = (.ok (s', x), w') ∧
    ((Ran s w s' w' ∧ s.validator = none ∧ ∃ q, (document r).map readQuestion = .ok (.ok q)) ∨
      (Idle s w s' w' ∧ ¬ (s.validator = none ∧ ∃ q, (document r).map readQuestion = .ok (.ok q)))) := by
  by_cases hquestion : ∃ q, (document r).map readQuestion = .ok (.ok q)
  · obtain ⟨q, hq⟩ := hquestion
    cases hv : s.validator with
    | none =>
      obtain ⟨y, hensure, hout⟩ := Service.ensure_of_none (w := w) hv
      obtain ⟨x, w', hverify, hw'⟩ := verify_of_question hq hensure
      exact ⟨_, x, w', hverify, .inl ⟨⟨rfl, hw'.trans hout⟩, rfl, q, hq⟩⟩
    | some v =>
      have hensure := Service.ensure_of_some hv w
      obtain ⟨x, w', hverify, hw'⟩ := verify_of_question hq (congrArg Prod.fst hensure)
      rw [hensure] at hw'
      exact ⟨s, x, w', hverify, .inr ⟨⟨⟨s.resolver, rfl⟩, hw'⟩, fun h => nomatch h.1⟩⟩
  · obtain ⟨x, hverify⟩ := verify_of_no_question (s := s) (w := w) (not_exists.1 hquestion)
    exact ⟨s, x, w, hverify, .inr ⟨.refl s w, fun h => hquestion h.2⟩⟩

/-- The other routes answer as the service stands. -/
theorem run_of_ne_verify {route : Route} (hroute : route ∈ routes) (hne : route ≠ verifyRoute)
    (h : s.settings.readFlag Setting.refreshRoute.key false = false) :
    ∃ resolver x w', route.run s r w = (.ok ({ s with resolver := resolver }, x), w') ∧ w'.outside = w.outside := by
  simp only [routes, List.mem_cons, List.not_mem_nil, or_false] at hroute
  rcases hroute with rfl | rfl | rfl | rfl
  · exact ⟨_, _, _, rfl, rfl⟩
  · exact ⟨_, _, _, refresh_of_disabled h, rfl⟩
  · exact absurd rfl hne
  · exact ⟨s.resolver, _, _, rfl, rfl⟩

/-- A request for a validation comes to its route and to no other. -/
theorem AsksForValidation.eq_verifyRoute {route : Route} (h : AsksForValidation r) (ht : Target.ofText r.target = .ok t)
    (hfind : find r.method t.isSocket t.path = .route route) : route = verifyRoute := by
  obtain ⟨q, ⟨t', ht', hfind'⟩, -, -⟩ := asksForValidation_iff.1 h
  obtain rfl := Except.ok.inj (ht.symm.trans ht')
  exact Match.route.inj (hfind.symm.trans hfind')

/-- **One request.**  With runs on demand disabled, a request makes a run just when it asks for a validation and no
validator is published, and then one; any other is answered as the service stands. -/
theorem handle_cases (w : World) (h : s.settings.readFlag Setting.refreshRoute.key false = false) :
    (Ran s w (leaves s r w) (handle s r w).2 ∧ s.validator = none ∧ AsksForValidation r) ∨
    (Idle s w (leaves s r w) (handle s r w).2 ∧ ¬ (s.validator = none ∧ AsksForValidation r)) := by
  by_cases hrouted : ∃ t route, Target.ofText r.target = .ok t ∧ find r.method t.isSocket t.path = .route route ∧
      r.method ≠ "OPTIONS"
  · obtain ⟨t, route, ht, hfind, hm⟩ := hrouted
    by_cases hroute : route = verifyRoute
    · subst hroute
      have hasks : AsksForValidation r ↔ ∃ q, (document r).map readQuestion = .ok (.ok q) := by
        rw [asksForValidation_iff]
        exact ⟨fun ⟨q, hq⟩ => ⟨q, hq.question⟩, fun ⟨q, hq⟩ => ⟨q, ⟨t, ht, hfind⟩, hm, hq⟩⟩
      obtain ⟨s', x, w', hverify, hcases⟩ := verify_cases s r w
      rw [← run_verifyRoute] at hverify
      obtain ⟨hs, hw⟩ := handle_of_route ht hfind hm hverify
      rw [hasks, hs]
      rcases hcases with ⟨hran, hnone⟩ | ⟨hidle, hnone⟩
      · exact .inl ⟨⟨hran.service, hw.trans hran.world⟩, hnone⟩
      · exact .inr ⟨⟨hidle.service, hw.trans hidle.world⟩, hnone⟩
    · obtain ⟨resolver, x, w', hrun, hw'⟩ := run_of_ne_verify (r := r) (w := w) (find_eq_route hfind).1 hroute h
      obtain ⟨hs, hw⟩ := handle_of_route ht hfind hm hrun
      exact .inr ⟨⟨⟨resolver, hs⟩, hw.trans hw'⟩, fun h => hroute (h.2.eq_verifyRoute ht hfind)⟩
  · obtain ⟨hs, hw⟩ := handle_of_no_route (s := s) (w := w) fun t route ht hfind =>
      Classical.byContradiction fun hm => hrouted ⟨t, route, ht, hfind, hm⟩
    refine .inr ⟨?_, ?_⟩
    · rw [hs, hw]
      exact .refl s w
    · rintro ⟨-, hasks⟩
      obtain ⟨q, ⟨t, ht, hfind⟩, hm, -⟩ := asksForValidation_iff.1 hasks
      exact hrouted ⟨t, _, ht, hfind, hm⟩

/-! ## Requests one after another -/

/-- A request with the settings and the world that it is handled in. -/
structure Visit where
  settings : Settings
  request : Request
  world : World

namespace Visit

variable {v : Visit}

def found (v : Visit) (s : Service) : Service := { s with settings := v.settings }

/-- The service that a visit leaves behind. -/
def leaves (v : Visit) (s : Service) : Service := Http.leaves (v.found s) v.request v.world

def worldAfter (v : Visit) (s : Service) : World := (handle (v.found s) v.request v.world).2

/-- A visit makes one run and does nothing besides. -/
def Starts (v : Visit) (s : Service) : Prop := Ran (v.found s) v.world (v.leaves s) (v.worldAfter s)

/-- A visit changes nothing in the service but the settings and the endpoints, and requests nothing. -/
def IsIdle (v : Visit) (s : Service) : Prop := Idle (v.found s) v.world (v.leaves s) (v.worldAfter s)

/-- Runs on demand are disabled. -/
def IsConfined (v : Visit) : Prop := v.settings.readFlag Setting.refreshRoute.key false = false

theorem IsConfined.cases (h : v.IsConfined) (s : Service) :
    (v.Starts s ∧ s.validator = none ∧ AsksForValidation v.request) ∨
    (v.IsIdle s ∧ ¬ (s.validator = none ∧ AsksForValidation v.request)) := handle_cases v.world h

theorem Starts.attempts (h : v.Starts s) : (v.leaves s).attempts = s.attempts + 1 := by
  rw [h.service]
  exact Run.attempts_after _

theorem IsIdle.eq (h : v.IsIdle s) :
    ∃ settings resolver, v.leaves s = { s with settings := settings, resolver := resolver } := by
  obtain ⟨resolver, hs⟩ := h.service
  exact ⟨v.settings, resolver, hs⟩

theorem IsIdle.attempts (h : v.IsIdle s) : (v.leaves s).attempts = s.attempts := by
  obtain ⟨settings, resolver, hs⟩ := h.eq
  rw [hs]

theorem IsConfined.starts_iff (h : v.IsConfined) :
    v.Starts s ↔ s.validator = none ∧ AsksForValidation v.request := by
  rcases h.cases s with ⟨hstarts, hasks⟩ | ⟨hidle, hno⟩
  · exact iff_of_true hstarts hasks
  · refine iff_of_false (fun hstarts => ?_) hno
    have hattempts := hstarts.attempts
    rw [hidle.attempts] at hattempts
    omega

end Visit

/-- The service after visits, in their order. -/
def served (s : Service) (visits : List Visit) : Service := visits.foldl (fun s v => v.leaves s) s

theorem served_append (s : Service) (before after : List Visit) :
    served s (before ++ after) = served (served s before) after := List.foldl_append

/-- The runs that visits make are counted by visits that ask for a validation. -/
theorem exists_starting : ∀ (visits : List Visit) (s : Service), (∀ v ∈ visits, v.IsConfined) →
    ∃ starting : List Visit, starting.Sublist visits ∧ (∀ v ∈ starting, AsksForValidation v.request) ∧
      (served s visits).attempts = s.attempts + starting.length
  | [], s, _ => ⟨[], .slnil, by simp, rfl⟩
  | v :: visits, s, h => by
    obtain ⟨hv, hvisits⟩ := List.forall_mem_cons.1 h
    obtain ⟨starting, hsub, hasks, hcount⟩ := exists_starting visits (v.leaves s) hvisits
    have hserved : (served s (v :: visits)).attempts = (v.leaves s).attempts + starting.length := hcount
    rcases hv.cases s with ⟨hstarts, -, hask⟩ | ⟨hidle, -⟩
    · refine ⟨v :: starting, hsub.cons_cons v, List.forall_mem_cons.2 ⟨hask, hasks⟩, ?_⟩
      rw [hserved, hstarts.attempts, List.length_cons]
      omega
    · exact ⟨starting, hsub.cons v, hasks, by rw [hserved, hidle.attempts]⟩

/-- A validator that is published keeps requests from changing anything. -/
theorem served_of_published : ∀ (visits : List Visit) (s : Service), (∀ v ∈ visits, v.IsConfined) →
    s.validator ≠ none →
    ∃ settings resolver, served s visits = { s with settings := settings, resolver := resolver }
  | [], s, _, _ => ⟨s.settings, s.resolver, rfl⟩
  | v :: visits, s, h, hs => by
    obtain ⟨hv, hvisits⟩ := List.forall_mem_cons.1 h
    rcases hv.cases s with ⟨-, hnone, -⟩ | ⟨hidle, -⟩
    · exact absurd hnone hs
    · obtain ⟨settings, resolver, hleaves⟩ := hidle.eq
      have hpublished : (v.leaves s).validator ≠ none := by rwa [hleaves]
      obtain ⟨settings', resolver', hrest⟩ := served_of_published visits (v.leaves s) hvisits hpublished
      exact ⟨settings', resolver', hrest.trans (by rw [hleaves])⟩

/-- **Requests cannot drive the service.**  With runs on demand disabled, each of any requests in a row either makes one
run, which takes that no validator is published and the request asks for a validation, or changes nothing and requests
nothing; so there are no more runs than requests that ask.  Once a validator is published nothing changes but that
endpoints are resolved. -/
theorem served_confined (s : Service) (visits : List Visit) (hconfined : ∀ v ∈ visits, v.IsConfined) :
    (∀ before v after, visits = before ++ v :: after →
      (v.Starts (served s before) ∨ v.IsIdle (served s before)) ∧
      (v.Starts (served s before) ↔ (served s before).validator = none ∧ AsksForValidation v.request)) ∧
    (∃ starting : List Visit, starting.Sublist visits ∧ (∀ v ∈ starting, AsksForValidation v.request) ∧
      (served s visits).attempts = s.attempts + starting.length) ∧
    ∀ before after, visits = before ++ after → (served s before).validator ≠ none →
      (∃ settings resolver, served s visits = { served s before with settings := settings, resolver := resolver }) ∧
      ∀ middle v rest, after = middle ++ v :: rest → v.IsIdle (served s (before ++ middle)) := by
  refine ⟨?_, exists_starting visits s hconfined, ?_⟩
  · rintro before v after rfl
    have hv := hconfined v (by simp)
    exact ⟨(hv.cases _).imp And.left And.left, hv.starts_iff⟩
  · rintro before after rfl hpublished
    obtain ⟨-, hafter⟩ := List.forall_mem_append.1 hconfined
    refine ⟨?_, ?_⟩
    · rw [served_append]
      exact served_of_published after _ hafter hpublished
    · rintro middle v rest rfl
      obtain ⟨hmiddle, hrest⟩ := List.forall_mem_append.1 hafter
      obtain ⟨settings, resolver, hserved⟩ := served_of_published middle _ hmiddle hpublished
      rcases (List.forall_mem_cons.1 hrest).1.cases (served s (before ++ middle)) with ⟨-, hnone, -⟩ | ⟨hidle, -⟩
      · rw [served_append, hserved] at hnone
        exact absurd hnone hpublished
      · exact hidle

end

/-- A request to run, and one to validate a chain of one octet; nothing is set, and there are no files. -/
def refreshVisit : Visit :=
  ⟨[], ⟨"POST", "/api/mds/refresh", "application/json", []⟩, ⟨0, .empty, .empty, [], [], []⟩⟩

def verifyVisit : Visit :=
  ⟨[], ⟨"POST", "/api/mds/verify", "application/json", Bytes.ofText "\x7b\"x5c\":[\"AA\"]\x7d"⟩,
    ⟨0, .empty, .empty, [], [], []⟩⟩

open scoped Json.Limits in
theorem served_confined_to_validations :
    let s := Service.new [] Resolver.default
    (∀ v ∈ [refreshVisit, verifyVisit], v.IsConfined) ∧ refreshVisit.IsIdle s ∧
    verifyVisit.Starts (served s [refreshVisit]) ∧
    verifyVisit.IsIdle { s with validator := some ⟨.fixed [], true⟩ } := by
  intro s
  have hconfined : ∀ v ∈ [refreshVisit, verifyVisit], v.IsConfined := by
    unfold Visit.IsConfined
    decide
  have hrefused : ¬ AsksForValidation refreshVisit.request := fun h => nomatch h.target
  have hasks : AsksForValidation verifyVisit.request :=
    ⟨rfl, rfl, by decide, [("x5c", .list [.text "AA"])], ["AA"], rfl, rfl, by simp, by simpa using ⟨[0], rfl⟩, .inl rfl⟩
  obtain ⟨hstep, -⟩ := served_confined s _ hconfined
  obtain ⟨hcases, hstarts⟩ := hstep [] refreshVisit [verifyVisit] rfl
  have hidle : refreshVisit.IsIdle s := hcases.resolve_left fun h => hrefused (hstarts.1 h).2
  obtain ⟨settings, resolver, hleaves⟩ := hidle.eq
  have hnone : (served s [refreshVisit]).validator = none := congrArg Service.validator hleaves
  obtain ⟨-, -, hpublished⟩ := served_confined { s with validator := some ⟨.fixed [], true⟩ } [verifyVisit]
    fun v hv => hconfined v (List.mem_cons_of_mem _ hv)
  exact ⟨hconfined, hidle, (hstep [refreshVisit] verifyVisit [] rfl).2.2 ⟨hnone, hasks⟩,
    (hpublished [] [verifyVisit] rfl nofun).2 [] verifyVisit [] rfl⟩

end Http
end AttestationTrust
