import AttestationTrust.Proofs.Fetching
/-!
# Which providers are kept

Locations are tried one after another, each in the world that those before it have left.  The provider of a location is
kept when it can be made and its refresh comes by a payload (`Provider.Kept`), and the location is passed over
otherwise; nothing else decides what building providers answers (`Provider.buildEach_eq_ok_iff`).  So those that are
left stand in the order of their locations (`Provider.Survive.sublist`), and each was kept in a turn of its location
(`Provider.Survive.mem_iff`).
-/
namespace AttestationTrust
namespace Provider

variable [Json.Limits]

/-- The provider of a location is kept in the world of its turn: it can be made, and its refresh comes by a payload. -/
def Kept (factory : Factory) (revocationCheck : Bool) (url : String) (w : World) (p : Provider) : Prop :=
  ∃ made payload, factory url = .ok made ∧ { made with revocationCheck := revocationCheck }.Obtains w (some payload) ∧
    p = { made with revocationCheck := revocationCheck }.holding w (some payload)

/-- The providers that are left of locations in a row, and the world after the last of their turns. -/
inductive Survive (factory : Factory) (revocationCheck : Bool) : List String → World → List Provider → World → Prop
  | nil {w : World} : Survive factory revocationCheck [] w [] w
  | kept {url : String} {urls : List String} {w w' : World} {p : Provider} {ps : List Provider}
      (h : Kept factory revocationCheck url w p)
      (hrest : Survive factory revocationCheck urls (build factory revocationCheck url w).2 ps w') :
      Survive factory revocationCheck (url :: urls) w (p :: ps) w'
  | dropped {url : String} {urls : List String} {w w' : World} {ps : List Provider}
      (h : ∀ p, ¬ Kept factory revocationCheck url w p)
      (hrest : Survive factory revocationCheck urls (build factory revocationCheck url w).2 ps w') :
      Survive factory revocationCheck (url :: urls) w ps w'

/-- A location has its turn in a world: the one that the turns before it have left. -/
inductive Turn (factory : Factory) (revocationCheck : Bool) : List String → World → String → World → Prop
  | here {url : String} {urls : List String} {w : World} : Turn factory revocationCheck (url :: urls) w url w
  | later {first url : String} {urls : List String} {w v : World}
      (h : Turn factory revocationCheck urls (build factory revocationCheck first w).2 url v) :
      Turn factory revocationCheck (first :: urls) w url v

variable {factory : Factory} {revocationCheck : Bool} {url : String} {urls : List String} {w w' v : World}
  {p : Provider} {ps : List Provider}

theorem Kept.unique {q : Provider} (h : Kept factory revocationCheck url w p)
    (h' : Kept factory revocationCheck url w q) : p = q := by
  obtain ⟨made, payload, hmade, hobtains, rfl⟩ := h
  obtain ⟨made', payload', hmade', hobtains', rfl⟩ := h'
  cases hmade.symm.trans hmade'
  rw [hobtains.unique hobtains']

theorem Kept.url_eq {root : X509.Certificate} {timeout : Timeout} (hfactory : factory.Binds root timeout)
    (h : Kept factory revocationCheck url w p) : p.url = url := by
  obtain ⟨made, payload, hmade, -, rfl⟩ := h
  exact (hfactory url made hmade).1

theorem build_of_kept (h : Kept factory revocationCheck url w p) :
    (build factory revocationCheck url w).1 = .ok (some p) := by
  obtain ⟨made, payload, hmade, hobtains, rfl⟩ := h
  unfold build
  rw [hmade]
  dsimp only
  rw [Action.bind_of_ok _ (Prod.ext (refresh_of_obtains_some hobtains) rfl)]
  rfl

theorem build_of_not_kept (h : ∀ p, ¬ Kept factory revocationCheck url w p) :
    (build factory revocationCheck url w).1 = .ok none := by
  unfold build
  cases hmade : factory url with
  | error f => rfl
  | ok made =>
    dsimp only
    by_cases hobtains : ∃ payload, { made with revocationCheck := revocationCheck }.Obtains w payload
    · obtain ⟨payload, hobtains⟩ := hobtains
      cases payload with
      | none =>
        rw [Action.bind_of_ok _ (Prod.ext (refresh_of_obtains_none hobtains) rfl)]
        rfl
      | some m => exact absurd ⟨made, m, hmade, hobtains, rfl⟩ (h _)
    · obtain ⟨f, hf⟩ := refresh_of_not_obtains fun payload hp => hobtains ⟨payload, hp⟩
      rw [Action.bind_of_ok _ (Prod.ext hf rfl)]
      rfl

theorem buildEach_cons {here : Option Provider} (h : (build factory revocationCheck url w).1 = .ok here)
    (hrest : buildEach factory revocationCheck urls (build factory revocationCheck url w).2 = (.ok ps, w')) :
    buildEach factory revocationCheck (url :: urls) w = (.ok (here.toList ++ ps), w') := by
  rw [buildEach, Action.bind_of_ok _ (Prod.ext h rfl), Action.bind_of_ok _ hrest]
  rfl

theorem Survive.buildEach_eq (h : Survive factory revocationCheck urls w ps w') :
    buildEach factory revocationCheck urls w = (.ok ps, w') := by
  induction h with
  | nil => rfl
  | kept h _ ih => exact buildEach_cons (build_of_kept h) ih
  | dropped h _ ih => exact buildEach_cons (build_of_not_kept h) ih

theorem exists_survive (factory : Factory) (revocationCheck : Bool) : ∀ (urls : List String) (w : World),
    ∃ ps w', Survive factory revocationCheck urls w ps w'
  | [], w => ⟨[], w, .nil⟩
  | url :: urls, w => by
    obtain ⟨ps, w', hrest⟩ := exists_survive factory revocationCheck urls (build factory revocationCheck url w).2
    by_cases h : ∃ p, Kept factory revocationCheck url w p
    · obtain ⟨p, hp⟩ := h
      exact ⟨p :: ps, w', .kept hp hrest⟩
    · exact ⟨ps, w', .dropped (fun p hp => h ⟨p, hp⟩) hrest⟩

/-- Building providers answers with those that are left of the locations. -/
theorem buildEach_eq_ok_iff : buildEach factory revocationCheck urls w = (.ok ps, w') ↔
    Survive factory revocationCheck urls w ps w' := by
  refine ⟨fun h => ?_, Survive.buildEach_eq⟩
  obtain ⟨qs, w'', hs⟩ := exists_survive factory revocationCheck urls w
  have heq := hs.buildEach_eq
  rw [h] at heq
  cases heq
  exact hs

/-- Before the first turn there may be a warning in the log. -/
theorem survive_of_buildAll (h : buildAll factory revocationCheck urls w = (.ok ps, w')) :
    ∃ log, Survive factory revocationCheck urls { w with log := log } ps w' := by
  unfold buildAll at h
  cases revocationCheck with
  | true => exact ⟨w.log, buildEach_eq_ok_iff.1 h⟩
  | false => exact ⟨_, buildEach_eq_ok_iff.1 h⟩

/-- The locations of the providers that are left are locations that were tried, in the same order. -/
theorem Survive.sublist {root : X509.Certificate} {timeout : Timeout} (hfactory : factory.Binds root timeout)
    (h : Survive factory revocationCheck urls w ps w') : (ps.map Provider.url).Sublist urls := by
  induction h with
  | nil => exact List.Sublist.refl []
  | kept h _ ih =>
    rw [List.map_cons, h.url_eq hfactory]
    exact ih.cons_cons _
  | dropped _ _ ih => exact ih.cons _

theorem Turn.mem (h : Turn factory revocationCheck urls w url v) : url ∈ urls := by
  induction h with
  | here => exact List.mem_cons_self
  | later _ ih => exact List.mem_cons_of_mem _ ih

/-- The providers that are left are those that were kept in their turns. -/
theorem Survive.mem_iff (h : Survive factory revocationCheck urls w ps w') :
    p ∈ ps ↔ ∃ url v, Turn factory revocationCheck urls w url v ∧ Kept factory revocationCheck url v p := by
  induction h with
  | nil =>
    refine iff_of_false nofun ?_
    rintro ⟨url, v, hturn, -⟩
    cases hturn
  | @kept url urls w w' q ps hq _ ih =>
    rw [List.mem_cons, ih]
    constructor
    · rintro (rfl | ⟨url', v, hturn, hp⟩)
      · exact ⟨url, w, .here, hq⟩
      · exact ⟨url', v, .later hturn, hp⟩
    · rintro ⟨url', v, hturn, hp⟩
      cases hturn with
      -- a location listed twice has two turns, but in one turn only one provider is kept
      | here => exact .inl (hp.unique hq)
      | later hturn => exact .inr ⟨url', v, hturn, hp⟩
  | @dropped url urls w w' ps hnone _ ih =>
    rw [ih]
    constructor
    · rintro ⟨url', v, hturn, hp⟩
      exact ⟨url', v, .later hturn, hp⟩
    · rintro ⟨url', v, hturn, hp⟩
      cases hturn with
      | here => exact absurd hp (hnone p)
      | later hturn => exact ⟨url', v, hturn, hp⟩

end Provider
end AttestationTrust
