import AttestationTrust.Proofs.Isolation
/-!
# What is asked for where work is shared

A job of a pool asks for what its provider asks for by itself: whatever its requests are answered with, there is a network
that answers so to it alone (`Network.exists_serves`), and there the work is done at once (`Provider.exists_obtain`).  So
providers are always built (`Provider.BuildsBy.exists_ok`), all that is asked for is woven of what each location leads to
(`Provider.BuildsBy.exists_exchanged`), and no request is driven by data that has not been verified, however the work is
shared (`Provider.requests_follow_accepted`).
-/
namespace AttestationTrust

theorem exists_of_forall₂_of_mem {α β : Type} {R : α → β → Prop} {l : List α} {l' : List β} (h : List.Forall₂ R l l')
    {b : β} (hb : b ∈ l') : ∃ a ∈ l, R a b := by
  obtain ⟨i, hi, rfl⟩ := List.mem_iff_getElem.1 hb
  have hi' : i < l.length := h.length_eq ▸ hi
  exact ⟨l[i], List.getElem_mem hi', h.get hi' hi⟩

theorem Deed.map_url (deeds : List Deed) :
    (deeds.filterMap request?).map Prod.fst = (deeds.filterMap exchange?).map Exchange.url := by
  rw [List.map_filterMap, List.map_filterMap]
  refine List.filterMap_congr fun d _ => ?_
  cases d <;> rfl

namespace Provider

open X509 (Certificate)
open Metadata (Payload)

variable [Json.Limits] {cut : Provider → Script (Option Payload)} {factory : Factory} {root : Certificate}
  {timeout : Timeout} {revocationCheck : Bool} {url : String} {urls : List String} {deeds : List Deed} {p : Provider}

/-- What is obtained step by step is obtained at once in some world, whatever it was answered with. -/
theorem exists_obtain (hcut : IsCut cut) {r : Except Failure (Option Payload)} (h : (cut p).Reaches deeds (.ends r)) :
    ∃ w w', p.obtain w = (r, w') ∧ w.requests = [] ∧ w.Does deeds w' := by
  obtain ⟨n, n', hserves⟩ := Network.exists_serves (deeds.filterMap Deed.exchange?)
  obtain ⟨w', hobtain, hdoes⟩ := exists_obtain_of_reaches (w := ⟨0, .empty, n, [], [], []⟩) hcut h hserves
  exact ⟨_, w', hobtain, rfl, hdoes⟩

/-- **One job.**  What is asked for to obtain a payload is the location of the provider and what follows it, or nothing if
no request can be made within the bound; and each request is made within it. -/
theorem leads_of_reaches (hcut : IsCut cut) {r : Except Failure (Option Payload)}
    (h : (cut p).Reaches deeds (.ends r)) :
    Leads p.root p.revocationCheck p.url (deeds.filterMap Deed.exchange?) ∧
      ∀ x seconds, .asked x seconds ∈ deeds → p.timeout.seconds = .ok seconds := by
  obtain ⟨w, w', hobtain, hnone, hdoes⟩ := exists_obtain hcut h
  obtain ⟨x, ys, hx, hworld, hys⟩ := exists_exchanged_obtain p w
  rw [hobtain] at hworld
  have hrequests : deeds.filterMap Deed.request? = p.timeout.requests ((x :: ys).map Exchange.url) := by
    have h := hdoes.requests.symm.trans hworld.requests
    rwa [hnone, List.nil_append, List.nil_append] at h
  refine ⟨?_, fun _ _ => World.Does.mem_requests hrequests⟩
  have hurls := Deed.map_url deeds
  rw [hrequests, Timeout.requests] at hurls
  cases ht : p.timeout.seconds with
  | error f =>
    rw [ht] at hurls
    exact .inl (List.map_eq_nil_iff.1 hurls.symm)
  | ok seconds =>
    -- both rows are what the network serves for the same locations
    rw [ht] at hurls
    have hsame : (x :: ys).map Exchange.url = (deeds.filterMap Deed.exchange?).map Exchange.url := by
      simpa [Function.comp_def] using hurls
    have hserved := (hdoes.network.eq ht).1
    rw [← hsame, hworld.served] at hserved
    exact .inr ⟨x, ys, hserved.symm, hx, hys⟩

theorem leads_of_building (hcut : IsCut cut) (hfactory : factory.Binds root timeout)
    {r : Except Failure (Option Provider)}
    (h : (building cut factory revocationCheck url).Reaches deeds (.ends r)) :
    Leads root revocationCheck url (deeds.filterMap Deed.exchange?) ∧
      ∀ x seconds, .asked x seconds ∈ deeds → timeout.seconds = .ok seconds := by
  obtain ⟨f, -, -, rfl⟩ | ⟨made, obtained, before, after, hmade, rfl, hbefore, hafter⟩ := building_of_reaches h
  · exact ⟨.inl rfl, by simp⟩
  · obtain ⟨rfl, rfl, rfl⟩ := hfactory url made hmade
    obtain ⟨w, w', hobtain, -⟩ := exists_obtain hcut hbefore
    obtain ⟨_, record, -, rfl, -⟩ := concluding_of_reaches hafter hobtain
    obtain ⟨hleads, hbound⟩ := leads_of_reaches hcut hbefore
    refine ⟨?_, fun x seconds hx => hbound x seconds ?_⟩
    · rw [List.filterMap_append]
      exact (List.append_nil _).symm ▸ hleads
    · simpa using hx

/-- A job never fails, whatever its requests are answered with: it comes to what its location comes to by itself in some
world. -/
theorem exists_kept_of_building (hcut : IsCut cut) {r : Except Failure (Option Provider)}
    (h : (building cut factory revocationCheck url).Reaches deeds (.ends r)) :
    ∃ w kept, r = .ok kept ∧ kept.map row = (own factory revocationCheck w url).map row := by
  obtain ⟨n, n', hserves⟩ := Network.exists_serves (deeds.filterMap Deed.exchange?)
  obtain ⟨kept, hr, hkept, -⟩ := outcome_of_reaches (w := ⟨0, .empty, n, [], [], []⟩) hcut h hserves
  exact ⟨_, kept, hr, hkept⟩

/-- Building providers never fails, however the work is shared and whatever is answered, and the providers that are left
have been loaded, and stand in the order of their locations. -/
theorem BuildsBy.exists_ok (hfactory : ∀ url made, factory url = .ok made → made.url = url) {workers : Int}
    {w w' : World} {r : Except Failure (List Provider)}
    (h : BuildsBy factory revocationCheck workers urls w r w') : ∃ ps, r = .ok ps ∧
      (ps.map Provider.url).Sublist urls ∧ ∀ p ∈ ps, p.payload ≠ none ∧ p.revocationCheck = revocationCheck := by
  obtain ⟨cut, endings, -, hcut, hends, rfl, -, -⟩ := h.exists_endings
  clear h
  induction hends with
  | nil => exact ⟨[], rfl, .slnil, by simp⟩
  | @cons url ending urls endings hreaches _ ih =>
    obtain ⟨ps, hps, hsublist, hloaded⟩ := ih
    obtain ⟨v, kept, hr, hkept⟩ := exists_kept_of_building hcut hreaches
    have hcollect : collect ((ending :: endings).map Prod.snd) = .ok (kept.toList ++ ps) := by
      rw [List.map_cons, collect, hr, hps]
      rfl
    refine ⟨_, hcollect, ?_⟩
    cases kept with
    | none => exact ⟨hsublist.cons url, hloaded⟩
    | some p =>
      obtain ⟨made, hmade, hurl, hp⟩ := of_own_row hkept.symm
      obtain rfl : p.url = url := hurl.trans (hfactory url made hmade)
      exact ⟨hsublist.cons_cons p.url, List.forall_mem_cons.2 ⟨hp, hloaded⟩⟩

/-- However the work is shared, what is asked for is woven of what each location leads to. -/
theorem BuildsBy.exists_exchanged (hfactory : factory.Binds root timeout) {workers : Int} {w w' : World}
    {r : Except Failure (List Provider)} (h : BuildsBy factory revocationCheck workers urls w r w') :
    ∃ xs trails, w.Exchanged timeout xs { w' with clock := w.clock } ∧
      List.Forall₂ (Leads root revocationCheck) urls trails ∧ Woven xs trails := by
  obtain ⟨cut, endings, deeds, hcut, hends, -, hdoes, hwoven⟩ := h.exists_endings
  obtain ⟨warnings, hwarning, hunasked, -⟩ := exists_does_warning factory revocationCheck w
  have hleads := hends.imp fun _ _ h => leads_of_building hcut hfactory h
  refine ⟨deeds.filterMap Deed.exchange?, (endings.map Prod.fst).map fun s => s.filterMap Deed.exchange?, ?_, ?_,
    hwoven.filterMap _⟩
  · have hbound : ∀ x seconds, .asked x seconds ∈ warnings ++ deeds → timeout.seconds = .ok seconds := by
      intro x seconds hx
      rcases List.mem_append.1 hx with hx | hx
      · have hmem : x ∈ warnings.filterMap Deed.exchange? := List.mem_filterMap.2 ⟨_, hx, rfl⟩
        rw [hunasked] at hmem
        cases hmem
      · obtain ⟨trail, htrail, hx⟩ := hwoven.mem_iff.1 hx
        obtain ⟨ending, hending, rfl⟩ := List.mem_map.1 htrail
        obtain ⟨url, -, -, hbound⟩ := exists_of_forall₂_of_mem hleads hending
        exact hbound x seconds hx
    have hall := (hwarning.append hdoes).exchanged hbound
    rwa [List.filterMap_append, hunasked, List.nil_append] at hall
  · rw [List.map_map, List.forall₂_map_right_iff]
    exact hleads.imp fun _ _ h => h.1

theorem url_cases_of_woven {xs : List Exchange} {trails : List (List Exchange)} (h : Woven xs trails)
    (hleads : List.Forall₂ (Leads root revocationCheck) urls trails) : ∀ y ∈ xs, y.url ∈ urls ∨
      revocationCheck = true ∧ ∃ x, [x, y].Sublist xs ∧ x.url ∈ urls ∧ ∃ blob, x.reply = .ok blob ∧
        Names root blob y.url := by
  intro y hy
  obtain ⟨trail, htrail, hy⟩ := h.mem_iff.1 hy
  obtain ⟨url, hurl, rfl | ⟨x, ys, rfl, rfl, hys⟩⟩ := exists_of_forall₂_of_mem hleads htrail
  · cases hy
  · rcases List.mem_cons.1 hy with rfl | hy
    · exact .inl hurl
    · obtain ⟨hcheck, hnames⟩ := hys y hy
      have hpair : [x, y].Sublist (x :: ys) := (List.singleton_sublist.2 hy).cons_cons x
      exact .inr ⟨hcheck, x, hpair.trans (h.sublist _ htrail), hurl, hnames⟩

/-- No request is driven by data that has not been verified.  A refresh asks for the location of its provider, and for
another only when the root has accepted what that location served, revocation is checked, and a certificate of the
BLOB's chain names the other.  Where providers are built one after another, each location is asked for in its turn, at most
once, and after it what the BLOB that it served names; where workers share them, what is asked for is woven of what each
location leads to, so that here too each request is for a location or comes after the BLOB that names it. -/
theorem requests_follow_accepted :
    (∀ (p : Provider) (w : World), ∃ x ys, x.url = p.url ∧ w.Exchanged p.timeout (x :: ys) (p.refresh w).2 ∧
      (p.revocationCheck = false → ys = []) ∧
      ((∀ blob, x.reply = .ok blob → Blob.accept p.root blob = none) → ys = []) ∧
      ∀ y ∈ ys, ∃ blob, x.reply = .ok blob ∧ Names p.root blob y.url) ∧
    (∀ (root : Certificate) (timeout : Value) (revocationCheck : Bool) (urls : List String) (w : World),
      ∃ bound xs,
        w.Exchanged bound xs (buildAll (fun url => make (.text url) root timeout) revocationCheck urls w).2 ∧
        Led root revocationCheck urls xs ∧
        ∀ y ∈ xs, y.url ∈ urls ∨
          revocationCheck = true ∧ ∃ x ∈ xs, x.url ∈ urls ∧ ∃ blob, x.reply = .ok blob ∧ Names root blob y.url) ∧
    ∀ (root : Certificate) (timeout : Value) (revocationCheck : Bool) (workers : Int) (urls : List String)
        (w : World) (r : Except Failure (List Provider)) (w' : World),
      BuildsBy (fun url => make (.text url) root timeout) revocationCheck workers urls w r w' →
      ∃ bound xs trails, w.Exchanged bound xs { w' with clock := w.clock } ∧
        List.Forall₂ (Leads root revocationCheck) urls trails ∧ Woven xs trails ∧
        ∀ y ∈ xs, y.url ∈ urls ∨
          revocationCheck = true ∧ ∃ x, [x, y].Sublist xs ∧ x.url ∈ urls ∧ ∃ blob, x.reply = .ok blob ∧
            Names root blob y.url := by
  refine ⟨fun p w => ?_, fun root timeout revocationCheck urls w => ?_, ?_⟩
  · obtain ⟨x, ys, hx, hworld, hys⟩ := exists_exchanged_refresh p w
    refine ⟨x, ys, hx, hworld, fun hcheck => ?_, fun hrejected => ?_, fun y hy => (hys y hy).2⟩
    · refine List.eq_nil_iff_forall_not_mem.2 fun y hy => ?_
      rw [(hys y hy).1] at hcheck
      cases hcheck
    · refine List.eq_nil_iff_forall_not_mem.2 fun y hy => ?_
      obtain ⟨-, blob, hblob, hnames⟩ := hys y hy
      exact hnames.accepted (hrejected blob hblob)
  · obtain ⟨bound, hbinds⟩ := exists_binds_make root timeout
    obtain ⟨xs, hworld, hled⟩ := exists_exchanged_buildAll revocationCheck hbinds urls w
    exact ⟨bound, xs, hworld, hled, hled.url_mem⟩
  · intro root timeout revocationCheck workers urls w r w' h
    obtain ⟨bound, hbinds⟩ := exists_binds_make root timeout
    obtain ⟨xs, trails, hworld, hleads, hwoven⟩ := h.exists_exchanged hbinds
    exact ⟨bound, xs, trails, hworld, hleads, hwoven, url_cases_of_woven hwoven hleads⟩

end Provider
end AttestationTrust
