import AttestationTrust.Proofs.Lookup
import AttestationTrust.Proofs.Withdrawals
/-!
# The anchors that a lookup gathers

Sources offer roots for what is looked up, in the order in which they are asked.  A lookup makes an anchor of every root
that loads, leaves out one that is no certificate, and fails over one of a version that is not read
(`Anchors.collect`).  Where entries have been read by the schema, nothing else stands in its way, and what it gathers is
said by what is offered alone (`Anchors.DrawsOn`).  Two repositories together answer with each certificate once, those
of the first before those of the second (`Anchors.Comprises`).
-/
namespace AttestationTrust

open X509 (Certificate)
open Metadata (Listing Entry Statement StatementFiles)

/-- What is looked up is the identifier of a model, or among those of its keys. -/
def Lookup.IsIn : Lookup → (model keys : Value) → Prop
  | .aaguid bs, model, _ => model = .bytes bs
  | .keyIdentifier bs, _, keys => ∃ xs, keys = .list xs ∧ .bytes bs ∈ xs

namespace Metadata

/-- A listing has a root among its own. -/
def Listing.Lists (l : Listing) (root : Bytes) : Prop := ∃ xs, l.roots = .list xs ∧ .bytes root ∈ xs

namespace Entry

/-- The identifier of an entry's model: its own, else that of its statement. -/
def aaguidWith (e : Entry) (l : Listing) : Value :=
  match e.aaguid with
  | .null => l.aaguid
  | v => v

def keysWith (e : Entry) (l : Listing) : Value :=
  if e.keyIdentifiers.truthy then e.keyIdentifiers else l.keyIdentifiers

/-- An entry offers a root for what is looked up: its statement lists it, and the identifier is its own or the
statement's. -/
def Offers (e : Entry) (wanted : Lookup) (root : Bytes) : Prop :=
  ∃ l, e.statement = some l ∧ wanted.IsIn (e.aaguidWith l) (e.keysWith l) ∧ l.Lists root

end Entry

/-- A statement offers a root for what is looked up. -/
def Statement.Offers (s : Statement) (wanted : Lookup) (root : Bytes) : Prop :=
  wanted.IsIn s.listing.aaguid s.listing.keyIdentifiers ∧ s.listing.Lists root

theorem Statement.lists_iff {s : Statement} {root : Bytes} : s.listing.Lists root ↔ root ∈ s.roots := by
  simp [Listing.Lists, listing]

theorem Statement.isAaguid (s : Statement) : s.listing.aaguid.IsAaguid := by
  unfold listing
  cases s.aaguid with
  | none => exact .inl rfl
  | some bs => exact .inr ⟨bs, rfl⟩

theorem Statement.areKeys (s : Statement) : s.listing.keyIdentifiers.AreKeys := by
  unfold listing
  cases s.keyIdentifiers with
  | none => exact .inl rfl
  | some ks =>
    refine .inr ⟨_, rfl, fun x hx => ?_⟩
    obtain ⟨bs, -, rfl⟩ := List.mem_map.1 hx
    exact ⟨bs, rfl⟩

theorem Entry.Settled.isAaguid_with {e : Entry} {s : Statement} (he : e.Settled) :
    (e.aaguidWith s.listing).IsAaguid := by
  unfold aaguidWith
  obtain h | ⟨bs, h⟩ := he.aaguid
  · rw [h]
    exact s.isAaguid
  · rw [h]
    exact .inr ⟨bs, rfl⟩

theorem Entry.Settled.areKeys_with {e : Entry} {s : Statement} (he : e.Settled) : (e.keysWith s.listing).AreKeys := by
  unfold keysWith
  split
  · exact he.keys
  · exact s.areKeys

end Metadata

/-- A source that has been loaded offers what its trusted entries do. -/
def BlobSource.Offers (source : BlobSource) (wanted : Lookup) (root : Bytes) : Prop :=
  ∃ entries, source.entries = some entries ∧ ∃ e ∈ entries, e.isTrusted? = .ok true ∧ e.Offers wanted root

namespace Query

variable {q : Query} {bs : Bytes} {aaguid keys : Value}

theorem itemsOf_list (xs : List Value) : Anchors.itemsOf (.list xs) = .ok xs := by
  cases xs <;> rfl

/-- Whether identifiers of their kinds are the ones asked for can always be told. -/
theorem exists_isFor (hq : q.octets = .ok bs) (ha : aaguid.IsAaguid) (hk : keys.AreKeys) :
    ∃ b, q.isFor aaguid keys = .ok b ∧ (b = true ↔ (q.lookup bs).IsIn aaguid keys) := by
  cases q with
  | aaguid wanted =>
    cases hq
    obtain rfl | ⟨bs', rfl⟩ := ha
    · exact ⟨false, rfl, by simp [lookup, Lookup.IsIn]⟩
    · exact ⟨bs' == bs, rfl, by simp [lookup, Lookup.IsIn]⟩
  | key v =>
    have hv : v.octets = .ok bs := hq
    simp only [isFor, hv]
    obtain rfl | ⟨xs, rfl, hxs⟩ := hk
    · exact ⟨false, rfl, by simp [lookup, Lookup.IsIn]⟩
    · refine ⟨xs.any fun x => KeyIdentifier.ofValue x == some bs, ?_, ?_⟩
      · show (Anchors.itemsOf (.list xs)).map _ = _
        rw [itemsOf_list]
        rfl
      · rw [List.any_eq_true]
        constructor
        · rintro ⟨x, hx, hid⟩
          obtain ⟨bs', rfl⟩ := hxs x hx
          obtain rfl : bs' = bs := by simpa [KeyIdentifier.ofValue] using hid
          exact ⟨xs, rfl, hx⟩
        · rintro ⟨ys, hys, hx⟩
          cases hys
          exact ⟨_, hx, by simp [KeyIdentifier.ofValue]⟩

end Query

namespace Anchors

/-- A root of a version that is not read. -/
def Unread (root : Bytes) : Prop := Certificate.load root = .error (.x509 .unsupportedVersion)

/-- The anchors of roots, each beside the source that offers it. -/
def collect : List (String × Bytes) → Except Failure (List TrustAnchor)
  | [] => .ok []
  | (source, root) :: rest =>
    match Certificate.load root with
    | .ok c => (collect rest).map (⟨c, source⟩ :: ·)
    | .error (.certificate _) => collect rest
    | .error f => .error f

theorem collect_append : ∀ xs ys : List (String × Bytes),
    collect (xs ++ ys) = collect xs >>= fun here => (collect ys).map (here ++ ·)
  | [], ys => by
    cases h : collect ys <;> simp [collect, bind, Except.bind, h, Except.map]
  | (source, root) :: xs, ys => by
    rw [List.cons_append, collect, collect, collect_append xs ys]
    split
    · cases collect xs <;> cases collect ys <;> rfl
    · rfl
    · rfl

/-- A lookup fails over a root of a version that is not read, and answers with the other roots that load. -/
theorem collect_cases : ∀ offers : List (String × Bytes),
    (∃ o ∈ offers, Unread o.2) ∧ collect offers = .error (.x509 .unsupportedVersion) ∨
    (∀ o ∈ offers, ¬ Unread o.2) ∧ ∃ anchors, collect offers = .ok anchors ∧
      ∀ a, a ∈ anchors ↔ ∃ root, (a.source, root) ∈ offers ∧ Certificate.load root = .ok a.certificate
  | [] => .inr ⟨by simp, [], rfl, by simp⟩
  | (source, root) :: rest => by
    have hrest := collect_cases rest
    cases hload : Certificate.load root with
    | ok c =>
      have hread : ¬ Unread root := by simp [Unread, hload]
      obtain ⟨⟨o, ho, hunread⟩, herror⟩ | ⟨hnone, anchors, hok, hmem⟩ := hrest
      · refine .inl ⟨⟨o, List.mem_cons_of_mem _ ho, hunread⟩, ?_⟩
        rw [collect, hload, herror]
        rfl
      · refine .inr ⟨List.forall_mem_cons.2 ⟨hread, hnone⟩, ⟨c, source⟩ :: anchors, ?_, fun a => ?_⟩
        · rw [collect, hload, hok]
          rfl
        · rw [List.mem_cons, hmem]
          constructor
          · rintro (rfl | ⟨root', hroot', hc⟩)
            · exact ⟨root, List.mem_cons_self, hload⟩
            · exact ⟨root', List.mem_cons_of_mem _ hroot', hc⟩
          · rintro ⟨root', hroot', hc⟩
            obtain heq | hroot' := List.mem_cons.1 hroot'
            · cases heq
              rw [hload] at hc
              cases hc
              exact .inl rfl
            · exact .inr ⟨root', hroot', hc⟩
    | error f =>
      obtain ⟨g, rfl⟩ | rfl := Certificate.load_error_cases hload
      · have hread : ¬ Unread root := by simp [Unread, hload]
        have hcollect : collect ((source, root) :: rest) = collect rest := by rw [collect, hload]
        rw [hcollect]
        obtain ⟨⟨o, ho, hunread⟩, herror⟩ | ⟨hnone, anchors, hok, hmem⟩ := hrest
        · exact .inl ⟨⟨o, List.mem_cons_of_mem _ ho, hunread⟩, herror⟩
        · refine .inr ⟨List.forall_mem_cons.2 ⟨hread, hnone⟩, anchors, hok, fun a => ?_⟩
          rw [hmem]
          refine exists_congr fun root' => and_congr_left fun hc => ?_
          rw [List.mem_cons, or_iff_right]
          -- the head of the offers is no certificate, so no anchor is made of it
          rintro heq
          cases heq
          rw [hload] at hc
          cases hc
      · refine .inl ⟨⟨_, List.mem_cons_self, hload⟩, ?_⟩
        rw [collect, hload]

/-- An action answers with the anchors of what is offered, whatever the world is. -/
def Answers (a : Action (List TrustAnchor)) (offers : List (String × Bytes)) : Prop :=
  ∀ w, (a w).1 = collect offers

/-- An action draws on offers: it answers with their anchors, in some order. -/
def DrawsOn (a : Action (List TrustAnchor)) (Offered : String → Bytes → Prop) : Prop :=
  ∃ offers, Answers a offers ∧ ∀ source root, (source, root) ∈ offers ↔ Offered source root

namespace Answers

variable {a b : Action (List TrustAnchor)} {xs ys : List (String × Bytes)}

theorem nil : Answers (pure []) [] := fun _ => rfl

theorem append (ha : Answers a xs) (hb : Answers b ys) :
    Answers (do let here ← a; let rest ← b; pure (here ++ rest)) (xs ++ ys) := by
  intro w
  have ha := ha w
  rw [collect_append, ← ha, Action.bind_apply]
  rcases a w with ⟨here | here, w'⟩
  · rfl
  · have hb := hb w'
    dsimp only
    rw [← hb, Action.bind_apply]
    rcases b w' with ⟨rest | rest, w''⟩ <;> rfl

end Answers

namespace DrawsOn

variable {a b : Action (List TrustAnchor)} {P Q R : String → Bytes → Prop}

theorem nil (h : ∀ source root, ¬ P source root) : DrawsOn (pure []) P :=
  ⟨[], Answers.nil, by simp [h]⟩

theorem nothing : DrawsOn (pure []) fun _ _ => False := nil (by simp)

theorem append (ha : DrawsOn a P) (hb : DrawsOn b Q) (h : ∀ source root, R source root ↔ P source root ∨ Q source root) :
    DrawsOn (do let here ← a; let rest ← b; pure (here ++ rest)) R := by
  obtain ⟨xs, ha, hxs⟩ := ha
  obtain ⟨ys, hb, hys⟩ := hb
  refine ⟨xs ++ ys, ha.append hb, fun source root => ?_⟩
  rw [List.mem_append, hxs, hys, h]

theorem congr (ha : DrawsOn a P) (h : ∀ source root, Q source root ↔ P source root) : DrawsOn a Q := by
  obtain ⟨xs, ha, hxs⟩ := ha
  exact ⟨xs, ha, fun source root => (hxs source root).trans (h source root).symm⟩

/-- What an action does first without answering makes no difference. -/
theorem after {β : Type} {g : β → Action (List TrustAnchor)} {first : Action β} {x : β} (h : DrawsOn (g x) P)
    (hfirst : ∀ w, (first w).1 = .ok x) : DrawsOn (first >>= g) P := by
  obtain ⟨xs, ha, hxs⟩ := h
  refine ⟨xs, fun w => ?_, hxs⟩
  rw [Action.bind_of_ok _ (Prod.ext (hfirst w) rfl), ha]

theorem ofExcept {β : Type} {g : β → Action (List TrustAnchor)} {y : Except Failure β} {x : β} (hy : y = .ok x)
    (h : DrawsOn (g x) P) : DrawsOn (Action.ofExcept y >>= g) P :=
  h.after fun w => by rw [Action.ofExcept_apply, hy]

end DrawsOn

theorem answers_ofRoots (source : String) : ∀ roots : List Bytes,
    Answers (ofRoots source (roots.map .bytes)) (roots.map (source, ·))
  | [] => Answers.nil
  | root :: roots => by
    intro w
    rw [List.map_cons, List.map_cons, ofRoots, collect]
    have hoctets : Action.ofExcept (Value.bytes root).octets w = (.ok root, w) := rfl
    rw [Action.bind_of_ok _ hoctets]
    have hrest := answers_ofRoots source roots
    cases Certificate.load root with
    | ok c =>
      dsimp only
      rw [Action.bind_apply, ← hrest w]
      rcases ofRoots source (roots.map .bytes) w with ⟨rest | rest, w'⟩ <;> rfl
    | error f =>
      cases f with
      | certificate g => exact hrest _
      | _ => rfl

theorem drawsOn_ofListing (s : Statement) (source : String) :
    DrawsOn (ofListing s.listing source) fun source' root => source' = source ∧ s.listing.Lists root := by
  refine ⟨s.roots.map (source, ·), fun w => ?_, fun source' root => ?_⟩
  · have hitems : Action.ofExcept (itemsOf s.listing.roots) w = (.ok (s.roots.map .bytes), w) := by
      rw [Action.ofExcept_apply, Statement.listing, Query.itemsOf_list]
    unfold ofListing
    rw [Action.bind_of_ok _ hitems]
    exact answers_ofRoots source s.roots w
  · simp [Statement.lists_iff, and_comm, eq_comm]

end Anchors

namespace Repository

open Anchors (DrawsOn Answers)

variable {q : Query} {bs : Bytes}

theorem drawsOn_ofEntry (hq : q.octets = .ok bs) {e : Entry} (he : e.Settled) (url : String) :
    DrawsOn (ofEntry q url e) fun source root => source = url ∧ e.Offers (q.lookup bs) root := by
  unfold ofEntry
  cases hs : e.statement with
  | none => exact DrawsOn.nil (by simp [Entry.Offers, hs])
  | some l =>
    obtain ⟨s, rfl⟩ := he.statement l hs
    obtain ⟨b, hfor, hb⟩ := Query.exists_isFor hq (he.isAaguid_with (s := s)) (he.areKeys_with (s := s))
    have hoffers : ∀ root, e.Offers (q.lookup bs) root ↔ b = true ∧ s.listing.Lists root := by
      intro root
      simp [Entry.Offers, hs, hb]
    refine DrawsOn.ofExcept hfor ?_
    cases b with
    | true =>
      refine (Anchors.drawsOn_ofListing s url).congr fun source root => ?_
      rw [hoffers]
      simp
    | false => exact DrawsOn.nil (by simp [hoffers])

theorem drawsOn_ofEntries (hq : q.octets = .ok bs) (url : String) : ∀ {es : List Entry}, (∀ e ∈ es, e.Settled) →
    DrawsOn (ofEntries q true url es) fun source root =>
      source = url ∧ ∃ e ∈ es, e.isTrusted? = .ok true ∧ e.Offers (q.lookup bs) root
  | [], _ => DrawsOn.nil (by simp)
  | e :: es, h => by
    obtain ⟨he, hes⟩ := List.forall_mem_cons.1 h
    obtain ⟨trusted, htrusted⟩ := he.exists_isTrusted?
    have hrest := drawsOn_ofEntries hq url hes
    refine DrawsOn.ofExcept htrusted ?_
    cases trusted with
    | true =>
      refine (drawsOn_ofEntry hq he url).append hrest fun source root => ?_
      simp [htrusted, and_or_left]
    | false =>
      refine DrawsOn.nothing.append hrest fun source root => ?_
      simp [htrusted]

theorem drawsOn_ofSources (hq : q.octets = .ok bs) : ∀ {sources : List BlobSource},
    (∀ source ∈ sources, ∀ entries, source.entries = some entries → ∀ e ∈ entries, e.Settled) →
    DrawsOn (ofSources q true sources) fun url root => ∃ source ∈ sources, source.url = url ∧
      source.Offers (q.lookup bs) root
  | [], _ => DrawsOn.nil (by simp)
  | source :: sources, h => by
    obtain ⟨hsource, hsources⟩ := List.forall_mem_cons.1 h
    have hrest := drawsOn_ofSources hq hsources
    rw [ofSources]
    dsimp only
    cases hentries : source.entries with
    | some entries =>
      refine (drawsOn_ofEntries hq source.url (hsource entries hentries)).append hrest fun url root => ?_
      simp [BlobSource.Offers, hentries, eq_comm]
    | none =>
      have hskipped : DrawsOn (do
          Action.log .warning Anchors.topic
            ("Skipping MDS BLOB provider " ++ source.url ++ ": " ++ (BlobFault.notLoaded source.url).message)
          pure []) fun _ _ => False :=
        DrawsOn.nothing.after (x := ()) fun _ => rfl
      refine hskipped.append hrest fun url root => ?_
      simp [BlobSource.Offers, hentries]

theorem drawsOn_ofStatements (hq : q.octets = .ok bs) : ∀ loaded : List (String × Statement),
    DrawsOn (ofStatements q loaded) fun path root => ∃ s, (path, s) ∈ loaded ∧ s.Offers (q.lookup bs) root
  | [] => DrawsOn.nil (by simp)
  | (path, s) :: loaded => by
    obtain ⟨b, hfor, hb⟩ := Query.exists_isFor hq s.isAaguid s.areKeys
    have hoffers : ∀ root, s.Offers (q.lookup bs) root ↔ b = true ∧ s.listing.Lists root := by
      intro root
      simp [Statement.Offers, hb]
    have hrest := drawsOn_ofStatements hq loaded
    refine DrawsOn.ofExcept hfor ?_
    cases b with
    | true =>
      refine (Anchors.drawsOn_ofListing s path).append hrest fun path' root => ?_
      simp [or_and_right, exists_or, and_assoc, hoffers]
    | false =>
      refine DrawsOn.nothing.append hrest fun path' root => ?_
      simp [or_and_right, exists_or, and_assoc, hoffers]

theorem find_together_fst (r r' : Repository) (w : World) : (find q (.together r r' []) w).1 =
    (find q r w).1 >>= fun here => (find q r' w).1.map fun more => distinct [] (here ++ more) := by
  rw [find, Action.bind_apply]
  rcases hr : find q r w with ⟨here | here, w'⟩
  · rfl
  · rw [find_fst_eq q r' w w']
    dsimp only
    rw [Action.bind_apply]
    rcases hr' : find q r' w' with ⟨more | more, w''⟩
    · rfl
    · show Except.ok (merge [here, more]) = Except.ok (distinct [] (here ++ more))
      simp [merge]

/-! ## Each certificate once -/

theorem mem_of_mem_distinct {a : TrustAnchor} : ∀ {seen : List Certificate} {anchors : List TrustAnchor},
    a ∈ distinct seen anchors → a ∈ anchors ∧ a.certificate ∉ seen
  | seen, [], h => by cases h
  | seen, x :: rest, h => by
    rw [distinct] at h
    split at h
    · obtain ⟨hmem, hseen⟩ := mem_of_mem_distinct h
      exact ⟨List.mem_cons_of_mem _ hmem, hseen⟩
    · rename_i hx
      obtain rfl | h := List.mem_cons.1 h
      · exact ⟨List.mem_cons_self, hx⟩
      · obtain ⟨hmem, hseen⟩ := mem_of_mem_distinct h
        exact ⟨List.mem_cons_of_mem _ hmem, fun hc => hseen (List.mem_cons_of_mem _ hc)⟩

/-- A certificate is seen already, or it is that of one of the anchors that are left. -/
theorem exists_mem_distinct {a : TrustAnchor} : ∀ (seen : List Certificate) {anchors : List TrustAnchor}, a ∈ anchors →
    a.certificate ∈ seen ∨ ∃ x ∈ distinct seen anchors, x.certificate = a.certificate
  | seen, [], h => by cases h
  | seen, x :: rest, h => by
    rw [distinct]
    split
    · rename_i hx
      obtain rfl | h := List.mem_cons.1 h
      · exact .inl hx
      · exact exists_mem_distinct seen h
    · obtain rfl | h := List.mem_cons.1 h
      · exact .inr ⟨a, List.mem_cons_self, rfl⟩
      · obtain hseen | ⟨y, hy, hc⟩ := exists_mem_distinct (x.certificate :: seen) h
        · obtain hc | hseen := List.mem_cons.1 hseen
          · exact .inr ⟨x, List.mem_cons_self, hc.symm⟩
          · exact .inl hseen
        · exact .inr ⟨y, List.mem_cons_of_mem _ hy, hc⟩

theorem nodup_distinct : ∀ (seen : List Certificate) (anchors : List TrustAnchor),
    ((distinct seen anchors).map TrustAnchor.certificate).Nodup
  | seen, [] => List.nodup_nil
  | seen, x :: rest => by
    rw [distinct]
    split
    · exact nodup_distinct seen rest
    · rw [List.map_cons, List.nodup_cons]
      refine ⟨fun hmem => ?_, nodup_distinct _ rest⟩
      obtain ⟨a, ha, hc⟩ := List.mem_map.1 hmem
      exact (mem_of_mem_distinct ha).2 (hc ▸ List.mem_cons_self)

theorem distinct_congr : ∀ {seen seen' : List Certificate} (anchors : List TrustAnchor), (∀ c, c ∈ seen ↔ c ∈ seen') →
    distinct seen anchors = distinct seen' anchors
  | _, _, [], _ => rfl
  | seen, seen', x :: rest, h => by
    have hcons : ∀ c, c ∈ x.certificate :: seen ↔ c ∈ x.certificate :: seen' := fun c => by simp [h]
    rw [distinct, distinct, distinct_congr rest h, distinct_congr rest hcons]
    simp only [h]

/-- Anchors that come later are left out also where their certificate has come among the earlier ones. -/
theorem distinct_append : ∀ (seen : List Certificate) (here more : List TrustAnchor),
    distinct seen (here ++ more) = distinct seen here ++ distinct (here.map TrustAnchor.certificate ++ seen) more
  | _, [], _ => rfl
  | seen, x :: here, more => by
    rw [List.cons_append, distinct, distinct]
    split
    · rename_i hx
      rw [distinct_append seen here more, distinct_congr more fun c => ?_]
      rw [List.map_cons, List.cons_append, List.mem_cons, or_iff_right_of_imp]
      rintro rfl
      exact List.mem_append_right _ hx
    · rw [distinct_append (x.certificate :: seen) here more, List.cons_append, distinct_congr more fun c => ?_]
      simp [or_left_comm]

end Repository

namespace Anchors

/-- Anchors are made of roots that are offered. -/
def MadeOf (anchors : List TrustAnchor) (Offered : String → Bytes → Prop) : Prop :=
  ∀ a ∈ anchors, ∃ root, Offered a.source root ∧ Certificate.load root = .ok a.certificate

/-- The certificate of every root that is offered, and that loads, is that of one of the anchors. -/
def Cover (anchors : List TrustAnchor) (Offered : String → Bytes → Prop) : Prop :=
  ∀ source root c, Offered source root → Certificate.load root = .ok c → ∃ a ∈ anchors, a.certificate = c

/-- What a lookup comes to where some roots are offered first and others later. -/
structure Comprises (answer : Except Failure (List TrustAnchor)) (First Later : String → Bytes → Prop) : Prop where
  answers : (∃ anchors, answer = .ok anchors) ↔ ∀ source root, First source root ∨ Later source root → ¬ Unread root
  fails : ∀ f, answer = .error f → f = .x509 .unsupportedVersion
  anchors : ∀ anchors, answer = .ok anchors → ∃ first later, anchors = first ++ later ∧
    MadeOf first First ∧ MadeOf later Later ∧ Cover first First ∧ Cover anchors Later

variable {a b : Action (List TrustAnchor)} {P Q : String → Bytes → Prop} {w : World}

theorem DrawsOn.cases (h : DrawsOn a P) (w : World) :
    (∃ source root, P source root ∧ Unread root) ∧ (a w).1 = .error (.x509 .unsupportedVersion) ∨
    (∀ source root, P source root → ¬ Unread root) ∧
      ∃ anchors, (a w).1 = .ok anchors ∧ MadeOf anchors P ∧ Cover anchors P := by
  obtain ⟨offers, ha, hoffers⟩ := h
  rw [ha]
  obtain ⟨⟨⟨source, root⟩, ho, hunread⟩, herror⟩ | ⟨hnone, anchors, hok, hmem⟩ := collect_cases offers
  · exact .inl ⟨⟨source, root, (hoffers source root).1 ho, hunread⟩, herror⟩
  · refine .inr ⟨fun source root h => hnone _ ((hoffers source root).2 h), anchors, hok, fun x hx => ?_, ?_⟩
    · obtain ⟨root, hroot, hc⟩ := (hmem x).1 hx
      exact ⟨root, (hoffers _ root).1 hroot, hc⟩
    · intro source root c h hc
      exact ⟨⟨c, source⟩, (hmem _).2 ⟨root, (hoffers source root).2 h, hc⟩, rfl⟩

theorem comprises_error {answer : Except Failure (List TrustAnchor)} (h : answer = .error (.x509 .unsupportedVersion))
    {source : String} {root : Bytes} (hroot : P source root ∨ Q source root) (hunread : Unread root) :
    Comprises answer P Q := by
  subst h
  exact ⟨iff_of_false nofun fun hall => hall source root hroot hunread, fun f hf => by cases hf; rfl, nofun⟩

theorem comprises_ok {first later : List TrustAnchor} (hread : ∀ source root, P source root ∨ Q source root → ¬ Unread root)
    (hfirst : MadeOf first P) (hlater : MadeOf later Q) (hcover : Cover first P) (hcover' : Cover (first ++ later) Q) :
    Comprises (.ok (first ++ later)) P Q where
  answers := iff_of_true ⟨_, rfl⟩ hread
  fails := nofun
  anchors := by
    rintro _ ⟨⟩
    exact ⟨first, later, rfl, hfirst, hlater, hcover, hcover'⟩

theorem DrawsOn.comprises_first (h : DrawsOn a P) (hQ : ∀ source root, ¬ Q source root) (w : World) :
    Comprises (a w).1 P Q := by
  obtain ⟨⟨source, root, hroot, hunread⟩, herror⟩ | ⟨hread, anchors, hok, hmade, hcover⟩ := h.cases w
  · exact comprises_error herror (.inl hroot) hunread
  · rw [hok, ← List.append_nil anchors]
    refine comprises_ok (fun source root h => ?_) hmade nofun hcover fun source root _ h => absurd h (hQ source root)
    exact hread source root (h.resolve_right (hQ source root))

theorem DrawsOn.comprises_later (h : DrawsOn a Q) (hP : ∀ source root, ¬ P source root) (w : World) :
    Comprises (a w).1 P Q := by
  obtain ⟨⟨source, root, hroot, hunread⟩, herror⟩ | ⟨hread, anchors, hok, hmade, hcover⟩ := h.cases w
  · exact comprises_error herror (.inr hroot) hunread
  · rw [hok, ← List.nil_append anchors]
    refine comprises_ok (fun source root h => ?_) nofun hmade (fun source root _ h => absurd h (hP source root)) hcover
    exact hread source root (h.resolve_left (hP source root))

end Anchors

open Anchors (DrawsOn Comprises MadeOf Cover)

/-- Two repositories together: what the first offers comes first, and each certificate comes once. -/
theorem Repository.comprises_together {q : Query} {r r' : Repository} {P Q : String → Bytes → Prop}
    (hr : DrawsOn (find q r) P) (hr' : DrawsOn (find q r') Q) (w : World) :
    Comprises (find q (.together r r' []) w).1 P Q ∧
      ∀ anchors, (find q (.together r r' []) w).1 = .ok anchors → (anchors.map TrustAnchor.certificate).Nodup := by
  rw [find_together_fst]
  obtain ⟨⟨source, root, hroot, hunread⟩, herror⟩ | ⟨hread, here, hok, hmade, hcover⟩ := hr.cases w
  · rw [herror]
    exact ⟨Anchors.comprises_error rfl (.inl hroot) hunread, nofun⟩
  · rw [hok]
    obtain ⟨⟨source, root, hroot, hunread⟩, herror⟩ | ⟨hread', more, hok', hmade', hcover'⟩ := hr'.cases w
    · rw [herror]
      exact ⟨Anchors.comprises_error rfl (.inr hroot) hunread, nofun⟩
    · rw [hok']
      -- what is left of `more` are the certificates that are not there already
      obtain ⟨seen, happend⟩ : ∃ seen, distinct [] (here ++ more) = distinct [] here ++ distinct seen more :=
        ⟨_, distinct_append [] here more⟩
      have hfirst : Cover (distinct [] here) P := by
        intro source root c h hc
        obtain ⟨a, ha, rfl⟩ := hcover source root c h hc
        exact (exists_mem_distinct [] ha).resolve_left nofun
      have hboth : Cover (distinct [] here ++ distinct seen more) Q := by
        intro source root c h hc
        obtain ⟨a, ha, rfl⟩ := hcover' source root c h hc
        rw [← happend]
        exact (exists_mem_distinct [] (List.mem_append_right here ha)).resolve_left nofun
      constructor
      · show Comprises (.ok (distinct [] (here ++ more))) P Q
        rw [happend]
        refine Anchors.comprises_ok (fun source root h => ?_) (fun a ha => ?_) (fun a ha => ?_) hfirst hboth
        · exact h.elim (hread source root) (hread' source root)
        · exact hmade a (mem_of_mem_distinct ha).1
        · exact hmade' a (mem_of_mem_distinct ha).1
      · rintro _ ⟨⟩
        exact nodup_distinct [] (here ++ more)

end AttestationTrust
