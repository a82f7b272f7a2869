import AttestationTrust.Proofs.Registries
/-!
# Aggregates

Registries together keep, of every certificate that any of them answers with, the anchor in which it comes first, in the
order in which the certificates come (`FirstOfEach`).  Registries can be put together again, and that again, in any
shape (`Nesting`): what comes of a lookup depends only on the registries at the leaves and their order
(`Nesting.registry_eq`), because an answer that has been cleared of duplicates before is as good to the next aggregate
as the answer itself (`distinct_append_distinct`).
-/
namespace AttestationTrust

open X509 (Certificate)

/-- Of every certificate in some answers the anchor in which it comes first, in the order in which they come. -/
structure FirstOfEach (answers : List (List TrustAnchor)) (kept : List TrustAnchor) : Prop where
  nodup : (kept.map TrustAnchor.certificate).Nodup
  covers : ∀ answer ∈ answers, ∀ a ∈ answer, a.certificate ∈ kept.map TrustAnchor.certificate
  /-- What is kept stands where its certificate comes first, behind the certificates that come before. -/
  first : ∀ before a after, kept = before ++ a :: after → ∃ earlier later, answers.flatten = earlier ++ a :: later ∧
    a.certificate ∉ earlier.map TrustAnchor.certificate ∧
    ∀ c, c ∈ before.map TrustAnchor.certificate ↔ c ∈ earlier.map TrustAnchor.certificate

theorem firstOfEach_nil (members : List Repository) : FirstOfEach (members.map fun _ => []) [] where
  nodup := List.nodup_nil
  covers := by simp
  first := by
    rintro before a after h
    cases before <;> cases h

namespace Repository

/-! ## Answers without duplicates -/

theorem mem_certificates_distinct_iff {c : Certificate} (anchors : List TrustAnchor) :
    c ∈ (distinct [] anchors).map TrustAnchor.certificate ↔ c ∈ anchors.map TrustAnchor.certificate := by
  simp only [List.mem_map]
  constructor
  · rintro ⟨a, ha, rfl⟩
    exact ⟨a, (mem_of_mem_distinct ha).1, rfl⟩
  · rintro ⟨a, ha, rfl⟩
    exact (exists_mem_distinct [] ha).resolve_left nofun

/-- Where an anchor is kept, the list before it is what is kept of the anchors before it. -/
theorem exists_of_distinct_eq {seen : List Certificate} {anchors before after : List TrustAnchor} {a : TrustAnchor}
    (h : distinct seen anchors = before ++ a :: after) : ∃ earlier later, anchors = earlier ++ a :: later ∧
      before = distinct seen earlier ∧ a.certificate ∉ seen ∧ a.certificate ∉ earlier.map TrustAnchor.certificate := by
  induction anchors generalizing seen before with
  | nil => cases before <;> cases h
  | cons x rest ih =>
    rw [distinct] at h
    split at h
    · next hx =>
      obtain ⟨earlier, later, rfl, hbefore, hseen, hearlier⟩ := ih h
      refine ⟨x :: earlier, later, rfl, by rw [hbefore, distinct, if_pos hx], hseen, ?_⟩
      rw [List.map_cons, List.mem_cons, not_or]
      exact ⟨fun heq => hseen (heq ▸ hx), hearlier⟩
    · next hx =>
      cases before with
      | nil =>
        cases h
        exact ⟨[], rest, rfl, rfl, hx, List.not_mem_nil⟩
      | cons y before =>
        rw [List.cons_append, List.cons.injEq] at h
        obtain ⟨rfl, h⟩ := h
        obtain ⟨earlier, later, rfl, hbefore, hseen, hearlier⟩ := ih h
        rw [List.mem_cons, not_or] at hseen
        refine ⟨x :: earlier, later, rfl, by rw [hbefore, distinct, if_neg hx], hseen.2, ?_⟩
        rw [List.map_cons, List.mem_cons, not_or]
        exact ⟨hseen.1, hearlier⟩

theorem firstOfEach_merge (answers : List (List TrustAnchor)) : FirstOfEach answers (merge answers) where
  nodup := nodup_distinct [] answers.flatten
  covers := fun answer hanswer a ha =>
    (mem_certificates_distinct_iff _).2 (List.mem_map_of_mem (List.mem_flatten_of_mem hanswer ha))
  first := by
    intro before a after h
    obtain ⟨earlier, later, heq, rfl, -, hearlier⟩ := exists_of_distinct_eq h
    exact ⟨earlier, later, heq, hearlier, fun c => mem_certificates_distinct_iff earlier⟩

theorem distinct_distinct : ∀ {seen seen' : List Certificate} (anchors : List TrustAnchor),
    (∀ c ∈ seen', c ∈ seen) → distinct seen (distinct seen' anchors) = distinct seen anchors
  | _, _, [], _ => rfl
  | seen, seen', x :: rest, h => by
    by_cases hx' : x.certificate ∈ seen'
    · rw [distinct, if_pos hx', distinct_distinct rest h, distinct, if_pos (h _ hx')]
    · rw [distinct, if_neg hx']
      by_cases hx : x.certificate ∈ seen
      · rw [distinct, if_pos hx, distinct, if_pos hx]
        exact distinct_distinct rest (List.forall_mem_cons.2 ⟨hx, h⟩)
      · rw [distinct, if_neg hx, distinct, if_neg hx, distinct_distinct rest fun c hc => ?_]
        obtain rfl | hc := List.mem_cons.1 hc
        · exact List.mem_cons_self
        · exact List.mem_cons_of_mem _ (h c hc)

theorem distinct_append_distinct (here more : List TrustAnchor) :
    distinct [] (distinct [] here ++ distinct [] more) = distinct [] (here ++ more) := by
  rw [distinct_append, distinct_append, distinct_distinct here (by simp),
    distinct_distinct more (by simp)]
  congr 1
  exact distinct_congr more fun c => by
    rw [List.append_nil, List.append_nil]
    exact mem_certificates_distinct_iff here

theorem distinct_merge (answers : List (List TrustAnchor)) : distinct [] (merge answers) = merge answers :=
  distinct_distinct answers.flatten (by simp)

theorem merge_cons (here : List TrustAnchor) (rest : List (List TrustAnchor)) :
    merge (here :: rest) = distinct [] (distinct [] here ++ merge rest) := by
  rw [merge, merge, List.flatten_cons, distinct_append_distinct]

theorem merge_append (answers more : List (List TrustAnchor)) :
    merge (answers ++ more) = distinct [] (merge answers ++ merge more) := by
  rw [merge, merge, merge, List.flatten_append, distinct_append_distinct]

end Repository

namespace Registry

open Repository (distinct merge)

variable {q : Query}

theorem askAll_append (q : Query) (gs hs : List Registry) : askAll q (gs ++ hs) = (do
    let answers ← askAll q gs
    let more ← askAll q hs
    pure (answers ++ more)) := by
  induction gs with
  | nil => simp [askAll]
  | cons g gs ih => simp [askAll, ih]

/-- What several registries answer, cleared of duplicates. -/
def tidied (q : Query) (gs : List Registry) : Action (List TrustAnchor) := do pure (merge (← askAll q gs))

theorem tidied_append (q : Query) (gs hs : List Registry) : tidied q (gs ++ hs) = (do
    let here ← tidied q gs
    let more ← tidied q hs
    pure (distinct [] (here ++ more))) := by
  simp only [tidied, askAll_append, bind_assoc, pure_bind, Repository.merge_append]

theorem tidied_cons (q : Query) (g : Registry) (gs : List Registry) : tidied q (g :: gs) = (do
    let here ← (do pure (distinct [] (← g.find q)))
    let more ← tidied q gs
    pure (distinct [] (here ++ more))) := by
  simp only [tidied, askAll, bind_assoc, pure_bind, Repository.merge_cons]

/-- A registry comes to the same, without duplicates, as several others one after another. -/
def StandsFor (q : Query) (g : Registry) (gs : List Registry) : Prop :=
  (do pure (distinct [] (← g.find q))) = tidied q gs

theorem standsFor_self (q : Query) (g : Registry) : StandsFor q g [g] := by
  simp [StandsFor, tidied, askAll, merge]

theorem standsFor_merged {q : Query} {gs hs : List Registry} (h : tidied q gs = tidied q hs) :
    StandsFor q (merged gs) hs := by
  rw [StandsFor, ← h]
  simp only [merged, tidied, bind_assoc, pure_bind, Repository.distinct_merge]

theorem StandsFor.tidied_cons {q : Query} {g : Registry} {gs hs ks : List Registry} (hg : StandsFor q g hs)
    (hgs : tidied q gs = tidied q ks) : tidied q (g :: gs) = tidied q (hs ++ ks) := by
  rw [Registry.tidied_cons, tidied_append, ← hg, hgs]

end Registry

/-! ## Aggregates of aggregates -/

/-- Registries put together, and put together again. -/
inductive Nesting where
  | leaf (g : Registry)
  | together (first second : Nesting) (more : List Nesting)

namespace Nesting

open Registry (merged tidied StandsFor)

mutual

def registry : Nesting → Registry
  | leaf g => g
  | together first second more => merged (first.registry :: second.registry :: registries more)

def registries : List Nesting → List Registry
  | [] => []
  | t :: ts => t.registry :: registries ts

end

mutual

/-- The registries that are no aggregates, from left to right. -/
def leaves : Nesting → List Registry
  | leaf g => [g]
  | together first second more => first.leaves ++ (second.leaves ++ leavesAll more)

def leavesAll : List Nesting → List Registry
  | [] => []
  | t :: ts => t.leaves ++ leavesAll ts

end

mutual

theorem standsFor_leaves (q : Query) : ∀ t : Nesting, StandsFor q t.registry t.leaves
  | leaf g => by
    rw [registry, leaves]
    exact Registry.standsFor_self q g
  | together first second more => by
    rw [registry, leaves]
    refine Registry.standsFor_merged ?_
    exact (standsFor_leaves q first).tidied_cons ((standsFor_leaves q second).tidied_cons (tidied_registries q more))

theorem tidied_registries (q : Query) : ∀ ts : List Nesting, tidied q (registries ts) = tidied q (leavesAll ts)
  | [] => by rw [registries, leavesAll]
  | t :: ts => by
    rw [registries, leavesAll]
    exact (standsFor_leaves q t).tidied_cons (tidied_registries q ts)

end

/-- An aggregate of aggregates is the aggregate of the registries at its leaves. -/
theorem registry_together (first second : Nesting) (more : List Nesting) :
    (together first second more).registry = merged (together first second more).leaves := by
  refine congrArg Registry.mk (funext fun q => ?_)
  have htidied := tidied_registries q (first :: second :: more)
  rwa [registries, registries, leavesAll, leavesAll] at htidied

end Nesting

namespace Repository

mutual

/-- The shape in which a repository is put together. -/
def nesting : Repository → Nesting
  | together first second more => .together first.nesting second.nesting (nestings more)
  | r => .leaf (.ofRepository r)

def nestings : List Repository → List Nesting
  | [] => []
  | r :: rs => r.nesting :: nestings rs

end

mutual

/-- The repositories that are no aggregates, from left to right. -/
def leaves : Repository → List Repository
  | together first second more => first.leaves ++ (second.leaves ++ leavesAll more)
  | r => [r]

def leavesAll : List Repository → List Repository
  | [] => []
  | r :: rs => r.leaves ++ leavesAll rs

end

mutual

theorem registry_nesting : ∀ r : Repository, r.nesting.registry = .ofRepository r
  | together first second more => by
    rw [nesting, Nesting.registry, registry_nesting first, registry_nesting second, registries_nestings more,
      Registry.ofRepository_together]
    rfl
  | blobs _ _ => rfl
  | statements _ => rfl
  | fixed _ => rfl

theorem registries_nestings : ∀ rs : List Repository, Nesting.registries (nestings rs) = rs.map .ofRepository
  | [] => by rw [nestings, Nesting.registries, List.map_nil]
  | r :: rs => by rw [nestings, Nesting.registries, registry_nesting r, registries_nestings rs, List.map_cons]

end

mutual

theorem leaves_nesting : ∀ r : Repository, r.nesting.leaves = r.leaves.map .ofRepository
  | together first second more => by
    rw [nesting, Nesting.leaves, leaves, leaves_nesting first, leaves_nesting second, leavesAll_nestings more,
      List.map_append, List.map_append]
  | blobs _ _ => rfl
  | statements _ => rfl
  | fixed _ => rfl

theorem leavesAll_nestings : ∀ rs : List Repository,
    Nesting.leavesAll (nestings rs) = (leavesAll rs).map .ofRepository
  | [] => by rw [nestings, Nesting.leavesAll, leavesAll, List.map_nil]
  | r :: rs => by
    rw [nestings, Nesting.leavesAll, leavesAll, leaves_nesting r, leavesAll_nestings rs, List.map_append]

end

theorem leaves_ne_nil : ∀ r : Repository, r.leaves ≠ []
  | together first second more => by
    rw [leaves]
    exact List.append_ne_nil_of_left_ne_nil (leaves_ne_nil first) _
  | blobs _ _ => by simp [leaves]
  | statements _ => by simp [leaves]
  | fixed _ => by simp [leaves]

theorem exists_leaves_together (first second : Repository) (more : List Repository) :
    ∃ a b rest, (together first second more).leaves = a :: b :: rest := by
  rw [leaves]
  obtain ⟨a, as, ha⟩ := List.exists_cons_of_ne_nil (leaves_ne_nil first)
  obtain ⟨b, bs, hb⟩ := List.exists_cons_of_ne_nil (leaves_ne_nil second)
  rw [ha, hb]
  cases as with
  | nil => exact ⟨a, b, bs ++ leavesAll more, rfl⟩
  | cons c cs => exact ⟨a, c, cs ++ (b :: bs ++ leavesAll more), rfl⟩

/-- However repositories are put together, they answer as those at the leaves put together at once. -/
theorem find_together_of_leaves {first second a b : Repository} {more rest : List Repository}
    (h : (together first second more).leaves = a :: b :: rest) (q : Query) :
    find q (together first second more) = find q (together a b rest) := by
  have hsame : Registry.ofRepository (together first second more) = .ofRepository (together a b rest) := by
    have hnesting : (together first second more).nesting.registry =
        .merged (together first second more).nesting.leaves := by
      rw [nesting, Nesting.registry_together]
    rw [← registry_nesting, hnesting, leaves_nesting, h, Registry.ofRepository_together]
  exact congrFun (congrArg Registry.find hsame) q

/-! ## Lookups as callers make them -/

/-- What anchors are looked up by: the value given as the identifier of a model, or as that of a key. -/
inductive Sought where
  | aaguid (v : Value)
  | key (v : Value)

def look (r : Repository) : Sought → Action (List TrustAnchor)
  | .aaguid v => r.findByAaguid v
  | .key v => r.findByKey v

/-- A value is refused by every repository, or is nothing that any could know of, or is looked up in each. -/
theorem look_cases (s : Sought) : (∃ f, ∀ r : Repository, r.look s = throw f) ∨ (∀ r : Repository, r.look s = pure []) ∨
    ∃ q, ∀ r : Repository, r.look s = r.find q := by
  cases s with
  | key v => exact .inr (.inr ⟨.key v, fun r => rfl⟩)
  | aaguid v =>
    cases h : Aaguid.ofValue v with
    | error f => exact .inl ⟨f, fun r => by rw [look, findByAaguid, h]; rfl⟩
    | ok wanted =>
      cases wanted with
      | none => exact .inr (.inl fun r => by rw [look, findByAaguid, h]; rfl)
      | some bs => exact .inr (.inr ⟨.aaguid bs, fun r => by rw [look, findByAaguid, h]; rfl⟩)

theorem mapM_pure_nil (members : List Repository) :
    (members.mapM fun _ => (.ok [] : Except Failure (List TrustAnchor))) = .ok (members.map fun _ => []) := by
  induction members with
  | nil => rfl
  | cons m members ih => rw [List.mapM_cons, ih]; rfl

end Repository

/-- What comes of several answers: the first anchor of each certificate, or the failure that there is in their place. -/
def Comes (asked : Except Failure (List (List TrustAnchor))) (outcome : Except Failure (List TrustAnchor)) : Prop :=
  (∃ answers kept, asked = .ok answers ∧ outcome = .ok kept ∧ FirstOfEach answers kept) ∨
  ∃ f, asked = .error f ∧ outcome = .error f

namespace Registry

theorem find_merged (gs : List Registry) (q : Query) (w : World) :
    Comes (askAll q gs w).1 ((merged gs).find q w).1 ∧ ((merged gs).find q w).2 = (askAll q gs w).2 := by
  unfold merged
  dsimp only
  rw [Action.bind_apply]
  rcases askAll q gs w with ⟨f | answers, w'⟩
  · exact ⟨.inr ⟨f, rfl, rfl⟩, rfl⟩
  · exact ⟨.inl ⟨answers, Repository.merge answers, rfl, rfl, Repository.firstOfEach_merge answers⟩, rfl⟩

/-- Repositories answer the same in any world, so it does not matter in which each of them is asked. -/
theorem askAll_ofRepository (q : Query) (w₀ : World) : ∀ (rs : List Repository) (w : World),
    (askAll q (rs.map ofRepository) w).1 = rs.mapM fun r => (r.find q w₀).1
  | [], _ => rfl
  | r :: rs, w => by
    have hr : (r.find q w₀).1 = ((ofRepository r).find q w).1 := Repository.find_fst_eq q r w₀ w
    rw [List.map_cons, askAll, List.mapM_cons, Action.bind_apply, hr]
    rcases (ofRepository r).find q w with ⟨f | here, w'⟩
    · rfl
    · dsimp only
      rw [Action.bind_apply, ← askAll_ofRepository q w₀ rs w']
      rcases askAll q (rs.map ofRepository) w' with ⟨f | rest, w''⟩ <;> rfl

theorem find_together (q : Query) (first second : Repository) (more : List Repository) (w : World) :
    Comes ((first :: second :: more).mapM fun m => (m.find q w).1)
      ((Repository.together first second more).find q w).1 := by
  have hfind : (Repository.together first second more).find q =
      (merged ((first :: second :: more).map ofRepository)).find q :=
    congrFun (congrArg Registry.find (ofRepository_together first second more)) q
  rw [hfind, ← askAll_ofRepository q w (first :: second :: more) w]
  exact (find_merged _ q w).1

/-- **An aggregate keeps the first anchor of each certificate, whatever its shape.**  Registries together, be they what
they may, answer with the first anchor of each certificate that any of them answers with, or fail as the first of them
that fails; and an aggregate of aggregates, in any shape, is the aggregate of the registries at its leaves.  So it is
with several repositories, for every value that is looked up as the identifier of a model or of a key. -/
theorem aggregate_keeps_first :
    (∀ (gs : List Registry) (q : Query) (w : World),
      Comes (askAll q gs w).1 ((merged gs).find q w).1 ∧ ((merged gs).find q w).2 = (askAll q gs w).2) ∧
    (∀ (first second : Nesting) (more : List Nesting),
      (Nesting.together first second more).registry = merged (Nesting.together first second more).leaves) ∧
    ∀ first second more, ∃ r flat, Repository.aggregate (first :: second :: more) = .ok r ∧
      Repository.aggregate r.leaves = .ok flat ∧ (∀ s, flat.look s = r.look s) ∧
      ∀ s w, Comes ((first :: second :: more).mapM fun m => (m.look s w).1) (r.look s w).1 := by
  refine ⟨find_merged, Nesting.registry_together, fun first second more => ?_⟩
  obtain ⟨a, b, rest, hleaves⟩ := Repository.exists_leaves_together first second more
  refine ⟨.together first second more, .together a b rest, rfl, by rw [hleaves]; rfl, fun s => ?_, fun s w => ?_⟩
  · obtain ⟨f, hf⟩ | hnil | ⟨q, hq⟩ := Repository.look_cases s
    · rw [hf, hf]
    · rw [hnil, hnil]
    · rw [hq, hq, Repository.find_together_of_leaves hleaves]
  · obtain ⟨f, hf⟩ | hnil | ⟨q, hq⟩ := Repository.look_cases s
    · refine .inr ⟨f, ?_, by rw [hf]; rfl⟩
      rw [List.mapM_cons, hf]
      rfl
    · refine .inl ⟨(first :: second :: more).map fun _ => [], [], ?_, by rw [hnil]; rfl, firstOfEach_nil _⟩
      simp only [hnil]
      exact Repository.mapM_pure_nil _
    · simp only [hq]
      exact find_together q first second more w

end Registry
end AttestationTrust
