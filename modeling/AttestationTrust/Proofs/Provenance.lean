import AttestationTrust.Proofs.Anchors
import AttestationTrust.Proofs.Outcome
/-!
# Where published anchors come from

A run that becomes ready publishes a repository over what it has come by: the BLOBs that its endpoints served in their
turns (`Service.EndpointOffers`), and the statements in the files directly inside its directory
(`Service.FileOffers`).  A lookup in it draws on these and on nothing else, the endpoints before the files; every root
that they offer comes back as an anchor, if it loads, unless one of them is of a version that is not read: then the
lookup fails as a whole (`Service.run_publishes_offers`).
-/
namespace AttestationTrust

open X509 (Certificate)
open Anchors (DrawsOn Comprises)
open Metadata (Entry Payload Statement StatementFiles LocalStatements)

variable [Json.Limits] in
/-- The entries of a BLOB that has been accepted are as the schema reads them. -/
theorem Blob.settled_of_accept {root : Certificate} {blob : Bytes} {payload : Payload}
    (h : accept root blob = some (some payload)) : ∀ e ∈ payload.entries, e.Settled := by
  obtain ⟨signed, -, h⟩ := Option.bind_eq_some_iff.1 h
  obtain ⟨chain, -, h⟩ := Option.bind_eq_some_iff.1 h
  split at h
  · exact Payload.settled_of_ofValue (toOption_eq_some_iff.1 h)
  · cases h

/-! ## Files -/

namespace FileTree

/-- A path is that of a file directly inside a directory that can be listed. -/
def HasFile (t : FileTree) (directory path : String) : Prop := ∃ names name content readable,
  t.resolve? directory = some (names, .directory true) ∧ (names ++ [name], .file content readable) ∈ t.nodes ∧
    path = join directory name

theorem mem_insertSorted {s t : String} : ∀ {l : List String}, t ∈ insertSorted s l ↔ t = s ∨ t ∈ l
  | [] => by simp [insertSorted]
  | u :: l => by
    rw [insertSorted]
    split
    · rw [List.mem_cons, mem_insertSorted, List.mem_cons, or_left_comm]
    · rw [List.mem_cons]

theorem mem_sorted {t : String} : ∀ {l : List String}, t ∈ sorted l ↔ t ∈ l
  | [] => Iff.rfl
  | s :: l => by
    rw [sorted, List.foldr_cons, mem_insertSorted, List.mem_cons]
    exact or_congr_right mem_sorted

theorem childOf_eq_some_iff {names : List String} {entry : List String × FileNode} {name : String} :
    childOf names entry = some name ↔ ∃ content readable, entry = (names ++ [name], .file content readable) := by
  obtain ⟨place, node⟩ := entry
  cases node with
  | directory listable => simp [childOf]
  | file content readable =>
    simp only [childOf]
    constructor
    · intro h
      split at h
      · rename_i hplace
        obtain ⟨rfl, hne⟩ := hplace
        refine ⟨content, readable, ?_⟩
        rw [List.dropLast_append_getLast? name h]
      · cases h
    · rintro ⟨_, _, heq⟩
      cases heq
      simp

theorem exists_mem_list?_iff {t : FileTree} {directory path : String} :
    (∃ paths, t.list? directory = some paths ∧ path ∈ paths) ↔ t.HasFile directory path := by
  unfold list? HasFile
  split
  · rename_i names h
    simp only [Option.some.injEq, exists_eq_left', mem_sorted, List.mem_map, List.mem_filterMap, childOf_eq_some_iff]
    constructor
    · rintro ⟨name, ⟨entry, hentry, content, readable, rfl⟩, rfl⟩
      exact ⟨names, name, content, readable, h, hentry, rfl⟩
    · rintro ⟨names', name, content, readable, h', hentry, rfl⟩
      rw [h] at h'
      cases h'
      exact ⟨name, ⟨_, hentry, content, readable, rfl⟩, rfl⟩
  · rename_i hnone
    refine iff_of_false nofun ?_
    rintro ⟨names, name, content, readable, h, -⟩
    exact hnone names h

theorem HasFile.isDirectory {t : FileTree} {directory path : String} (h : t.HasFile directory path) :
    t.isDirectory directory = true := by
  obtain ⟨names, name, content, readable, h, -⟩ := h
  simp [FileTree.isDirectory, h]

end FileTree

namespace Metadata

variable [Json.Limits]

/-- The statements that have been loaded are those of the files that hold one. -/
theorem StatementFiles.mem_loadAll : ∀ {paths : List String} {w : World} {loaded : List (String × Statement)},
    (loadAll paths w).1 = .ok loaded → ∀ path s, (path, s) ∈ loaded ↔ path ∈ paths ∧ readFile path w.files = .ok s
  | [], w, loaded, h, path, s => by
    cases h
    simp
  | first :: paths, w, loaded, h, path, s => by
    cases hread : readFile first w.files with
    | ok found =>
      rw [loadAll_fst_of_ok hread] at h
      obtain ⟨rest, hrest, rfl⟩ := map_eq_ok_iff.1 h
      rw [List.mem_cons, mem_loadAll hrest, List.mem_cons, or_and_right, Prod.mk.injEq]
      refine or_congr_left (and_congr_right ?_)
      rintro rfl
      rw [hread, Except.ok.injEq, eq_comm]
    | error f =>
      cases hskipped : isSkipped f with
      | true =>
        rw [loadAll_of_skipped paths hread hskipped] at h
        rw [mem_loadAll h, List.mem_cons, or_and_right, or_iff_right]
        rintro ⟨rfl, hok⟩
        rw [hread] at hok
        cases hok
      | false =>
        rw [loadAll_fst_of_breaks ⟨hread, hskipped⟩] at h
        cases h

namespace LocalStatements

/-- The statements that have been found, each beside its path. -/
def loaded : LocalStatements → List (String × Statement)
  | .absent _ => []
  | .present files => files.loaded

/-- There are no files to load statements from, or those of the directory have been loaded. -/
theorem load_cases {directory : String} {w : World} {found : LocalStatements} (h : (load directory w).1 = .ok found) :
    (∀ path, ¬ w.files.HasFile directory path) ∧ found.loaded = [] ∨
    ∃ paths, w.files.list? directory = some paths ∧ (StatementFiles.loadAll paths w).1 = .ok found.loaded := by
  unfold load at h
  simp only [Action.bind_apply, Action.get_apply] at h
  cases hdir : w.files.isDirectory directory with
  | false =>
    simp only [hdir, Bool.not_false, if_true, Action.pure_apply, Except.ok.injEq] at h
    refine .inl ⟨fun path hfile => ?_, by rw [← h]; rfl⟩
    rw [hfile.isDirectory] at hdir
    cases hdir
  | true =>
    simp only [hdir, Bool.not_true, Bool.false_eq_true, if_false] at h
    cases hlist : w.files.list? directory with
    | none =>
      simp only [hlist, Action.bind_apply, Action.log_apply, Action.pure_apply, Except.ok.injEq] at h
      refine .inl ⟨fun path hfile => ?_, by rw [← h]; rfl⟩
      obtain ⟨paths, hpaths, -⟩ := FileTree.exists_mem_list?_iff.2 hfile
      cases hlist.symm.trans hpaths
    | some paths =>
      refine .inr ⟨paths, rfl, ?_⟩
      cases paths with
      | nil =>
        simp only [hlist, Action.bind_apply, Action.log_apply, Action.pure_apply, Except.ok.injEq] at h
        rw [← h]
        rfl
      | cons path paths =>
        simp only [hlist, StatementFiles.load, Action.bind_apply] at h
        rcases hall : StatementFiles.loadAll (path :: paths) w with ⟨f | all, w'⟩
        · rw [hall] at h
          cases h
        · rw [hall] at h
          simp only [Action.pure_apply] at h
          cases all with
          | nil =>
            simp only [List.isEmpty_nil, if_true, Action.bind_apply, Action.log_apply, Action.pure_apply,
              Except.ok.injEq] at h
            rw [← h]
            rfl
          | cons first all =>
            simp only [List.isEmpty_cons, Bool.false_eq_true, if_false, Action.bind_apply, Action.log_apply,
              Action.pure_apply, Except.ok.injEq] at h
            rw [← h]
            rfl

theorem mem_loaded {directory : String} {w : World} {found : LocalStatements}
    (h : (load directory w).1 = .ok found) (path : String) (s : Statement) : (path, s) ∈ found.loaded ↔
      w.files.HasFile directory path ∧ StatementFiles.readFile path w.files = .ok s := by
  obtain ⟨hnone, hloaded⟩ | ⟨paths, hlist, hall⟩ := load_cases h
  · rw [hloaded]
    exact iff_of_false nofun fun hs => hnone path hs.1
  · rw [StatementFiles.mem_loadAll hall, ← FileTree.exists_mem_list?_iff, hlist]
    simp

end LocalStatements
end Metadata

namespace Repository

/-- A repository is asked for the anchors of a model, or for those of a key. -/
inductive Asks (r : Repository) : Lookup → Action (List TrustAnchor) → Prop
  | model {v : Value} {bs : Bytes} (h : Aaguid.ofValue v = .ok (some bs)) : Asks r (.aaguid bs) (r.findByAaguid v)
  | key {v : Value} {bs : Bytes} (h : v.octets = .ok bs) : Asks r (.keyIdentifier bs) (r.findByKey v)

theorem Asks.exists_query {r : Repository} {wanted : Lookup} {ask : Action (List TrustAnchor)} (h : r.Asks wanted ask) :
    ∃ q bs, q.octets = .ok bs ∧ q.lookup bs = wanted ∧ ask = find q r := by
  cases h with
  | @model v bs h =>
    refine ⟨.aaguid bs, bs, rfl, rfl, funext fun w => ?_⟩
    have hwanted : Action.ofExcept (Aaguid.ofValue v) w = (.ok (some bs), w) := by rw [Action.ofExcept_apply, h]
    exact Action.bind_of_ok _ hwanted
  | @key v bs h => exact ⟨.key v, bs, h, rfl, rfl⟩

end Repository

namespace Service

variable [Json.Limits] {s s' : Service} {w w₀ w' : World} {root : Certificate} {timeout : Binary64} {providers : List Provider}
  {found : LocalStatements} {repository : Repository}

/-- An endpoint has come by a payload: in its turn a provider was made for it, the BLOB that it served was accepted
under the root certificate, and the check of its signers passed if there was one. -/
def ComesBy (s : Service) (root : Certificate) (timeout : Binary64) (w : World) (url : String) (payload : Payload) :
    Prop :=
  ∃ v blob,
    Provider.Turn (providerFactory root timeout) (s.settings.readFlag Setting.revocationCheck.key true) s.endpoints w
      url v ∧
    (∃ p, providerFactory root timeout url = .ok p) ∧
    (v.network.ask (.float timeout) url).1 = .ok blob ∧ Blob.accept root blob = some (some payload) ∧
    (s.settings.readFlag Setting.revocationCheck.key true = true →
      (Revocation.checkBlob blob root (.float timeout) (Action.fetch url (.float timeout) v).2).1 = .ok ())

/-- An endpoint offers a root for what is looked up: a trusted entry of a payload that it has come by does. -/
def EndpointOffers (s : Service) (root : Certificate) (timeout : Binary64) (w : World) (wanted : Lookup) (url : String)
    (bs : Bytes) : Prop :=
  ∃ payload, s.ComesBy root timeout w url payload ∧ ∃ e ∈ payload.entries, e.isTrusted? = .ok true ∧ e.Offers wanted bs

/-- A file directly inside the directory of the settings offers a root for what is looked up: the statement that it
holds does. -/
def FileOffers (s : Service) (w : World) (wanted : Lookup) (path : String) (bs : Bytes) : Prop :=
  w.files.HasFile (s.settings.readPath Setting.statements.key) path ∧
    ∃ statement, StatementFiles.readFile path w.files = .ok statement ∧ statement.Offers wanted bs

theorem comesBy_iff {url : String} {payload : Payload} : s.ComesBy root timeout w url payload ↔ ∃ v p,
    Provider.Turn (providerFactory root timeout) (s.settings.readFlag Setting.revocationCheck.key true) s.endpoints w
      url v ∧
    Provider.Kept (providerFactory root timeout) (s.settings.readFlag Setting.revocationCheck.key true) url v p ∧
    p.payload = some payload := by
  constructor
  · rintro ⟨v, blob, hturn, ⟨p, hp⟩, hfetch, haccept, hcheck⟩
    refine ⟨v, _, hturn, ⟨p, payload, hp, ⟨blob, ?_⟩, rfl⟩, rfl⟩
    obtain ⟨hurl, hroot, htimeout⟩ := providerFactory_binds root timeout url p hp
    dsimp only
    rw [hurl, hroot, htimeout]
    exact ⟨hfetch, haccept, hcheck⟩
  · rintro ⟨v, p, hturn, ⟨made, payload', hmade, ⟨blob, hobtains⟩, rfl⟩, hpayload⟩
    cases hpayload
    obtain ⟨hurl, hroot, htimeout⟩ := providerFactory_binds root timeout url made hmade
    dsimp only at hobtains
    rw [hurl, hroot, htimeout] at hobtains
    exact ⟨v, blob, hturn, ⟨made, hmade⟩, hobtains⟩

section Sources

variable (h : Provider.Survive (providerFactory root timeout)
  (s.settings.readFlag Setting.revocationCheck.key true) s.endpoints w₀ providers w')

include h

/-- What the providers of a run are sources of, its endpoints have come by. -/
theorem mem_sources_iff {url : String} {entries : List Entry} :
    (∃ source ∈ providers.map Provider.source, source.url = url ∧ source.entries = some entries) ↔
      ∃ payload, s.ComesBy root timeout w₀ url payload ∧ payload.entries = entries := by
  constructor
  · rintro ⟨_, hsource, rfl, hentries⟩
    obtain ⟨p, hp, rfl⟩ := List.mem_map.1 hsource
    obtain ⟨payload, hpayload, rfl⟩ := Option.map_eq_some_iff.1 hentries
    obtain ⟨url, v, hturn, hkept⟩ := h.mem_iff.1 hp
    obtain rfl : p.url = url := hkept.url_eq (providerFactory_binds root timeout)
    exact ⟨payload, comesBy_iff.2 ⟨v, p, hturn, hkept, hpayload⟩, rfl⟩
  · rintro ⟨payload, hcomes, rfl⟩
    obtain ⟨v, p, hturn, hkept, hpayload⟩ := comesBy_iff.1 hcomes
    refine ⟨p.source, List.mem_map_of_mem (h.mem_iff.2 ⟨url, v, hturn, hkept⟩), ?_, ?_⟩
    · exact hkept.url_eq (providerFactory_binds root timeout)
    · simp [Provider.source, hpayload]

theorem offers_iff_endpointOffers (wanted : Lookup) (url : String) (bs : Bytes) :
    (∃ source ∈ providers.map Provider.source, source.url = url ∧ source.Offers wanted bs) ↔
      s.EndpointOffers root timeout w₀ wanted url bs := by
  constructor
  · rintro ⟨source, hsource, hurl, entries, hentries, hoffers⟩
    obtain ⟨payload, hcomes, rfl⟩ := (mem_sources_iff h).1 ⟨source, hsource, hurl, hentries⟩
    exact ⟨payload, hcomes, hoffers⟩
  · rintro ⟨payload, hcomes, hoffers⟩
    obtain ⟨source, hsource, hurl, hentries⟩ := (mem_sources_iff h).2 ⟨payload, hcomes, rfl⟩
    exact ⟨source, hsource, hurl, payload.entries, hentries, hoffers⟩

theorem settled_sources : ∀ source ∈ providers.map Provider.source, ∀ entries, source.entries = some entries →
    ∀ e ∈ entries, e.Settled := by
  intro source hsource entries hentries
  obtain ⟨payload, ⟨v, blob, -, -, -, haccept, -⟩, rfl⟩ := (mem_sources_iff h).1 ⟨source, hsource, rfl, hentries⟩
  exact Blob.settled_of_accept haccept

end Sources

theorem fileOffers_iff (h : (s.statementsIn w).1 = .ok found) (wanted : Lookup) (path : String) (bs : Bytes) :
    (∃ statement, (path, statement) ∈ found.loaded ∧ statement.Offers wanted bs) ↔ s.FileOffers w wanted path bs := by
  simp only [LocalStatements.mem_loaded h, FileOffers, and_assoc, exists_and_left]

/-- A run that becomes ready publishes what a lookup is to draw on: the offers of its endpoints, then those of its
files. -/
theorem Ends.comprises (h : Ends s w s' (.ok .ready)) : ∃ root timeout log repository,
    s.rootIn w.files = .ok root ∧ s.settings.readTimeout = .ok timeout ∧ s'.validator = some ⟨repository, true⟩ ∧
    ∀ q bs v, Query.octets q = .ok bs →
      Comprises (Repository.find q repository v).1 (s.EndpointOffers root timeout { w with log := log } (q.lookup bs))
        (s.FileOffers w (q.lookup bs)) ∧
      ((∃ one other more, repository = .together one other more) → ∀ anchors,
        (Repository.find q repository v).1 = .ok anchors → (anchors.map TrustAnchor.certificate).Nodup) := by
  cases h with
  | @ready providers w' found repository hg hl hc =>
    have hloaded := hg.statements_fst.symm.trans hl
    obtain ⟨⟨root, timeout, hb⟩, -⟩ := hg
    obtain ⟨log, hsurvive⟩ := hb.survive
    refine ⟨root, timeout, log, repository, hb.loaded, hb.bounded, rfl, fun q bs v hq => ?_⟩
    have hendpoints : DrawsOn (Repository.find q (.blobs (providers.map Provider.source) true))
        (s.EndpointOffers root timeout { w with log := log } (q.lookup bs)) := by
      rw [Repository.find]
      exact (Repository.drawsOn_ofSources hq (settled_sources hsurvive)).congr fun url bs' =>
        (offers_iff_endpointOffers hsurvive _ url bs').symm
    have hfiles : ∀ files, found = .present files →
        DrawsOn (Repository.find q (.statements files)) (s.FileOffers w (q.lookup bs)) := by
      rintro files rfl
      rw [Repository.find]
      exact (Repository.drawsOn_ofStatements hq files.loaded).congr fun path bs' =>
        (fileOffers_iff hloaded _ path bs').symm
    by_cases hp : providers = []
    -- without a provider no endpoint has come by anything, and the repository holds the statements alone
    · subst hp
      cases found with
      | absent reason => cases hc
      | present files =>
        cases hc
        refine ⟨(hfiles files rfl).comprises_later (fun url bs' hoffers => ?_) v, nofun⟩
        obtain ⟨source, hsource, -⟩ := (offers_iff_endpointOffers hsurvive _ url bs').2 hoffers
        cases hsource
    · rw [blobRepository_of_ne_nil hp] at hc
      cases found with
      | absent reason =>
        cases hc
        refine ⟨hendpoints.comprises_first (fun path bs' hoffers => ?_) v, nofun⟩
        obtain ⟨statement, hstatement, -⟩ := (fileOffers_iff hloaded _ path bs').2 hoffers
        cases hstatement
      | present files =>
        cases hc
        obtain ⟨hcomprises, hnodup⟩ := Repository.comprises_together hendpoints (hfiles files rfl) v
        exact ⟨hcomprises, fun _ => hnodup⟩

/-- **Published anchors come from what the run has come by, and all of it is published.**  A lookup in the repository of
a run that becomes ready answers with anchors of the roots that its endpoints offer, and then of those that its files
offer; the certificate of every such root that loads is among them, and in an aggregate it is there once.  It answers
unless one of the roots is of a version that is not read, and then fails for that. -/
theorem run_publishes_offers (s : Service) (w : World) : ∃ s' r, (s.run w).1 = .ok (s', r) ∧ (r = .ok .ready →
    ∃ root timeout log repository,
      s.rootIn w.files = .ok root ∧ s.settings.readTimeout = .ok timeout ∧ s'.validator = some ⟨repository, true⟩ ∧
      ∀ wanted ask v, repository.Asks wanted ask →
        Comprises (ask v).1 (s.EndpointOffers root timeout { w with log := log } wanted) (s.FileOffers w wanted) ∧
        (∀ url bs, s.EndpointOffers root timeout { w with log := log } wanted url bs → url ∈ s.endpoints) ∧
        ((∃ one other more, repository = .together one other more) → ∀ anchors, (ask v).1 = .ok anchors →
          (anchors.map TrustAnchor.certificate).Nodup)) := by
  obtain ⟨s', r, hrun⟩ := exists_run_fst s w
  refine ⟨s', r, hrun, ?_⟩
  rintro rfl
  obtain ⟨root, timeout, log, repository, hroot, htimeout, hvalidator, hfind⟩ :=
    (run_fst_eq_ok_iff.1 hrun).comprises
  refine ⟨root, timeout, log, repository, hroot, htimeout, hvalidator, fun wanted ask v hasks => ?_⟩
  obtain ⟨q, bs, hq, rfl, rfl⟩ := hasks.exists_query
  obtain ⟨hcomprises, hnodup⟩ := hfind q bs v hq
  refine ⟨hcomprises, fun url bs' hoffers => ?_, hnodup⟩
  obtain ⟨payload, ⟨v', blob, hturn, -⟩, -⟩ := hoffers
  exact hturn.mem

end Service
end AttestationTrust
