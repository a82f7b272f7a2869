import AttestationTrust.Proofs.Directories
import AttestationTrust.Proofs.Faults
/-!
# Statements in the files of a directory

Of the files directly inside a directory each is loaded, left out or stumbled over, and which of these is settled by the
file alone (`FileTree.Uses`, `FileTree.Drops`, `FileTree.Trips`).  Where none is stumbled over, the statements of the
first kind are loaded in the order of their names and there is a record for each file of the second; the first that is
stumbled over ends the loading (`Metadata.LocalStatements.load_reads_each`).
-/
namespace AttestationTrust

open Metadata (Statement StatementFiles LocalStatements)
open Metadata.StatementFiles (Passes Breaks readFile isSkipped loadAll)

section

variable [Json.Limits]

theorem Metadata.StatementFiles.passes_iff_not_breaks {files : FileTree} {path : String} :
    Passes files path ↔ ∀ f, ¬ Breaks files path f := by
  unfold Passes Breaks
  simp

namespace FileTree

variable {t t' : FileTree} {place : List String} {directory name name' : String} {content : Option Bytes}
  {s s' : Statement} {f f' : Failure} {new : FileNode}

/-- A file directly inside a directory that can be listed, and what it holds if it can be read. -/
inductive Holds (t : FileTree) (directory name : String) : Option Bytes → Prop
  | readable {place : List String} {bs : Bytes} (hdir : t.resolve? directory = some (place, .directory true))
      (h : (place ++ [name], .file bs true) ∈ t.nodes) : Holds t directory name (some bs)
  | unreadable {place : List String} {bs : Bytes} (hdir : t.resolve? directory = some (place, .directory true))
      (h : (place ++ [name], .file bs false) ∈ t.nodes) : Holds t directory name none

/-- A file directly inside a directory holds a statement. -/
def Uses (t : FileTree) (directory name : String) (s : Statement) : Prop :=
  ∃ bs, t.Holds directory name (some bs) ∧ Statement.parse (join directory name) bs = .ok s

/-- A file directly inside a directory cannot be read or holds no statement, and why. -/
inductive Drops (t : FileTree) (directory name : String) : Failure → Prop
  | unreadable (h : t.Holds directory name none) : Drops t directory name .unreadable
  | unfit {bs : Bytes} {g : StatementFault} (h : t.Holds directory name (some bs))
      (hp : Statement.parse (join directory name) bs = .error (.statement g)) : Drops t directory name (.statement g)

/-- A file directly inside a directory holds a document that defeats its reader. -/
def Trips (t : FileTree) (directory name : String) (f : Failure) : Prop :=
  ∃ bs, t.Holds directory name (some bs) ∧ Statement.Defeats bs f

/-! ## What a file comes to -/

theorem IsProper.readFile_of_resolve? {path : String} {bs : Bytes} {readable : Bool} (h : t.IsProper)
    (hpath : t.resolve? path = some (place, .file bs readable)) :
    readFile path t = if readable then Statement.parse path bs else .error .unreadable := by
  have hzero : (path.toList.any fun c => c.toNat == 0) = false := by simpa using h.zeroless hpath
  cases readable <;> simp [readFile, hzero, read?, hpath]

theorem IsProper.readFile_eq (h : t.IsProper) (hc : t.Holds directory name content) :
    readFile (join directory name) t =
      match content with
      | some bs => Statement.parse (join directory name) bs
      | none => .error .unreadable := by
  cases hc with
  | readable hdir hmem => exact h.readFile_of_resolve? (h.resolve?_join hdir hmem)
  | unreadable hdir hmem => exact h.readFile_of_resolve? (h.resolve?_join hdir hmem)

theorem IsProper.uses_iff (h : t.IsProper) : t.Uses directory name s ↔
    (∃ content, t.Holds directory name content) ∧ readFile (join directory name) t = .ok s := by
  constructor
  · rintro ⟨bs, hc, hs⟩
    exact ⟨⟨_, hc⟩, by rw [h.readFile_eq hc, ← hs]⟩
  · rintro ⟨⟨content, hc⟩, hs⟩
    rw [h.readFile_eq hc] at hs
    cases content with
    | none => cases hs
    | some bs => exact ⟨bs, hc, hs⟩

theorem IsProper.drops_iff (h : t.IsProper) : t.Drops directory name f ↔
    (∃ content, t.Holds directory name content) ∧ readFile (join directory name) t = .error f ∧ isSkipped f = true := by
  constructor
  · intro hd
    cases hd with
    | unreadable hc => exact ⟨⟨_, hc⟩, h.readFile_eq hc, rfl⟩
    | unfit hc hp => exact ⟨⟨_, hc⟩, by rw [h.readFile_eq hc, ← hp], rfl⟩
  · rintro ⟨⟨content, hc⟩, hread, hs⟩
    rw [h.readFile_eq hc] at hread
    cases content with
    | none =>
      cases hread
      exact .unreadable hc
    | some bs =>
      obtain ⟨g, rfl⟩ | hdefeats := Statement.parse_error_cases hread
      · exact .unfit hc hread
      · rw [(hdefeats.parse_eq_error (join directory name)).2] at hs
        cases hs

theorem IsProper.trips_iff (h : t.IsProper) : t.Trips directory name f ↔
    (∃ content, t.Holds directory name content) ∧ Breaks t (join directory name) f := by
  constructor
  · rintro ⟨bs, hc, hdefeats⟩
    obtain ⟨hp, hs⟩ := hdefeats.parse_eq_error (join directory name)
    exact ⟨⟨_, hc⟩, by rw [h.readFile_eq hc, ← hp], hs⟩
  · rintro ⟨⟨content, hc⟩, hread, hs⟩
    rw [h.readFile_eq hc] at hread
    cases content with
    | none =>
      cases hread
      cases hs
    | some bs => exact ⟨bs, hc, Statement.defeats_iff.1 ⟨hread, hs⟩⟩

theorem IsProper.passes_iff (h : t.IsProper) (hc : t.Holds directory name content) :
    Passes t (join directory name) ↔ ∀ f, ¬ t.Trips directory name f := by
  rw [Metadata.StatementFiles.passes_iff_not_breaks]
  exact forall_congr' fun f => not_congr ((h.trips_iff.trans (and_iff_right ⟨_, hc⟩)).symm)

theorem IsProper.not_uses_of_drops (h : t.IsProper) (hd : t.Drops directory name f) : ¬ t.Uses directory name s := by
  intro hs
  have hread := (h.drops_iff.1 hd).2.1
  rw [(h.uses_iff.1 hs).2] at hread
  cases hread

theorem IsProper.not_trips_of_drops (h : t.IsProper) (hd : t.Drops directory name f) : ¬ t.Trips directory name f' := by
  intro htrips
  obtain ⟨-, hread, hs⟩ := h.drops_iff.1 hd
  obtain ⟨-, hread', hs'⟩ := h.trips_iff.1 htrips
  rw [hread] at hread'
  cases hread'
  rw [hs] at hs'
  cases hs'

omit [Json.Limits] in
theorem holds_iff (hdir : t.resolve? directory = some (place, .directory true)) :
    (∃ content, t.Holds directory name content) ↔ ∃ bs readable, (place ++ [name], .file bs readable) ∈ t.nodes := by
  constructor
  · rintro ⟨content, hc⟩
    cases hc with
    | readable hdir' hmem =>
      cases hdir.symm.trans hdir'
      exact ⟨_, _, hmem⟩
    | unreadable hdir' hmem =>
      cases hdir.symm.trans hdir'
      exact ⟨_, _, hmem⟩
  · rintro ⟨bs, readable, hmem⟩
    cases readable with
    | true => exact ⟨_, .readable hdir hmem⟩
    | false => exact ⟨_, .unreadable hdir hmem⟩

omit [Json.Limits] in
theorem Holds.exists_place (h : t.Holds directory name content) :
    ∃ place, t.resolve? directory = some (place, .directory true) := by
  cases h with
  | readable hdir hmem => exact ⟨_, hdir⟩
  | unreadable hdir hmem => exact ⟨_, hdir⟩

/-! ## One file more -/

section Adds

variable (hdir : t.resolve? directory = some (place, .directory true)) (hadds : t.Adds (place ++ [name]) new t')

include hadds

omit [Json.Limits] in
theorem Holds.of_adds (h : t.Holds directory name' content) : t'.Holds directory name' content := by
  cases h with
  | readable hdir' hmem => exact .readable (hadds.resolve? hdir') (hadds.mem_iff.2 (.inr hmem))
  | unreadable hdir' hmem => exact .unreadable (hadds.resolve? hdir') (hadds.mem_iff.2 (.inr hmem))

include hdir

omit [Json.Limits] in
theorem Holds.cases_adds (h : t'.Holds directory name' content) : name' = name ∨ t.Holds directory name' content := by
  have hplace := hadds.resolve? hdir
  have hnew : ∀ {n}, (place ++ [name'], n) = (place ++ [name], new) → name' = name := by
    intro n heq
    simpa using (Prod.mk.inj heq).1
  cases h with
  | readable hdir' hmem =>
    cases hplace.symm.trans hdir'
    exact (hadds.mem_iff.1 hmem).imp hnew (.readable hdir)
  | unreadable hdir' hmem =>
    cases hplace.symm.trans hdir'
    exact (hadds.mem_iff.1 hmem).imp hnew (.unreadable hdir)

theorem uses_iff_of_adds (hd : t'.Drops directory name f) : t'.Uses directory name' s ↔ t.Uses directory name' s := by
  constructor
  · rintro ⟨bs, hc, hs⟩
    obtain rfl | hc' := hc.cases_adds hdir hadds
    · exact absurd ⟨bs, hc, hs⟩ (hadds.proper.not_uses_of_drops hd)
    · exact ⟨bs, hc', hs⟩
  · rintro ⟨bs, hc, hs⟩
    exact ⟨bs, hc.of_adds hadds, hs⟩

theorem trips_iff_of_adds (hd : t'.Drops directory name f) :
    t'.Trips directory name' f' ↔ t.Trips directory name' f' := by
  constructor
  · rintro ⟨bs, hc, hdefeats⟩
    obtain rfl | hc' := hc.cases_adds hdir hadds
    · exact absurd ⟨bs, hc, hdefeats⟩ (hadds.proper.not_trips_of_drops hd)
    · exact ⟨bs, hc', hdefeats⟩
  · rintro ⟨bs, hc, hdefeats⟩
    exact ⟨bs, hc.of_adds hadds, hdefeats⟩

end Adds

omit [Json.Limits] in
theorem exists_place_of_list? {paths : List String} (h : t.list? directory = some paths) :
    ∃ place, t.resolve? directory = some (place, .directory true) := by
  unfold list? at h
  split at h
  · rename_i place hdir
    exact ⟨place, hdir⟩
  · cases h

end FileTree

end

/-- A list has what stands in a relation to a name, in the order of the names. -/
structure Enumerates {β : Type} (R : String → β → Prop) (l : List (String × β)) : Prop where
  ordered : (l.map Prod.fst).Pairwise (· < ·)
  mem : ∀ name x, (name, x) ∈ l ↔ R name x

namespace Enumerates

variable {β : Type} {R R' : String → β → Prop} {l l' : List (String × β)} {names : List String}

theorem nil (h : ∀ name x, ¬ R name x) : Enumerates R [] := ⟨.nil, fun name x => by simp [h]⟩

theorem filterMap (g : String → Option β) (hnames : names.Pairwise (· < ·))
    (h : ∀ name x, R name x ↔ name ∈ names ∧ g name = some x) :
    Enumerates R (names.filterMap fun name => (g name).map fun x => (name, x)) := by
  refine ⟨?_, fun name x => ?_⟩
  · refine List.pairwise_map.2 (List.pairwise_filterMap.2 (hnames.imp fun hlt a ha b hb => ?_))
    obtain ⟨x, -, rfl⟩ := Option.map_eq_some_iff.1 ha
    obtain ⟨y, -, rfl⟩ := Option.map_eq_some_iff.1 hb
    exact hlt
  · rw [h, List.mem_filterMap]
    constructor
    · rintro ⟨other, hother, hx⟩
      obtain ⟨y, hy, heq⟩ := Option.map_eq_some_iff.1 hx
      cases heq
      exact ⟨hother, hy⟩
    · rintro ⟨hname, hx⟩
      exact ⟨name, hname, by rw [hx, Option.map_some]⟩

theorem unique (h : Enumerates R l) (h' : Enumerates R' l') (hR : ∀ name x, R name x ↔ R' name x) : l = l' := by
  have hlt := List.pairwise_map.1 h.ordered
  have hlt' := List.pairwise_map.1 h'.ordered
  have hne : ∀ {a b : String × β}, a.1 < b.1 → a ≠ b := fun hab heq => (heq ▸ hab).ne rfl
  have hperm : l.Perm l' := by
    refine (List.perm_ext_iff_of_nodup (hlt.imp hne) (hlt'.imp hne)).2 fun entry => ?_
    rw [h.mem, h'.mem, hR]
  refine hperm.eq_of_pairwise (fun a b _ _ hab hba => ?_) hlt hlt'
  exact absurd hab hba.asymm

theorem ne_nil_iff (h : Enumerates R l) : l ≠ [] ↔ ∃ name x, R name x := by
  constructor
  · intro hne
    obtain ⟨⟨name, x⟩, hmem⟩ := List.exists_mem_of_ne_nil l hne
    exact ⟨name, x, (h.mem name x).1 hmem⟩
  · rintro ⟨name, x, hx⟩
    exact List.ne_nil_of_mem ((h.mem name x).2 hx)

end Enumerates

namespace Metadata

namespace StatementFiles

variable [Json.Limits] {files : FileTree} {path : String} {w : World}

def usable (files : FileTree) (path : String) : Option (String × Statement) :=
  match readFile path files with
  | .ok s => some (path, s)
  | .error _ => none

def complaint (files : FileTree) (path : String) : Option LogRecord :=
  match readFile path files with
  | .ok _ => none
  | .error f => some (skipping path f)

theorem loadAll_cons_of_ok {s : Statement} {paths : List String} {loaded : List (String × Statement)} {w' : World}
    (h : readFile path w.files = .ok s) (hpaths : loadAll paths w = (.ok loaded, w')) :
    loadAll (path :: paths) w = (.ok ((path, s) :: loaded), w') := by
  simp only [loadAll, Action.bind_apply, Action.get_apply, h, hpaths, Action.pure_apply]

/-- Where nothing breaks the loading, every path is loaded or complained of. -/
theorem loadAll_of_passes : ∀ {paths : List String} {w : World}, (∀ path ∈ paths, Passes w.files path) →
    loadAll paths w = (.ok (paths.filterMap (usable w.files)),
      { w with log := w.log ++ paths.filterMap (complaint w.files) })
  | [], w, _ => by simp [loadAll]
  | path :: paths, w, h => by
    obtain ⟨hpath, hpaths⟩ := List.forall_mem_cons.1 h
    cases hread : readFile path w.files with
    | ok s =>
      have husable : usable w.files path = some (path, s) := by rw [usable, hread]
      have hsilent : complaint w.files path = none := by rw [complaint, hread]
      rw [List.filterMap_cons_some husable, List.filterMap_cons_none hsilent]
      exact loadAll_cons_of_ok hread (loadAll_of_passes hpaths)
    | error f =>
      have husable : usable w.files path = none := by rw [usable, hread]
      have hloud : complaint w.files path = some (skipping path f) := by rw [complaint, hread]
      rw [List.filterMap_cons_none husable, List.filterMap_cons_some hloud]
      have hlater := loadAll_of_passes (w := { w with log := w.log ++ [skipping path f] }) hpaths
      rw [loadAll_of_skipped paths hread (hpath f hread), hlater, List.append_assoc, List.singleton_append]

end StatementFiles
namespace LocalStatements

open StatementFiles (usable complaint skipping)

section

variable [Json.Limits] {directory name : String} {paths names place : List String} {w : World} {f : Failure}
  {t' : FileTree}
  {new : FileNode}

theorem load_of_unlisted (hlist : w.files.list? directory = none) :
    ∃ reason last, load directory w = (.ok (.absent reason), { w with log := w.log ++ last }) := by
  unfold load
  simp only [Action.bind_apply, Action.get_apply]
  cases w.files.isDirectory directory with
  | false => exact ⟨notConfigured, [], by simp⟩
  | true =>
    rw [hlist]
    exact ⟨_, [_], rfl⟩

/-- Where nothing breaks the loading, what is usable is loaded, and counts unless it is nothing. -/
theorem load_of_passes (hlist : w.files.list? directory = some paths) (hpasses : ∀ path ∈ paths, Passes w.files path) :
    ∃ found last, load directory w =
        (.ok found, { w with log := w.log ++ (paths.filterMap (complaint w.files) ++ last) }) ∧
      found.loaded = paths.filterMap (usable w.files) ∧
      ((∃ files, found = .present files) ↔ paths.filterMap (usable w.files) ≠ []) := by
  obtain ⟨place, hplace⟩ := FileTree.exists_place_of_list? hlist
  have hdir : w.files.isDirectory directory = true := by rw [FileTree.isDirectory, hplace]
  cases paths with
  | nil =>
    refine ⟨.absent emptyDirectory,
      [⟨.debug, StatementFiles.topic, "No metadata statements found in the configured directory."⟩], ?_, rfl, by simp⟩
    simp only [load, Action.bind_apply, Action.get_apply, hdir, hlist, Bool.not_true, Bool.false_eq_true, if_false]
    rfl
  | cons path paths =>
    have hall := StatementFiles.loadAll_of_passes hpasses
    simp only [load, StatementFiles.load, Action.bind_apply, Action.get_apply, hdir, hlist, Bool.not_true,
      Bool.false_eq_true, if_false, hall, Action.pure_apply]
    cases hloaded : (path :: paths).filterMap (usable w.files) with
    | nil =>
      refine ⟨.absent noneUsable, [⟨.warning, StatementFiles.topic,
        "None of the files in " ++ directory ++ " contained a usable metadata statement."⟩], ?_, rfl, by simp⟩
      simp only [List.isEmpty_nil, if_true, Action.bind_apply, Action.log_apply, Action.pure_apply, World.record,
        List.append_assoc]
    | cons first rest =>
      refine ⟨.present ⟨path :: paths, first :: rest⟩, [⟨.info, StatementFiles.topic,
        "Loaded " ++ toString (first :: rest).length ++ " local metadata statements from " ++ directory ++ "."⟩], ?_,
        rfl, by simp⟩
      simp only [List.isEmpty_cons, Bool.false_eq_true, if_false, Action.bind_apply, Action.log_apply,
        Action.pure_apply, World.record, List.append_assoc, StatementFiles.size]

/-! ## The files of a directory -/

theorem enumerates_uses (h : w.files.IsProper) (hnames : names.Pairwise (· < ·))
    (hmem : ∀ name, name ∈ names ↔ ∃ content, w.files.Holds directory name content) : ∃ used,
    Enumerates (w.files.Uses directory) used ∧
      (names.map (FileTree.join directory)).filterMap (usable w.files) =
        used.map fun entry => (FileTree.join directory entry.1, entry.2) := by
  let g := fun name => (readFile (FileTree.join directory name) w.files).toOption
  refine ⟨names.filterMap fun name => (g name).map fun s => (name, s), .filterMap g hnames fun name s => ?_, ?_⟩
  · rw [h.uses_iff, ← hmem]
    exact and_congr_right fun _ => toOption_eq_some_iff.symm
  · rw [List.filterMap_map, List.map_filterMap]
    refine List.filterMap_congr fun name _ => ?_
    show usable w.files (FileTree.join directory name) = _
    unfold usable
    cases hread : readFile (FileTree.join directory name) w.files <;> simp [g, hread, Except.toOption]

theorem enumerates_drops (h : w.files.IsProper) (hnames : names.Pairwise (· < ·))
    (hmem : ∀ name, name ∈ names ↔ ∃ content, w.files.Holds directory name content)
    (hpasses : ∀ name ∈ names, Passes w.files (FileTree.join directory name)) : ∃ dropped,
    Enumerates (w.files.Drops directory) dropped ∧
      (names.map (FileTree.join directory)).filterMap (complaint w.files) =
        dropped.map fun entry => skipping (FileTree.join directory entry.1) entry.2 := by
  let g := fun name =>
    match readFile (FileTree.join directory name) w.files with
    | .ok _ => none
    | .error f => some f
  refine ⟨names.filterMap fun name => (g name).map fun f => (name, f), .filterMap g hnames fun name f => ?_, ?_⟩
  · rw [h.drops_iff, ← hmem]
    refine and_congr_right fun hname => ?_
    have hskips := hpasses name hname f
    cases hread : readFile (FileTree.join directory name) w.files with
    | ok s => simp [g, hread]
    | error f' =>
      rw [hread] at hskips
      simp only [g, hread, Except.error.injEq, Option.some.injEq]
      exact and_iff_left_of_imp fun heq => hskips (by rw [heq])
  · rw [List.filterMap_map, List.map_filterMap]
    refine List.filterMap_congr fun name _ => ?_
    show complaint w.files (FileTree.join directory name) = _
    unfold complaint
    cases hread : readFile (FileTree.join directory name) w.files <;> simp [g, hread]

omit [Json.Limits] in
theorem exists_names (h : w.files.IsProper) (hdir : w.files.resolve? directory = some (place, .directory true)) :
    ∃ names : List String, w.files.list? directory = some (names.map (FileTree.join directory)) ∧
      names.Pairwise (· < ·) ∧ ∀ name, name ∈ names ↔ ∃ content, w.files.Holds directory name content := by
  obtain ⟨names, hlist, hnames, hmem⟩ := h.exists_names hdir
  exact ⟨names, hlist, hnames, fun name => (hmem name).trans (FileTree.holds_iff hdir).symm⟩

/-- The loading fails for the first file that is stumbled over. -/
theorem load_fst_eq_error_iff_trips (h : w.files.IsProper) : (load directory w).1 = .error f ↔
    ∃ name, w.files.Trips directory name f ∧ ∀ other f', w.files.Trips directory other f' → name ≤ other := by
  rw [load_fst_eq_error_iff]
  constructor
  · rintro ⟨-, before, path, after, hlist, hbefore, hbreaks⟩
    obtain ⟨place, hdir⟩ := FileTree.exists_place_of_list? hlist
    obtain ⟨names, hlist', hnames, hmem⟩ := exists_names h hdir
    rw [hlist, Option.some.injEq] at hlist'
    obtain ⟨first, rest, rfl, rfl, hrest⟩ := List.map_eq_append_iff.1 hlist'.symm
    obtain ⟨name, last, rfl, rfl, rfl⟩ := List.map_eq_cons_iff.1 hrest
    obtain ⟨content, hc⟩ := (hmem name).1 (by simp)
    refine ⟨name, h.trips_iff.2 ⟨⟨content, hc⟩, hbreaks⟩, fun other f' hother => ?_⟩
    obtain ⟨⟨content', hc'⟩, hbreaks'⟩ := h.trips_iff.1 hother
    obtain hfirst | hlast := List.mem_append.1 ((hmem other).2 ⟨content', hc'⟩)
    · exact absurd hbreaks' (hbefore _ (List.mem_map_of_mem hfirst)).not_breaks
    · obtain rfl | hlast := List.mem_cons.1 hlast
      · exact le_rfl
      · exact ((List.pairwise_cons.1 (List.pairwise_append.1 hnames).2.1).1 other hlast).le
  · rintro ⟨name, htrips, hfirst⟩
    obtain ⟨⟨content, hc⟩, hbreaks⟩ := h.trips_iff.1 htrips
    obtain ⟨place, hdir⟩ := hc.exists_place
    obtain ⟨names, hlist, hnames, hmem⟩ := exists_names h hdir
    obtain ⟨before, after, rfl⟩ := List.append_of_mem ((hmem name).2 ⟨content, hc⟩)
    refine ⟨by rw [FileTree.isDirectory, hdir], before.map (FileTree.join directory), FileTree.join directory name,
      after.map (FileTree.join directory), ?_, fun path hpath => ?_, hbreaks⟩
    · rw [hlist, List.map_append, List.map_cons]
    · obtain ⟨other, hother, rfl⟩ := List.mem_map.1 hpath
      obtain ⟨content', hc'⟩ := (hmem other).1 (List.mem_append_left _ hother)
      refine (h.passes_iff hc').2 fun f' htrips' => ?_
      have hlt : other < name := (List.pairwise_append.1 hnames).2.2 other hother name List.mem_cons_self
      exact absurd (hfirst other f' htrips') hlt.not_ge

/-- Where no file is stumbled over, those that hold a statement are loaded and the others are complained of. -/
theorem load_of_not_trips (h : w.files.IsProper) (hnone : ∀ name f, ¬ w.files.Trips directory name f) :
    ∃ found used dropped last, Enumerates (w.files.Uses directory) used ∧
      Enumerates (w.files.Drops directory) dropped ∧
      load directory w = (.ok found, { w with
        log := w.log ++ (dropped.map (fun entry => skipping (FileTree.join directory entry.1) entry.2) ++ last) }) ∧
      found.loaded = used.map (fun entry => (FileTree.join directory entry.1, entry.2)) ∧
      ((∃ files, found = .present files) ↔ ∃ name s, w.files.Uses directory name s) := by
  by_cases hdir : ∃ place, w.files.resolve? directory = some (place, .directory true)
  · obtain ⟨place, hdir⟩ := hdir
    obtain ⟨names, hlist, hnames, hmem⟩ := exists_names h hdir
    have hpasses : ∀ name ∈ names, Passes w.files (FileTree.join directory name) := by
      intro name hname
      obtain ⟨content, hc⟩ := (hmem name).1 hname
      exact (h.passes_iff hc).2 (hnone name)
    obtain ⟨found, last, hload, hloaded, hpresent⟩ := load_of_passes hlist (List.forall_mem_map.2 hpasses)
    obtain ⟨used, hused, husable⟩ := enumerates_uses h hnames hmem
    obtain ⟨dropped, hdropped, hcomplaints⟩ := enumerates_drops h hnames hmem hpasses
    rw [husable] at hloaded hpresent
    rw [hcomplaints] at hload
    refine ⟨found, used, dropped, last, hused, hdropped, hload, hloaded, ?_⟩
    rw [hpresent, ← hused.ne_nil_iff]
    exact not_congr List.map_eq_nil_iff
  · have hholds : ∀ name content, ¬ w.files.Holds directory name content := fun name content hc => hdir hc.exists_place
    have hlist : w.files.list? directory = none := by
      cases hpaths : w.files.list? directory with
      | none => rfl
      | some paths => exact absurd (FileTree.exists_place_of_list? hpaths) hdir
    have huses : ∀ name s, ¬ w.files.Uses directory name s := fun name s ⟨bs, hc, _⟩ => hholds name _ hc
    have hdrops : ∀ name f, ¬ w.files.Drops directory name f := fun name f hd =>
      have ⟨content, hc⟩ := (h.drops_iff.1 hd).1
      hholds name content hc
    obtain ⟨reason, last, hload⟩ := load_of_unlisted hlist
    refine ⟨_, [], [], last, .nil huses, .nil hdrops, hload, rfl, ?_⟩
    refine iff_of_false nofun ?_
    rintro ⟨name, s, hs⟩
    exact huses name s hs

theorem exists_load_fst_eq_error_iff (h : w.files.IsProper) :
    (∃ f, (load directory w).1 = .error f) ↔ ∃ name f, w.files.Trips directory name f := by
  constructor
  · rintro ⟨f, hf⟩
    obtain ⟨name, htrips, -⟩ := (load_fst_eq_error_iff_trips h).1 hf
    exact ⟨name, f, htrips⟩
  · rintro ⟨name, f, htrips⟩
    by_contra hnone
    have hbreaks := (h.trips_iff.1 htrips).2
    obtain ⟨⟨content, hc⟩, -⟩ := h.trips_iff.1 htrips
    obtain ⟨place, hdir⟩ := hc.exists_place
    obtain ⟨names, hlist, -, hmem⟩ := exists_names h hdir
    have hpath := List.mem_map_of_mem (f := FileTree.join directory) ((hmem name).2 ⟨content, hc⟩)
    obtain ⟨before, path, after, heq, hbefore, g, hg⟩ :=
      exists_first_of_exists (P := fun path => ∃ g, Breaks w.files path g) ⟨_, hpath, f, hbreaks⟩
    refine hnone ⟨g, load_fst_eq_error_iff.2 ⟨by rw [FileTree.isDirectory, hdir], before, path, after, ?_, ?_, hg⟩⟩
    · rw [hlist, heq]
    · exact fun b hb => StatementFiles.passes_iff_not_breaks.2 (not_exists.1 (hbefore b hb))

/-- What is loaded is settled by the files that hold a statement and those that are stumbled over. -/
theorem load_fst_congr {w' : World} (h : w.files.IsProper) (h' : w'.files.IsProper)
    (huses : ∀ name s, w'.files.Uses directory name s ↔ w.files.Uses directory name s)
    (htrips : ∀ name f, w'.files.Trips directory name f ↔ w.files.Trips directory name f) :
    (load directory w').1.map loaded = (load directory w).1.map loaded := by
  by_cases hsome : ∃ name f, w.files.Trips directory name f
  · obtain ⟨f, hf⟩ := (exists_load_fst_eq_error_iff h).2 hsome
    have hf' := hf
    rw [load_fst_eq_error_iff_trips h] at hf'
    simp only [← htrips] at hf'
    rw [hf, (load_fst_eq_error_iff_trips h').2 hf']
  · have hnone : ∀ name f, ¬ w.files.Trips directory name f := fun name f ht => hsome ⟨name, f, ht⟩
    obtain ⟨found, used, _, _, hused, -, hload, hloaded, -⟩ := load_of_not_trips h hnone
    obtain ⟨found', used', _, _, hused', -, hload', hloaded', -⟩ :=
      load_of_not_trips h' fun name f => mt (htrips name f).1 (hnone name f)
    obtain rfl : used' = used := hused'.unique hused huses
    rw [hload, hload']
    exact congrArg Except.ok (hloaded'.trans hloaded.symm)

/-- **Each file of a directory is loaded, left out or stumbled over by itself.**  Loading fails if and only if a file is
stumbled over: one that holds a document whose parts stand too deep inside each other, or a part that a schema trips over;
the first such file is what it fails for.  Where there is none, the files that hold a statement are loaded, each statement
beside the path of its file and in the order of the names, and there is something to count if and only if there is such a
file; every other file is complained of, in the same order.  One more file that can be left out changes nothing of what
is loaded, and one that is stumbled over takes all of it down. -/
theorem load_reads_each (directory : String) (w : World) (h : w.files.IsProper) :
    (∀ f, (load directory w).1 = .error f ↔
      ∃ name, w.files.Trips directory name f ∧ ∀ other f', w.files.Trips directory other f' → name ≤ other) ∧
    ((∃ f, (load directory w).1 = .error f) ↔ ∃ name f, w.files.Trips directory name f) ∧
    ((∀ name f, ¬ w.files.Trips directory name f) → ∃ found used dropped last,
      Enumerates (w.files.Uses directory) used ∧ Enumerates (w.files.Drops directory) dropped ∧
      load directory w = (.ok found, { w with
        log := w.log ++ (dropped.map (fun entry => skipping (FileTree.join directory entry.1) entry.2) ++ last) }) ∧
      found.loaded = used.map (fun entry => (FileTree.join directory entry.1, entry.2)) ∧
      ((∃ files, found = .present files) ↔ ∃ name s, w.files.Uses directory name s)) ∧
    ∀ place name new t', w.files.resolve? directory = some (place, .directory true) →
      w.files.Adds (place ++ [name]) new t' →
      (∀ f, t'.Drops directory name f →
        (load directory { w with files := t' }).1.map loaded = (load directory w).1.map loaded) ∧
      ∀ f, t'.Trips directory name f → ∃ g, (load directory { w with files := t' }).1 = .error g := by
  refine ⟨fun f => load_fst_eq_error_iff_trips h, exists_load_fst_eq_error_iff h, load_of_not_trips h, ?_⟩
  intro place name new t' hdir hadds
  have h' : ({ w with files := t' } : World).files.IsProper := hadds.proper
  refine ⟨fun f hd => load_fst_congr h h' (fun other s => ?_) fun other g => ?_, fun f htrips => ?_⟩
  · exact FileTree.uses_iff_of_adds hdir hadds hd
  · exact FileTree.trips_iff_of_adds hdir hadds hd
  · exact (exists_load_fst_eq_error_iff h').2 ⟨name, f, htrips⟩

end

/-- A directory with a statement in it, beside the working directory. -/
def alone : FileTree := (FileTree.ofDirectory ["run"]).put ["st", "a.json"] (.file [123, 125] true)

def beside (content : Bytes) : FileTree := alone.put ["st", "b.json"] (.file content true)

open scoped Json.Limits in
theorem load_reads_each_beside_bad_file :
    let world := fun files => (⟨0, files, .empty, [], [], []⟩ : World)
    alone.IsProper ∧
    (load "../st" (world (beside [91, 93]))).1.map loaded = (load "../st" (world alone)).1.map loaded ∧
    ∃ g, (load "../st" (world (beside [123, 34, 97, 97, 103, 117, 105, 100, 34, 58, 91, 93, 125]))).1 = .error g := by
  intro world
  have hrun : FileTree.IsName "run" := ⟨by simp, by simp, by simp, by simp, by simp⟩
  have hst : FileTree.IsName "st" := ⟨by simp, by simp, by simp, by simp, by simp⟩
  have ha : FileTree.IsName "a.json" := ⟨by simp, by simp, by simp, by simp, by simp⟩
  have hb : FileTree.IsName "b.json" := ⟨by simp, by simp, by simp, by simp, by simp⟩
  have halone : alone.IsProper := (FileTree.isProper_ofDirectory (by simp [hrun])).put (by simp [hst, ha])
  have hdir : alone.resolve? "../st" = some (["st"], .directory true) := by decide
  have hnodes : ∀ content, (beside content).nodes = alone.nodes ++ [(["st", "b.json"], .file content true)] :=
    fun content => rfl
  have hadds : ∀ content, alone.Adds (["st"] ++ ["b.json"]) (.file content true) (beside content) :=
    fun content => ⟨halone.put (by simp [hst, hb]), by simp, hnodes content ▸ List.perm_append_singleton _ _, rfl⟩
  have hholds : ∀ content, (beside content).Holds "../st" "b.json" (some content) :=
    fun content => .readable ((hadds content).resolve? hdir) ((hadds content).mem_iff.2 (.inl rfl))
  obtain ⟨-, -, -, hmore⟩ := load_reads_each "../st" (world alone) halone
  refine ⟨halone, ?_, ?_⟩
  · have hjson : Json.ofUtf8 [91, 93] = .ok (.list []) := rfl
    exact (hmore _ _ _ _ hdir (hadds _)).1 _ (.unfit (hholds _) (Statement.parse_of_not_object hjson nofun))
  · have htext : Text.Utf8.decode [123, 34, 97, 97, 103, 117, 105, 100, 34, 58, 91, 93, 125] =
        some "\x7b\"aaguid\":[]\x7d" := by
      simp [Text.Utf8.decode, Text.Utf8.read]
    have hvalue : Json.parse "\x7b\"aaguid\":[]\x7d".toList = .ok (.map [("aaguid", .list [])]) := by
      simp [Json.parse, Json.readValue, Json.readFields, Json.readKey, Json.readText, Json.skipBlanks, Json.isBlank,
        Json.Limits.depth, Json.orInvalid, Text.doubleQuote, Text.backslash, Value.ofPairs, Value.setField, bind,
        Except.bind, Except.map]
    have hjson : Json.ofUtf8 [123, 34, 97, 97, 103, 117, 105, 100, 34, 58, 91, 93, 125] =
        .ok (.map [("aaguid", .list [])]) := by
      simp only [Json.ofUtf8, htext, Json.orInvalid, bind, Except.bind, hvalue]
    have htrips : statementShape.Trips (.map (Statement.normaliseFields [("aaguid", .list [])])) .noSuchPart :=
      Shape.read_trips_iff.1 ⟨rfl, by decide⟩
    exact (hmore _ _ _ _ hdir (hadds _)).2 _ ⟨_, hholds _, .trips hjson htrips⟩

end LocalStatements
end Metadata
end AttestationTrust
