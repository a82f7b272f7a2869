import AttestationTrust.Proofs.Fields
import AttestationTrust.Proofs.Provenance
import Mathlib.Data.String.Basic
/-!
# Files directly inside a directory

A tree of files is proper where each place has one node and each part of a place is a name that can stand in a path
(`FileTree.IsProper`); trees that are made by putting nodes in places so named are (`FileTree.IsProper.put`).  In a
proper tree the files directly inside a directory are listed by their names, in ascending order
(`FileTree.IsProper.exists_names`), the path that is listed for a file leads to that file and to no other
(`FileTree.IsProper.resolve?_join`), and a node that is added to the tree leaves every path where it led
(`FileTree.Adds.resolve?`).
-/
namespace AttestationTrust

/-- A character of a list is one that it is split at, or in a part. -/
theorem eq_or_mem_splitOn {α : Type} [BEq α] [LawfulBEq α] (sep : α) {c : α} : ∀ {l : List α}, c ∈ l →
    c = sep ∨ ∃ part ∈ l.splitOn sep, c ∈ part
  | x :: l, h => by
    rw [List.splitOn_cons_eq_if_modifyHead]
    by_cases hx : x = sep
    · obtain rfl | h := List.mem_cons.1 h
      · exact .inl hx
      · obtain hc | ⟨part, hpart, hmem⟩ := eq_or_mem_splitOn sep h
        · exact .inl hc
        · exact .inr ⟨part, by simp [hx, hpart], hmem⟩
    · have hne : l.splitOn sep ≠ [] := List.splitOnP_ne_nil _ _
      obtain ⟨first, rest, heq⟩ := List.exists_cons_of_ne_nil hne
      simp only [heq, hx, beq_iff_eq, if_false, List.modifyHead_cons]
      obtain rfl | h := List.mem_cons.1 h
      · exact .inr ⟨c :: first, List.mem_cons_self, List.mem_cons_self⟩
      · obtain hc | ⟨part, hpart, hmem⟩ := eq_or_mem_splitOn sep h
        · exact .inl hc
        · rw [heq] at hpart
          obtain rfl | hpart := List.mem_cons.1 hpart
          · exact .inr ⟨x :: part, List.mem_cons_self, List.mem_cons_of_mem _ hmem⟩
          · exact .inr ⟨part, List.mem_cons_of_mem _ hpart, hmem⟩

namespace FileTree

/-- A name that can stand between the slashes of a path, and leads to a place of its own. -/
structure IsName (name : String) : Prop where
  ne_empty : name ≠ ""
  ne_dot : name ≠ "."
  ne_dots : name ≠ ".."
  slashless : '/' ∉ name.toList
  zeroless : ∀ c ∈ name.toList, c.toNat ≠ 0

/-- Each place has one node, and names lead to it. -/
structure IsProper (t : FileTree) : Prop where
  nodup : (t.nodes.map Prod.fst).Nodup
  named : ∀ entry ∈ t.nodes, ∀ name ∈ entry.1, IsName name

variable {t t' : FileTree} {place names reached parts : List String} {name path directory part : String}
  {n new : FileNode} {listable : Bool}

theorem IsProper.node?_eq_some_iff (h : t.IsProper) (hne : names ≠ []) :
    t.node? names = some n ↔ (names, n) ∈ t.nodes := by
  rw [node?, if_neg hne]
  exact lookup_eq_some_iff_mem h.nodup

/-! ## Trees that are made by putting nodes in their places -/

theorem IsProper.append (h : t.IsProper) (hplace : place ∉ t.nodes.map Prod.fst)
    (hnames : ∀ name ∈ place, IsName name) : IsProper { t with nodes := t.nodes ++ [(place, n)] } := by
  refine ⟨?_, fun entry hentry => ?_⟩
  · rw [List.map_append, List.map_singleton]
    refine List.nodup_append.2 ⟨h.nodup, List.pairwise_singleton _ _, fun other hother added hadded heq => hplace ?_⟩
    rw [List.mem_singleton] at hadded
    rw [heq, hadded] at hother
    exact hother
  · obtain hentry | hentry := List.mem_append.1 hentry
    · exact h.named entry hentry
    · obtain rfl := List.mem_singleton.1 hentry
      exact hnames

theorem not_mem_of_node?_eq_none (h : t.node? place = none) : place ∉ t.nodes.map Prod.fst := by
  rw [node?] at h
  split at h
  · cases h
  · intro hmem
    obtain ⟨entry, hentry, rfl⟩ := List.mem_map.1 hmem
    have hne := List.lookup_eq_none_iff.1 h entry hentry
    simp at hne

theorem IsProper.withParents (h : t.IsProper) (hnames : ∀ name ∈ names, IsName name) :
    (t.withParents names).IsProper := by
  have hfold : ∀ (is : List Nat) (t : FileTree), t.IsProper → IsProper (is.foldl (fun t i =>
      let above := names.take (i + 1)
      if (t.node? above).isSome then t else { t with nodes := t.nodes ++ [(above, .directory true)] }) t) := by
    intro is
    induction is with
    | nil => exact fun t h => h
    | cons i is ih =>
      intro t h
      rw [List.foldl_cons]
      refine ih _ ?_
      dsimp only
      split
      · exact h
      · rename_i hnone
        have hplace := not_mem_of_node?_eq_none (Option.not_isSome_iff_eq_none.1 hnone)
        exact h.append hplace fun name hname => hnames name (List.mem_of_mem_take hname)
  exact hfold _ t h

/-- A tree stays proper when a node is put in a place that names lead to. -/
theorem IsProper.put (h : t.IsProper) (hnames : ∀ name ∈ names, IsName name) : (t.put names n).IsProper := by
  have hparents := h.withParents hnames
  have hkept : IsProper { t.withParents names with nodes := (t.withParents names).nodes.filter fun e => e.1 ≠ names } :=
    ⟨hparents.nodup.sublist (List.filter_sublist.map Prod.fst), fun entry hentry =>
      hparents.named entry (List.mem_of_mem_filter hentry)⟩
  refine hkept.append (fun hmem => ?_) hnames
  obtain ⟨entry, hentry, heq⟩ := List.mem_map.1 hmem
  exact absurd heq (by simpa using (List.mem_filter.1 hentry).2)

theorem isProper_ofDirectory (hnames : ∀ name ∈ names, IsName name) : IsProper (ofDirectory names) := by
  have hempty : IsProper .empty := ⟨.nil, nofun⟩
  have hput : (empty.put names (.directory true)).IsProper := hempty.put hnames
  exact ⟨hput.nodup, hput.named⟩

/-! ## Where a path leads -/

/-- Where a part of a path leads from a directory that has been reached. -/
inductive Steps (t : FileTree) (reached : List String) : (part : String) → (next : List String) → Prop
  | stay {part : String} (h : part = "" ∨ part = ".") : Steps t reached part reached
  | up : Steps t reached ".." reached.dropLast
  | down {part : String} {n : FileNode} (hstay : ¬ (part = "" ∨ part = ".")) (hup : part ≠ "..")
      (hn : t.node? (reached ++ [part]) = some n) : Steps t reached part (reached ++ [part])

theorem walk_cons_eq_some_iff : t.walk reached (part :: parts) = some names ↔
    t.isDirectoryAt reached = true ∧ ∃ next, Steps t reached part next ∧ t.walk next parts = some names := by
  rw [walk]
  constructor
  · intro h
    split at h
    · cases h
    · rename_i hdir
      rw [Bool.not_eq_true, Bool.not_eq_false'] at hdir
      refine ⟨hdir, ?_⟩
      split at h
      · rename_i hstay
        exact ⟨_, .stay hstay, h⟩
      · rename_i hstay
        split at h
        · rename_i hup
          exact ⟨_, hup ▸ .up, h⟩
        · rename_i hup
          split at h
          · rename_i hnode
            obtain ⟨n, hn⟩ := Option.isSome_iff_exists.1 hnode
            exact ⟨_, .down hstay hup hn, h⟩
          · cases h
  · rintro ⟨hdir, next, hstep, h⟩
    rw [hdir, Bool.not_true, if_neg Bool.false_ne_true]
    cases hstep with
    | stay hstay => rw [if_pos hstay, h]
    | up => rw [if_neg (by decide), if_pos rfl, h]
    | down hstay hup hn => rw [if_neg hstay, if_neg hup, hn, if_pos Option.isSome_some, h]

theorem walk_append_eq_some_iff {more : List String} : ∀ {parts reached : List String},
    t.walk reached (parts ++ more) = some names ↔
      ∃ place, t.walk reached parts = some place ∧ t.walk place more = some names
  | [], reached => by simp [walk]
  | part :: parts, reached => by
    simp only [List.cons_append, walk_cons_eq_some_iff, walk_append_eq_some_iff]
    grind

theorem walk_name (hname : IsName name) (hdir : t.isDirectoryAt names = true)
    (hn : t.node? (names ++ [name]) = some n) : t.walk names [name] = some (names ++ [name]) := by
  have hstay : ¬ (name = "" ∨ name = ".") := not_or.2 ⟨hname.ne_empty, hname.ne_dot⟩
  exact walk_cons_eq_some_iff.2 ⟨hdir, _, .down hstay hname.ne_dots hn, rfl⟩

theorem walk_empty (hpart : part = "") (h : t.walk reached [part] = some names) : names = reached := by
  obtain ⟨-, next, hstep, hnext⟩ := walk_cons_eq_some_iff.1 h
  cases hstep with
  | stay hstay => exact (Option.some.inj hnext).symm
  | up => exact absurd hpart (by decide)
  | down hstay hup hn => exact absurd (.inl hpart) hstay

/-- Every part of a path that leads somewhere is a name, or stands for a place on the way. -/
theorem IsProper.zeroless_of_walk (h : t.IsProper) : ∀ {parts reached names : List String},
    t.walk reached parts = some names → ∀ part ∈ parts, ∀ c ∈ part.toList, c.toNat ≠ 0
  | [], _, _, _ => nofun
  | part :: parts, reached, names, hwalk => by
    obtain ⟨-, next, hstep, hnext⟩ := walk_cons_eq_some_iff.1 hwalk
    refine List.forall_mem_cons.2 ⟨?_, h.zeroless_of_walk hnext⟩
    cases hstep with
    | stay hstay => obtain rfl | rfl := hstay <;> simp
    | up => simp
    | down hstay hup hn =>
      have hmem := (h.node?_eq_some_iff (by simp)).1 hn
      exact (h.named _ hmem part (by simp)).zeroless

theorem resolve?_eq_some_iff : t.resolve? path = some (names, n) ↔
    path ≠ "" ∧ t.walk (t.start path) (partsOf path) = some names ∧ t.node? names = some n := by
  unfold resolve?
  split
  · rename_i hempty
    exact iff_of_false nofun fun h => h.1 hempty
  · rename_i hne
    simp only [Option.bind_eq_some_iff, Option.map_eq_some_iff, Prod.mk.injEq]
    constructor
    · rintro ⟨_, hwalk, _, hn, rfl, rfl⟩
      exact ⟨hne, hwalk, hn⟩
    · rintro ⟨-, hwalk, hn⟩
      exact ⟨names, hwalk, n, hn, rfl, rfl⟩

theorem IsProper.zeroless (h : t.IsProper) (hpath : t.resolve? path = some (names, n)) :
    ∀ c ∈ path.toList, c.toNat ≠ 0 := by
  obtain ⟨-, hwalk, -⟩ := resolve?_eq_some_iff.1 hpath
  intro c hc
  obtain rfl | ⟨part, hpart, hmem⟩ := eq_or_mem_splitOn '/' hc
  · decide
  · exact h.zeroless_of_walk hwalk (String.ofList part) (List.mem_map_of_mem hpart) c (by simpa using hmem)

/-! ## The path of a file in a directory -/

theorem splitOn_append_name (cs : List Char) {name : String} (h : '/' ∉ name.toList) :
    (cs ++ '/' :: name.toList).splitOn '/' = cs.splitOn '/' ++ [name.toList] := by
  rw [List.splitOn_eq_splitOnP, List.splitOnP_append_cons _ _ (by simp), ← List.splitOn_eq_splitOnP]
  rw [List.splitOnP_eq_singleton fun c hc => ?_]
  rw [beq_eq_false_iff_ne]
  rintro rfl
  exact h hc

/-- The parts of a path below a directory; a slash at the end of the directory is as good as none. -/
theorem partsOf_join (directory : String) (h : '/' ∉ name.toList) : ∃ parts, partsOf (join directory name) = parts ++ [name] ∧
    (partsOf directory = parts ∨ partsOf directory = parts ++ [""]) := by
  unfold partsOf join
  by_cases hslash : directory.toList.getLast? = some '/'
  · obtain ⟨cs, hcs⟩ : ∃ cs, directory.toList = cs ++ ['/'] := List.getLast?_eq_some_iff.1 hslash
    have hdirectory := splitOn_append_name cs (show '/' ∉ "".toList by decide)
    have hpath := splitOn_append_name cs h
    refine ⟨(cs.splitOn '/').map String.ofList, ?_, .inr ?_⟩
    · rw [if_pos hslash, String.toList_append, hcs, List.append_assoc, List.singleton_append, hpath]
      simp
    · rw [hcs, show ['/'] = '/' :: "".toList from rfl, hdirectory]
      simp
  · refine ⟨(directory.toList.splitOn '/').map String.ofList, ?_, .inl rfl⟩
    have hpath := splitOn_append_name directory.toList h
    rw [if_neg hslash, String.toList_append, String.toList_append, List.append_assoc,
      show "/".toList ++ name.toList = '/' :: name.toList from rfl, hpath]
    simp

theorem join_toList (directory name : String) : ∃ rest, (join directory name).toList = directory.toList ++ rest := by
  unfold join
  split
  · exact ⟨name.toList, String.toList_append⟩
  · exact ⟨"/".toList ++ name.toList, by rw [String.toList_append, String.toList_append, List.append_assoc]⟩

theorem join_ne_empty (h : directory ≠ "") (name : String) : join directory name ≠ "" := by
  obtain ⟨rest, hrest⟩ := join_toList directory name
  intro hempty
  rw [hempty, String.toList_empty, eq_comm, List.append_eq_nil_iff, String.toList_eq_nil_iff] at hrest
  exact h hrest.1

/-- A path below a directory is walked from where the directory is. -/
theorem start_join (t : FileTree) (h : directory ≠ "") (name : String) :
    t.start (join directory name) = t.start directory := by
  obtain ⟨c, cs, hcs⟩ : ∃ c cs, directory.toList = c :: cs :=
    List.exists_cons_of_ne_nil fun hnil => h (String.toList_eq_nil_iff.1 hnil)
  obtain ⟨rest, hrest⟩ := join_toList directory name
  unfold start isAbsolute
  rw [hrest, hcs, List.cons_append]
  split <;> rename_i heq <;> simp_all

theorem isDirectoryAt_of_node? (h : t.node? names = some (.directory listable)) : t.isDirectoryAt names = true := by
  rw [isDirectoryAt, h]

/-- The path of what is directly inside a directory leads to it. -/
theorem IsProper.resolve?_join (h : t.IsProper) (hdir : t.resolve? directory = some (names, .directory listable))
    (hmem : (names ++ [name], n) ∈ t.nodes) : t.resolve? (join directory name) = some (names ++ [name], n) := by
  obtain ⟨hne, hwalk, hnode⟩ := resolve?_eq_some_iff.1 hdir
  have hname : IsName name := h.named _ hmem name (by simp)
  have hn : t.node? (names ++ [name]) = some n := (h.node?_eq_some_iff (by simp)).2 hmem
  have hlast := walk_name hname (isDirectoryAt_of_node? hnode) hn
  obtain ⟨parts, hjoin, hparts⟩ := partsOf_join directory hname.slashless
  have hreached : t.walk (t.start directory) parts = some names := by
    obtain hparts | hparts := hparts
    · rw [← hparts, hwalk]
    · rw [hparts] at hwalk
      obtain ⟨reached, hreached, hempty⟩ := walk_append_eq_some_iff.1 hwalk
      rw [hreached, walk_empty rfl hempty]
  refine resolve?_eq_some_iff.2 ⟨join_ne_empty hne name, ?_, hn⟩
  rw [start_join t hne, hjoin]
  exact walk_append_eq_some_iff.2 ⟨names, hreached, hlast⟩

/-! ## The listing -/

theorem join_lt_join_iff (directory : String) {a b : String} : join directory a < join directory b ↔ a < b := by
  have hlt : ∀ cs : List Char, cs ++ a.toList < cs ++ b.toList ↔ a < b := by
    intro cs
    rw [String.lt_iff_toList_lt]
    induction cs with
    | nil => exact Iff.rfl
    | cons c cs ih =>
      rw [List.cons_append, List.cons_append, List.cons_lt_cons_iff, ih]
      simp
  rw [String.lt_iff_toList_lt]
  unfold join
  split
  · simp only [String.toList_append, hlt]
  · simp only [String.toList_append, hlt]

theorem insertSorted_map_join (directory name : String) : ∀ names : List String,
    insertSorted (join directory name) (names.map (join directory)) = (insertSorted name names).map (join directory)
  | [] => rfl
  | first :: names => by
    rw [List.map_cons, insertSorted, insertSorted]
    by_cases hlt : first < name
    · rw [if_pos hlt, if_pos ((join_lt_join_iff directory).2 hlt), insertSorted_map_join, List.map_cons]
    · rw [if_neg hlt, if_neg (mt (join_lt_join_iff directory).1 hlt)]
      rfl

theorem sorted_map_join (directory : String) : ∀ names : List String,
    sorted (names.map (join directory)) = (sorted names).map (join directory)
  | [] => rfl
  | name :: names => by
    show insertSorted (join directory name) (sorted (names.map (join directory))) = _
    rw [sorted_map_join directory names, insertSorted_map_join]
    rfl

theorem pairwise_insertSorted {s : String} : ∀ {l : List String}, l.Pairwise (· < ·) → s ∉ l →
    (insertSorted s l).Pairwise (· < ·)
  | [], _, _ => List.pairwise_singleton _ _
  | u :: l, h, hs => by
    obtain ⟨hu, hl⟩ := List.pairwise_cons.1 h
    rw [List.mem_cons, not_or] at hs
    rw [insertSorted]
    split
    · rename_i hlt
      refine List.pairwise_cons.2 ⟨fun v hv => ?_, pairwise_insertSorted hl hs.2⟩
      obtain rfl | hv := mem_insertSorted.1 hv
      · exact hlt
      · exact hu v hv
    · rename_i hle
      have hlt : s < u := lt_of_le_of_ne (not_lt.1 hle) hs.1
      exact List.pairwise_cons.2 ⟨List.forall_mem_cons.2 ⟨hlt, fun v hv => hlt.trans (hu v hv)⟩, h⟩

theorem pairwise_sorted : ∀ {l : List String}, l.Nodup → (sorted l).Pairwise (· < ·)
  | [], _ => .nil
  | _ :: _, h => by
    obtain ⟨hs, hl⟩ := List.nodup_cons.1 h
    exact pairwise_insertSorted (pairwise_sorted hl) (mt mem_sorted.1 hs)

theorem IsProper.nodup_children (h : t.IsProper) (place : List String) : (t.nodes.filterMap (childOf place)).Nodup := by
  refine List.pairwise_filterMap.2 ((List.pairwise_map.1 h.nodup).imp fun {e e'} hne a ha b hb => ?_)
  rintro rfl
  obtain ⟨_, _, rfl⟩ := childOf_eq_some_iff.1 ha
  obtain ⟨_, _, rfl⟩ := childOf_eq_some_iff.1 hb
  exact hne rfl

/-- The files directly inside a directory are listed by their names, in ascending order. -/
theorem IsProper.exists_names (h : t.IsProper) (hdir : t.resolve? directory = some (place, .directory true)) :
    ∃ names : List String, t.list? directory = some (names.map (join directory)) ∧ names.Pairwise (· < ·) ∧
      ∀ name, name ∈ names ↔ ∃ content readable, (place ++ [name], .file content readable) ∈ t.nodes := by
  refine ⟨sorted (t.nodes.filterMap (childOf place)), ?_, pairwise_sorted (h.nodup_children place), fun name => ?_⟩
  · rw [list?, hdir]
    exact congrArg some (sorted_map_join directory _)
  · simp only [mem_sorted, List.mem_filterMap, childOf_eq_some_iff]
    constructor
    · rintro ⟨entry, hentry, content, readable, rfl⟩
      exact ⟨content, readable, hentry⟩
    · rintro ⟨content, readable, hentry⟩
      exact ⟨_, hentry, content, readable, rfl⟩

/-! ## A tree with one node more -/

/-- A node is added to a tree, below the root. -/
structure Adds (t : FileTree) (place : List String) (new : FileNode) (t' : FileTree) : Prop where
  proper : t'.IsProper
  below : place ≠ []
  nodes : t'.nodes.Perm ((place, new) :: t.nodes)
  workingDirectory : t'.workingDirectory = t.workingDirectory

namespace Adds

theorem mem_iff {entry : List String × FileNode} (h : t.Adds place new t') :
    entry ∈ t'.nodes ↔ entry = (place, new) ∨ entry ∈ t.nodes := by
  rw [h.nodes.mem_iff, List.mem_cons]

theorem nodup (h : t.Adds place new t') : (t.nodes.map Prod.fst).Nodup := by
  have hnodup := ((h.nodes.map Prod.fst).nodup_iff).1 h.proper.nodup
  exact (List.nodup_cons.1 hnodup).2

theorem node? (h : t.Adds place new t') (hn : t.node? names = some n) : t'.node? names = some n := by
  by_cases hnames : names = []
  · subst hnames
    have hlookup : t'.nodes.lookup [] = t.nodes.lookup [] := by
      refine Option.ext fun m => ?_
      rw [lookup_eq_some_iff_mem h.proper.nodup, lookup_eq_some_iff_mem h.nodup, h.mem_iff]
      refine or_iff_right fun heq => h.below ?_
      exact (Prod.mk.inj heq).1.symm
    rw [FileTree.node?, if_pos rfl] at hn ⊢
    rw [hlookup, hn]
  · rw [FileTree.node?, if_neg hnames, lookup_eq_some_iff_mem h.nodup] at hn
    exact (h.proper.node?_eq_some_iff hnames).2 (h.mem_iff.2 (.inr hn))

theorem isDirectoryAt (h : t.Adds place new t') (hdir : t.isDirectoryAt names = true) :
    t'.isDirectoryAt names = true := by
  unfold FileTree.isDirectoryAt at hdir ⊢
  split at hdir
  · rename_i listable hn
    rw [h.node? hn]
  · cases hdir

theorem steps {next : List String} (h : t.Adds place new t') (hstep : Steps t reached part next) :
    Steps t' reached part next := by
  cases hstep with
  | stay hstay => exact .stay hstay
  | up => exact .up
  | down hstay hup hn => exact .down hstay hup (h.node? hn)

theorem walk (h : t.Adds place new t') : ∀ {parts reached names : List String},
    t.walk reached parts = some names → t'.walk reached parts = some names
  | [], _, _, hwalk => hwalk
  | part :: parts, reached, names, hwalk => by
    obtain ⟨hdir, next, hstep, hnext⟩ := walk_cons_eq_some_iff.1 hwalk
    exact walk_cons_eq_some_iff.2 ⟨h.isDirectoryAt hdir, next, h.steps hstep, h.walk hnext⟩

theorem resolve? (h : t.Adds place new t') (hpath : t.resolve? path = some (names, n)) :
    t'.resolve? path = some (names, n) := by
  obtain ⟨hne, hwalk, hn⟩ := resolve?_eq_some_iff.1 hpath
  have hstart : t'.start path = t.start path := by rw [start, start, h.workingDirectory]
  exact resolve?_eq_some_iff.2 ⟨hne, by rw [hstart, h.walk hwalk], h.node? hn⟩

end Adds
end FileTree
end AttestationTrust
