import Mathlib.Data.List.Forall2
import AttestationTrust.Endpoints
import AttestationTrust.Proofs.Action
import AttestationTrust.Proofs.Blanks
/-!
# Endpoints in the environment

A variable of the environment holds all endpoints in one text.  The text falls into pieces at its separators
(`Settings.Divides`), and lists the words that are left of its pieces between their blanks, the empty ones apart
(`Settings.Lists`).  Among the settings these words are nothing, a text or a list, according to their number, and a
resolver that reads the settings has them back as they were (`Settings.resolve_ofEnvironment`).  So endpoints survive
being written into the environment, with whatever blanks and separators around them (`Settings.Writes`).
-/
namespace AttestationTrust

theorem Setting.key_injective : Function.Injective Setting.key := by
  intro a b h
  cases a <;> cases b <;> first | rfl | exact absurd h (by decide)

namespace Settings

variable {cs rest piece before after : List Char} {pieces : List (List Char)} {c : Char} {u raw : String}
  {found endpoints : List String}

/-! ## Pieces -/

/-- A text falls into pieces that hold no separators, with one separator between each two of them. -/
inductive Divides : List Char → List (List Char) → Prop
  | final {piece : List Char} (h : ∀ c ∈ piece, isSeparator c = false) : Divides piece [piece]
  | next {piece rest : List Char} {pieces : List (List Char)} {c : Char} (h : ∀ c ∈ piece, isSeparator c = false)
      (hc : isSeparator c = true) (hrest : Divides rest pieces) : Divides (piece ++ c :: rest) (piece :: pieces)

theorem Divides.cons (h : Divides cs pieces) (hc : isSeparator c = false) :
    Divides (c :: cs) (pieces.modifyHead (c :: ·)) := by
  cases h with
  | final h => exact .final (List.forall_mem_cons.2 ⟨hc, h⟩)
  | next h hs hrest => exact .next (List.forall_mem_cons.2 ⟨hc, h⟩) hs hrest

theorem divides_splitOnP (cs : List Char) : Divides cs (cs.splitOnP isSeparator) := by
  induction cs with
  | nil => exact .final (List.forall_mem_nil _)
  | cons c cs ih =>
    rw [List.splitOnP_cons_eq_if_modifyHead]
    split
    · next hc => exact .next (List.forall_mem_nil _) hc ih
    · next hc => exact ih.cons (Bool.eq_false_iff.2 hc)

theorem Divides.splitOnP_eq (h : Divides cs pieces) : cs.splitOnP isSeparator = pieces := by
  induction h with
  | final h => exact List.splitOnP_eq_singleton h
  | next h hc _ ih => rw [List.splitOnP_append_cons_of_forall_mem h _ hc, ih]

/-- There is one way in which a text falls into pieces. -/
theorem divides_iff : Divides cs pieces ↔ cs.splitOnP isSeparator = pieces := by
  constructor
  · exact Divides.splitOnP_eq
  · rintro rfl
    exact divides_splitOnP cs

theorem Divides.forall_mem {P : Char → Prop} (h : Divides cs pieces) (hP : ∀ c ∈ cs, P c) :
    ∀ piece ∈ pieces, ∀ c ∈ piece, P c ∧ isSeparator c = false := by
  induction h with
  | final h =>
    intro piece hpiece c hc
    rw [List.mem_singleton.1 hpiece] at hc
    exact ⟨hP c hc, h c hc⟩
  | next h _ _ ih =>
    obtain ⟨hfirst, hothers⟩ := List.forall_mem_append.1 hP
    refine List.forall_mem_cons.2 ⟨fun c hc => ⟨hfirst c hc, h c hc⟩, ih ?_⟩
    exact (List.forall_mem_cons.1 hothers).2

/-! ## The words of a text -/

/-- A text lists the words that its pieces have between their blanks, in order, of which the empty ones are left out. -/
def Lists (raw : String) (found : List String) : Prop := ∃ pieces words,
  Divides raw.toList pieces ∧ List.Forall₂ Text.Leaves pieces words ∧
    found = (words.filter fun word => word ≠ []).map String.ofList

theorem forall₂_leaves_iff {words : List (List Char)} :
    List.Forall₂ Text.Leaves pieces words ↔ pieces.map Text.trimList = words := by
  have hleaves : Text.Leaves = fun piece word => Text.trimList piece = word := by
    funext piece word
    exact propext Text.trimList_eq_iff.symm
  rw [hleaves, ← List.forall₂_map_left_iff, List.forall₂_eq_eq_eq]

theorem lists_iff : Lists raw found ↔ found = components raw := by
  have hcomponents : components raw = (((raw.toList.splitOnP isSeparator).map Text.trimList).filter
      fun word => word ≠ []).map String.ofList := by
    rw [components, List.filter_map, List.filter_map, List.map_map]
    congr 2
    funext piece
    rw [Bool.eq_iff_iff]
    simp
  rw [hcomponents]
  constructor
  · rintro ⟨pieces, words, hpieces, hwords, rfl⟩
    rw [divides_iff.1 hpieces, forall₂_leaves_iff.1 hwords]
  · rintro rfl
    exact ⟨_, _, divides_splitOnP _, forall₂_leaves_iff.2 rfl, rfl⟩

theorem components_append_cons (hc : isSeparator c = true) (cs rest : List Char) :
    components (String.ofList (cs ++ c :: rest)) =
      components (String.ofList cs) ++ components (String.ofList rest) := by
  simp [components, List.splitOnP_append_cons _ _ hc]

theorem components_of_forall (h : ∀ c ∈ piece, isSeparator c = false) :
    components (String.ofList piece) =
      if Text.trimList piece = [] then [] else [String.ofList (Text.trimList piece)] := by
  rw [components, String.toList_ofList, List.splitOnP_eq_singleton h]
  by_cases hnil : Text.trimList piece = [] <;> simp [hnil]

/-! ## Endpoints written one after another -/

/-- What may stand around the endpoints in a text. -/
def isFiller (c : Char) : Bool := Text.isBlank c || isSeparator c

/-- A text that a list can hold as it is: it is not empty, begins and ends without a blank, and has no separator in
it. -/
structure IsEndpoint (u : String) : Prop where
  ne_empty : u ≠ ""
  trim_eq : Text.trim u = u
  whole : ∀ c ∈ u.toList, isSeparator c = false

/-- In a text endpoints are written one after another, with a separator between each two of them and with any blanks
and further separators between and around them. -/
inductive Writes : List String → List Char → Prop
  | nothing {filler : List Char} (h : ∀ c ∈ filler, isFiller c = true) : Writes [] filler
  | final {u : String} {before after : List Char} (hbefore : ∀ c ∈ before, isFiller c = true) (hu : IsEndpoint u)
      (hafter : ∀ c ∈ after, isFiller c = true) : Writes [u] (before ++ u.toList ++ after)
  | next {u : String} {us : List String} {before after rest : List Char} {c : Char}
      (hbefore : ∀ c ∈ before, isFiller c = true) (hu : IsEndpoint u) (hafter : ∀ c ∈ after, isFiller c = true)
      (hc : isSeparator c = true) (hrest : Writes us rest) : Writes (u :: us) (before ++ u.toList ++ after ++ c :: rest)

theorem IsEndpoint.trimList_eq (h : IsEndpoint u) : Text.trimList u.toList = u.toList := by
  have htrim := congrArg String.toList h.trim_eq
  rwa [Text.trim, String.toList_ofList] at htrim

theorem isBlank_of_isFiller (h : isFiller c = true) (hc : isSeparator c = false) : Text.isBlank c = true := by
  rwa [isFiller, hc, Bool.or_false] at h

/-- Filler without separators is blank, and any other has a first separator. -/
theorem filler_cases (h : ∀ c ∈ cs, isFiller c = true) : (∀ c ∈ cs, Text.isBlank c = true ∧ isSeparator c = false) ∨
    ∃ blanks c rest, cs = blanks ++ c :: rest ∧ isSeparator c = true ∧
      (∀ c ∈ blanks, Text.isBlank c = true ∧ isSeparator c = false) ∧ ∀ c ∈ rest, isFiller c = true := by
  rcases forall_mem_or_exists_first (fun c => isSeparator c = false) cs with hnone | ⟨blanks, c, rest, rfl, hblanks, hc⟩
  · exact .inl fun c hc => ⟨isBlank_of_isFiller (h c hc) (hnone c hc), hnone c hc⟩
  · obtain ⟨hbefore, hrest⟩ := List.forall_mem_append.1 h
    refine .inr ⟨blanks, c, rest, rfl, (Bool.not_eq_false _).mp hc, fun c hc => ?_, (List.forall_mem_cons.1 hrest).2⟩
    exact ⟨isBlank_of_isFiller (hbefore c hc) (hblanks c hc), hblanks c hc⟩

theorem components_filler (h : ∀ c ∈ cs, isFiller c = true) : components (String.ofList cs) = [] := by
  rw [components, List.filter_eq_nil_iff, String.toList_ofList]
  intro word hword
  obtain ⟨piece, hpiece, rfl⟩ := List.mem_map.1 hword
  have hblank : ∀ c ∈ piece, Text.isBlank c = true := fun c hc => by
    obtain ⟨hfiller, hseparator⟩ := (divides_splitOnP cs).forall_mem h piece hpiece c hc
    exact isBlank_of_isFiller hfiller hseparator
  simp [Text.trimList_of_forall hblank]

/-- Of the filler behind a text only what stands before its first separator is part of the last piece. -/
theorem components_append_filler (cs : List Char) (h : ∀ c ∈ after, isFiller c = true) : ∃ blanks,
    (∀ c ∈ blanks, Text.isBlank c = true ∧ isSeparator c = false) ∧
      components (String.ofList (cs ++ after)) = components (String.ofList (cs ++ blanks)) := by
  obtain hblanks | ⟨blanks, c, rest, rfl, hc, hblanks, hrest⟩ := filler_cases h
  · exact ⟨after, hblanks, rfl⟩
  · refine ⟨blanks, hblanks, ?_⟩
    rw [← List.append_assoc, components_append_cons hc, components_filler hrest, List.append_nil]

/-- Of the filler before a text only what stands behind its last separator is part of the first piece. -/
theorem components_filler_append (cs : List Char) {before : List Char} (h : ∀ c ∈ before, isFiller c = true) : ∃ blanks,
    (∀ c ∈ blanks, Text.isBlank c = true ∧ isSeparator c = false) ∧
      components (String.ofList (before ++ cs)) = components (String.ofList (blanks ++ cs)) := by
  obtain hblanks | ⟨first, c, rest, rfl, hc, -, hrest⟩ := filler_cases h
  · exact ⟨before, hblanks, rfl⟩
  · obtain ⟨blanks, hblanks, heq⟩ := components_filler_append cs hrest
    refine ⟨blanks, hblanks, ?_⟩
    have hfirst : ∀ c ∈ first, isFiller c = true := fun c hc => h c (List.mem_append_left _ hc)
    rw [List.append_assoc, List.cons_append, components_append_cons hc, components_filler hfirst, List.nil_append, heq]
termination_by before.length

theorem components_endpoint (hbefore : ∀ c ∈ before, isFiller c = true) (hu : IsEndpoint u)
    (hafter : ∀ c ∈ after, isFiller c = true) : components (String.ofList (before ++ u.toList ++ after)) = [u] := by
  obtain ⟨behind, hbehind, heq⟩ := components_append_filler (before ++ u.toList) hafter
  obtain ⟨ahead, hahead, heq'⟩ := components_filler_append (u.toList ++ behind) hbefore
  have hwhole : ∀ c ∈ ahead ++ u.toList ++ behind, isSeparator c = false := by
    intro c hc
    rcases List.mem_append.1 hc with hc | hc
    · exact (List.mem_append.1 hc).elim (fun hc => (hahead c hc).2) (hu.whole c)
    · exact (hbehind c hc).2
  have hword : Text.trimList (ahead ++ u.toList ++ behind) = u.toList := by
    have hbare := (Text.leaves_trimList u.toList).isBare
    rw [hu.trimList_eq] at hbare
    exact Text.trimList_append_of_isBare (fun c hc => (hahead c hc).1) (fun c hc => (hbehind c hc).1) hbare
  have hne : u.toList ≠ [] := fun hnil => hu.ne_empty (String.toList_eq_nil_iff.1 hnil)
  rw [heq, List.append_assoc, heq', ← List.append_assoc, components_of_forall hwhole, hword, if_neg hne,
    String.ofList_toList]

/-- What is written is listed. -/
theorem Writes.components_eq (h : Writes endpoints cs) : components (String.ofList cs) = endpoints := by
  induction h with
  | nothing h => exact components_filler h
  | final hbefore hu hafter => exact components_endpoint hbefore hu hafter
  | next hbefore hu hafter hc _ ih => rw [components_append_cons hc, components_endpoint hbefore hu hafter, ih]; rfl

/-! ## Through the settings -/

/-- A setting has what its variable says, whatever else is set. -/
theorem field?_ofEnvironment (env : Environment) (setting : Setting) :
    Value.field? setting.key (ofEnvironment env) = (env.lookup setting.environmentName).bind (ofText setting) := by
  have horder : ∀ (order : List Setting) (g : Setting → Option Value),
      Value.field? setting.key (order.filterMap fun t => (g t).map fun v => (t.key, v)) =
        if setting ∈ order then g setting else none := by
    intro order g
    induction order with
    | nil => rfl
    | cons t order ih =>
      rw [List.filterMap_cons]
      by_cases ht : setting = t
      · subst ht
        cases hg : g setting <;> simp [Value.field?_cons, ih, hg]
      · have hkey : setting.key ≠ t.key := fun h => ht (Setting.key_injective h)
        cases hg : g t <;> simp [Value.field?_cons, ih, ht, hkey]
  have hmem : setting ∈ environmentOrder := by cases setting <;> decide
  exact (horder environmentOrder _).trans (if_pos hmem)

/-- How endpoints are kept among the settings: one alone as a text, several as a list, and none not at all. -/
def kept : List String → Option Value
  | [] => none
  | [u] => some (.text u)
  | us => some (.list (us.map .text))

theorem endpointsOfText_eq (raw : String) : endpointsOfText raw = kept (components raw) := by
  rw [endpointsOfText]
  rcases components raw with _ | ⟨u, _ | ⟨v, us⟩⟩ <;> rfl

theorem field?_endpoints (env : Environment) : Value.field? Setting.endpoints.key (ofEnvironment env) =
    kept (components ((env.lookup Setting.endpoints.environmentName).getD "")) := by
  rw [field?_ofEnvironment]
  cases env.lookup Setting.endpoints.environmentName with
  | none => rfl
  | some raw => exact endpointsOfText_eq raw

/-- A resolver has endpoints back from the way in which they are kept. -/
theorem normalise_kept (key : String) (us : List String) :
    Resolver.normalise key ((kept us).getD .null) = (us, []) := by
  have htexts : ∀ us : List String, (us.map Value.text).filterMap Value.text? = us := fun us => by
    rw [List.filterMap_map]
    exact List.filterMap_some
  rcases us with _ | ⟨u, _ | ⟨v, us⟩⟩
  · rfl
  · rfl
  · show ((((u :: v :: us).map Value.text).filterMap Value.text?), _) = _
    rw [htexts]
    simp [Value.text?]

/-- **Endpoints survive the environment.**  What a resolver finds in the settings of an environment are the words that
the variable of the endpoints lists, no more and no fewer and in their order, and nothing is ignored; a variable that is
not set counts as empty.  So endpoints that are written one after another, with any blanks and separators around them,
are found as they are; one alone is kept as a text, several are kept as a list, and none are not kept at all. -/
theorem resolve_ofEnvironment (env : Environment) :
    let raw := (env.lookup Setting.endpoints.environmentName).getD ""
    let settings := ofEnvironment env
    let answer := (Resolver.default.resolve settings).1
    (answer.2 = [] ∧ ∀ found, Lists raw found ↔ found = answer.1) ∧
    ∀ endpoints, Writes endpoints raw.toList →
      answer = (endpoints, []) ∧ Value.field? Setting.endpoints.key settings = kept endpoints := by
  intro raw settings answer
  have hkept : Value.field? Setting.endpoints.key settings = kept (components raw) := field?_endpoints env
  have hanswer : answer = (components raw, []) := by
    have hresolve : answer = Resolver.normalise Setting.endpoints.key (settings.get Setting.endpoints.key) := rfl
    rw [hresolve, get, hkept, normalise_kept]
  rw [hanswer, hkept]
  refine ⟨⟨rfl, fun found => lists_iff⟩, fun endpoints h => ?_⟩
  have hcomponents : components raw = endpoints := by
    rw [← h.components_eq, String.ofList_toList]
  rw [hcomponents]
  exact ⟨rfl, rfl⟩

theorem resolve_ofEnvironment_of_three :
    let raw := " ;https://a ,\n https://b;;https://a\t"
    let env := [(Setting.fetchTimeout.environmentName, "5"), (Setting.endpoints.environmentName, raw)]
    let us := ["https://a", "https://b", "https://a"]
    Writes us raw.toList ∧ (Resolver.default.resolve (ofEnvironment env)).1 = (us, []) ∧
      Value.field? Setting.endpoints.key (ofEnvironment env) = some (.list (us.map .text)) := by
  intro raw env us
  have ha : IsEndpoint "https://a" := ⟨by decide, by decide, List.forall_iff_forall_mem.1 (by decide)⟩
  have hb : IsEndpoint "https://b" := ⟨by decide, by decide, List.forall_iff_forall_mem.1 (by decide)⟩
  have hfiller : ∀ {cs : List Char}, cs.all isFiller = true → ∀ c ∈ cs, isFiller c = true := List.all_eq_true.1
  have hthird : Writes ["https://a"] ([';'] ++ "https://a".toList ++ ['\t']) :=
    .final (hfiller (by decide)) ha (hfiller (by decide))
  have hsecond : Writes ["https://b", "https://a"]
      (['\n', ' '] ++ "https://b".toList ++ [] ++ ';' :: ([';'] ++ "https://a".toList ++ ['\t'])) :=
    .next (hfiller (by decide)) hb (hfiller (by decide)) (by decide) hthird
  have hfirst : Writes us ([' ', ';'] ++ "https://a".toList ++ [' '] ++
      ',' :: (['\n', ' '] ++ "https://b".toList ++ [] ++ ';' :: ([';'] ++ "https://a".toList ++ ['\t']))) :=
    .next (hfiller (by decide)) ha (hfiller (by decide)) (by decide) hsecond
  have hwrites : Writes us raw.toList := by
    convert hfirst using 1
    decide
  exact ⟨hwrites, (resolve_ofEnvironment env).2 us hwrites⟩

end Settings
end AttestationTrust
