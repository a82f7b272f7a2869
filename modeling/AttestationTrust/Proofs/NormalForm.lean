import AttestationTrust.Proofs.JsonValues
/-!
# The normal form of a statement

A statement in normal form has a text, two integers and eight lists under the keys that have to hold them, and no `null`
(`Metadata.Statement.IsNormal`).  Every document that is an object is brought into it, and what its normal form holds
under a key is told by the key alone: what the statement in the document has there; else, for an identifier, what the
entry around the statement has; and where that is not of the kind that has to be there, the default of the key
(`Metadata.Statement.field?_normaliseFields`).  So an entry has the normal form of its statement completed by its
identifiers, and a normal form is its own (`Metadata.Statement.normalise_unwraps`).  A document that is read holds
nothing that JSON does not, so a statement is always read from a normal form (`Metadata.Statement.parse_eq_ok_iff`).
-/
namespace AttestationTrust

namespace Value

/-- An integer.  The truth values are two of them. -/
def IsInteger : Value → Prop
  | .int _ => True
  | .bool _ => True
  | _ => False

/-- What a mapping holds under a key, where `null` is nothing. -/
def held? (key : String) (fields : Fields) : Option Value := (field? key fields).bind present?

theorem present?_eq_some_iff {v w : Value} : v.present? = some w ↔ v = w ∧ w ≠ .null := by
  cases v <;> simp [present?] <;> rintro rfl <;> simp

theorem held?_eq_some_iff {key : String} {fields : Fields} {v : Value} :
    held? key fields = some v ↔ field? key fields = some v ∧ v ≠ .null := by
  simp [held?, Option.bind_eq_some_iff, present?_eq_some_iff]

end Value

namespace Metadata
namespace Statement

open Value (Fields Keyed IsJson field? held? setField field?_setField)

variable {raw fields entry statement : Fields} {key other : String} {v : Value}

/-! ## Fields that are kept -/

theorem mem_kept {f : String × Value} (hjson : ∀ f ∈ fields, f.2.IsJson) :
    f ∈ kept fields ↔ f ∈ fields ∧ f.2 ≠ .null := by
  rw [kept, List.mem_filterMap]
  constructor
  · rintro ⟨g, hg, h⟩
    obtain ⟨v, hv, rfl⟩ := Option.map_eq_some_iff.1 h
    rw [copy_of_isJson (hjson g hg), Value.present?_eq_some_iff] at hv
    obtain ⟨rfl, hne⟩ := hv
    exact ⟨hg, hne⟩
  · rintro ⟨hf, hne⟩
    refine ⟨f, hf, ?_⟩
    rw [copy_of_isJson (hjson f hf), Value.present?_eq_some_iff.2 ⟨rfl, hne⟩]
    rfl

theorem keys_kept (fields : Fields) : ((kept fields).map Prod.fst).Sublist (fields.map Prod.fst) := by
  induction fields with
  | nil => exact .slnil
  | cons f fields ih =>
    rw [kept, List.filterMap_cons]
    cases (copy f.2).present? with
    | none => exact ih.cons _
    | some v => exact ih.cons_cons _

theorem keyed_kept (h : Keyed fields) : Keyed (kept fields) := h.sublist (keys_kept fields)

theorem field?_kept (hkeyed : Keyed fields) (hjson : ∀ f ∈ fields, f.2.IsJson) (key : String) :
    field? key (kept fields) = held? key fields := by
  ext v
  rw [(keyed_kept hkeyed).field?_eq_some_iff, mem_kept hjson, Value.held?_eq_some_iff, hkeyed.field?_eq_some_iff]

/-! ## Identifiers that are filled in -/

theorem field?_fillFrom (hjson : ∀ f ∈ entry, f.2.IsJson) (statement : Fields) (key other : String) :
    field? other (fillFrom entry statement key) =
      (field? other statement).or (if other = key then held? other entry else none) := by
  unfold fillFrom
  by_cases hother : other = key
  · subst hother
    rw [if_pos rfl]
    cases hs : field? other statement with
    | some v => simp [hs]
    | none =>
      rw [Option.isSome_none, if_neg Bool.false_ne_true, ← held?, Option.none_or]
      cases he : held? other entry with
      | none => exact hs
      | some v =>
        have hv := Value.mem_of_field?_eq_some (Value.held?_eq_some_iff.1 he).1
        dsimp only
        rw [field?_setField, if_pos rfl, copy_of_isJson (hjson _ hv)]
  · rw [if_neg hother, Option.or_none]
    split
    · rfl
    · split
      · rw [field?_setField, if_neg hother]
      · rfl

theorem keyed_fillFrom (h : Keyed statement) (entry : Fields) (key : String) : Keyed (fillFrom entry statement key) := by
  unfold fillFrom
  split
  · exact h
  · split
    · exact h.setField _ _
    · exact h

/-- Keys that are filled in one after another, each where there is nothing yet. -/
theorem foldl_filling {get : Fields → Option Value} {step : Fields → String → Fields} {x : Option Value}
    (h : ∀ fields key, get (step fields key) = (get fields).or (if other = key then x else none)) (keys : List String)
    (fields : Fields) : get (keys.foldl step fields) = (get fields).or (if other ∈ keys then x else none) := by
  induction keys generalizing fields with
  | nil => simp
  | cons key keys ih =>
    rw [List.foldl_cons, ih, h, Option.or_assoc]
    congr 1
    by_cases hother : other = key
    · subst hother
      rw [if_pos rfl, if_pos List.mem_cons_self]
      split
      · exact Option.or_self
      · exact Option.or_none
    · simp [hother]

/-- The fields of the statement that are kept, with the identifiers of the entry around it. -/
def filled (raw : Fields) : Fields :=
  if isNested raw then identifierKeys.foldl (fillFrom raw) (kept (source raw)) else kept (source raw)

/-- What a document gives under a key. -/
def given (raw : Fields) (key : String) : Option Value :=
  (held? key (source raw)).or (if isNested raw ∧ key ∈ identifierKeys then held? key raw else none)

theorem isJson_source (h : IsJson (.map raw)) : IsJson (.map (source raw)) := by
  unfold source
  split
  · next hs => exact h.fields _ (Value.mem_of_field?_eq_some hs)
  · exact h

theorem field?_filled (h : IsJson (.map raw)) (key : String) : field? key (filled raw) = given raw key := by
  have hsource := isJson_source h
  have hkept := field?_kept hsource.keyed hsource.fields key
  unfold filled given
  cases isNested raw with
  | false => simp [hkept]
  | true =>
    rw [if_pos rfl, foldl_filling fun s k => field?_fillFrom h.fields s k key, hkept]
    simp

theorem keyed_filled (h : IsJson (.map raw)) : Keyed (filled raw) := by
  have hkept := keyed_kept (isJson_source h).keyed
  unfold filled
  split
  · exact List.foldlRecOn identifierKeys _ (motive := Keyed) hkept fun s hs key _ => keyed_fillFrom hs raw key
  · exact hkept

/-! ## Fields that have to be there

Each has a key, a kind of values and a default; the description is asked for first, then the integers, then the lists. -/

/-- A field that has to be there. -/
structure Requirement where
  key : String
  isMet : Option Value → Bool
  default : Value

def Requirement.applied (fields : Fields) (r : Requirement) : Fields := withDefault r.isMet r.default fields r.key

def requirements : List Requirement :=
  ⟨"description", isText, .text ""⟩ :: (integerKeys.map fun k => ⟨k.1, isInteger, .int k.2⟩) ++
    listKeys.map fun key => ⟨key, isList, .list []⟩

theorem normaliseFields_eq (raw : Fields) :
    normaliseFields raw = requirements.foldl Requirement.applied (filled raw) := by
  rw [requirements, List.cons_append, List.foldl_cons, List.foldl_append, List.foldl_map, List.foldl_map]
  rfl

theorem nodup_keys : (requirements.map Requirement.key).Nodup := by decide

theorem isMet_default : ∀ r ∈ requirements, r.isMet (some r.default) = true := by decide

theorem isMet_null : ∀ r ∈ requirements, r.isMet (some .null) = false := by decide

/-- What has to be under a key, when a value is there or nothing. -/
def Requirement.settled (rs : List Requirement) (key : String) (v : Option Value) : Option Value :=
  match rs.find? (·.key == key) with
  | some r => if r.isMet v then v else some r.default
  | none => v

theorem Requirement.eq_or_eq_default {rs : List Requirement} {o : Option Value}
    (h : Requirement.settled rs key o = some v) : o = some v ∨ ∃ r ∈ rs, r.default = v := by
  unfold Requirement.settled at h
  split at h
  · next r hr =>
    split at h
    · exact .inl h
    · exact .inr ⟨r, List.mem_of_find?_eq_some hr, Option.some.inj h⟩
  · exact .inl h

theorem Requirement.isMet_settled {rs : List Requirement} (hkeys : (rs.map Requirement.key).Nodup)
    (hdefault : ∀ r ∈ rs, r.isMet (some r.default) = true) {r : Requirement} (hr : r ∈ rs) (o : Option Value) :
    r.isMet (Requirement.settled rs r.key o) = true := by
  unfold Requirement.settled
  split
  · next q hq =>
    have hkey : q.key = r.key := by simpa using List.find?_some hq
    obtain rfl : q = r := List.inj_on_of_nodup_map hkeys (List.mem_of_find?_eq_some hq) hr hkey
    split
    · assumption
    · exact hdefault q hr
  · next hnone =>
    have hother := List.find?_eq_none.1 hnone r hr
    simp at hother

theorem field?_applied (fields : Fields) (r : Requirement) (key : String) :
    field? key (r.applied fields) =
      if r.key = key ∧ r.isMet (field? key fields) = false then some r.default else field? key fields := by
  unfold Requirement.applied withDefault
  by_cases hkey : r.key = key
  · subst hkey
    cases hmet : r.isMet (field? r.key fields) with
    | false => rw [if_neg Bool.false_ne_true, field?_setField, if_pos rfl, if_pos ⟨rfl, rfl⟩]
    | true => simp
  · rw [if_neg (fun h => hkey h.1 : ¬(r.key = key ∧ _))]
    split
    · rfl
    · rw [field?_setField, if_neg (Ne.symm hkey)]

theorem field?_foldl_applied {rs : List Requirement} (h : (rs.map Requirement.key).Nodup) (fields : Fields)
    (key : String) :
    field? key (rs.foldl Requirement.applied fields) = Requirement.settled rs key (field? key fields) := by
  induction rs generalizing fields with
  | nil => rfl
  | cons r rs ih =>
    obtain ⟨hr, hrs⟩ := List.nodup_cons.1 h
    rw [List.foldl_cons, ih hrs, field?_applied, Requirement.settled, Requirement.settled, List.find?_cons]
    by_cases hkey : r.key = key
    · -- keys are distinct, so what is settled here is not touched again
      have hrest : rs.find? (·.key == key) = none := by
        rw [List.find?_eq_none]
        intro q hq hqkey
        exact hr (List.mem_map.2 ⟨q, hq, (beq_iff_eq.1 hqkey).trans hkey.symm⟩)
      simp only [hrest, hkey, beq_self_eq_true, true_and]
      cases r.isMet (field? key fields) <;> simp
    · rw [if_neg fun h => hkey h.1, beq_eq_false_iff_ne.2 hkey]

/-- What the normal form of a document holds under a key. -/
theorem field?_normaliseFields (h : IsJson (.map raw)) (key : String) :
    field? key (normaliseFields raw) = Requirement.settled requirements key (given raw key) := by
  rw [normaliseFields_eq, field?_foldl_applied nodup_keys, field?_filled h]

theorem keyed_normaliseFields (h : IsJson (.map raw)) : Keyed (normaliseFields raw) := by
  rw [normaliseFields_eq]
  refine List.foldlRecOn requirements _ (motive := Keyed) (keyed_filled h) fun fields hfields r _ => ?_
  unfold Requirement.applied withDefault
  split
  · exact hfields
  · exact hfields.setField _ _

/-! ## The normal form -/

structure IsNormal (fields : Fields) : Prop where
  keyed : Keyed fields
  present : ∀ f ∈ fields, f.2 ≠ .null
  description : ∃ s, field? "description" fields = some (.text s)
  integers : ∀ k ∈ integerKeys, ∃ v, field? k.1 fields = some v ∧ v.IsInteger
  lists : ∀ key ∈ listKeys, ∃ xs, field? key fields = some (.list xs)

theorem isText_eq_true_iff {o : Option Value} : isText o = true ↔ ∃ s, o = some (.text s) := by
  unfold isText
  split <;> simp_all

theorem isInteger_eq_true_iff {o : Option Value} : isInteger o = true ↔ ∃ v, o = some v ∧ v.IsInteger := by
  unfold isInteger
  split
  · simp [Value.IsInteger]
  · simp [Value.IsInteger]
  · next hint hbool =>
    simp only [Bool.false_eq_true, false_iff]
    rintro ⟨v, rfl, hv⟩
    cases v <;> simp_all [Value.IsInteger]

theorem isList_eq_true_iff {o : Option Value} : isList o = true ↔ ∃ xs, o = some (.list xs) := by
  unfold isList
  split <;> simp_all

/-- A mapping without `null` in which every requirement is met is in normal form, and the other way round. -/
theorem isNormal_iff : IsNormal fields ↔
    Keyed fields ∧ (∀ f ∈ fields, f.2 ≠ .null) ∧ ∀ r ∈ requirements, r.isMet (field? r.key fields) = true := by
  have hall : (∀ r ∈ requirements, r.isMet (field? r.key fields) = true) ↔
      (∃ s, field? "description" fields = some (.text s)) ∧
      (∀ k ∈ integerKeys, ∃ v, field? k.1 fields = some v ∧ v.IsInteger) ∧
      ∀ key ∈ listKeys, ∃ xs, field? key fields = some (.list xs) := by
    simp only [requirements, List.cons_append, List.forall_mem_cons, List.forall_mem_append, List.forall_mem_map,
      isText_eq_true_iff, isInteger_eq_true_iff, isList_eq_true_iff]
  rw [hall]
  exact ⟨fun h => ⟨h.keyed, h.present, h.description, h.integers, h.lists⟩,
    fun ⟨hkeyed, hpresent, htext, hintegers, hlists⟩ => ⟨hkeyed, hpresent, htext, hintegers, hlists⟩⟩

theorem of_given_eq_some (h : IsJson (.map raw)) (hv : given raw key = some v) : v ≠ .null ∧ v.IsJson := by
  have hheld : ∀ {fs}, IsJson (.map fs) → held? key fs = some v → v ≠ .null ∧ v.IsJson := fun hfs hv => by
    obtain ⟨hfield, hne⟩ := Value.held?_eq_some_iff.1 hv
    exact ⟨hne, hfs.fields _ (Value.mem_of_field?_eq_some hfield)⟩
  rcases Option.or_eq_some_iff.1 hv with hv | ⟨-, hv⟩
  · exact hheld (isJson_source h) hv
  · split at hv
    · exact hheld h hv
    · cases hv

theorem isJson_default : ∀ r ∈ requirements, r.default.IsJson := by
  simp only [requirements, List.cons_append, List.forall_mem_cons, List.forall_mem_append, List.forall_mem_map]
  refine ⟨.text "", fun k hk => .int ?_, fun _ _ => .list (by simp)⟩
  revert k
  decide

theorem of_mem_normaliseFields (h : IsJson (.map raw)) {f : String × Value} (hf : f ∈ normaliseFields raw) :
    f.2 ≠ .null ∧ f.2.IsJson := by
  have hfield := (keyed_normaliseFields h).field?_eq_some_iff.2 hf
  rw [field?_normaliseFields h] at hfield
  rcases Requirement.eq_or_eq_default hfield with hgiven | ⟨r, hr, hdefault⟩
  · exact of_given_eq_some h hgiven
  · rw [← hdefault]
    refine ⟨fun hnull => ?_, isJson_default r hr⟩
    have hmet := isMet_default r hr
    rw [hnull, isMet_null r hr] at hmet
    cases hmet

theorem isNormal_normaliseFields (h : IsJson (.map raw)) : IsNormal (normaliseFields raw) := by
  refine isNormal_iff.2 ⟨keyed_normaliseFields h, fun f hf => (of_mem_normaliseFields h hf).1, fun r hr => ?_⟩
  rw [field?_normaliseFields h]
  exact Requirement.isMet_settled nodup_keys isMet_default hr _

variable [Json.Limits] {name : String} {bs : Bytes} {s : Statement}

/-- The normal form of a document is what the schema reads: a statement comes of no other fields. -/
theorem parse_eq_ok_iff : parse name bs = .ok s ↔ ∃ raw fields, Json.ofUtf8 bs = .ok (.map raw) ∧
    normalise (.map raw) = .ok fields ∧ IsNormal fields ∧ ofFields fields = .ok s := by
  constructor
  · intro h
    unfold parse at h
    split at h
    · cases h
    · cases h
    · rename_i v hv
      obtain ⟨fields, hfields, h⟩ := except_bind_eq_ok_iff.1 h
      cases v with
      | map raw =>
        obtain rfl : normaliseFields raw = fields := Except.ok.inj hfields
        exact ⟨raw, _, hv, rfl, isNormal_normaliseFields (Json.isJson_of_ofUtf8 hv), mapError_eq_ok_iff.1 h⟩
      | _ => simp [normalise] at hfields
  · rintro ⟨raw, fields, hv, hfields, -, h⟩
    unfold parse
    rw [hv]
    exact except_bind_eq_ok_iff.2 ⟨fields, hfields, mapError_eq_ok_iff.2 h⟩

end Statement
end Metadata
end AttestationTrust
