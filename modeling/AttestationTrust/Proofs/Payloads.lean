import AttestationTrust.Proofs.Action
import AttestationTrust.Metadata.Payload
/-!
# What the schema makes of a payload

A schema says what a value is read as, field by field (`Metadata.Shape.Makes`).  So whatever document a payload comes
from, an entry of it states its identifiers as octets, its dates as days and its statement in full
(`Metadata.Entry.Settled`).
-/
namespace AttestationTrust

/-- The identifier of a model as a statement states it, if it does. -/
def Value.IsAaguid (v : Value) : Prop := v = .null ∨ ∃ bs, v = .bytes bs

/-- Key identifiers as a statement states them, if it does. -/
def Value.AreKeys (v : Value) : Prop := v = .null ∨ ∃ xs, v = .list xs ∧ ∀ x ∈ xs, ∃ bs, x = .bytes bs

namespace Metadata

namespace Shape

/-- A shape reads some value as this one. -/
def Makes (s : Shape) (w : Value) : Prop := ∃ v, s.read v = .ok w

variable {w : Value}

theorem Makes.aaguid (h : Makes .aaguid w) : ∃ bs, w = .bytes bs := by
  obtain ⟨v, h⟩ := h
  rw [read] at h
  unfold readAaguid at h
  split at h
  · split at h
    · split at h
      · cases h
        exact ⟨_, rfl⟩
      · cases h
    · cases h
  · cases h

theorem orInvalid_eq_ok_iff {o : Option Value} : orInvalid o = .ok w ↔ o = some w := by
  cases o <;> simp [orInvalid]

theorem Makes.hex (h : Makes .hex w) : ∃ bs, w = .bytes bs := by
  obtain ⟨v, h⟩ := h
  rw [read] at h
  obtain ⟨s, -, h⟩ := Option.bind_eq_some_iff.1 (orInvalid_eq_ok_iff.1 h)
  obtain ⟨bs, -, rfl⟩ := Option.map_eq_some_iff.1 h
  exact ⟨bs, rfl⟩

theorem Makes.date (h : Makes .date w) : ∃ day, w = .int day := by
  obtain ⟨v, h⟩ := h
  rw [read] at h
  obtain ⟨s, -, h⟩ := Option.bind_eq_some_iff.1 (orInvalid_eq_ok_iff.1 h)
  obtain ⟨d, -, rfl⟩ := Option.map_eq_some_iff.1 h
  exact ⟨d.day, rfl⟩

theorem Makes.listOf {item : Shape} (h : Makes (.listOf item) w) : ∃ xs, w = .list xs ∧ ∀ x ∈ xs, item.Makes x := by
  obtain ⟨v, h⟩ := h
  rw [read] at h
  split at h
  · rename_i xs _
    cases hys : xs.mapM item.read with
    | error f =>
      rw [hys] at h
      cases h
    | ok ys =>
      rw [hys] at h
      cases h
      refine ⟨ys, rfl, fun y hy => ?_⟩
      obtain ⟨x, -, hx⟩ := exists_of_mapM_eq_ok hys y hy
      exact ⟨x, hx⟩
  · cases h

theorem Makes.hexes (h : Makes (.listOf .hex) w) : ∃ xs, w = .list xs ∧ ∀ x ∈ xs, ∃ bs, x = .bytes bs := by
  obtain ⟨xs, rfl, hxs⟩ := h.listOf
  exact ⟨xs, rfl, fun x hx => (hxs x hx).hex⟩

/-- Fields are what the rules of a record read. -/
def Fits (rules : List (String × Bool × Shape)) (fields : Value.Fields) : Prop :=
  ∀ key x, Value.field? key fields = some x → ∃ rule ∈ rules, rule.1 = key ∧ rule.2.2.Makes x

theorem fits_of_readFields : ∀ {rules : List (String × Bool × Shape)} {fields found : Value.Fields},
    readFields rules fields = .ok found → Fits rules found
  | [], fields, found, h => by
    rw [readFields] at h
    cases h
    intro key x hx
    cases hx
  | (name, required, shape) :: rules, fields, found, h => by
    have hlater : ∀ {rest}, readFields rules fields = .ok rest → ∀ key x, Value.field? key rest = some x →
        ∃ rule ∈ (name, required, shape) :: rules, rule.1 = key ∧ rule.2.2.Makes x := by
      intro rest hrest key x hx
      obtain ⟨rule, hmem, hrule⟩ := fits_of_readFields hrest key x hx
      exact ⟨rule, List.mem_cons_of_mem _ hmem, hrule⟩
    rw [readFields] at h
    split at h
    · exact hlater h
    · rename_i v _
      obtain ⟨w, hw, h⟩ := except_bind_eq_ok_iff.1 h
      obtain ⟨rest, hrest, h⟩ := except_bind_eq_ok_iff.1 h
      cases h
      intro key x hx
      rw [Value.field?_cons] at hx
      split at hx
      · rename_i hkey
        cases hx
        exact ⟨_, List.mem_cons_self, hkey.symm, v, hw⟩
      · exact hlater hrest key x hx

theorem Makes.record {rules : List (String × Bool × Shape)} (h : Makes (.record rules) w) :
    w = .null ∨ ∃ found, w = .map found ∧ Fits rules found := by
  obtain ⟨v, h⟩ := h
  cases v with
  | null =>
    simp only [read, Except.ok.injEq] at h
    exact .inl h.symm
  | map fields =>
    simp only [read] at h
    obtain ⟨found, hfound, h⟩ := except_bind_eq_ok_iff.1 h
    split at h
    · cases h
      exact .inr ⟨found, rfl, fits_of_readFields hfound⟩
    · cases h
  | _ => simp [read] at h

namespace Fits

variable {rules : List (String × Bool × Shape)} {fields : Value.Fields} {key : String} {shape item : Shape}

/-- A field is null or what its rule makes. -/
theorem field_cases (h : Fits rules fields) (hrule : ∀ rule ∈ rules, rule.1 = key → rule.2.2 = shape) :
    (Value.field? key fields).getD .null = .null ∨ shape.Makes ((Value.field? key fields).getD .null) := by
  cases hfield : Value.field? key fields with
  | none => exact .inl rfl
  | some x =>
    obtain ⟨rule, hmem, hkey, hmakes⟩ := h key x hfield
    rw [hrule rule hmem hkey] at hmakes
    exact .inr hmakes

theorem items (h : Fits rules fields) (hrule : ∀ rule ∈ rules, rule.1 = key → rule.2.2 = .listOf item) :
    ∀ x ∈ Statement.listOf (Value.field? key fields), item.Makes x := by
  have hcases := h.field_cases hrule
  cases hfield : Value.field? key fields with
  | none => simp [Statement.listOf]
  | some x =>
    rw [hfield] at hcases
    obtain rfl | hmakes : x = .null ∨ _ := hcases
    · simp [Statement.listOf]
    · obtain ⟨xs, rfl, hxs⟩ := hmakes.listOf
      exact hxs

end Fits

end Shape

open Shape (Makes)

namespace StatusReport

/-- A report with a date, or without one. -/
def IsDated (r : StatusReport) : Prop := ∃ day, r.effectiveDate = .int day

end StatusReport

namespace Entry

/-- An entry states what it states in the kinds that the schema gives. -/
structure Settled (e : Entry) : Prop where
  aaguid : e.aaguid.IsAaguid
  keys : e.keyIdentifiers.AreKeys
  dates : ∀ r ∈ e.reports, r.effectiveDate = .null ∨ r.IsDated
  statement : ∀ l, e.statement = some l → ∃ s : Statement, s.listing = l

end Entry

/-! ## What is read -/

theorem StatusReport.ofRead_date {v : Value} (h : statusReportShape.Makes v) :
    (ofRead v).effectiveDate = .null ∨ (ofRead v).IsDated := by
  obtain rfl | ⟨fields, rfl, hfields⟩ := h.record
  · exact .inl rfl
  · exact (hfields.field_cases (by simp [needed, optional])).imp_right Makes.date

theorem Entry.settled_ofRead {v : Value} (h : entryShape.Makes v) : (ofRead v).Settled := by
  obtain rfl | ⟨fields, rfl, hfields⟩ := h.record
  · exact ⟨.inl rfl, .inl rfl, by simp [ofRead], by simp [ofRead]⟩
  · refine ⟨?_, ?_, fun r hr => ?_, fun l hl => ?_⟩
    · exact (hfields.field_cases (by simp [needed, optional])).imp_right Makes.aaguid
    · exact (hfields.field_cases (by simp [needed, optional])).imp_right Makes.hexes
    · obtain ⟨x, hx, rfl⟩ := List.mem_map.1 hr
      exact StatusReport.ofRead_date (hfields.items (by simp [needed, optional]) x hx)
    · simp only [ofRead] at hl
      split at hl
      · cases hl
        exact ⟨_, rfl⟩
      · cases hl

/-- The entries of a payload that has been read state what they state in the kinds that the schema gives. -/
theorem Payload.settled_of_ofValue {v : Value} {p : Payload} (h : ofValue v = .ok (some p)) :
    ∀ e ∈ p.entries, e.Settled := by
  obtain ⟨read, hread, h⟩ := except_bind_eq_ok_iff.1 h
  obtain rfl | ⟨fields, rfl, hfields⟩ := Makes.record ⟨v, hread⟩
  · cases h
  · cases h
    intro e he
    obtain ⟨x, hx, rfl⟩ := List.mem_map.1 he
    exact Entry.settled_ofRead (hfields.items (by simp [needed]) x hx)

end Metadata
end AttestationTrust
