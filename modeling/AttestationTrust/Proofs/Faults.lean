import AttestationTrust.Proofs.Settling
/-!
# Documents that no schema finds invalid

A schema that does not read a value finds it invalid, or trips over the first part that is not read
(`Metadata.Shape.Trips`, `Metadata.Shape.read_trips_iff`).  A document that holds no statement is a fault of that document
alone, unless a part of it is tripped over or its parts stand too deep inside each other: then it defeats whoever reads
it (`Metadata.Statement.Defeats`).
-/
namespace AttestationTrust

namespace Metadata

namespace Shape

variable {s : Shape} {v : Value} {f : ShapeFault} {rules : List (String × Bool × Shape)} {fields : Value.Fields}

/-- A field that a rule is for is not there, or is read. -/
def Admits (fields : Value.Fields) (rule : String × Bool × Shape) : Prop :=
  ∀ x, (Value.field? rule.1 fields).bind Value.present? = some x → ∃ y, rule.2.2.read x = .ok y

/-- The first part of a value that is not read is of a kind that has no text where the identifier of a model is to
stand, is infinite where an integer is, or is an integer beyond the floating point numbers where a number is. -/
inductive Trips : Shape → Value → ShapeFault → Prop
  | aaguid {v : Value} (h : v.text? = none) : Trips .aaguid v .noSuchPart
  | infinite {x : Binary64} (hnan : x.isNaN = false) (h : x.isInfinite = true) : Trips .integer (.float x) .infinite
  | tooLarge {n : Int} (h : Binary64.ofInt? n = none) : Trips .number (.int n) .tooLarge
  | item {item : Shape} {v x : Value} {f : ShapeFault} (before after : List Value)
      (hitems : items v = some (before ++ x :: after)) (hbefore : ∀ b ∈ before, ∃ y, item.read b = .ok y)
      (h : Trips item x f) : Trips (.listOf item) v f
  | field {rule : String × Bool × Shape} {fields : Value.Fields} {x : Value} {f : ShapeFault}
      (before after : List (String × Bool × Shape)) (hbefore : ∀ b ∈ before, Admits fields b)
      (hx : (Value.field? rule.1 fields).bind Value.present? = some x) (h : Trips rule.2.2 x f) :
      Trips (.record (before ++ rule :: after)) (.map fields) f

theorem readFields_eq_error_iff (fields : Value.Fields) (rules : List (String × Bool × Shape)) :
    readFields rules fields = .error f ↔ ∃ before rule after, rules = before ++ rule :: after ∧
      (∀ b ∈ before, Admits fields b) ∧
      ∃ x, (Value.field? rule.1 fields).bind Value.present? = some x ∧ rule.2.2.read x = .error f := by
  refine iff_exists_first (R := fun rules => readFields rules fields = .error f) nofun (fun rule rules => ?_) rules
  obtain ⟨key, required, shape⟩ := rule
  rw [readFields]
  unfold Admits
  cases hx : (Value.field? key fields).bind Value.present? with
  | none => simp
  | some x =>
    simp only [Option.some.injEq, exists_eq_left', forall_eq']
    rw [except_bind_eq_error_iff]
    refine or_congr_right ?_
    constructor
    · rintro ⟨y, hy, h⟩
      obtain h | ⟨rest, -, h⟩ := except_bind_eq_error_iff.1 h
      · exact ⟨⟨y, hy⟩, h⟩
      · cases h
    · rintro ⟨⟨y, hy⟩, h⟩
      exact ⟨y, hy, except_bind_eq_error_iff.2 (.inl h)⟩

theorem read_listOf_eq_error {item : Shape} {xs : List Value} (hitems : items v = some xs)
    (h : xs.mapM item.read = .error f) : (listOf item).read v = .error f := by
  rw [read, hitems]
  simp only [h]
  rfl

theorem Trips.read_eq_error (h : Trips s v f) : s.read v = .error f ∧ f ≠ .invalid := by
  induction h with
  | @aaguid v h =>
    refine ⟨?_, nofun⟩
    rw [read]
    cases v with
    | text s => cases h
    | _ => rfl
  | infinite hnan h => exact ⟨by simp [read, readInteger, hnan, h], nofun⟩
  | tooLarge h => exact ⟨by simp [read, readNumber, h], nofun⟩
  | item before after hitems hbefore h ih =>
    exact ⟨read_listOf_eq_error hitems ((mapM_eq_error_iff _).2 ⟨before, _, after, rfl, hbefore, ih.1⟩), ih.2⟩
  | field before after hbefore hx h ih =>
    refine ⟨?_, ih.2⟩
    rw [read, (readFields_eq_error_iff _ _).2 ⟨before, _, after, rfl, hbefore, _, hx, ih.1⟩]
    rfl

theorem readInteger_trips (h : readInteger v = .error f) (hf : f ≠ .invalid) : Trips .integer v f := by
  unfold readInteger at h
  split at h
  · cases h
  · cases h
  · split at h
    · cases h
    · cases h
      exact absurd rfl hf
  · split at h
    · cases h
      exact absurd rfl hf
    · rename_i hnan
      split at h
      · rename_i hinfinite
        cases h
        exact .infinite (Bool.not_eq_true _ ▸ hnan) hinfinite
      · cases h
  · cases h
    exact absurd rfl hf

theorem readNumber_trips (h : readNumber v = .error f) (hf : f ≠ .invalid) : Trips .number v f := by
  unfold readNumber at h
  split at h
  · cases h
  · cases h
  · split at h
    · cases h
    · rename_i hlarge
      cases h
      exact .tooLarge hlarge
  · split at h
    · cases h
    · cases h
      exact absurd rfl hf
  · cases h
    exact absurd rfl hf

theorem readAaguid_trips (h : readAaguid v = .error f) (hf : f ≠ .invalid) : Trips .aaguid v f := by
  unfold readAaguid at h
  split at h
  · split at h
    · split at h
      · cases h
      · cases h
        exact absurd rfl hf
    · cases h
      exact absurd rfl hf
  · rename_i hv
    cases h
    refine .aaguid ?_
    cases v with
    | text s => exact absurd rfl (hv s)
    | _ => rfl

theorem eq_invalid_of_orInvalid {o : Option Value} (h : orInvalid o = .error f) : f = .invalid := by
  cases o <;> cases h
  rfl

/-- A shape finds a value invalid, or trips over a part of it. -/
theorem trips_of_read_eq_error : ∀ {s : Shape} {v : Value}, s.read v = .error f → f ≠ .invalid → Trips s v f
  | .text, v, h, _ => by simp [read] at h
  | .integer, v, h, hf => readInteger_trips (by rwa [read] at h) hf
  | .number, v, h, hf => readNumber_trips (by rwa [read] at h) hf
  | .truth, v, h, _ => by simp [read] at h
  | .base64, v, h, hf => absurd (eq_invalid_of_orInvalid (by rwa [read, readBase64] at h)) hf
  | .hex, v, h, hf => absurd (eq_invalid_of_orInvalid (by rwa [read, readHex] at h)) hf
  | .aaguid, v, h, hf => readAaguid_trips (by rwa [read] at h) hf
  | .date, v, h, hf => absurd (eq_invalid_of_orInvalid (by rwa [read, readDate] at h)) hf
  | .choice names, v, h, _ => by
    rw [read] at h
    unfold readChoice at h
    split at h <;> cases h
  | .object, v, h, hf => by
    rw [read] at h
    unfold readObject at h
    split at h <;> cases h
    exact absurd rfl hf
  | .texts, v, h, hf => by
    rw [read] at h
    unfold readTexts at h
    split at h <;> cases h
    exact absurd rfl hf
  | .listOf item, v, h, hf => by
    rw [read] at h
    split at h
    · rename_i xs hitems
      have hread : xs.mapM item.read = .error f := by
        cases hxs : xs.mapM item.read with
        | error g =>
          rw [hxs] at h
          cases h
          rfl
        | ok ys =>
          rw [hxs] at h
          cases h
      obtain ⟨before, x, after, rfl, hbefore, hx⟩ := (mapM_eq_error_iff xs).1 hread
      exact .item before after hitems hbefore (trips_of_read_eq_error hx hf)
    · cases h
      exact absurd rfl hf
  | .record rules, v, h, hf => by
    cases v with
    | null => simp [read] at h
    | map fields =>
      rw [read] at h
      obtain h | ⟨found, -, h⟩ := except_bind_eq_error_iff.1 h
      · obtain ⟨before, rule, after, heq, hbefore, x, hx, hread⟩ := (readFields_eq_error_iff fields rules).1 h
        have hrule : rule ∈ rules := heq ▸ List.mem_append_right _ List.mem_cons_self
        have htrips := trips_of_read_eq_error hread hf
        rw [heq]
        exact .field before after hbefore hx htrips
      · split at h <;> cases h
        exact absurd rfl hf
    | _ =>
      simp only [read] at h
      cases h
      exact absurd rfl hf
termination_by s => sizeOf s
decreasing_by
  · simp
  · have hlt := List.sizeOf_lt_of_mem hrule
    obtain ⟨key, required, shape⟩ := rule
    simp only [record.sizeOf_spec, Prod.mk.sizeOf_spec] at hlt ⊢
    omega

theorem read_trips_iff : s.read v = .error f ∧ f ≠ .invalid ↔ Trips s v f :=
  ⟨fun h => trips_of_read_eq_error h.1 h.2, Trips.read_eq_error⟩

end Shape

namespace Statement

open StatementFiles (isSkipped)

variable [Json.Limits] {source : String} {bs : Bytes} {f : Failure}

/-- The reading of a document ends with a failure that is not of the document alone. -/
inductive Defeats (bs : Bytes) : Failure → Prop
  | tooDeep (h : Json.ofUtf8 bs = .error .tooDeep) : Defeats bs .tooDeep
  | trips {raw : Value.Fields} {fault : ShapeFault} (h : Json.ofUtf8 bs = .ok (.map raw))
      (ht : statementShape.Trips (.map (normaliseFields raw)) fault) : Defeats bs fault.failure

omit [Json.Limits] in
theorem isSkipped_failure {fault : ShapeFault} : isSkipped fault.failure = false := by
  cases fault <;> rfl

omit [Json.Limits] in
theorem ofFields_trips_iff {fields : Value.Fields} {fault : ShapeFault} (hf : fault ≠ .invalid) :
    ofFields fields = .error fault ↔ statementShape.Trips (.map fields) fault := by
  rw [← Shape.read_trips_iff, and_iff_left hf]
  unfold ofFields
  rw [except_bind_eq_error_iff]
  refine or_iff_left ?_
  rintro ⟨v, -, h⟩
  split at h
  · cases h
  · cases h
    exact hf rfl

theorem parse_of_object {raw : Value.Fields} (h : Json.ofUtf8 bs = .ok (.map raw)) :
    parse source bs = (ofFields (normaliseFields raw)).mapError (shapeFailure source) := by
  rw [parse, h]
  exact pure_bind (normaliseFields raw) fun fields => (ofFields fields).mapError (shapeFailure source)

theorem parse_of_not_object {raw : Value} (h : Json.ofUtf8 bs = .ok raw) (hraw : ∀ fields, raw ≠ .map fields) :
    parse source bs = .error (.statement .notObject) := by
  rw [parse, h]
  cases raw with
  | map fields => exact absurd rfl (hraw fields)
  | _ => rfl

omit [Json.Limits] in
theorem shapeFailure_of_ne {fault : ShapeFault} (h : fault ≠ .invalid) : shapeFailure source fault = fault.failure := by
  cases fault with
  | invalid => exact absurd rfl h
  | _ => rfl

theorem Defeats.parse_eq_error (h : Defeats bs f) (source : String) :
    parse source bs = .error f ∧ isSkipped f = false := by
  cases h with
  | tooDeep h => exact ⟨by rw [parse, h], rfl⟩
  | @trips raw fault h ht =>
    have hf : fault ≠ .invalid := (Shape.read_trips_iff.2 ht).2
    have hfields : ofFields (normaliseFields raw) = .error fault := (ofFields_trips_iff hf).2 ht
    refine ⟨?_, isSkipped_failure⟩
    rw [parse_of_object h, hfields, mapError_error, shapeFailure_of_ne hf]

/-- A document that is not read is no statement, or defeats its reader. -/
theorem parse_error_cases (h : parse source bs = .error f) : (∃ g, f = .statement g) ∨ Defeats bs f := by
  cases hjson : Json.ofUtf8 bs with
  | error fault =>
    rw [parse, hjson] at h
    cases fault with
    | invalid =>
      cases h
      exact .inl ⟨_, rfl⟩
    | tooDeep =>
      cases h
      exact .inr (.tooDeep hjson)
  | ok v =>
    by_cases hv : ∃ raw, v = .map raw
    · obtain ⟨raw, rfl⟩ := hv
      rw [parse_of_object hjson] at h
      obtain ⟨fault, hfault, rfl⟩ := mapError_eq_error_iff.1 h
      by_cases hf : fault = .invalid
      · exact .inl ⟨.invalid source, by rw [hf]; rfl⟩
      · rw [shapeFailure_of_ne hf]
        exact .inr (.trips hjson ((ofFields_trips_iff hf).1 hfault))
    · rw [parse_of_not_object hjson (not_exists.1 hv), Except.error.injEq] at h
      exact .inl ⟨_, h.symm⟩

theorem defeats_iff : parse source bs = .error f ∧ isSkipped f = false ↔ Defeats bs f := by
  refine ⟨fun ⟨h, hs⟩ => (parse_error_cases h).resolve_left ?_, fun h => h.parse_eq_error source⟩
  rintro ⟨g, rfl⟩
  cases hs

end Statement
end Metadata
end AttestationTrust
