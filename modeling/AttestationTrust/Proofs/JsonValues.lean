import Mathlib.Data.List.Induction
import Mathlib.Data.List.TakeWhile
import AttestationTrust.Metadata.Statement
import AttestationTrust.Proofs.Action
import AttestationTrust.Proofs.Fields
import AttestationTrust.Proofs.Rounding
/-!
# What a document can hold

A document holds no octets and no tuples, its integers have as many digits as are read and no more, and the undefined
number in it is always the same (`Value.IsJson`).  So every value that is read from a document is one that JSON carries
without change (`Json.isJson_of_parse`, `Metadata.Statement.copy_of_isJson`).
-/
namespace AttestationTrust

/-- A value that a document can hold. -/
inductive Value.IsJson : Value → Prop
  | null : IsJson .null
  | bool (b : Bool) : IsJson (.bool b)
  | int {n : Int} (h : (Nat.toDigits 10 n.natAbs).length ≤ Numeral.maxDigits) : IsJson (.int n)
  | float {x : Binary64} (h : x.isNaN = true → x = Binary64.nan) : IsJson (.float x)
  | text (s : String) : IsJson (.text s)
  | list {xs : List Value} (h : ∀ x ∈ xs, IsJson x) : IsJson (.list xs)
  | map {fields : Value.Fields} (hkeyed : Value.Keyed fields) (h : ∀ f ∈ fields, IsJson f.2) : IsJson (.map fields)

namespace Value

theorem IsJson.keyed {fs : Fields} (h : IsJson (.map fs)) : Keyed fs := by
  cases h with
  | map h _ => exact h

theorem IsJson.fields {fs : Fields} (h : IsJson (.map fs)) : ∀ f ∈ fs, IsJson f.2 := by
  cases h with
  | map _ h => exact h

end Value

namespace Json

open Value (IsJson)

variable {fuel room : Nat} {cs rest : List Char} {v : Value}

/-! ## Numbers -/

theorem isJson_of_not_isNaN {x : Binary64} (h : x.isNaN = false) : IsJson (.float x) :=
  .float fun hnan => by rw [h] at hnan; cases hnan

theorem digitsValue_lt {ds : List Char} (h : ∀ c ∈ ds, isDigit c = true) : Numeral.digitsValue ds < 10 ^ ds.length := by
  unfold Numeral.digitsValue
  induction ds using List.reverseRecOn with
  | nil => decide
  | append_singleton ds c ih =>
    have hc : c.toNat ≤ 57 := by
      have hdigit := h c (by simp)
      simp only [isDigit, Bool.and_eq_true, decide_eq_true_eq] at hdigit
      exact UInt32.le_iff_toNat_le.1 hdigit.2
    have hds := ih fun d hd => h d (List.mem_append_left _ hd)
    rw [List.foldl_append, List.length_append, List.length_singleton, Nat.pow_succ]
    simp only [List.foldl_cons, List.foldl_nil]
    omega

theorem isDigit_of_readWhole {ds : List Char} (h : readWhole cs = some (ds, rest)) :
    ds ≠ [] ∧ ∀ c ∈ ds, isDigit c = true := by
  unfold readWhole at h
  split at h
  · cases h
    exact ⟨List.cons_ne_nil _ _, List.forall_mem_singleton.2 (by decide)⟩
  · split at h
    · next hc =>
      cases h
      exact ⟨List.cons_ne_nil _ _, List.forall_mem_cons.2 ⟨hc, fun d hd => List.mem_takeWhile_imp hd⟩⟩
    · cases h
  · cases h

theorem isJson_of_readSize {negative : Bool} (h : readSize negative cs = some (v, rest)) : IsJson v := by
  obtain ⟨⟨ds, r⟩, hwhole, h⟩ := Option.bind_eq_some_iff.1 h
  obtain ⟨hne, hdigits⟩ := isDigit_of_readWhole hwhole
  dsimp only at h
  split at h
  · split at h
    · cases h
    · next hlength =>
      cases h
      have hlt := digitsValue_lt hdigits
      have hdigits' := Nat.toDigits_length 10 _ _ (List.length_pos_iff.2 hne) hlt
      refine .int (Nat.le_trans ?_ (Nat.le_of_not_lt hlength))
      cases negative <;> simpa using hdigits'
  · cases h
    exact isJson_of_not_isNaN (Binary64.isNaN_ofDecimal _ _ _)

theorem isJson_of_mem_words : ∀ w ∈ words, IsJson w.2 := by
  have hinfinite : ∀ negative, IsJson (.float (Binary64.ofMagnitude negative Binary64.topMagnitude)) := fun negative =>
    isJson_of_not_isNaN (Binary64.isNaN_ofMagnitude (Nat.le_refl _) negative)
  simp only [words, List.forall_mem_cons, List.not_mem_nil, false_implies, implies_true, and_true]
  exact ⟨.null, .bool true, .bool false, .float fun _ => rfl, hinfinite false, hinfinite true⟩

theorem isJson_of_readScalar (h : readScalar cs = some (v, rest)) : IsJson v := by
  unfold readScalar at h
  split at h
  · next hword =>
    cases h
    obtain ⟨w, hw, heq⟩ := Option.map_eq_some_iff.1 hword
    cases heq
    exact isJson_of_mem_words w (List.mem_of_find?_eq_some hw)
  · split at h <;> exact isJson_of_readSize h

/-! ## Lists and objects -/

theorem orInvalid_eq_ok_iff {α : Type} {o : Option α} {a : α} : orInvalid o = .ok a ↔ o = some a := by
  cases o <;> simp [orInvalid]

/-- What the reader has made of values that stand inside is all that it puts into a list or an object. -/
theorem isJson_of_readValue (fuel : Nat) :
    (∀ {room cs v rest}, readValue fuel room cs = .ok (v, rest) → IsJson v) ∧
    (∀ {room cs xs rest}, readItems fuel room cs = .ok (xs, rest) → ∀ x ∈ xs, IsJson x) ∧
    (∀ {room cs fields rest}, readFields fuel room cs = .ok (fields, rest) → ∀ f ∈ fields, IsJson f.2) := by
  induction fuel with
  | zero => exact ⟨nofun, nofun, nofun⟩
  | succ fuel ih =>
    obtain ⟨hvalue, hitems, hfields⟩ := ih
    refine ⟨fun {room cs v rest} h => ?value, fun {room cs xs rest} h => ?items, fun {room cs fields rest} h => ?fields⟩
    case value =>
      cases cs with
      | nil => cases h
      | cons c cs =>
        unfold readValue at h
        split at h
        · obtain ⟨r, -, hr⟩ := map_eq_ok_iff.1 h
          cases hr
          exact .text _
        · split at h
          · split at h
            · cases h
            · split at h
              · cases h
                exact .list (by simp)
              · obtain ⟨r, hread, hr⟩ := map_eq_ok_iff.1 h
                cases hr
                exact .list (hitems hread)
              · cases h
                exact .map List.nodup_nil (by simp)
              · obtain ⟨r, hread, hr⟩ := map_eq_ok_iff.1 h
                cases hr
                exact .map (Value.keyed_ofPairs _) fun f hf => hfields hread f (Value.mem_ofPairs f hf)
          · exact isJson_of_readScalar (orInvalid_eq_ok_iff.1 h)
    case items =>
      rw [readItems] at h
      obtain ⟨⟨x, r⟩, hx, h⟩ := except_bind_eq_ok_iff.1 h
      dsimp only at h
      split at h
      · obtain ⟨⟨ys, r'⟩, hys, hr⟩ := map_eq_ok_iff.1 h
        cases hr
        exact List.forall_mem_cons.2 ⟨hvalue hx, hitems hys⟩
      · cases h
        exact List.forall_mem_cons.2 ⟨hvalue hx, by simp⟩
      · cases h
    case fields =>
      rw [readFields] at h
      obtain ⟨⟨key, r⟩, -, h⟩ := except_bind_eq_ok_iff.1 h
      dsimp only at h
      split at h
      · obtain ⟨⟨x, r'⟩, hx, h⟩ := except_bind_eq_ok_iff.1 h
        dsimp only at h
        split at h
        · obtain ⟨⟨fs, r''⟩, hfs, hr⟩ := map_eq_ok_iff.1 h
          cases hr
          exact List.forall_mem_cons.2 ⟨hvalue hx, hfields hfs⟩
        · cases h
          exact List.forall_mem_cons.2 ⟨hvalue hx, by simp⟩
        · cases h
      · cases h

variable [Limits]

/-- Whatever is read from a document is a value that a document can hold. -/
theorem isJson_of_parse (h : parse cs = .ok v) : IsJson v := by
  obtain ⟨⟨w, r⟩, hread, h⟩ := except_bind_eq_ok_iff.1 h
  dsimp only at h
  split at h
  · cases h
    exact (isJson_of_readValue _).1 hread
  · cases h

theorem isJson_of_ofUtf8 {bs : Bytes} (h : ofUtf8 bs = .ok v) : IsJson v := by
  obtain ⟨text, -, h⟩ := except_bind_eq_ok_iff.1 h
  exact isJson_of_parse h

end Json

namespace Metadata
namespace Statement

open Value (IsJson)

/-! ## Copies -/

theorem carriedAll_of_forall : ∀ {xs : List Value}, (∀ x ∈ xs, carried x = some x) → carriedAll xs = some xs
  | [], _ => rfl
  | x :: xs, h => by
    obtain ⟨hx, hxs⟩ := List.forall_mem_cons.1 h
    rw [carriedAll, hx, carriedAll_of_forall hxs]
    rfl

theorem carriedFields_of_forall : ∀ {fields : Value.Fields}, (∀ f ∈ fields, carried f.2 = some f.2) →
    carriedFields fields = some fields
  | [], _ => rfl
  | (k, v) :: fields, h => by
    obtain ⟨hv, hfields⟩ := List.forall_mem_cons.1 h
    rw [carriedFields, hv, carriedFields_of_forall hfields]
    rfl

theorem carried_of_isJson {v : Value} (h : v.IsJson) : carried v = some v := by
  induction h with
  | null | bool | text => rfl
  | int h => rw [carried, if_pos h]
  | @float x h =>
    rw [carried]
    split
    · next hnan => rw [h hnan]
    · rfl
  | list _ ih => rw [carried, carriedAll_of_forall ih, Option.map_some]
  | map _ _ ih => rw [carried, carriedFields_of_forall ih, Option.map_some]

/-- A value that a document can hold is its own copy. -/
theorem copy_of_isJson {v : Value} (h : v.IsJson) : copy v = v := by
  cases h with
  | int | float => rfl
  | null => rfl
  | bool b => rfl
  | text s => rfl
  | list h => rw [copy, carried_of_isJson (.list h), Option.getD_some] <;> simp
  | map hkeyed h => rw [copy, carried_of_isJson (.map hkeyed h), Option.getD_some] <;> simp

end Statement
end Metadata
end AttestationTrust
