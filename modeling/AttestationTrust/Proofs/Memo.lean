import Mathlib.Data.List.DropRight
import AttestationTrust.Endpoints
/-!
# What a resolver remembers

A resolver makes its endpoints of the settings that the first call since its last reset brings, and answers later calls
with them whatever settings those bring; that there were none is remembered as well.  The list in an answer is the
caller's to change, so the memory has to be an object apart from every answer: a tuple, which stays as it was made, while
each answer is a new list (`Resolver.Shared.resolve`).  As long as the memory is a tuple of what has been resolved
(`Resolver.Shared.Remembers`), no change of a list comes to it, and the answers depend on the first settings alone
(`Resolver.resolve_recalls_first`).
-/
namespace AttestationTrust
namespace Resolver

/-! ## The endpoints in a value -/

/-- The items in which a value states endpoints: those of a list or a tuple, or a text that stands alone. -/
def items : Value → List Value
  | .text s => [.text s]
  | .list xs => xs
  | .tuple xs => xs
  | _ => []

/-- Whether endpoints can be stated in values of this kind, or none are stated. -/
def isSupported : Value → Bool
  | .null => true
  | .text _ => true
  | .list _ => true
  | .tuple _ => true
  | _ => false

/-- The warnings about what is ignored in a value. -/
def ignored (key : String) (v : Value) : List LogRecord :=
  if isSupported v then ((items v).filter fun x => x.text?.isNone).map (ignoredItem key) else [ignoredValue key v]

/-- The endpoints in a value are those of its items that are texts, as they are and in their order. -/
theorem normalise_eq (key : String) (v : Value) :
    normalise key v = ((items v).filterMap Value.text?, ignored key v) := by
  cases v <;> simp [normalise, items, ignored, isSupported, Value.text?]

/-! ## Calls in a row -/

/-- What callers do: they ask for the endpoints under the settings of the moment, they reset the resolver, and they try
to change an object at some address. -/
inductive Call where
  | resolve (settings : Settings)
  | reset
  | change (address : Nat) (texts : List String)

namespace Call

def isReset : Call → Bool
  | .reset => true
  | _ => false

def settings? : Call → Option Settings
  | .resolve settings => some settings
  | _ => none

/-- The settings that the first call for the endpoints since the last reset has brought. -/
def first? (calls : List Call) : Option Settings := (calls.rtakeWhile fun c => !c.isReset).findSome? settings?

theorem first?_append_resolve (calls : List Call) (s : Settings) :
    first? (calls ++ [.resolve s]) = some ((first? calls).getD s) := by
  rw [first?, List.rtakeWhile_concat_pos _ _ _ rfl, List.findSome?_append]
  cases h : first? calls <;> rw [first?] at h <;> rw [h] <;> rfl

theorem first?_append_reset (calls : List Call) : first? (calls ++ [.reset]) = none := by
  rw [first?, List.rtakeWhile_concat_neg _ _ _ (by decide)]
  rfl

theorem first?_append_change (calls : List Call) (address : Nat) (texts : List String) :
    first? (calls ++ [.change address texts]) = first? calls := by
  rw [first?, List.rtakeWhile_concat_pos _ _ _ rfl, List.findSome?_append]
  exact Option.or_none

end Call

/-- A change of an object is nothing to the resolver, which has no part in it. -/
def perform (r : Resolver) : Call → Resolver
  | .resolve settings => (r.resolve settings).2
  | .reset => r.reset
  | .change _ _ => r

def after (r : Resolver) (calls : List Call) : Resolver := calls.foldl perform r

theorem after_append (r : Resolver) (calls : List Call) (c : Call) : r.after (calls ++ [c]) = (r.after calls).perform c := by
  rw [after, List.foldl_append]
  rfl

theorem resolve_of_resolved {r : Resolver} {found : List String} (h : r.resolved = some found) (s : Settings) :
    r.resolve s = ((found, []), r) := by
  rw [resolve, h]

theorem resolve_of_unresolved {r : Resolver} (h : r.resolved = none) (s : Settings) :
    r.resolve s = (normalise r.key (s.get r.key), { r with resolved := some (normalise r.key (s.get r.key)).1 }) := by
  rw [resolve, h]

/-- What is remembered after calls was made of the first settings since the last reset. -/
theorem after_new (key : String) (calls : List Call) :
    (new key).after calls = ⟨key, (Call.first? calls).map fun s => (normalise key (s.get key)).1⟩ := by
  induction calls using List.reverseRecOn with
  | nil => rfl
  | append_singleton calls c ih =>
    rw [after_append, ih]
    cases c with
    | resolve s =>
      rw [Call.first?_append_resolve]
      cases Call.first? calls <;> rfl
    | reset =>
      rw [Call.first?_append_reset]
      rfl
    | change address texts =>
      rw [Call.first?_append_change]
      rfl

/-- The next answer, and what is logged for it. -/
theorem resolve_after_new (key : String) (calls : List Call) (s : Settings) :
    (((new key).after calls).resolve s).1 =
      ((normalise key (((Call.first? calls).getD s).get key)).1,
        if (Call.first? calls).isNone then (normalise key (s.get key)).2 else []) := by
  rw [after_new]
  cases Call.first? calls <;> rfl

/-! ## A memory among the objects of others -/

/-- An object that holds texts.  A tuple stays as it was made, a list is changed by whoever has it. -/
inductive Texts where
  | tuple (texts : List String)
  | list (texts : List String)

namespace Texts

def contents : Texts → List String
  | .tuple texts => texts
  | .list texts => texts

/-- What comes of an object that someone gives other texts. -/
def changed (texts : List String) : Texts → Texts
  | .tuple own => .tuple own
  | .list _ => .list texts

end Texts

/-- A resolver whose memory is one of the objects that there are, each of them at an address. -/
structure Shared where
  key : String
  memory : Option Nat
  objects : List Texts

namespace Shared

def new (key : String) (objects : List Texts) : Shared := ⟨key, none, objects⟩

/-- A new object, with its address. -/
def put (x : Shared) (o : Texts) : Nat × Shared := (x.objects.length, { x with objects := x.objects ++ [o] })

def contents (x : Shared) (address : Nat) : List String := (x.objects[address]?.map Texts.contents).getD []

/-- The address of the memory, which is made if there is none, and what is logged in making it. -/
def remember (x : Shared) (s : Settings) : (Nat × List LogRecord) × Shared :=
  match x.memory with
  | some m => ((m, []), x)
  | none =>
    let (found, warnings) := normalise x.key (s.get x.key)
    let (m, x) := x.put (.tuple found)
    ((m, warnings), { x with memory := some m })

/-- The address of the answer, a copy of the memory. -/
def resolve (x : Shared) (s : Settings) : (Nat × List LogRecord) × Shared :=
  let ((m, warnings), x) := x.remember s
  let (answer, x) := x.put (.list (x.contents m))
  ((answer, warnings), x)

def perform (x : Shared) : Call → Shared
  | .resolve settings => (x.resolve settings).2
  | .reset => { x with memory := none }
  | .change address texts => { x with objects := x.objects.modify address (Texts.changed texts) }

def after (x : Shared) (calls : List Call) : Shared := calls.foldl perform x

/-- The memory is a tuple of what a resolver has resolved. -/
structure Remembers (x : Shared) (r : Resolver) : Prop where
  key : x.key = r.key
  memory : x.memory.map (x.objects[·]?) = r.resolved.map fun found => some (.tuple found)

variable {x : Shared} {r : Resolver}

theorem Remembers.of_unresolved (h : x.Remembers r) (hr : r.resolved = none) : x.memory = none := by
  have hmemory := h.memory
  rw [hr] at hmemory
  exact Option.map_eq_none_iff.1 hmemory

theorem Remembers.of_resolved (h : x.Remembers r) {found : List String} (hr : r.resolved = some found) :
    ∃ m, x.memory = some m ∧ x.objects[m]? = some (.tuple found) := by
  have hmemory := h.memory
  rw [hr] at hmemory
  exact Option.map_eq_some_iff.1 hmemory

/-- A new object leaves the others where they are. -/
theorem Remembers.put (h : x.Remembers r) (o : Texts) : (x.put o).2.Remembers r := by
  refine ⟨h.key, ?_⟩
  cases hr : r.resolved with
  | none => simp [Shared.put, h.of_unresolved hr]
  | some found =>
    obtain ⟨m, hm, hobject⟩ := h.of_resolved hr
    have hlt : m < x.objects.length := (List.getElem?_eq_some_iff.1 hobject).1
    simp [Shared.put, hm, List.getElem?_append_left hlt, hobject]

theorem Remembers.remember (h : x.Remembers r) (s : Settings) : ∃ m y,
    x.remember s = ((m, (r.resolve s).1.2), y) ∧ x.objects <+: y.objects ∧
      y.objects[m]? = some (.tuple (r.resolve s).1.1) ∧ y.Remembers (r.resolve s).2 := by
  cases hr : r.resolved with
  | none =>
    have hm := h.of_unresolved hr
    rw [resolve_of_unresolved hr, ← h.key]
    refine ⟨x.objects.length, ⟨x.key, some x.objects.length, x.objects ++ [.tuple (normalise x.key (s.get x.key)).1]⟩,
      ?_, List.prefix_append _ _, ?_, rfl, ?_⟩
    · rw [Shared.remember, hm]
      rfl
    · exact List.getElem?_concat_length
    · exact congrArg some List.getElem?_concat_length
  | some found =>
    obtain ⟨m, hm, hobject⟩ := h.of_resolved hr
    refine ⟨m, x, ?_, List.prefix_rfl, ?_, ?_⟩
    · rw [Shared.remember, hm, resolve_of_resolved hr]
    · rw [resolve_of_resolved hr, hobject]
    · rw [resolve_of_resolved hr]
      exact h

/-- One answer: a list that no one had before, with what the resolver answers. -/
theorem Remembers.resolve (h : x.Remembers r) (s : Settings) : ∃ answer y,
    x.resolve s = ((answer, (r.resolve s).1.2), y) ∧ x.objects <+: y.objects ∧ x.objects.length ≤ answer ∧
      y.objects[answer]? = some (.list (r.resolve s).1.1) ∧ y.Remembers (r.resolve s).2 := by
  obtain ⟨m, y, hy, hprefix, hobject, hremembers⟩ := h.remember s
  have hcontents : y.contents m = (r.resolve s).1.1 := by
    rw [Shared.contents, hobject]
    rfl
  refine ⟨y.objects.length, _, ?_, hprefix.trans (List.prefix_append _ _), hprefix.length_le, ?_,
    hremembers.put (.list (r.resolve s).1.1)⟩
  · rw [Shared.resolve, hy, ← hcontents]
    rfl
  · exact List.getElem?_concat_length

theorem Remembers.change (h : x.Remembers r) (address : Nat) (texts : List String) :
    (x.perform (.change address texts)).Remembers r := by
  refine ⟨h.key, ?_⟩
  cases hr : r.resolved with
  | none => simp [Shared.perform, h.of_unresolved hr]
  | some found =>
    obtain ⟨m, hm, hobject⟩ := h.of_resolved hr
    -- the memory is a tuple, so a change at its own address leaves it as well
    simp [Shared.perform, hm, List.getElem?_modify, hobject, Texts.changed]

theorem Remembers.perform (h : x.Remembers r) (c : Call) : (x.perform c).Remembers (r.perform c) := by
  cases c with
  | resolve s =>
    obtain ⟨answer, y, hy, -, -, -, hremembers⟩ := h.resolve s
    rw [Shared.perform, hy]
    exact hremembers
  | reset => exact ⟨h.key, rfl⟩
  | change address texts => exact h.change address texts

theorem Remembers.after (h : x.Remembers r) (calls : List Call) : (x.after calls).Remembers (r.after calls) := by
  induction calls generalizing x r with
  | nil => exact h
  | cons c calls ih => exact ih (h.perform c)

theorem remembers_new (key : String) (objects : List Texts) : (new key objects).Remembers (Resolver.new key) := ⟨rfl, rfl⟩

end Shared

/-- **A resolver answers with what the first call since the last reset has found.**  After any calls, resets and changes
of objects, the next answer holds the texts among the items of the value that the first settings since the last reset
have under the key, or of the value at hand where this call is the first; only then is anything logged.  The answer is a
list at an address that no object had before, and all objects that there were stay as they are. -/
theorem resolve_recalls_first (key : String) (objects : List Texts) (calls : List Call) (s : Settings) :
    let v := ((Call.first? calls).getD s).get key
    let found := (items v).filterMap Value.text?
    let warnings := if (Call.first? calls).isNone then ignored key v else []
    let x := (Shared.new key objects).after calls
    (((new key).after calls).resolve s).1 = (found, warnings) ∧
    ∃ answer y, x.resolve s = ((answer, warnings), y) ∧ y.objects[answer]? = some (.list found) ∧
      x.objects.length ≤ answer ∧ x.objects <+: y.objects := by
  intro v found warnings x
  have hresolve : (((new key).after calls).resolve s).1 = (found, warnings) := by
    rw [resolve_after_new, normalise_eq, normalise_eq]
    cases hfirst : Call.first? calls <;> simp [found, warnings, v, hfirst]
  obtain ⟨answer, y, hy, hprefix, hlength, hobject, -⟩ := ((Shared.remembers_new key objects).after calls).resolve s
  rw [hresolve] at hy hobject
  exact ⟨hresolve, answer, y, hy, hobject, hlength, hprefix⟩

end Resolver
end AttestationTrust
