import AttestationTrust.Numeral.Shortest
import AttestationTrust.Numeral.Reader
import AttestationTrust.Text.Quoted
/-!
# Dynamic values

A setting may hold a value of any kind, and so may a field of a JSON document.  `Value.display` is the value as
a message writes it, `Value.truthy` the truth value it counts as, `Value.kindName` the word for its kind.  A
mapping keeps its fields in the order of their first appearance, with one field a key (`Value.setField`).
-/
namespace AttestationTrust

inductive Value where
  | null
  | bool (b : Bool)
  | int (i : Int)
  | float (x : Binary64)
  | text (s : String)
  | bytes (bs : Bytes)
  | list (xs : List Value)
  | tuple (xs : List Value)
  | map (fields : List (String × Value))
  deriving Repr, Inhabited

namespace Value

abbrev Fields := List (String × Value)

def field? (key : String) (fields : Fields) : Option Value := fields.lookup key

/-- Replaces the value of a key in its place, or appends the field. -/
def setField (key : String) (v : Value) : Fields → Fields
  | [] => [(key, v)]
  | (k, w) :: rest => if k = key then (k, v) :: rest else (k, w) :: setField key v rest

theorem field?_cons (key k : String) (v : Value) (fields : Fields) :
    field? key ((k, v) :: fields) = if key = k then some v else field? key fields := by
  unfold field?
  rw [List.lookup_cons]
  by_cases h : key = k
  · simp [h]
  · rw [if_neg h, beq_eq_false_iff_ne.2 h]

theorem field?_setField_self (key : String) (v : Value) (fields : Fields) :
    field? key (setField key v fields) = some v := by
  induction fields with
  | nil => simp [setField, field?_cons]
  | cons f rest ih =>
    obtain ⟨k, w⟩ := f
    by_cases h : k = key
    · simp [setField, field?_cons, h]
    · rw [setField, if_neg h, field?_cons, if_neg (Ne.symm h), ih]

theorem field?_setField_of_ne {key other : String} (v : Value) (fields : Fields) (hne : other ≠ key) :
    field? other (setField key v fields) = field? other fields := by
  induction fields with
  | nil => simp [setField, field?_cons, hne]
  | cons f rest ih =>
    obtain ⟨k, w⟩ := f
    by_cases h : k = key
    · subst h
      simp [setField, field?_cons, hne]
    · rw [setField, if_neg h, field?_cons, field?_cons, ih]

/-- Fields added one after another, the last value of a key counting. -/
def ofPairs (pairs : List (String × Value)) : Fields :=
  pairs.foldl (fun fields p => setField p.1 p.2 fields) []

def text? : Value → Option String
  | .text s => some s
  | _ => none

/-- An absent value counts as none. -/
def present? : Value → Option Value
  | .null => none
  | v => some v

/-- Whether a value counts as true: a number other than zero, anything that is not empty. -/
def truthy : Value → Bool
  | .null => false
  | .bool b => b
  | .int i => i ≠ 0
  | .float x => !x.isZero
  | .text s => !s.isEmpty
  | .bytes bs => !bs.isEmpty
  | .list xs => !xs.isEmpty
  | .tuple xs => !xs.isEmpty
  | .map fields => !fields.isEmpty

/-- The word for a value's kind in a message. -/
def kindName : Value → String
  | .null => "NoneType"
  | .bool _ => "bool"
  | .int _ => "int"
  | .float _ => "float"
  | .text _ => "str"
  | .bytes _ => "bytes"
  | .list _ => "list"
  | .tuple _ => "tuple"
  | .map _ => "dict"

mutual

/-- A value as a message writes it inside another. -/
def display : Value → String
  | .null => "None"
  | .bool true => "True"
  | .bool false => "False"
  | .int i => Numeral.integerText i
  | .float x => x.text
  | .text s => Text.quoted s
  | .bytes bs => Text.quotedBytes bs
  | .list xs => "[" ++ ", ".intercalate (displayAll xs) ++ "]"
  | .tuple [x] => "(" ++ display x ++ ",)"
  | .tuple xs => "(" ++ ", ".intercalate (displayAll xs) ++ ")"
  | .map fields => "\x7b" ++ ", ".intercalate (displayFields fields) ++ "\x7d"

def displayAll : List Value → List String
  | [] => []
  | x :: xs => display x :: displayAll xs

def displayFields : List (String × Value) → List String
  | [] => []
  | (k, v) :: rest => (Text.quoted k ++ ": " ++ display v) :: displayFields rest

end

/-- A value as text: a text is itself. -/
def asText : Value → String
  | .text s => s
  | v => v.display

/-- A number as a quotient of integers, where order alone matters. -/
inductive Magnitude where
  | finite (num : Int) (den : Nat)
  | infinite (negative : Bool)
  | undefined

def magnitude? : Value → Option Magnitude
  | .bool b => some (.finite (if b then 1 else 0) 1)
  | .int i => some (.finite i 1)
  | .float x =>
    some (if x.isNaN then .undefined
      else if x.isInfinite then .infinite x.isNegative
      else .finite x.signedNumerator x.denominator)
  | _ => none

def Magnitude.lt : Magnitude → Magnitude → Bool
  | .undefined, _ => false
  | _, .undefined => false
  | .finite a b, .finite c d => a * d < c * b
  | .infinite n, .infinite m => n && !m
  | .infinite n, .finite _ _ => n
  | .finite _ _, .infinite m => !m

mutual

/-- Equality of values: numbers of the three kinds by their value, mappings by their fields in any order. -/
def same : Value → Value → Bool
  | .null, .null => true
  | .text s, .text t => s == t
  | .bytes a, .bytes b => a == b
  | .list xs, .list ys => sameAll xs ys
  | .tuple xs, .tuple ys => sameAll xs ys
  | .map fs, .map gs => fs.length == gs.length && sameFields fs gs
  | v, w =>
    match v.magnitude?, w.magnitude? with
    | some .undefined, _ => false
    | _, some .undefined => false
    | some a, some b => !(a.lt b) && !(b.lt a)
    | _, _ => false

def sameAll : List Value → List Value → Bool
  | [], [] => true
  | x :: xs, y :: ys => same x y && sameAll xs ys
  | _, _ => false

/-- Whether each field has an equal one among others. -/
def sameFields : Fields → Fields → Bool
  | [], _ => true
  | (k, v) :: rest, others =>
    (match field? k others with
      | some w => same v w
      | none => false) && sameFields rest others

end

mutual

/-- The order of two values of kinds that have one: numbers with numbers, texts with texts, and so on; none
between other kinds. -/
def less? : Value → Value → Option Bool
  | .text s, .text t => some (s < t)
  | .bytes a, .bytes b => some (a.map UInt8.toNat < b.map UInt8.toNat)
  | .list xs, .list ys => lessAll? xs ys
  | .tuple xs, .tuple ys => lessAll? xs ys
  | v, w =>
    match v.magnitude?, w.magnitude? with
    | some a, some b => some (a.lt b)
    | _, _ => none

/-- The first pair that differs decides. -/
def lessAll? : List Value → List Value → Option Bool
  | _, [] => some false
  | [], _ :: _ => some true
  | x :: xs, y :: ys => if same x y then lessAll? xs ys else less? x y

end

end Value
end AttestationTrust
