import Docwright.Number.Binary64

/-!
# JSON values

The fields of an object keep the order in which their names first occurred. An
integer has any size and is a different value from the floating point number it
equals.

`same` compares two values part by part, and `same_iff` says that it decides
their equality.
-/

namespace Docwright.Json

inductive Value where
  | null
  | bool (b : Bool)
  | int (n : Int)
  | float (x : Binary64)
  | str (s : String)
  | arr (elements : List Value)
  | obj (fields : List (String × Value))
  deriving Repr, Inhabited

def fieldOf? (name : String) : List (String × Value) → Option Value
  | [] => none
  | (n, v) :: rest => if n = name then some v else fieldOf? name rest

/-- The fields with `value` under `name`: in its old place if the name is there,
at the end otherwise. -/
def insertField (name : String) (value : Value) : List (String × Value) → List (String × Value)
  | [] => [(name, value)]
  | (n, v) :: rest =>
      if n = name then (n, value) :: rest else (n, v) :: insertField name value rest

/-- The value counts as present: it is not null, false, zero or empty. -/
def Value.isPresent : Value → Bool
  | .null => false
  | .bool b => b
  | .int n => n != 0
  | .float x => !x.isZero
  | .str s => !s.isEmpty
  | .arr elements => !elements.isEmpty
  | .obj fields => !fields.isEmpty

def Value.present? (value : Value) : Option Value := if value.isPresent then some value else none

/-- The word for the kind of a value in reports. -/
def Value.kindWord : Value → String
  | .null => "NoneType"
  | .bool _ => "bool"
  | .int _ => "int"
  | .float _ => "float"
  | .str _ => "str"
  | .arr _ => "list"
  | .obj _ => "dict"

def Value.texts (texts : List String) : Value := .arr (texts.map .str)

/-- What is met, in turn, when one goes through a value: the characters of a
text, the elements of an array or the names of the fields of an object. -/
def Value.members? : Value → Option (List Value)
  | .str s => some (s.toList.map fun c => .str (String.ofList [c]))
  | .arr elements => some elements
  | .obj fields => some (fields.map fun field => .str field.1)
  | _ => none

/-- The value may be looked up as a name: it has no parts. -/
def Value.isAtom : Value → Bool
  | .arr _ => false
  | .obj _ => false
  | _ => true

/-- The number of parts of a value: the characters of a text, the elements of an
array or the fields of an object. -/
def Value.length? : Value → Option Nat
  | .str s => some s.length
  | .arr elements => some elements.length
  | .obj fields => some fields.length
  | _ => none

def Value.text? : Value → Option String
  | .str s => some s
  | _ => none

mutual

/-- The two values have the same parts. -/
def Value.same : Value → Value → Bool
  | .null, .null => true
  | .bool a, .bool b => a == b
  | .int a, .int b => a == b
  | .float a, .float b => a == b
  | .str a, .str b => a == b
  | .arr a, .arr b => sameElements a b
  | .obj a, .obj b => sameFields a b
  | _, _ => false

def sameElements : List Value → List Value → Bool
  | [], [] => true
  | a :: as, b :: bs => a.same b && sameElements as bs
  | _, _ => false

def sameFields : List (String × Value) → List (String × Value) → Bool
  | [], [] => true
  | (m, a) :: as, (n, b) :: bs => m == n && (a.same b && sameFields as bs)
  | _, _ => false

end

mutual

theorem Value.same_iff : ∀ a b : Value, a.same b = true ↔ a = b
  | .null, b => by cases b <;> simp [Value.same]
  | .bool _, b => by cases b <;> simp [Value.same]
  | .int _, b => by cases b <;> simp [Value.same]
  | .float _, b => by cases b <;> simp [Value.same]
  | .str _, b => by cases b <;> simp [Value.same]
  | .arr elements, b => by
      cases b with
      | arr others => simp [Value.same, sameElements_iff elements others]
      | _ => simp [Value.same]
  | .obj fields, b => by
      cases b with
      | obj others => simp [Value.same, sameFields_iff fields others]
      | _ => simp [Value.same]

theorem sameElements_iff : ∀ as bs : List Value, sameElements as bs = true ↔ as = bs
  | [], bs => by cases bs <;> simp [sameElements]
  | a :: as, bs => by
      cases bs with
      | nil => simp [sameElements]
      | cons b bs => simp [sameElements, Value.same_iff a b, sameElements_iff as bs]

theorem sameFields_iff : ∀ as bs : List (String × Value), sameFields as bs = true ↔ as = bs
  | [], bs => by cases bs <;> simp [sameFields]
  | (m, a) :: as, bs => by
      cases bs with
      | nil => simp [sameFields]
      | cons field bs =>
          obtain ⟨n, b⟩ := field
          simp [sameFields, Value.same_iff a b, sameFields_iff as bs, and_assoc]

end

instance : DecidableEq Value := fun a b => decidable_of_iff _ (Value.same_iff a b)

end Docwright.Json
