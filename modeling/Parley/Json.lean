import Parley.Number
import Parley.Ordered
set_option autoImplicit false

/-! # JSON values

A document is a tree whose numbers keep their kind (`Number`) and whose objects keep the order of
their fields. An object that was read holds no name twice; `field?` takes the first entry of a
name. -/

namespace Parley

/-- A JSON value. -/
inductive Json
  | null
  | bool (value : Bool)
  | number (value : Number)
  | string (text : String)
  | array (items : List Json)
  | object (fields : List (String × Json))

namespace Json

/-- An integer. -/
def int (n : Int) : Json := .number (.int n)

/-- The text, or null for none. -/
def ofText? : Option String → Json
  | some text => .string text
  | none => .null

/-! ## Questions about a value -/

/-- A value counts as false when it is null, false, a zero or empty. -/
def truthy : Json → Bool
  | .null => false
  | .bool value => value
  | .number value => !value.isZero
  | .string text => !text.isEmpty
  | .array items => !items.isEmpty
  | .object fields => !fields.isEmpty

/-- The length of a text in code points, of a list in items, of an object in fields. Other values
    have none. -/
def size? : Json → Option Nat
  | .string text => some text.length
  | .array items => some items.length
  | .object fields => some fields.length
  | _ => none

/-- The fields of an object. -/
def fields? : Json → Option (List (String × Json))
  | .object fields => some fields
  | _ => none

/-- The text of a string. -/
def text? : Json → Option String
  | .string text => some text
  | _ => none

/-- The items of an array. -/
def items? : Json → Option (List Json)
  | .array items => some items
  | _ => none

/-- The value of a field of an object. -/
def field? (name : String) : Json → Option Json
  | .object fields => Ordered.find? name fields
  | _ => none

/-- The value of a field, null where there is none. -/
def fieldOrNull (name : String) (fields : List (String × Json)) : Json :=
  (Ordered.find? name fields).getD .null

/-! ## Equality -/

mutual

/-- Equality of two values, decided. -/
def same : Json → Json → Bool
  | .null, .null => true
  | .bool a, .bool b => decide (a = b)
  | .number a, .number b => decide (a = b)
  | .string a, .string b => decide (a = b)
  | .array a, .array b => sameItems a b
  | .object a, .object b => sameFields a b
  | _, _ => false

/-- Equality of two lists of values, decided. -/
def sameItems : List Json → List Json → Bool
  | [], [] => true
  | a :: as, b :: bs => same a b && sameItems as bs
  | _, _ => false

/-- Equality of two lists of fields, decided. -/
def sameFields : List (String × Json) → List (String × Json) → Bool
  | [], [] => true
  | (n, a) :: as, (m, b) :: bs => decide (n = m) && (same a b && sameFields as bs)
  | _, _ => false

end

mutual

theorem same_iff : ∀ a b : Json, same a b = true ↔ a = b
  | .null, b => by cases b <;> simp [same]
  | .bool _, b => by cases b <;> simp [same]
  | .number _, b => by cases b <;> simp [same]
  | .string _, b => by cases b <;> simp [same]
  | .array items, b => by
      cases b with
      | array others => simpa [same] using sameItems_iff items others
      | _ => simp [same]
  | .object fields, b => by
      cases b with
      | object others => simpa [same] using sameFields_iff fields others
      | _ => simp [same]

theorem sameItems_iff : ∀ as bs : List Json, sameItems as bs = true ↔ as = bs
  | [], bs => by cases bs <;> simp [sameItems]
  | a :: as, bs => by
      cases bs with
      | nil => simp [sameItems]
      | cons b bs => simp [sameItems, same_iff a b, sameItems_iff as bs]

theorem sameFields_iff : ∀ as bs : List (String × Json), sameFields as bs = true ↔ as = bs
  | [], bs => by cases bs <;> simp [sameFields]
  | (n, a) :: as, bs => by
      cases bs with
      | nil => simp [sameFields]
      | cons entry bs =>
          obtain ⟨m, b⟩ := entry
          simp [sameFields, same_iff a b, sameFields_iff as bs, and_assoc]

end

instance : DecidableEq Json := fun a b => decidable_of_iff (same a b = true) (same_iff a b)

end Json

end Parley
