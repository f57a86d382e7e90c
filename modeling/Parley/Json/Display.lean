import Parley.Json
import Parley.Text.Quoted
set_option autoImplicit false

/-! # Values in running text

Where a value of any kind stands in the middle of a sentence, a text is shown as it is and every
other value in a notation of its own: `None`, `True`, `False`, lists in brackets, objects in braces,
and texts inside them quoted. -/

namespace Parley.Json

open Text

mutual

/-- A value inside another one. -/
def inner : Json → List Char
  | .null => "None".toList
  | .bool true => "True".toList
  | .bool false => "False".toList
  | .number value => (value.text FloatLayout.display).toList
  | .string text => (quoted text).toList
  | .array items => '[' :: innerItems items
  | .object fields => '\x7b' :: innerFields fields

/-- The items of a list and its closing bracket. -/
def innerItems : List Json → List Char
  | [] => [']']
  | [item] => inner item ++ [']']
  | item :: rest => inner item ++ ',' :: ' ' :: innerItems rest

/-- The fields of an object and its closing brace. -/
def innerFields : List (String × Json) → List Char
  | [] => ['\x7d']
  | [(name, value)] => (quoted name).toList ++ ':' :: ' ' :: inner value ++ ['\x7d']
  | (name, value) :: rest =>
      (quoted name).toList ++ ':' :: ' ' :: inner value ++ ',' :: ' ' :: innerFields rest

end

/-- A value in running text. -/
def display : Json → String
  | .string text => text
  | other => String.ofList (inner other)

end Parley.Json
