import Parley.Json
import Parley.Text.Quoted
set_option autoImplicit false

/-! # Printing JSON documents

Documents are printed in ASCII: every other character is escaped, one above U+FFFF as a pair of
surrogates. The compact form has no blanks; the indented form has one line for each item and field,
two spaces for each level, and keeps empty arrays and objects on one line. -/

namespace Parley.Json

open Text

/-- One escape of four hexadecimal digits. -/
def unitEscape (n : Nat) : List Char :=
  '\\' :: 'u' :: hexadecimal 4 n

/-- One character of a string. -/
def escapedChar (c : Char) : List Char :=
  if c = '"' then ['\\', '"']
  else if c = '\\' then ['\\', '\\']
  else if c = '\n' then ['\\', 'n']
  else if c = '\r' then ['\\', 'r']
  else if c = '\t' then ['\\', 't']
  else if c = '\x0c' then ['\\', 'f']
  else if c = '\x08' then ['\\', 'b']
  else if 0x20 ≤ c.toNat ∧ c.toNat < 0x7f then [c]
  else if c.toNat < 0x10000 then unitEscape c.toNat
  else
    let n := c.toNat - 0x10000
    unitEscape (0xd800 + n / 0x400) ++ unitEscape (0xdc00 + n % 0x400)

/-- A string with its quotes. -/
def quotedText (text : String) : List Char :=
  '"' :: text.toList.flatMap escapedChar ++ ['"']

/-- A value that is no array or object; those two have printers of their own. -/
def scalar : Json → List Char
  | .bool true => "true".toList
  | .bool false => "false".toList
  | .number value => (value.text FloatLayout.json).toList
  | .string text => quotedText text
  | _ => "null".toList

/-! ## Compact form -/

mutual

/-- A value without blanks. -/
def compactChars : Json → List Char
  | .array items => '[' :: compactItems items
  | .object fields => '\x7b' :: compactFields fields
  | other => scalar other

/-- The items of an array and its closing bracket. -/
def compactItems : List Json → List Char
  | [] => [']']
  | [item] => compactChars item ++ [']']
  | item :: rest => compactChars item ++ ',' :: compactItems rest

/-- The fields of an object and its closing brace. -/
def compactFields : List (String × Json) → List Char
  | [] => ['\x7d']
  | [(name, value)] => quotedText name ++ ':' :: compactChars value ++ ['\x7d']
  | (name, value) :: rest =>
      quotedText name ++ ':' :: compactChars value ++ ',' :: compactFields rest

end

/-- A document without blanks. -/
def compact (value : Json) : String :=
  String.ofList (compactChars value)

/-! ## Indented form -/

/-- The beginning of a line at some level. -/
def newLine (level : Nat) : List Char :=
  '\n' :: List.replicate (2 * level) ' '

mutual

/-- A value whose first line stands at the level given. -/
def indentedChars (level : Nat) : Json → List Char
  | .array [] => ['[', ']']
  | .array (item :: rest) => '[' :: indentedItems (level + 1) (item :: rest)
  | .object [] => ['\x7b', '\x7d']
  | .object (field :: rest) => '\x7b' :: indentedFields (level + 1) (field :: rest)
  | other => scalar other

/-- The items of an array, each on a new line, and its closing bracket one level further out. -/
def indentedItems (level : Nat) : List Json → List Char
  | [] => [']']
  | [item] => newLine level ++ indentedChars level item ++ newLine (level - 1) ++ [']']
  | item :: rest =>
      newLine level ++ indentedChars level item ++ ',' :: indentedItems level rest

/-- The fields of an object, each on a new line, and its closing brace one level further out. -/
def indentedFields (level : Nat) : List (String × Json) → List Char
  | [] => ['\x7d']
  | [(name, value)] =>
      newLine level ++ quotedText name ++ ':' :: ' ' :: indentedChars level value
        ++ newLine (level - 1) ++ ['\x7d']
  | (name, value) :: rest =>
      newLine level ++ quotedText name ++ ':' :: ' ' :: indentedChars level value
        ++ ',' :: indentedFields level rest

end

/-- A document with one line for each item and field. -/
def indented (value : Json) : String :=
  String.ofList (indentedChars 0 value)

end Parley.Json
