import Parley.Json
import Parley.Number.Reader
import Parley.Provider
import Parley.Settings.Checked
set_option autoImplicit false

/-! # Values of settings

A setting is given as a JSON value; what comes from the environment is a text. Each kind of setting
has a reader that also takes values of other kinds where they mean the same: a text that spells the
value, a truth value for one or zero, a float for the integer it is equal to. -/

namespace Parley.Settings

/-- A text. -/
def readText : Json → Except Defect String
  | .string text => .ok text
  | _ => .error .textKind

/-- A text or null. -/
def readOptionalText : Json → Except Defect (Option String)
  | .null => .ok none
  | .string text => .ok (some text)
  | _ => .error .textKind

/-- The greatest size of an integer that a float is taken for. -/
def greatestFloatInteger : Int := 9223372036854775808

/-- The integer that a float is equal to. -/
def integerOfFloat (x : Binary64) : Except Defect Int :=
  match x.toRat? with
  | none => .error .nonFiniteInteger
  | some q =>
      if q.den ≠ 1 then .error .fractionalInteger
      else if -greatestFloatInteger < q.num ∧ q.num < greatestFloatInteger then .ok q.num
      else .error .integerSize

/-- An integer. -/
def readInteger : Json → Except Defect Int
  | .number (.int n) => .ok n
  | .number (.float x) => integerOfFloat x
  | .bool value => .ok (if value then 1 else 0)
  | .string text =>
      match Number.lenientIntegerOfText? text with
      | some n => .ok n
      | none => .error .integerText
  | _ => .error .integerKind

/-- A float. -/
def readFloat : Json → Except Defect Binary64
  | .number n => .ok n.toFloat
  | .bool value => .ok (Number.toFloat (.int (if value then 1 else 0)))
  | .string text =>
      match Number.floatOfText? text with
      | some x => .ok x
      | none => .error .floatText
  | _ => .error .floatKind

/-- The truth value of an integer, which has to be one or zero. -/
def truthOfInteger (n : Int) : Except Defect Bool :=
  if n = 1 then .ok true else if n = 0 then .ok false else .error .truthText

/-- A truth value. Its words may be in capitals. -/
def readTruth : Json → Except Defect Bool
  | .bool value => .ok value
  | .number (.int n) => truthOfInteger n
  | .number (.float x) =>
      match integerOfFloat x with
      | .ok n => truthOfInteger n
      | .error _ => .error .truthKind
  | .string text =>
      let word := String.ofList (text.toList.map Char.toLower)
      if ["1", "true", "t", "yes", "y", "on"].contains word then .ok true
      else if ["0", "false", "f", "no", "n", "off"].contains word then .ok false
      else .error .truthText
  | _ => .error .truthKind

/-- The name of a provider. -/
def readProvider : Json → Except Defect Provider
  | .string text =>
      match Provider.ofName? text with
      | some provider => .ok provider
      | none => .error .unlistedChoice
  | _ => .error .unlistedChoice

/-- At least one. -/
def atLeastOne (n : Int) : Int :=
  if n < 1 then 1 else n

/-- The size of a window: an integer, of which a float gives the integer part, and at least one. A
    value that spells no integer is refused; one that is neither a number nor a text is a fault, and
    so is an infinity. -/
def checkWindow (setting : String) : Json → Checked Int
  | .number (.int n) => .valid (atLeastOne n)
  | .number (.float x) =>
      match x with
      | .nan _ => .invalid [⟨setting, .refused⟩]
      | .infinite _ => .broken .infiniteInteger
      | .finite .. => .valid (atLeastOne (x.truncate?.getD 0))
  | .bool value => .valid (atLeastOne (if value then 1 else 0))
  | .string text =>
      match Number.integerOfText? text with
      | some n => .valid (atLeastOne n)
      | none => .invalid [⟨setting, .refused⟩]
  | _ => .broken .wrongKind

end Parley.Settings
