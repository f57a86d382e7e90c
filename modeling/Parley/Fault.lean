import Parley.Text.Quoted
set_option autoImplicit false

/-! # Causes of failure

Every operation that can fail names the cause. The wording of a cause, where it has one, is
`Fault.message?`; causes without a wording are told apart by their constructor alone. -/

namespace Parley

/-- What is wrong with the value of a setting. -/
inductive Defect
  | integerText
  | integerKind
  | fractionalInteger
  | nonFiniteInteger
  | integerSize
  | floatText
  | floatKind
  | truthText
  | truthKind
  | textKind
  | unlistedChoice
  | refused
deriving DecidableEq

/-- The code of a defect. -/
def Defect.code : Defect → String
  | .integerText => "int_parsing"
  | .integerKind => "int_type"
  | .fractionalInteger => "int_from_float"
  | .nonFiniteInteger => "finite_number"
  | .integerSize => "int_parsing_size"
  | .floatText => "float_parsing"
  | .floatKind => "float_type"
  | .truthText => "bool_parsing"
  | .truthKind => "bool_type"
  | .textKind => "string_type"
  | .unlistedChoice => "literal_error"
  | .refused => "value_error"

/-- A defect of one setting. -/
structure Issue where
  setting : String
  defect : Defect
deriving DecidableEq

/-- Why an operation failed. -/
inductive Fault
  /-- A value has no length, no fields or no items where one of these is needed. -/
  | wrongKind
  /-- A value that is no object was asked for a field by name. -/
  | notAnObject
  | missingField (name : String)
  | unknownLevel (level : String)
  /-- The quotient of two integers exceeds the greatest float. -/
  | quotientTooLarge
  /-- An integer exceeds the greatest float. -/
  | integerTooLarge
  /-- An infinity has no nearest integer. -/
  | infiniteInteger
  | turnInProgress (conversation : String)
  | endpointRequired (provider : String)
  | unknownProvider (provider : String)
  | settings (issues : List Issue)
  | fileMissing
  | isDirectory
  | badDocument
deriving DecidableEq

/-- The wording of a cause. -/
def Fault.message? : Fault → Option String
  | .missingField name => some (Text.quoted name)
  | .unknownLevel level => some (Text.quoted ("level " ++ level))
  | .quotientTooLarge => some "integer division result too large for a float"
  | .integerTooLarge => some "int too large to convert to float"
  | .infiniteInteger => some "cannot convert float infinity to integer"
  | .turnInProgress conversation =>
      some ("Conversation " ++ conversation ++ " already has an active turn in progress")
  | .endpointRequired provider => some ("Provider '" ++ provider ++ "' requires an endpoint")
  | .unknownProvider provider => some ("Unknown LLM provider: " ++ provider)
  | _ => none

end Parley
