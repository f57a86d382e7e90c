import Parley.Fault
set_option autoImplicit false

/-! # Checking many settings at once

A value that is put together from many settings is checked as a whole: the defects of all its parts
are reported, in the order of the parts. A part can also fail with a fault, which is not a defect of
a setting and stops everything; the first fault wins over all defects. -/

namespace Parley

/-- A value, all that is wrong with it, or a fault. -/
inductive Checked (α : Type)
  | valid (value : α)
  | invalid (issues : List Issue)
  | broken (fault : Fault)

namespace Checked

variable {α β : Type}

/-- Apply a function to a value, both of which may be defective. -/
def apply : Checked (α → β) → Checked α → Checked β
  | .broken fault, _ => .broken fault
  | _, .broken fault => .broken fault
  | .invalid issues, .invalid more => .invalid (issues ++ more)
  | .invalid issues, .valid _ => .invalid issues
  | .valid _, .invalid issues => .invalid issues
  | .valid f, .valid value => .valid (f value)

instance : Applicative Checked where
  pure := .valid
  seq f value := apply f (value ())

/-- The value, or everything that is wrong with it. -/
def toExcept : Checked α → Except Fault α
  | .valid value => .ok value
  | .invalid issues => .error (.settings issues)
  | .broken fault => .error fault

/-- The value of a setting, or what is wrong with it. -/
def ofReading (setting : String) : Except Defect α → Checked α
  | .ok value => .valid value
  | .error defect => .invalid [⟨setting, defect⟩]

end Checked

end Parley
