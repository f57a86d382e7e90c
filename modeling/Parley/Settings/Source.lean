import Parley.Json
import Parley.Settings.Checked
set_option autoImplicit false

/-! # Where settings come from

A setting is taken from the arguments, else from the environment, else from a file, else it has its
default. In the environment and in files the name of a setting may be in capitals; of variables that
differ only in capitals the last one counts. -/

namespace Parley.Settings

/-- Names and values of variables. -/
abbrev Variables := List (String × String)

/-- The places that settings are taken from. -/
structure Sources where
  arguments : List (String × Json) := []
  environment : Variables := []
  file : Variables := []

/-- A name in small letters. -/
def lowerCase (name : String) : String :=
  String.ofList (name.toList.map Char.toLower)

/-- The value of the last variable whose name is that of the setting. -/
def valueOf? (setting : String) (given : Variables) : Option String :=
  (given.reverse.find? fun entry => decide (lowerCase entry.1 = setting)).map Prod.snd

/-- What is given for a setting. -/
def Sources.given? (sources : Sources) (setting : String) : Option Json :=
  match Ordered.find? setting sources.arguments with
  | some value => some value
  | none =>
      match valueOf? setting sources.environment with
      | some text => some (.string text)
      | none => (valueOf? setting sources.file).map Json.string

/-- A setting: what is given for it, checked, or its default. -/
def Sources.check {α : Type} (sources : Sources) (setting : String) (checker : Json → Checked α)
    (default : α) : Checked α :=
  match sources.given? setting with
  | some value => checker value
  | none => .valid default

/-- A setting: what is given for it, read, or its default. -/
def Sources.read {α : Type} (sources : Sources) (setting : String)
    (reader : Json → Except Defect α) (default : α) : Checked α :=
  sources.check setting (fun value => Checked.ofReading setting (reader value)) default

end Parley.Settings
