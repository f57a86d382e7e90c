import Parley.Number.Reader
import Parley.Text.Affix
set_option autoImplicit false

/-! # Arguments of a command

The arguments of a command are flags and positional arguments in any order. A flag may be cut short
as long as no other flag begins in the same way, and its value is the next argument or follows an
equals sign. What begins with a hyphen is taken for a flag, unless it is a hyphen alone, a negative
number or holds a blank. Behind two hyphens everything is positional. Arguments that nothing asks
for make the command refused at the end; a request for help is met when it is reached. -/

namespace Parley.CommandLine

open Text

/-- What a flag does. -/
inductive Role
  /-- Show the help. -/
  | help
  /-- Be set or not. -/
  | switch
  /-- Hold a text. -/
  | text
  /-- Hold an integer. -/
  | integer
deriving DecidableEq

/-- A flag of a command. -/
structure Flag where
  /-- The name, with its two hyphens. -/
  name : String
  role : Role
deriving DecidableEq

/-- The flag that every command has; its letter is `h`. -/
def helpFlag : Flag := ⟨"--help", .help⟩

/-- What an argument is taken for. -/
inductive Token
  | flag (flag : Flag)
  /-- A flag, an equals sign and a value. -/
  | assigned (flag : Flag) (value : String)
  /-- The letter of the help flag, and what follows it in the same argument. -/
  | helpLetter (rest : List Char)
  | unknownFlag
  | argument (text : String)
  /-- The two hyphens. -/
  | divider
deriving DecidableEq

/-! ## Tokens -/

/-- A hyphen, digits, and at most one point that has digits behind it. One line break may follow. -/
def isNegativeNumber (text : String) : Bool :=
  let body := match text.toList.reverse with
    | '\n' :: rest => rest.reverse
    | _ => text.toList
  match body with
  | '-' :: rest =>
      match rest.dropWhile isDecimalDigit with
      | [] => !rest.isEmpty
      | '.' :: digits => !digits.isEmpty && digits.all isDecimalDigit
      | _ => false
  | _ => false

/-- The parts before and after the first equals sign, if there is one. -/
def splitEquals (text : String) : Option (String × String) :=
  let cs := text.toList
  let name := cs.takeWhile fun c => c != '='
  match cs.drop name.length with
  | _ :: value => some (String.ofList name, String.ofList value)
  | [] => none

/-- The flag with a name. -/
def named? (flags : List Flag) (name : String) : Option Flag :=
  flags.find? fun f => decide (f.name = name)

/-- The flags that an argument with two hyphens could be, cut short or not. -/
def candidates (flags : List Flag) (text : String) : List Token :=
  match splitEquals text with
  | some (name, value) =>
      match named? flags name with
      | some f => [.assigned f value]
      | none => (flags.filter fun f => startsWith name f.name).map fun f => .assigned f value
  | none =>
      match named? flags text with
      | some f => [.flag f]
      | none => (flags.filter fun f => startsWith text f.name).map Token.flag

/-- What an argument that begins with a hyphen is taken for when it is no flag. -/
def otherToken (text : String) : Token :=
  if isNegativeNumber text || text.toList.contains ' ' then .argument text else .unknownFlag

/-- What an argument is taken for, unless it could be several flags cut short. -/
def token? (flags : List Flag) (text : String) : Option Token :=
  match text.toList with
  | '-' :: 'h' :: rest => some (.helpLetter rest)
  | '-' :: '-' :: _ =>
      match candidates flags text with
      | [found] => some found
      | [] => some (otherToken text)
      | _ => none
  | '-' :: _ :: _ => some (otherToken text)
  | _ => some (.argument text)

/-- What the arguments of a command are taken for. -/
def tokens? (flags : List Flag) : List String → Option (List Token)
  | [] => some []
  | text :: rest =>
      if text = "--" then some (.divider :: rest.map Token.argument)
      else do return (← token? flags text) :: (← tokens? flags rest)

/-! ## Reading -/

/-- What was given to a command. -/
structure Given where
  positional : Option String := none
  values : List (String × String) := []
  switches : List String := []
  /-- Something was given that nothing asks for. -/
  excess : Bool := false
deriving DecidableEq

/-- What came of reading the arguments of a command. -/
inductive Reading
  | help
  | refused
  | given (arguments : Given)
deriving DecidableEq

/-- A flag accepts a value, if it holds one of that kind. -/
def accepts (role : Role) (value : String) : Bool :=
  match role with
  | .text => true
  | .integer => (Number.integerOfText? value).isSome
  | .switch => false
  | .help => false

/-- The letter of the help flag may be repeated, and other letters behind it are ignored. A hyphen
    or an equals sign is refused there. -/
def readHelpLetter (rest : List Char) : Reading :=
  match rest.dropWhile fun c => c == 'h' with
  | '-' :: _ => .refused
  | '=' :: _ => .refused
  | _ => .help

/-- Read the arguments of a command. -/
def read (wantsPositional : Bool) : List Token → Given → Reading
  | [], given => .given given
  | .unknownFlag :: rest, given => read wantsPositional rest { given with excess := true }
  | .helpLetter letters :: _, _ => readHelpLetter letters
  | .assigned f value :: rest, given =>
      if accepts f.role value then
        read wantsPositional rest { given with values := given.values ++ [(f.name, value)] }
      else .refused
  | .flag f :: rest, given =>
      if f.role = .help then .help
      else if f.role = .switch then
        read wantsPositional rest { given with switches := given.switches ++ [f.name] }
      else match rest with
        | .argument value :: rest =>
            if accepts f.role value then
              read wantsPositional rest { given with values := given.values ++ [(f.name, value)] }
            else .refused
        | _ => .refused
  | .argument text :: .divider :: rest, given =>
      if wantsPositional then read false rest { given with positional := some text }
      else read wantsPositional rest { given with excess := true }
  | .argument text :: rest, given =>
      if wantsPositional then read false rest { given with positional := some text }
      else read wantsPositional rest { given with excess := true }
  | .divider :: .argument text :: rest, given =>
      if wantsPositional then read false rest { given with positional := some text }
      else read wantsPositional rest { given with excess := true }
  | .divider :: rest, given => read wantsPositional rest { given with excess := true }

end Parley.CommandLine
