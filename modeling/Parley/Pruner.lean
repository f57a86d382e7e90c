import Parley.Json.Display
import Parley.Message
import Parley.Fault
import Parley.Text.Affix
import Parley.Text.Digit
set_option autoImplicit false

/-! # Pruning tool results

A pruner shortens what a tool call brought back. A long error keeps its first characters, followed
by a marker that states the length it had; every other long result gives way to a placeholder that
states its length and the tool. An error that ends in a marker has been cut before and is left
alone, and so is every result that would not become shorter. -/

namespace Parley

/-- How long the results of tool calls may be. -/
structure Pruner where
  /-- Results of more characters give way to a placeholder. -/
  truncateThreshold : Int := 1500
  /-- Errors of more characters are cut after that many; a negative number counts from the end. -/
  errorKeepChars : Int := 500
deriving DecidableEq

namespace Pruner

/-! ## Wording -/

/-- The beginning of a marker. -/
def markerStart : String := "\n\n[Error output truncated: "

/-- The end of a marker. -/
def markerEnd : String := " chars total]"

/-- What is put behind an error that was cut. -/
def marker (sizeBefore : Int) : String :=
  markerStart ++ decimalText sizeBefore ++ markerEnd

/-- What is put in place of a result. -/
def placeholder (sizeBefore : Int) (tool : String) : String :=
  "[Tool result truncated: " ++ decimalText sizeBefore ++ " chars, tool: " ++ tool ++ "]"

/-- A text that ends in a marker, whatever length the marker states. The digits may be of any
    script. -/
def endsInMarker (text : String) : Bool :=
  match Text.beforeSuffix? markerEnd.toList text.toList with
  | none => false
  | some front =>
      let reversed := front.reverse
      let digits := reversed.takeWhile Text.isDecimalDigit
      let before := (reversed.dropWhile Text.isDecimalDigit).reverse
      !digits.isEmpty && (Text.beforeSuffix? markerStart.toList before).isSome

/-! ## The rule -/

/-- The first `count` characters of a text, or all but the last `-count`. -/
def leading (count : Int) (text : String) : String :=
  let kept := if count < 0 then ((text.length : Int) + count).toNat else count.toNat
  String.ofList (text.toList.take kept)

/-- A replacement, where it is shorter than what it replaces. -/
def ifShorter (sizeBefore : Nat) (replacement : String) : Option String :=
  if replacement.length < sizeBefore then some replacement else none

/-- What an error of more than the characters to keep becomes. -/
def cutError (p : Pruner) (text : String) : Option String :=
  if endsInMarker text then none
  else ifShorter text.length (leading p.errorKeepChars text ++ marker text.length)

/-- What the result of a tool call becomes, if it is shortened. A result without a length and a long
    error that is no text are faults. -/
def replacement? (p : Pruner) (call : ToolCall) : Except Fault (Option String) :=
  if call.result = .null then .ok none
  else match call.result.size? with
    | none => .error .wrongKind
    | some size =>
        if call.isError && decide (p.errorKeepChars < (size : Int)) then
          match call.result.text? with
          | some text => .ok (p.cutError text)
          | none => .error .wrongKind
        else if p.truncateThreshold < (size : Int) then
          .ok (ifShorter size (placeholder size call.name.display))
        else .ok none

end Pruner

end Parley
