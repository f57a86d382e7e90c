import Parley.Json
import Parley.Text.Affix
import Parley.Text.Digit
set_option autoImplicit false

/-! # Models

What is known about a model is its name, its family and the size of its context window. The models
of two vendors are known from tables. A model that is not in a table takes after the first model of
the table whose identifier its own starts with. -/

namespace Parley

/-- What is known about a model. -/
structure Model where
  name : String
  /-- The family, as the source of the information spells it. -/
  family : Json
  contextWindow : Int
deriving DecidableEq

namespace Model

/-- A row of a table. -/
def row (name family : String) (contextWindow : Int) : Model :=
  ⟨name, .string family, contextWindow⟩

/-- The models of Anthropic. -/
def anthropicTable : List Model := [
  row "claude-opus-4-20250514" "claude-4" 200000,
  row "claude-sonnet-4-20250514" "claude-4" 200000,
  row "claude-3-5-sonnet-20241022" "claude-3.5" 200000,
  row "claude-3-5-sonnet-20240620" "claude-3.5" 200000,
  row "claude-3-5-haiku-20241022" "claude-3.5" 200000,
  row "claude-3-opus-20240229" "claude-3" 200000,
  row "claude-3-sonnet-20240229" "claude-3" 200000,
  row "claude-3-haiku-20240307" "claude-3" 200000]

/-- The models of OpenAI. -/
def openAiTable : List Model := [
  row "gpt-4o" "gpt-4o" 128000,
  row "gpt-4o-mini" "gpt-4o" 128000,
  row "gpt-4-turbo" "gpt-4" 128000,
  row "gpt-4" "gpt-4" 8192,
  row "gpt-3.5-turbo" "gpt-3.5" 16385]

/-- The context window of a model that nothing is known about. -/
def defaultContextWindow : Int := 200000

/-- The family of a model that nothing is known about. -/
def defaultFamily : String := "unknown"

/-- A model that nothing is known about. -/
def unknown (name : String) : Model :=
  row name defaultFamily defaultContextWindow

/-- The row of a table for a name: its own one, else the first one whose name it starts with, under
    the name asked for. -/
def inTable? (name : String) (table : List Model) : Option Model :=
  match table.find? fun m => decide (m.name = name) with
  | some exact => some exact
  | none => (table.find? fun m => Text.startsWith m.name name).map fun m => { m with name }

/-- What is known about an Anthropic model. -/
def anthropic? (name : String) : Option Model :=
  match inTable? name anthropicTable with
  | some found => some found
  | none => if Text.startsWith "claude-" name then some (row name "claude" 200000) else none

/-- What is known about an OpenAI model. -/
def openAi? (name : String) : Option Model :=
  inTable? name openAiTable

/-- What is known about a model, whoever its vendor is. -/
def static (name : String) : Model :=
  match anthropic? name with
  | some found => found
  | none => (openAi? name).getD (unknown name)

/-! ## Bedrock identifiers -/

/-- A text without a final line break, and that line break. -/
def splitFinalBreak (text : List Char) : List Char × List Char :=
  match text.reverse with
  | '\n' :: rest => (rest.reverse, ['\n'])
  | _ => (text, [])

theorem splitFinalBreak_append (text : List Char) :
    (splitFinalBreak text).1 ++ (splitFinalBreak text).2 = text := by
  unfold splitFinalBreak
  split
  · next rest hreverse => exact (List.reverse_eq_cons_iff.1 hreverse).symm
  · exact List.append_nil text

theorem snd_splitFinalBreak_prefix (text : List Char) : (splitFinalBreak text).2 <+: ['\n'] := by
  unfold splitFinalBreak
  split
  · exact List.prefix_rfl
  · exact List.nil_prefix

theorem splitFinalBreak_eq_self {text : List Char} (h : ¬ ['\n'] <:+ text) :
    splitFinalBreak text = (text, []) := by
  unfold splitFinalBreak
  split
  · next rest hreverse => exact absurd ⟨rest.reverse, (List.reverse_eq_cons_iff.1 hreverse).symm⟩ h
  · rfl

/-- What comes before a version at the end of an identifier, that is, before `-v`, digits, a colon
    and digits. -/
def beforeVersion? (text : List Char) : Option (List Char) :=
  let reversed := text.reverse
  let minor := reversed.takeWhile Text.isDecimalDigit
  match reversed.dropWhile Text.isDecimalDigit with
  | ':' :: more =>
      let major := more.takeWhile Text.isDecimalDigit
      match more.dropWhile Text.isDecimalDigit with
      | 'v' :: '-' :: front => if minor.isEmpty || major.isEmpty then none else some front.reverse
      | _ => none
  | _ => none

/-- The identifier of the model that a Bedrock identifier names: without the vendor at the beginning
    and the version at the end. A final line break stays. -/
def ofBedrock (identifier : String) : String :=
  let text := identifier.toList
  let own := (Text.afterPrefix? "anthropic.".toList text).getD text
  let (body, lineBreak) := splitFinalBreak own
  String.ofList ((beforeVersion? body).getD body ++ lineBreak)

end Model

end Parley
