import Parley.Ordered
import Parley.Text.Blank
import Parley.Text.Affix
set_option autoImplicit false

/-! # Files of settings

A file of settings has one variable on each line: a name, an equals sign and a value. A line may
begin with the word `export`. A line that begins with a number sign is a comment, and so is what
follows a blank and a number sign behind a value. A value in quotes is taken as it stands, over
several lines if need be; a backslash escapes a quote in it, and in double quotes the usual letters.
A reference to a variable, `${NAME}` or `${NAME:-default}`, stands for the value of that variable.
A line that has another form is skipped. -/

namespace Parley.Settings.File

open Text

/-- The end of a line. -/
def isBreak (c : Char) : Bool :=
  c == '\n' || c == '\r'

/-- A blank within a line. -/
def isGap (c : Char) : Bool :=
  isLineBlank c && !isBreak c

/-- What follows the line at the beginning of a text, and its break. -/
def afterLine (text : List Char) : List Char :=
  match text.dropWhile fun c => !isBreak c with
  | '\r' :: '\n' :: rest => rest
  | _ :: rest => rest
  | [] => []

/-! ## Quotes -/

/-- The escape of a letter between double quotes. -/
def doubleEscape? : Char → Option Char
  | '\\' => some '\\'
  | '\'' => some '\''
  | '"' => some '"'
  | 'a' => some '\x07'
  | 'b' => some '\x08'
  | 'f' => some '\x0c'
  | 'n' => some '\n'
  | 'r' => some '\r'
  | 't' => some '\t'
  | 'v' => some '\x0b'
  | _ => none

/-- The escape of a letter between single quotes. -/
def singleEscape? : Char → Option Char
  | '\\' => some '\\'
  | '\'' => some '\''
  | _ => none

/-- A text with its escapes resolved; a backslash that escapes nothing stands for itself. -/
def unescape (escape? : Char → Option Char) : List Char → List Char
  | '\\' :: c :: rest =>
      match escape? c with
      | some plain => plain :: unescape escape? rest
      | none => '\\' :: unescape escape? (c :: rest)
  | c :: rest => c :: unescape escape? rest
  | [] => []

/-- The raw text up to a closing quote that no backslash precedes, and what follows the quote. -/
def quotedPart (quote : Char) : List Char → Option (List Char × List Char)
  | [] => none
  | '\\' :: c :: rest =>
      if c = quote then (quotedPart quote rest).map fun p => ('\\' :: c :: p.1, p.2)
      else (quotedPart quote (c :: rest)).map fun p => ('\\' :: p.1, p.2)
  | c :: rest =>
      if c = quote then some ([], rest)
      else (quotedPart quote rest).map fun p => (c :: p.1, p.2)
termination_by text => text.length

/-! ## Lines -/

/-- A value without quotes, without the comment and the blanks behind it. -/
def bareValue : List Char → List Char
  | [] => []
  | c :: rest =>
      if isLineBlank c && (match rest.dropWhile isLineBlank with
        | '#' :: _ => true
        | _ => false)
      then []
      else c :: bareValue rest

/-- The value behind an equals sign, and the rest of the text. -/
def readValue (text : List Char) : Option (List Char × List Char) :=
  match text with
  | '\'' :: rest => (quotedPart '\'' rest).map fun p => (unescape singleEscape? p.1, p.2)
  | '"' :: rest => (quotedPart '"' rest).map fun p => (unescape doubleEscape? p.1, p.2)
  | _ =>
      let line := text.takeWhile fun c => !isBreak c
      some (trimEnd isLineBlank (bareValue line), text.drop line.length)

/-- What follows the word `export` and a blank, or the text as it is. -/
def afterExport (text : List Char) : List Char :=
  match afterPrefix? "export".toList text with
  | some (c :: rest) => if isGap c then rest.dropWhile isGap else text
  | _ => text

/-- The name of a variable, and the rest of the text. -/
def readName (text : List Char) : Option (List Char × List Char) :=
  match text with
  | '\'' :: rest =>
      let name := rest.takeWhile fun c => c != '\''
      match rest.drop name.length with
      | _ :: after => if name.isEmpty then none else some (name, after)
      | [] => none
  | _ =>
      let name := text.takeWhile fun c => !(c == '=' || c == '#' || isLineBlank c)
      if name.isEmpty then none else some (name, text.drop name.length)

/-- What follows the blanks and the comment at the end of a line, if nothing else is there. -/
def lineEnd (text : List Char) : Option (List Char) :=
  let rest := match text.dropWhile isGap with
    | '#' :: comment => comment.dropWhile fun c => !isBreak c
    | other => other
  match rest with
  | '\r' :: '\n' :: after => some after
  | c :: after => if isBreak c then some after else none
  | [] => some []

/-- The variable on the first line of a text, where it has one, and the following lines. -/
def readLine (text : List Char) : Option (String × List Char) × List Char :=
  let parsed : Option (Option (String × List Char) × List Char) := do
    let start := afterExport text
    match start with
    | '#' :: _ => return (none, ← lineEnd start)
    | _ =>
        let (name, rest) ← readName start
        match rest.dropWhile isGap with
        | '=' :: after =>
            let (value, left) ← readValue (after.dropWhile isGap)
            return (some (String.ofList name, value), ← lineEnd left)
        | other => return (none, ← lineEnd other)
  match parsed with
  | some found => found
  | none => (none, afterLine text)

/-- The variables of a text with their values as written. The fuel bounds the number of lines. -/
def readLines : Nat → List Char → List (String × List Char)
  | 0, _ => []
  | fuel + 1, text =>
      match text.dropWhile isLineBlank with
      | [] => []
      | start =>
          let (found, rest) := readLine start
          found.toList ++ readLines fuel rest

/-! ## References -/

/-- The name and the default of a reference, behind its opening brace, and what follows the closing
    one. -/
def readReference (text : List Char) : Option (List Char × List Char × List Char) :=
  let name := text.takeWhile fun c => c != '\x7d' && c != ':'
  match text.drop name.length with
  | '\x7d' :: after => some (name, [], after)
  | ':' :: '-' :: rest =>
      let default := rest.takeWhile fun c => c != '\x7d'
      match rest.drop default.length with
      | _ :: after => some (name, default, after)
      | [] => none
  | _ => none

/-- A value with its references resolved by `lookup`. -/
def expand (lookup : String → Option String) : Nat → List Char → List Char
  | 0, text => text
  | fuel + 1, text =>
      match text with
      | '$' :: '\x7b' :: rest =>
          match readReference rest with
          | some (name, default, after) =>
              ((lookup (String.ofList name)).getD (String.ofList default)).toList
                ++ expand lookup fuel after
          | none => '$' :: expand lookup fuel ('\x7b' :: rest)
      | c :: rest => c :: expand lookup fuel rest
      | [] => []

/-- The variables of a file. References are resolved by the variables above, then by the
    environment. -/
def assignments (environment : List (String × String)) (text : String) : List (String × String) :=
  (readLines (text.length + 1) text.toList).foldl (fun known entry =>
    let lookup := fun name =>
      match Ordered.find? name known with
      | some value => some value
      | none => Ordered.find? name environment
    let value := String.ofList (expand lookup (entry.2.length + 1) entry.2)
    Ordered.insert entry.1 value known) []

end Parley.Settings.File
