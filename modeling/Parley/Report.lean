import Parley.Json
set_option autoImplicit false

/-! # Compaction reports

A report lists what was shortened: an entry for each tool result, the names of the passes that
changed something, and the tokens saved. Reports of passes that ran one after the other are
appended. -/

namespace Parley

/-- A tool result that was shortened. -/
structure Entry where
  messageIndex : Int
  toolCallId : Json
  toolName : Json
  action : String
  sizeBefore : Int
  sizeAfter : Int
deriving DecidableEq

/-- What a pass or a whole pipeline did. -/
structure Report where
  passesRun : List String
  entries : List Entry
  tokensSaved : Int
deriving DecidableEq

/-- What is said of a result that was shortened. -/
def Entry.truncated : String := "truncated"

namespace Report

/-- The report of a run that changed nothing. -/
def empty : Report := ⟨[], [], 0⟩

/-- The report of two runs, the second one after the first. -/
def merge (first second : Report) : Report where
  passesRun := first.passesRun ++ second.passesRun
  entries := first.entries ++ second.entries
  tokensSaved := first.tokensSaved + second.tokensSaved

@[simp] theorem empty_merge (r : Report) : empty.merge r = r := by
  simp [merge, empty]

@[simp] theorem merge_empty (r : Report) : r.merge empty = r := by
  simp [merge, empty]

theorem merge_assoc (a b c : Report) : (a.merge b).merge c = a.merge (b.merge c) := by
  simp [merge, Int.add_assoc]

end Report

/-! ## Printing -/

/-- Print an entry. -/
def Entry.toJson (e : Entry) : Json :=
  .object [
    ("messageIndex", .int e.messageIndex),
    ("toolCallId", e.toolCallId),
    ("toolName", e.toolName),
    ("action", .string e.action),
    ("originalSize", .int e.sizeBefore),
    ("compactedSize", .int e.sizeAfter)]

/-- Print a report. -/
def Report.toJson (r : Report) : Json :=
  .object [
    ("passesRun", .array (r.passesRun.map Json.string)),
    ("entries", .array (r.entries.map Entry.toJson)),
    ("estimatedTokensSaved", .int r.tokensSaved)]

end Parley
