import LockFit.Report.Table
import LockFit.Satisfaction.Basic

/-
  The report of a check in words.
  A panel says how the check ended. If the lock does not fit, a table follows for each sort of
  disagreement that was found, in a fixed order. These blocks are what is reported; how a block is
  drawn is a matter of its own, and `Block.lines` is one way to do it.
-/

namespace LockFit.Report

/-- A part of a report: a frame around a line of text, or a table. -/
inductive Block where
  | panel (text : Text)
  | table (title : Text) (head : List Text) (rows : List (List Text))

/-! ## What is reported -/

/-- A table of import paths, if there are any. -/
def importTable (title : Text) (paths : TextSet) : List Block :=
  if paths.isEmpty then [] else [.table title [] (paths.toList.map fun p => [p])]

/-- A table of locked versions that break rules, if there are any. -/
def mismatchTable (title : Text) (mismatches : TextMap Mismatch) : List Block :=
  if mismatches.isEmpty then []
  else [.table title ["Project", "Rule", "Locked version"]
    (mismatches.entries.map fun (root, m) =>
      [root, m.rule.text, m.version.text ++ " (" ++ m.version.kind.text ++ ")"])]

/-- What is said of a lock that fits. -/
def fitting : Block := .panel "Lock satisfies all inputs."

/-- The blocks of the report. -/
def blocks (s : Satisfaction) : List Block :=
  if s.noLock then [.panel "No lock found."]
  else if s.passed then [fitting]
  else .panel "Lock does not satisfy inputs." ::
    (importTable "Imports missing from lock" s.missing ++
      importTable "Imports no longer required" s.excess ++
      mismatchTable "Unmatched overrides" s.overrides ++
      mismatchTable "Unmatched constraints" s.constraints)

/-! ## Drawing -/

/-- The width of the panel. -/
def panelWidth : Nat := 80

/-- A frame with the name of the program in its top and a line of text. -/
def panel (text : Text) : List (List Code) :=
  let name := Text.toList " locksat "
  let dashes := panelWidth - 2 - name.length
  let left := dashes / 2
  let run (n : Nat) : List Code := List.replicate n '─'
  [.scalar '╭' :: run left ++ name ++ run (dashes - left) ++ [.scalar '╮'],
    .scalar '│' :: .scalar ' ' :: padRight (panelWidth - 4) text.toList ++ Text.toList " │",
    .scalar '╰' :: run (panelWidth - 2) ++ [.scalar '╯']]

/-- The lines of a block. -/
def Block.lines : Block → List (List Code)
  | panel text => Report.panel text
  | table title head rows => Report.table title head rows

/-- The text of a block: its lines, each with its end. -/
def Block.text (b : Block) : Text := Text.ofList (b.lines.flatMap (· ++ [Code.scalar '\n']))

end LockFit.Report
