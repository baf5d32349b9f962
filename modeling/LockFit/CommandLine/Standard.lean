import LockFit.CommandLine.Arguments
import LockFit.Text.Escape
import LockFit.Yaml.Document

/-
  The libraries that the program runs with.
  YAML is read two collections deep, as far as a manifest goes. A text is printed with the end of
  its line and without control sequences of terminals; what has no encoding is not printed. A block
  of a report is drawn in characters alone.
-/

namespace LockFit.CommandLine

/-- The value of a text as far as a manifest goes. -/
def readYaml (text : Text) : Except Yaml.Refusal Yaml :=
  match Yaml.read Manifest.documentDepth text with
  | .ok v => .ok v
  | .error .malformed => .error (.malformed "the text is malformed")
  | .error cause => .error (.failed cause)

/-- The text as it is printed, unless it has no encoding. -/
def printed (text : Text) : Except PrintError Text :=
  match Text.findHalves 0 text.toList with
  | none => .ok text
  | some halves => .error (.halves halves)

namespace Libraries

def standard : Libraries where
  demand := CommandLine.demand
  readYaml := CommandLine.readYaml
  echo text := printed (Text.dropEscapes (text ++ "\n"))
  draw block := printed block.text

end Libraries

end LockFit.CommandLine
