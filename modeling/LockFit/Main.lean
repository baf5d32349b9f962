import LockFit.CommandLine.Standard

/-
  The program. It reads the files that the arguments name, runs the command line on what stood in
  them, and prints the outcome.
-/

open LockFit LockFit.CommandLine

/-- The code of the complaint that a directory is no file. -/
def isDirectoryCode : UInt32 := 21

/-- What stands under a path of the file system. -/
def fileState (path : Text) : IO FileState := do
  if path.toList.contains '\x00' then return .unnameable
  try
    let content ← IO.FS.readBinFile path.visible
    return .file content.toList
  catch e =>
    match e with
    | .inappropriateType _ code _ =>
      return if code = isDirectoryCode then .directory else .notDirectory
    | .invalidArgument .. => return .nameTooLong
    | _ => return .absent

def printNotices (notices : List Text) : IO Unit :=
  notices.forM fun notice => IO.eprintln notice.visible

def main (args : List String) : IO UInt32 := do
  let args := args.map Text.ofString
  let states ← (pathsOf args).mapM fun path => return (path, ← fileState path)
  let look (path : Text) : FileState :=
    ((states.find? fun s => s.1 = path).map Prod.snd).getD .absent
  let outcome := Libraries.standard.run look args
  match outcome with
  | .usage => IO.eprint helpText.visible
  | .ended _ output notices =>
    printNotices notices
    IO.print output.visible
  | .crashed cause notices =>
    printNotices notices
    IO.eprintln cause.message.visible
  | .unprinted cause notices =>
    printNotices notices
    IO.eprintln cause.message.visible
  return outcome.exitCode.toUInt32
