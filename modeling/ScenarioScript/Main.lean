import ScenarioScript.CommandLine

/-!
# Main — the command line

`report` and `drawExpression` of `CommandLine` run on the files of the machine.  Which files a
script loads comes out only as it is read, so reading starts with none of them and is repeated
with those that were found missing, until no more of them are there.
-/

open ScenarioScript

namespace ScenarioScript.Main

/-- The bytes of a file, if it is there and can be read. -/
def fetch? (path : Path) : IO (Option ByteArray) := do
  try
    let bytes ← IO.FS.readBinFile path.render
    pure (some bytes)
  catch _ => pure none

/-- Show how a command ended, and give its exit status. -/
def finish : Except CommandLine.Break CommandLine.Ending → IO UInt32
  | .error broken => do
    IO.eprintln broken.text
    pure 1
  | .ok ending => do
    IO.print ending.stdout
    IO.eprint ending.stderr
    if let some message := ending.message then IO.eprintln message
    pure ending.status.toUInt32

/-- The paths that were found missing. -/
def missing (attempts : List Attempt) : List Path :=
  (attempts.filter (·.outcome == .unreadable .missing)).map (·.target)

/-- Report with the files at hand, and again with more of them as long as more are asked for. -/
partial def report (env : Environment) (arguments : List String) (stdin : String) : IO UInt32 := do
  let (ending, attempts) := CommandLine.report env arguments stdin
  let mut files := env.workspace.files
  let mut found := false
  for path in missing attempts do
    if let some bytes ← fetch? path then
      files := files.insert path bytes
      found := true
  if found then report { env with workspace := { env.workspace with files } } arguments stdin
  else finish ending

/-- The files at hand when reading begins: the script itself, if it is one. -/
def firstFiles (path : Path) : IO (OrderedMap Path ByteArray) := do
  match ← fetch? path with
  | some bytes => pure (OrderedMap.empty.insert path bytes)
  | none => pure .empty

/-- All of standard input. -/
def readStdin : IO String := do (← IO.getStdin).readToEnd

end ScenarioScript.Main

open ScenarioScript.Main in
/-- Report what a script defines or, behind `--expression`, draw the tree of an expression. -/
def main (arguments : List String) : IO UInt32 := do
  let here ← IO.currentDir
  let directory := Path.root.resolve here.toString
  match arguments with
  | ["--expression"] => finish (CommandLine.drawExpression [] (← readStdin))
  | "--expression" :: words => finish (CommandLine.drawExpression words "")
  | [] | ["-"] => report { workspace := { directory } } arguments (← readStdin)
  | [path] =>
    let files ← firstFiles (directory.resolve path)
    report { workspace := { files, directory } } arguments ""
  | _ => report { workspace := { directory } } arguments ""
