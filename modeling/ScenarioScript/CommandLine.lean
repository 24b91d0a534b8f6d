import ScenarioScript.Report
import ScenarioScript.Script
import ScenarioScript.Text.Blank

/-!
# CommandLine — what the two commands do

One command reads a script, from a file or from standard input, and reports what it defines.  The
other reads an expression, from its arguments or from standard input, and draws its tree.
-/

namespace ScenarioScript.CommandLine

/-- How a command ended: what it wrote, its exit status, and the words with which it gave up, if it
did so before it had read anything. -/
structure Ending where
  stdout : String := ""
  stderr : String := ""
  status : Nat := 0
  message : Option String := none
  deriving DecidableEq, Repr

namespace Ending

/-- The command did what it was to do. -/
def success (output : String) : Ending := { stdout := output ++ "\n" }

/-- The command gave up. -/
def refusal (message : String) : Ending := { status := 1, message := some message }

/-- What was read has a fault. -/
def fault (d : Diagnostic) : Ending := { stderr := s!"Parse error: {d.render}\n", status := 1 }

end Ending

/-- Why a command broke off: a file that is there but cannot be read, or a limit of the reader. -/
inductive Break where
  | unreadable (reason : Unreadable)
  | failed (failure : Failure)
  deriving DecidableEq, Repr

/-- A broken-off command in words. -/
def Break.text : Break → String
  | .unreadable .missing => "the file is missing"
  | .unreadable .directory => "the file is a directory"
  | .unreadable .throughFile => "the path leads through a file"
  | .unreadable .notText => "the file is not text"
  | .failed (.fault d) => d.render
  | .failed .zeroUnit => "indentation cannot be measured in units of no width"
  | .failed .numeralTooLong => "a numeral is too long"
  | .failed .brokenStatement => "a statement runs over a line break"
  | .failed .nullInPath => Failure.nullRefused

/-- How the reading of a script or expression ends a command. -/
def endingOf {α : Type} (show_ : α → String) : Except Failure α → Except Break Ending
  | .ok a => .ok (.success (show_ a))
  | .error (.fault d) => .ok (.fault d)
  | .error failure => .error (.failed failure)

/-- Report what the text of a script defines. -/
def reportText (env : Environment) (path : Option String) (text : String) :
    Except Break Ending × List Attempt :=
  let set := parse env path text
  (endingOf describe set.outcome, set.attempts)

/-- **Report what a script defines**: one argument is the path of the script, and `-` or none stands
for standard input.  The attempts to load other scripts come with the answer. -/
def report (env : Environment) (arguments : List String) (stdin : String) :
    Except Break Ending × List Attempt :=
  let standard := if stdin.isEmpty then (.ok (.refusal "No input provided on stdin"), [])
    else reportText env none stdin
  match arguments with
  | [] => standard
  | ["-"] => standard
  | [path] =>
    match env.workspace.walk? path with
    | none => (.ok (.refusal s!"No such file: {path}"), [])
    | some (.directory _) => (.error (.unreadable .directory), [])
    | some (.file file) =>
      match env.workspace.read .utf8 file with
      | .error reason => (.error (.unreadable reason), [])
      | .ok text => reportText env (some path) text
  | _ :: extra :: _ => (.ok (.refusal s!"Unexpected argument: {extra}"), [])

/-- **Draw the tree of an expression**, which is the arguments with spaces between them or, if that
is empty, standard input.  A comparison is allowed. -/
def drawExpression (arguments : List String) (stdin : String) : Except Break Ending :=
  let joined := " ".intercalate arguments
  let text := if joined.isEmpty then Text.trim stdin.toList else joined.toList
  endingOf Tree.outline (parseExpression text 1 1 true)

end ScenarioScript.CommandLine
