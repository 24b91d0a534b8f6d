import ScenarioScript.Load
import ScenarioScript.ScenarioSet.Naming

/-!
# Script — reading a whole script

`parse` reads a script from its text, and `parseFile` reads one from a file.  Scenarios without a
label are given their keys at the very end, when it is known which labels there are.
-/

namespace ScenarioScript

/-- **The set that a script defines**, with the files tried on the way.  The path, if there is one,
names the script in diagnostics and is where its loads start from. -/
def parse (env : Environment) (path : Option String) (text : String) : Traced ScenarioSet :=
  if path.any Path.holdsNull then Traced.ofExcept (.error .nullInPath)
  else do
    let set ← readScript env [] (path.map env.workspace.directory.resolve) text
    pure set.nameAnonymous

section Parse

variable {path : Option String}

/-- A main script whose path the system does not take is not read. -/
theorem parse_of_holdsNull (env : Environment) (h : path.any Path.holdsNull = true)
    (text : String) : parse env path text = Traced.ofExcept (.error .nullInPath) :=
  if_pos h

/-- **Any other is read**, and the scenarios without a label are then given their keys. -/
theorem parse_of_not_holdsNull (env : Environment) (h : path.any Path.holdsNull = false)
    (text : String) :
    parse env path text = (readScript env [] (path.map env.workspace.directory.resolve) text >>=
      fun set => pure set.nameAnonymous) :=
  if_neg fun hnull => Bool.false_ne_true (h.symm.trans hnull)

end Parse

/-- Why a script file gives no set. -/
inductive FileFailure where
  | unreadable (reason : Unreadable)
  | failed (failure : Failure)
  deriving DecidableEq, Repr

/-- **The set that a script file defines.** -/
def parseFile (env : Environment) (path : String) : Except FileFailure ScenarioSet :=
  if Path.holdsNull path then .error (.failed .nullInPath)
  else
    match env.read (env.workspace.directory.resolve path) with
    | .error reason => .error (.unreadable reason)
    | .ok text => (parse env (some path) text).outcome.mapError .failed

end ScenarioScript
