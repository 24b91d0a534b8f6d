import ScenarioScript.Diagnostic

/-!
# Diagnostic/Failure — the ways in which reading a script can end early

Nearly always a script that cannot be read has a fault, and the failure is its diagnostic.  Four
limits lie outside the language: an indentation unit of zero, a numeral too long to be read, a
statement that is not on one line, and a path that no system takes.
-/

namespace ScenarioScript

/-- Why no result came out. -/
inductive Failure where
  | fault (diagnostic : Diagnostic)
  /-- Indentation was to be measured in units of no width. -/
  | zeroUnit
  /-- A numeral has more than `digitLimit` digits. -/
  | numeralTooLong
  /-- A statement runs over a line break. -/
  | brokenStatement
  /-- A path has a null character in it. -/
  | nullInPath
  deriving DecidableEq, Repr

namespace Failure

/-- A fault at a position of the text at hand. -/
def atPosition (cause : Cause) (line column : Int) : Failure :=
  .fault (.atPosition cause line column)

/-- Change the diagnostic of a failure that has one. -/
def mapFault (f : Diagnostic → Diagnostic) : Failure → Failure
  | fault d => .fault (f d)
  | failure => failure

/-- What the system says of a path with a null character in it. -/
def nullRefused : String := "embedded null byte"

/-- **The words of a failure**: those of its diagnostic, or those in which the system refuses a path.
The words of the other failures are not this library's. -/
def message? : Failure → Option String
  | fault d => some d.message
  | nullInPath => some nullRefused
  | zeroUnit | numeralTooLong | brokenStatement => none

@[simp] theorem mapFault_fault (f : Diagnostic → Diagnostic) (d : Diagnostic) :
    (fault d).mapFault f = .fault (f d) := rfl

end Failure

end ScenarioScript
