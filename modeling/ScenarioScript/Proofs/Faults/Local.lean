import ScenarioScript.Diagnostic.Failure
import ScenarioScript.Proofs.Outcome

/-!
# Proofs/Faults/Local — faults of a text by itself

Most faults lie in the text at hand; some lie in what it refers to, be it a group or another script,
and a few turn up only where a parser is moved or a step is built by hand.  The stages that look at
the text alone fail with a fault of the first sort, at a place in the text and with no trace yet.
-/

namespace ScenarioScript

/-- Does the fault lie in a text alone? -/
def Cause.isLocal : Cause → Bool
  | unknownGroup _ | unresolvedLoad .. | includeCycle _ | loadCycle _ => false
  -- no text has these: a statement comes with its target, and parsers know what they wait for
  | targetRequired _ | tokenExpected .. | otherExpected _ | otherCycle .. | other .. => false
  | _ => true

/-- **A failure that a text has by itself**: a fault that lies in the text alone. -/
inductive Failure.InText : Failure → Prop where
  | fault {cause : Cause} {line column : Int} (h : cause.isLocal = true) :
      InText (.atPosition cause line column)

/-- **A fault that a text has by itself**, at a position of the given sort. -/
inductive Failure.At (P : Int → Int → Prop) : Failure → Prop where
  | fault {cause : Cause} {line column : Int} (h : cause.isLocal = true)
      (hposition : P line column) : At P (.atPosition cause line column)

namespace Failure.At

variable {P Q : Int → Int → Prop} {failure : Failure}

theorem inText (h : failure.At P) : failure.InText := by
  cases h with
  | fault hlocal _ => exact .fault hlocal

theorem mono (h : failure.At P) (hP : ∀ line column, P line column → Q line column) :
    failure.At Q := by
  cases h with
  | fault hlocal hposition => exact .fault hlocal (hP _ _ hposition)

end Failure.At

/-- Any position whatever. -/
def Anywhere : Int → Int → Prop := fun _ _ => True

/-- **The positions of a line** from one column to another. -/
def OnLine (line first last : Int) : Int → Int → Prop := fun l column =>
  l = line ∧ first ≤ column ∧ column ≤ last

theorem OnLine.mono {line first last first' last' l column : Int}
    (h : OnLine line first last l column) (hfirst : first' ≤ first) (hlast : last ≤ last') :
    OnLine line first' last' l column :=
  ⟨h.1, Int.le_trans hfirst h.2.1, Int.le_trans h.2.2 hlast⟩

namespace Outcome

variable {α : Type}

/-- A fault at a position of the given sort. -/
theorem FailsOnly.at {P : Int → Int → Prop} {cause : Cause} {line column : Int}
    (h : cause.isLocal = true) (hposition : P line column) :
    FailsOnly (Failure.At P) (.error (.atPosition cause line column) : Except Failure α) :=
  .error (.fault h hposition)

end Outcome

end ScenarioScript
