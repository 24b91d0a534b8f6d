import ScenarioScript.Diagnostic.Location
import ScenarioScript.Step

/-!
# Group — steps under a name

A group holds steps, and in between them the names of other groups, which stand for those groups'
steps.
-/

namespace ScenarioScript

/-- A place inside a group where another group's steps come in. -/
structure Inclusion where
  name : String
  line : Int
  column : Int
  path : Option String := none
  deriving DecidableEq, Repr

/-- The statement that includes the other group. -/
def Inclusion.origin (i : Inclusion) : Location := .includedFrom i.path ⟨i.line, i.column⟩

/-- What a group holds. -/
inductive GroupItem where
  | step (step : Step)
  | inclusion (inclusion : Inclusion)
  deriving DecidableEq, Repr

/-- The step that an item is. -/
def GroupItem.step? : GroupItem → Option Step
  | .step s => some s
  | .inclusion _ => none

/-- Steps under a name. -/
structure Group where
  name : String
  items : List GroupItem := []
  line : Int := 0
  path : Option String := none
  deriving DecidableEq, Repr

/-- The steps that stand in the group itself. -/
def Group.steps (g : Group) : List Step := g.items.filterMap GroupItem.step?

end ScenarioScript
