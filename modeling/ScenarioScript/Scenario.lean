import ScenarioScript.OrderedMap
import ScenarioScript.Step

/-!
# Scenario — a named row of steps

A scenario takes over the bindings and settings of its script as they stand when it begins, adds its
own, and lists its steps.  `Scenario.visible` are the names that a further step can use.
-/

namespace ScenarioScript

/-- A scenario. -/
structure Scenario where
  key : String
  bindings : OrderedMap String Tree := .empty
  config : Config := {}
  steps : List Step := []
  name : Option Tree := none
  /-- Did it come without a label? -/
  anonymous : Bool := false
  line : Int := 0
  path : Option String := none
  deriving DecidableEq

namespace Scenario

/-- The bindings with the texts of their values. -/
def bindingTexts (s : Scenario) : List (String × String) :=
  s.bindings.entries.map fun (name, value) => (name, value.text)

/-- The first step. -/
def firstStep? (s : Scenario) : Option Step := s.steps.head?

/-- **The settings in force** for a step of the scenario. -/
def stepConfig (s : Scenario) (step : Step) : Config := s.config.merged step.config

/-- **The names that can be used** behind the steps there are: those bound by the scenario, and
those bound by its steps. -/
def visible (s : Scenario) : List String := s.bindings.keys ++ s.steps.flatMap (·.setNames)

/-- The scenario with a name bound. -/
def bind (s : Scenario) (name : String) (value : Tree) : Scenario :=
  { s with bindings := s.bindings.insert name value }

end Scenario

end ScenarioScript
