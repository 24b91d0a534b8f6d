import ScenarioScript.Group
import ScenarioScript.Scenario

/-!
# ScenarioSet — all that a script defines

A set holds scenarios, groups, and the bindings and settings of the top level.  `merge` is what
loading a script does to the set of the loading one.
-/

namespace ScenarioScript

/-- The scenarios, groups, bindings and settings of a script and of those it loads. -/
structure ScenarioSet where
  scenarios : List Scenario := []
  groups : OrderedMap String Group := .empty
  bindings : OrderedMap String Tree := .empty
  config : Config := {}
  deriving DecidableEq

namespace ScenarioSet

/-- The set of an empty script. -/
def empty : ScenarioSet := {}

instance : Inhabited ScenarioSet := ⟨empty⟩

/-- The bindings with the texts of their values. -/
def bindingTexts (s : ScenarioSet) : List (String × String) :=
  s.bindings.entries.map fun (name, value) => (name, value.text)

/-- The first scenario with a key. -/
def scenario? (s : ScenarioSet) (key : String) : Option Scenario :=
  s.scenarios.find? (·.key == key)

/-- **Take in a loaded set**: its groups and bindings replace those of the same name, its settings
prevail, and its scenarios follow. -/
def merge (s loaded : ScenarioSet) : ScenarioSet where
  scenarios := s.scenarios ++ loaded.scenarios
  groups := s.groups.update loaded.groups
  bindings := s.bindings.update loaded.bindings
  config := s.config.merged loaded.config

/-- The set with a name bound. -/
def bind (s : ScenarioSet) (name : String) (value : Tree) : ScenarioSet :=
  { s with bindings := s.bindings.insert name value }

end ScenarioSet

end ScenarioScript
