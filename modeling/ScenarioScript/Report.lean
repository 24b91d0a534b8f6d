import ScenarioScript.ScenarioSet

/-!
# Report — a scenario set as text

The report lists the groups by name and size, and the scenarios with their variables and steps.
What belongs to a step stands below it, further in.  A scenario's part is a script again.
-/

namespace ScenarioScript

namespace Report

/-- One level of nesting. -/
def indent : String := "    "

/-- A keyword and its argument, if there is one. -/
def entry (word : String) : Option String → String
  | none => word
  | some argument => word ++ " " ++ argument

/-- The lines below a step. -/
def settingLines (s : Step) : List String :=
  s.config.headerTexts.map (fun text => entry "header" (some text)) ++
    (s.config.samples.map fun count => entry "samples" (some (toString count))).toList ++
    (s.config.warmup.map fun mode => entry "warmup" (some mode.text)).toList ++
    s.params.map (fun param => entry "param" (some (entry param.name (some param.value.text)))) ++
    s.expects.map (fun value => entry "expect" (some value.text)) ++
    s.sets.map (fun binding => entry "set" (some (entry binding.name (some binding.value.text))))

/-- The lines of a step. -/
def stepLines (s : Step) : List String :=
  entry s.kind.word s.targetText? :: (settingLines s).map (indent ++ ·)

/-- The lines of a scenario. -/
def scenarioLines (s : Scenario) : List String :=
  entry "scenario" (some s.key) ::
    (s.bindingTexts.map (fun (name, text) => entry "set" (some (entry name (some text)))) ++
      s.steps.flatMap stepLines).map (indent ++ ·)

/-- The line of a group. -/
def groupLine (name : String) (g : Group) : String := s!"group {name} ({g.items.length} items)"

/-- The lines of a set. -/
def lines (s : ScenarioSet) : List String :=
  s.groups.entries.map (fun (name, group) => groupLine name group) ++
    s.scenarios.flatMap scenarioLines

end Report

/-- **A scenario set as text**, the groups first. -/
def describe (s : ScenarioSet) : String := "\n".intercalate (Report.lines s)

end ScenarioScript
