import ScenarioScript.ScenarioSet

/-!
# ScenarioSet/Naming — keys for scenarios without a label

A scenario that came without a label is known by its place in the set: the third one has the key
`#3`.  Where a label has taken that key, the first free one of `#3-2`, `#3-3`, … stands in.
-/

namespace ScenarioScript

/-- The keys that may stand for the scenario at a place, in order of preference: as many as there
are labels and one more, so that one is free. -/
def candidateKeys (labels : List String) (place : Nat) : List String :=
  s!"#{place}" :: (List.range labels.length).map fun n => s!"#{place}-{n + 2}"

/-- **The key of the scenario at a place**: the first candidate that is no label. -/
def anonymousKey (labels : List String) (place : Nat) : String :=
  ((candidateKeys labels place).find? (· ∉ labels)).getD s!"#{place}"

namespace ScenarioSet

/-- The keys that scenarios were given by a label. -/
def labels (s : ScenarioSet) : List String :=
  (s.scenarios.filter (!·.anonymous)).map (·.key)

/-- **Key the scenarios without a label** by their place, counted from one. -/
def nameAnonymous (s : ScenarioSet) : ScenarioSet :=
  { s with
    scenarios := s.scenarios.mapIdx fun index scenario =>
      if scenario.anonymous then { scenario with key := anonymousKey s.labels (index + 1) }
      else scenario }

end ScenarioSet

end ScenarioScript
