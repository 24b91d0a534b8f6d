import ScenarioScript.Group
import ScenarioScript.OrderedMap
import ScenarioScript.Unvisited

/-!
# Group/Expansion — the steps that a group stands for

To expand a group is to list its steps, with the expansion of another group wherever that group is
included.  A group that is unknown, or is in the middle of being expanded, is refused where it is
included; the refusal carries the inclusions that led there.
-/

namespace ScenarioScript

/-- **The steps that a group stands for.**  `origin` is the statement that includes it, and
`expanding` the groups that are in the middle of being expanded, outermost first. -/
def expandGroup (groups : OrderedMap String Group) (name : String) (origin : Location)
    (expanding : List String) : Except Diagnostic (List Step) :=
  let refuse := fun (cause : Cause) =>
    (Diagnostic.atPosition cause origin.line origin.column).locate origin.path
  if _hnew : name ∈ expanding then .error (refuse (.includeCycle (expanding ++ [name])))
  else
    match _hget : groups.get? name with
    | none => .error (refuse (.unknownGroup name))
    | some group => do
      let parts ← group.items.mapM fun
        | .step step => .ok [step]
        | .inclusion inclusion =>
          (expandGroup groups inclusion.name inclusion.origin (expanding ++ [name])).mapError
            (·.addFrame origin)
      .ok parts.flatten
termination_by unvisited groups.keys expanding
decreasing_by exact unvisited_lt ((groups.isSome_get? name).1 (by simp [_hget])) _hnew

end ScenarioScript
