/-!
# Unvisited — how many places a walk has not come by yet

A walk over finitely many places that never enters a place it is in the middle of must end: with
each place entered there is one fewer left (`unvisited_lt`).  Groups that include one another and
scripts that load one another are walked in this way.
-/

namespace ScenarioScript

variable {α : Type} [DecidableEq α]

/-- How many of the places are not among those entered. -/
def unvisited (places entered : List α) : Nat := (places.filter (· ∉ entered)).length

/-- **One fewer is left** once a place has been entered that was not before. -/
theorem unvisited_lt {places entered : List α} {place : α} (hmem : place ∈ places)
    (hnew : place ∉ entered) :
    unvisited places (entered ++ [place]) < unvisited places entered := by
  unfold unvisited
  have hsub : places.filter (· ∉ entered ++ [place]) =
      (places.filter (· ∉ entered)).filter (· ≠ place) := by
    rw [List.filter_filter]
    refine List.filter_congr fun x _ => ?_
    by_cases hx : x = place <;> simp [hx]
  rw [hsub]
  refine List.length_filter_lt_length_iff_exists.2 ⟨place, ?_, by simp⟩
  simp [hmem, hnew]

end ScenarioScript
