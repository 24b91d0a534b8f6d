import ScenarioScript.Proofs.Blocks.Run
import ScenarioScript.Proofs.Faults.Statement

/-!
# Proofs/Faults/Block — how a statement can fail to take effect

A statement that is taken in fails for a fault in one of its places or in the step that it closes, or
for a count that is too long, unless it brings in what stands elsewhere: an inclusion fails as the
expansion of its group does, and a load as what it loads.
-/

namespace ScenarioScript

open Outcome

/-! ## Statements -/

/-- **A failure of a statement by itself**: a fault at a position of the given sort, or a count that
is too long. -/
inductive Failure.OfStatement (P : Int → Int → Prop) (s : Statement) : Failure → Prop where
  | here {failure : Failure} (h : failure.At P) : OfStatement P s failure
  | tooLong {value : Tree} (hcommand : s.command = .setting (.samples value))
      (hlong : value.CountTooLong) : OfStatement P s .numeralTooLong

/-- **A failure of an inclusion**: that of expanding the group that is included. -/
inductive Failure.OfInclusion (path : Option String) (groups : OrderedMap String Group)
    (s : Statement) : Failure → Prop where
  | expansion {group : String} {d : Diagnostic} (hcommand : s.command = .inclusion group)
      (h : expandGroup groups group (.includedFrom path s.position) [] = .error d) :
      OfInclusion path groups s (.fault d)

/-- **The places of a statement** are all of one sort: the one where it begins, and the one of the
expression in it. -/
structure Statement.StandsAt (P : Int → Int → Prop) (s : Statement) : Prop where
  start : P s.line s.column
  value : ∀ t ∈ s.command.expr?, t.StandsAt P

/-- The expressions of the open step, if there is one. -/
def Block.stepExpressions : Block → List Tree
  | scenarioStep _ step | groupStep _ step => step.expressions
  | _ => []

variable {P : Int → Int → Prop} {s : Statement}

theorem Failure.OfSetting.ofStatement {setting : Setting} {failure : Failure}
    (h : Failure.OfSetting P setting failure) (hcommand : s.command = .setting setting) :
    Failure.OfStatement P s failure := by
  cases h with
  | here h => exact .here h
  | tooLong hsetting hlong => exact .tooLong (hsetting ▸ hcommand) hlong

/-- A setting fails as its statement may. -/
theorem Config.fails_apply_of_command (c : Config) {setting : Setting}
    (hcommand : s.command = .setting setting) (hs : s.StandsAt P) :
    FailsOnly (Failure.OfStatement P s) (c.apply setting) := by
  have hvalue := hs.value
  rw [hcommand] at hvalue
  exact (c.fails_apply hvalue).mono fun _ h => h.ofStatement hcommand

namespace Draft

variable {α : Type}

theorem at_notAllowed (hs : s.StandsAt P) (place : Surroundings) :
    FailsOnly (Failure.At P) (notAllowed s place : Except Failure α) :=
  .at rfl hs.start

/-- **A complete statement** that is to begin a step does so. -/
theorem exists_newStep (h : s.Complete) {kind : StepKind} {target : Option Tree}
    (hcommand : s.command = .step kind target) (path : Option String) :
    ∃ step, newStep path s kind target = .ok step := by
  refine ⟨_, if_neg fun hmissing => ?_⟩
  obtain ⟨hkind, hnone⟩ := Bool.and_eq_true_iff.1 hmissing
  have hsome : target.isSome = true := h kind target hcommand hkind
  rw [Option.isNone_iff_eq_none.1 hnone] at hsome
  exact absurd hsome nofun

theorem fails_addToStep (step : Step) (hs : s.StandsAt P) :
    FailsOnly (Failure.OfStatement P s) (addToStep step s) := by
  have hvalue := hs.value
  unfold addToStep
  split
  · next setting hcommand => exact (step.config.fails_apply_of_command hcommand hs).map
  · exact .ok _
  · exact .ok _
  · exact .ok _
  · next value hcommand =>
    rw [hcommand] at hvalue
    exact ((at_flagValue _ hvalue).map).mono fun _ => .here
  · next name value hcommand =>
    rw [hcommand] at hvalue
    refine FailsOnly.map (FailsOnly.mono ?_ fun _ => .here)
    simp only [newParam]
    split
    · exact .ok _
    · exact .at rfl (hvalue value rfl)
  · exact .ok _
  · exact .ok _
  · exact (at_notAllowed hs .step).mono fun _ => .here

theorem at_addToGroup (path : Option String) (group : Group) (hcomplete : s.Complete)
    (hs : s.StandsAt P) : FailsOnly (Failure.At P) (addToGroup path group s) := by
  unfold addToGroup
  split
  · next kind target hcommand =>
    obtain ⟨step, hstep⟩ := exists_newStep hcomplete hcommand path
    rw [hstep]
    exact .ok _
  · exact .ok _
  · exact at_notAllowed hs .group

/-- **A statement in a scenario** can fail for the group that it includes. -/
theorem fails_addToScenario (path : Option String) (groups : OrderedMap String Group)
    (scenario : Scenario) (hcomplete : s.Complete) (hs : s.StandsAt P) :
    FailsOnly (fun failure => failure.OfStatement P s ∨ failure.OfInclusion path groups s)
      (addToScenario path groups scenario s) := by
  unfold addToScenario
  split
  · next kind target hcommand =>
    obtain ⟨step, hstep⟩ := exists_newStep hcomplete hcommand path
    rw [hstep]
    exact .ok _
  · exact .ok _
  · exact .ok _
  · exact .ok _
  · next setting hcommand =>
    exact ((scenario.config.fails_apply_of_command hcommand hs).map).mono fun _ => .inl
  · next group hcommand =>
    refine FailsOnly.map fun failure hfailure => .inr ?_
    obtain ⟨d, hd, rfl⟩ := mapError_eq_error.1 hfailure
    exact .expansion hcommand hd
  · exact (at_notAllowed hs .scenario).mono fun _ h => .inl (.here h)

/-- **A step that is closed** fails at most for its own bindings. -/
theorem at_closeStep {d : Draft} (hd : ∀ t ∈ d.block.stepExpressions, t.StandsAt P) :
    FailsOnly (fun e => Failure.At P (.fault e)) d.closeStep := by
  unfold closeStep
  split
  · next scenario step hblock =>
    refine FailsOnly.map ?_
    unfold Step.checkScope
    split
    · exact .ok _
    · next name value hown =>
      rw [hblock] at hd
      obtain ⟨t, ht, hname⟩ := List.exists_of_findSome?_eq_some hown
      obtain ⟨used, -, hpair⟩ := Option.map_eq_some_iff.1 hname
      obtain ⟨-, rfl⟩ := Prod.mk.injEq .. ▸ hpair
      exact .error (.fault rfl (hd t ht))
  · exact .ok _
  · exact .ok _

/-- **Closing blocks fails** for what stands in the open step. -/
theorem at_closeAll {d : Draft} (hd : ∀ t ∈ d.block.stepExpressions, t.StandsAt P) :
    FailsOnly (Failure.At P) (d.closeAll.mapError .fault) :=
  (at_closeStep hd).map.mapError fun _ => id

theorem at_closeTo {d : Draft} (hd : ∀ t ∈ d.block.stepExpressions, t.StandsAt P) (depth : Int) :
    FailsOnly (Failure.At P) ((d.closeTo depth).mapError .fault) := by
  refine FailsOnly.mapError ?_ fun _ => id
  unfold closeTo
  split
  · exact (at_closeStep hd).map.map
  · split
    · exact at_closeStep hd
    · exact .ok _

end Draft

end ScenarioScript
