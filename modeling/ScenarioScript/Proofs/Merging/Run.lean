import ScenarioScript.Proofs.Blocks.Run
import ScenarioScript.Proofs.Merging.Sets

/-!
# Proofs/Merging/Run — definitions in place and definitions that are loaded

A row of statements that begins no scenario of its own defines the same whether it is taken in where
it stands, on top of a set there is, or by itself, and what comes of it is merged into the set
(`Draft.run_merge`).  Nothing that such statements do looks at the set: of what a draft has finished
only a scenario makes use, when it begins and when it includes a group.

So a draft on top of a set (`Draft.above`) and the same draft by itself go through the run in step:
`Draft.add_above` is a step, and the run follows by induction.
-/

namespace ScenarioScript

namespace Traced

variable {α β : Type}

theorem outcome_map (f : α → β) (t : Traced α) : (f <$> t).outcome = t.outcome.map f := by
  rw [← bind_pure_comp]
  exact outcome_bind_pure t f

theorem attempts_map (f : α → β) (t : Traced α) : (f <$> t).attempts = t.attempts := by
  rw [← bind_pure_comp]
  exact attempts_bind_pure t f

/-- What comes next matters only for the results there are. -/
theorem bind_congr_of_ok {t : Traced α} {next next' : α → Traced β}
    (h : ∀ a, t.outcome = .ok a → next a = next' a) : t >>= next = t >>= next' := by
  rw [bind_eq, bind_eq]
  cases hout : t.outcome with
  | error failure => rw [andThen_of_error hout, andThen_of_error hout]
  | ok a => rw [andThen_of_ok hout, andThen_of_ok hout, h a hout]

theorem map_ofExcept (f : α → β) (r : Except Failure α) :
    f <$> ofExcept r = ofExcept (r.map f) := by
  cases r <;> rfl

end Traced

namespace Block

/-- Is no scenario open? -/
def OutsideScenarios : Block → Prop
  | root | group _ | groupStep .. => True
  | scenario _ | scenarioStep .. => False

end Block

namespace Draft

open Outcome

variable {site : Site} {r : ScenarioSet} {d e : Draft} {s : Statement}

/-- **The draft on top of a set**: what it has finished comes behind what there is. -/
def above (r : ScenarioSet) (d : Draft) : Draft := { d with finished := r.merge d.finished }

/-! ## Closing blocks on top of a set -/

theorem result_above (r : ScenarioSet) (d : Draft) : (d.above r).result = r.merge d.result := by
  obtain ⟨finished, block⟩ := d
  cases block <;> simp [above, result, ScenarioSet.merge, OrderedMap.update_insert]

theorem closeStep_above (r : ScenarioSet) (d : Draft) :
    (d.above r).closeStep = d.closeStep.map (above r) := by
  obtain ⟨finished, block⟩ := d
  cases block with
  | scenarioStep scenario step =>
    simp only [above, closeStep]
    cases step.checkScope scenario.visible <;> rfl
  | _ => rfl

theorem closeAll_above (r : ScenarioSet) (d : Draft) :
    (d.above r).closeAll = d.closeAll.map r.merge := by
  rw [closeAll, closeStep_above, closeAll]
  cases d.closeStep with
  | error diagnostic => rfl
  | ok c => exact congrArg Except.ok (result_above r c)

theorem closeTo_above (r : ScenarioSet) (d : Draft) (depth : Int) :
    (d.above r).closeTo depth = (d.closeTo depth).map (above r) := by
  unfold closeTo
  split
  · rw [closeAll_above]
    cases d.closeAll <;> rfl
  · split
    · exact closeStep_above r d
    · rfl

/-- Closing blocks opens no scenario. -/
theorem outsideScenarios_of_closeTo {depth : Int} (hd : d.block.OutsideScenarios)
    (h : d.closeTo depth = .ok e) : e.block.OutsideScenarios := by
  unfold closeTo at h
  split at h
  · obtain ⟨set, -, rfl⟩ := map_eq_ok.1 h
    trivial
  · split at h
    · obtain ⟨finished, block⟩ := d
      cases block with
      | scenario => exact hd.elim
      | scenarioStep => exact hd.elim
      | _ =>
        obtain rfl := Except.ok.inj h
        trivial
    · obtain rfl := Except.ok.inj h
      exact hd

/-! ## Taking in statements on top of a set -/

theorem addToRoot_above (hs : ∀ label, s.command ≠ .scenario label) (set : ScenarioSet) :
    addToRoot site (r.merge set) s = above r <$> addToRoot site set s := by
  unfold addToRoot
  cases hcommand : s.command with
  | bind name value => simp only [ScenarioSet.merge_bind, map_pure]; rfl
  | endpoint value => simp only [ScenarioSet.merge_bind, map_pure]; rfl
  | setting setting =>
    have happly : (r.merge set).config.apply setting =
        (set.config.apply setting).map r.config.merged := Config.apply_merged ..
    simp only [happly]
    cases set.config.apply setting <;> rfl
  | load target =>
    simp only [map_bind, map_pure, ScenarioSet.merge_assoc]
    rfl
  | scenario label => exact absurd hcommand (hs label)
  | group name => rfl
  | _ => rfl

theorem takeIn_above (hd : d.block.OutsideScenarios) (hs : ∀ label, s.command ≠ .scenario label) :
    (d.above r).takeIn site s = above r <$> d.takeIn site s := by
  obtain ⟨finished, block⟩ := d
  cases block with
  | root => exact addToRoot_above hs finished
  | scenario => exact hd.elim
  | scenarioStep => exact hd.elim
  | group group =>
    simp only [takeIn, above]
    cases addToGroup site.path group s <;> rfl
  | groupStep group step =>
    simp only [takeIn, above]
    cases addToStep step s <;> rfl

/-- A statement that begins no scenario opens none at top level. -/
theorem outsideScenarios_of_addToRoot {set : ScenarioSet}
    (hs : ∀ label, s.command ≠ .scenario label) (h : (addToRoot site set s).outcome = .ok e) :
    e.block.OutsideScenarios := by
  unfold addToRoot at h
  cases hcommand : s.command with
  | scenario label => exact absurd hcommand (hs label)
  | setting setting =>
    simp only [hcommand, Traced.outcome_bind_pure, map_eq_ok] at h
    obtain ⟨config, -, rfl⟩ := h
    trivial
  | load target =>
    simp only [hcommand, Traced.outcome_bind_pure, map_eq_ok] at h
    obtain ⟨loaded, -, rfl⟩ := h
    trivial
  | bind | endpoint | group =>
    simp only [hcommand, Traced.outcome_pure, Except.ok.injEq] at h
    subst h
    trivial
  | _ => simp [hcommand, notAllowed] at h

theorem outsideScenarios_of_addToGroup {path : Option String} {group : Group} {block : Block}
    (h : addToGroup path group s = .ok block) : block.OutsideScenarios := by
  unfold addToGroup at h
  split at h
  · obtain ⟨step, -, rfl⟩ := map_eq_ok.1 h
    trivial
  · obtain rfl := Except.ok.inj h
    trivial
  · exact absurd h nofun

/-- **A statement that begins no scenario** opens none. -/
theorem outsideScenarios_of_takeIn (hd : d.block.OutsideScenarios)
    (hs : ∀ label, s.command ≠ .scenario label) (h : (d.takeIn site s).outcome = .ok e) :
    e.block.OutsideScenarios := by
  obtain ⟨finished, block⟩ := d
  cases block with
  | root => exact outsideScenarios_of_addToRoot hs h
  | scenario => exact hd.elim
  | scenarioStep => exact hd.elim
  | group group =>
    rw [takeIn, Traced.outcome_bind_pure, map_eq_ok] at h
    obtain ⟨block, hblock, rfl⟩ := h
    exact outsideScenarios_of_addToGroup hblock
  | groupStep group step =>
    rw [takeIn, Traced.outcome_bind_pure, map_eq_ok] at h
    obtain ⟨step', -, rfl⟩ := h
    trivial

theorem place_above (hd : d.block.OutsideScenarios) (hs : ∀ label, s.command ≠ .scenario label) :
    place site s (d.above r) = above r <$> place site s d := by
  by_cases hdepth : s.depth ≠ d.block.depth
  · rw [place, place, if_pos hdepth, Traced.map_ofExcept]
    exact if_pos hdepth
  · rw [place, place, if_neg hdepth, ← takeIn_above hd hs]
    exact if_neg hdepth

/-- **In step**: a statement does the same on top of a set. -/
theorem add_above (hd : d.block.OutsideScenarios) (hs : ∀ label, s.command ≠ .scenario label) :
    (d.above r).add site s = above r <$> d.add site s := by
  cases hclose : d.closeTo s.depth with
  | error diagnostic =>
    rw [add_eq, add_eq, closeTo_above, hclose]
    rfl
  | ok c =>
    have habove : (d.above r).closeTo s.depth = .ok (c.above r) := by
      rw [closeTo_above, hclose]
      rfl
    rw [add_of_closeTo habove, add_of_closeTo hclose,
      place_above (outsideScenarios_of_closeTo hd hclose) hs]

theorem outsideScenarios_of_add (hd : d.block.OutsideScenarios)
    (hs : ∀ label, s.command ≠ .scenario label) (h : (d.add site s).outcome = .ok e) :
    e.block.OutsideScenarios := by
  obtain ⟨c, hclose, -, htake⟩ := add_eq_ok.1 h
  exact outsideScenarios_of_takeIn (outsideScenarios_of_closeTo hd hclose) hs htake

/-! ## The whole run -/

theorem foldlM_add_above {statements : List Statement}
    (hnone : ∀ s ∈ statements, ∀ label, s.command ≠ .scenario label)
    (hd : d.block.OutsideScenarios) :
    statements.foldlM (add site) (d.above r) = above r <$> statements.foldlM (add site) d := by
  induction statements generalizing d with
  | nil => rfl
  | cons s statements ih =>
    obtain ⟨hs, hrest⟩ := List.forall_mem_cons.1 hnone
    rw [List.foldlM_cons, List.foldlM_cons, add_above hd hs, bind_map_left, map_bind]
    exact Traced.bind_congr_of_ok fun e he => ih hrest (outsideScenarios_of_add hd hs he)

/-- A run on top of a set merges what it defines into the set. -/
theorem run_above (site : Site) (r : ScenarioSet) {statements : List Statement}
    (hnone : ∀ s ∈ statements, ∀ label, s.command ≠ .scenario label) :
    run site ⟨r, .root⟩ statements = r.merge <$> run site {} statements := by
  have habove : (⟨r, .root⟩ : Draft) = above r {} := by
    rw [above, ScenarioSet.merge_empty]
  rw [run, run, habove, foldlM_add_above hnone (d := {}) trivial, bind_map_left, map_bind]
  refine bind_congr fun d => ?_
  rw [closeAll_above]
  cases d.closeAll <;> rfl

/-- **Definitions in place.**  A row of statements that begins no scenario does the same on top of a
set as by itself with the result merged in: it succeeds in both cases or fails in both, with the
same failure, and after the same attempts to load. -/
theorem run_merge (site : Site) (r : ScenarioSet) (statements : List Statement)
    (hnone : ∀ s ∈ statements, ∀ label, s.command ≠ .scenario label) :
    (run site ⟨r, .root⟩ statements).outcome = (run site {} statements).outcome.map r.merge ∧
      (run site ⟨r, .root⟩ statements).attempts = (run site {} statements).attempts := by
  rw [run_above site r hnone]
  exact ⟨Traced.outcome_map .., Traced.attempts_map ..⟩

/-- A script that loads one that has a scenario. -/
def oneLoadedScenario : Site := ⟨none, fun _ _ => pure { scenarios := [{ key := "loaded" }] }⟩

/-- A set with a scenario and two groups. -/
def twoGroups : ScenarioSet where
  scenarios := [{ key := "first" }]
  groups := .ofList [("g", { name := "g" }), ("h", { name := "h" })]

/-- The first group is written anew, with a step, and the script is loaded. -/
def redefinition : List Statement :=
  [⟨.group "g", "g", 0, 1, 1⟩, ⟨.step .reload none, "", 1, 2, 5⟩, ⟨.load "s", "\"s\"", 0, 3, 1⟩]

/-- The groups keep their places, and the loaded scenario comes last. -/
theorem run_merge_redefinition :
    ((run oneLoadedScenario ⟨twoGroups, .root⟩ redefinition).outcome =
        (run oneLoadedScenario {} redefinition).outcome.map twoGroups.merge ∧
      (run oneLoadedScenario ⟨twoGroups, .root⟩ redefinition).attempts =
        (run oneLoadedScenario {} redefinition).attempts) ∧
      (run oneLoadedScenario ⟨twoGroups, .root⟩ redefinition).outcome.toOption.map
        (fun set => (set.groups.keys, set.scenarios.map (·.key))) =
          some (["g", "h"], ["first", "loaded"]) :=
  ⟨run_merge oneLoadedScenario twoGroups redefinition (by simp [redefinition]), rfl⟩

end Draft

end ScenarioScript
