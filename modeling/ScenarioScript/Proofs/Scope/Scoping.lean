import ScenarioScript.Proofs.Scope.Written

/-!
# Proofs/Scope/Scoping — which steps keep to what they can see

A step that uses a name it binds itself is to be refused, unless the name is bound by the scenario
or by an earlier step.  The check is made when a step of a scenario is closed; the steps that an
inclusion brings in have been closed in their group, where there is nothing to check them against,
and are not looked at again.

* `scopedAt_of_written` — the steps that are written in a scenario keep to what they can see;
* `parse_scoped_iff` — so all steps of a script do exactly if the included ones do;
* `not_parse_scoped` — which they need not.
-/

namespace ScenarioScript

open Outcome Outline

/-- **The step at a place keeps to what it can see**: a name that it binds itself is used in it only
if the scenario or an earlier step binds the name as well. -/
def Scenario.ScopedAt (s : Scenario) (place : Nat) : Prop :=
  ∀ step ∈ s.steps[place]?, ∀ value ∈ step.expressions, ∀ name ∈ value.refs,
    name ∈ step.setNames →
      name ∈ s.bindings.keys ∨ ∃ earlier ∈ s.steps.take place, name ∈ earlier.setNames

instance Scenario.decidableScopedAt (s : Scenario) (place : Nat) : Decidable (s.ScopedAt place) :=
  inferInstanceAs (Decidable (∀ step ∈ s.steps[place]?, ∀ value ∈ step.expressions,
    ∀ name ∈ value.refs, name ∈ step.setNames →
      name ∈ s.bindings.keys ∨ ∃ earlier ∈ s.steps.take place, name ∈ earlier.setNames))

/-! ## The check of a single step -/

theorem Step.forwardRef?_eq_none_iff {step : Step} {visible : List String} :
    step.forwardRef? visible = none ↔
      ∀ value ∈ step.expressions, ∀ name ∈ value.refs, name ∈ step.setNames → name ∈ visible := by
  simp only [Step.forwardRef?, List.findSome?_eq_none_iff, Option.map_eq_none_iff,
    List.find?_eq_none, Step.ownNames, List.mem_filter, decide_eq_true_eq, not_and, Decidable.not_not]

/-- **A step that passes the check** keeps to what it can see. -/
theorem Scenario.scopedAt_append {s : Scenario} {step : Step}
    (h : step.forwardRef? s.visible = none) :
    ({ s with steps := s.steps ++ [step] } : Scenario).ScopedAt s.steps.length := by
  intro found hfound value hvalue name hname hset
  obtain rfl : step = found := by simpa using hfound
  have hvisible : name ∈ s.visible := Step.forwardRef?_eq_none_iff.1 h value hvalue name hname hset
  rw [List.take_left]
  exact (List.mem_append.1 hvisible).imp_right List.mem_flatMap.1

theorem Scenario.ScopedAt.mono {s t : Scenario} {place : Nat} {more : List Step}
    (h : s.ScopedAt place) (hplace : place < s.steps.length)
    (hsteps : t.steps = s.steps ++ more) (hkeys : s.bindings.keys ⊆ t.bindings.keys) :
    t.ScopedAt place := by
  intro step hstep value hvalue name hname hset
  rw [hsteps, List.getElem?_append_left hplace] at hstep
  rw [hsteps, List.take_append_of_le_length (Nat.le_of_lt hplace)]
  exact (h step hstep value hvalue name hname hset).imp_left fun hmem => hkeys hmem

/-! ## The steps of a scenario, by how they came in -/

namespace Outline

variable {path : Option String} {groups : OrderedMap String Group}

/-- The steps that a member adds to its scenario. -/
def Member.brought (path : Option String) (groups : OrderedMap String Group) :
    Member .scenario → List Step
  | step block => (block.meaning path).toList
  | inclusion mark group =>
    (expandGroup groups group (.includedFrom path mark.position) []).toOption.getD []
  | _ => []

/-- Does the member include a group? -/
def Member.isInclusion {holder : Holder} : Member holder → Bool
  | inclusion .. => true
  | _ => false

/-- Of the steps that a member adds, each one with whether it is included. -/
def Member.included (path : Option String) (groups : OrderedMap String Group)
    (m : Member .scenario) : List Bool :=
  (m.brought path groups).map fun _ => m.isInclusion

/-- **A member only adds**: steps behind those there are, and names to those that are bound. -/
theorem Member.steps_of_apply {m : Member .scenario} {s t : Scenario}
    (h : m.apply path groups s = some t) :
    t.steps = s.steps ++ m.brought path groups ∧ s.bindings.keys ⊆ t.bindings.keys := by
  cases m with
  | step block =>
    obtain ⟨step, hstep, hadd⟩ := Option.bind_eq_some_iff.1 h
    obtain ⟨-, hadd⟩ := Option.ite_none_right_eq_some.1 hadd
    obtain rfl := Option.some.inj hadd
    rw [Member.brought, hstep]
    exact ⟨rfl, fun _ => id⟩
  | inclusion mark group =>
    obtain ⟨steps, hexpand, rfl⟩ := Option.map_eq_some_iff.1 h
    rw [Member.brought, hexpand]
    exact ⟨rfl, fun _ => id⟩
  | setting mark choice =>
    obtain ⟨config, -, rfl⟩ := Option.map_eq_some_iff.1 h
    exact ⟨(List.append_nil _).symm, fun _ => id⟩
  | name mark value =>
    obtain rfl := Option.some.inj h
    exact ⟨(List.append_nil _).symm, fun _ => id⟩
  | bind mark bound value =>
    obtain rfl := Option.some.inj h
    exact ⟨(List.append_nil _).symm, fun _ hmem => (OrderedMap.mem_keys_insert ..).2 (.inr hmem)⟩
  | endpoint mark value =>
    obtain rfl := Option.some.inj h
    exact ⟨(List.append_nil _).symm, fun _ hmem => (OrderedMap.mem_keys_insert ..).2 (.inr hmem)⟩

/-- A step that a member adds and does not include is the step that the member is. -/
theorem Member.eq_step_of_included {m : Member .scenario} {place : Nat}
    (h : (m.included path groups)[place]? = some false) :
    place = 0 ∧ ∃ block : StepBlock, m = .step block := by
  cases m with
  | step block =>
    refine ⟨?_, block, rfl⟩
    have hlt : place < (Member.included path groups (.step block)).length :=
      (List.getElem?_eq_some_iff.1 h).1
    have hlength : (Member.included path groups (.step block)).length ≤ 1 := by
      rw [Member.included, List.length_map]
      exact Option.length_toList_le
    omega
  | inclusion mark group =>
    obtain ⟨step, -, hmark⟩ := List.mem_map.1 (List.mem_of_getElem? h)
    exact absurd hmark nofun
  | _ => exact absurd h nofun

/-- **What holds of a scenario in the making**: there is a mark for each step, and a step that is not
marked as included keeps to what it can see. -/
structure Marked (marks : List Bool) (s : Scenario) : Prop where
  length_eq : marks.length = s.steps.length
  scopedAt : ∀ place, marks[place]? = some false → s.ScopedAt place

/-- **One member more** keeps it so. -/
theorem Marked.apply {marks : List Bool} {m : Member .scenario} {s t : Scenario}
    (hs : Marked marks s) (h : m.apply path groups s = some t) :
    Marked (marks ++ m.included path groups) t := by
  obtain ⟨hsteps, hkeys⟩ := Member.steps_of_apply h
  refine ⟨by simp [hsteps, hs.length_eq, Member.included], fun place hplace => ?_⟩
  by_cases hlt : place < s.steps.length
  · rw [List.getElem?_append_left (hs.length_eq ▸ hlt)] at hplace
    exact (hs.scopedAt place hplace).mono hlt hsteps hkeys
  · rw [List.getElem?_append_right (hs.length_eq ▸ Nat.le_of_not_lt hlt), hs.length_eq] at hplace
    obtain ⟨hzero, block, rfl⟩ := Member.eq_step_of_included hplace
    obtain rfl : place = s.steps.length := by omega
    obtain ⟨step, -, hadd⟩ := Option.bind_eq_some_iff.1 h
    obtain ⟨hcheck, hadd⟩ := Option.ite_none_right_eq_some.1 hadd
    obtain rfl := Option.some.inj hadd
    exact Scenario.scopedAt_append hcheck

theorem Marked.fill {members : List (Member .scenario)} {marks : List Bool} {s t : Scenario}
    (hs : Marked marks s) (h : Holder.fill path groups members s = some t) :
    Marked (marks ++ members.flatMap (Member.included path groups)) t := by
  induction members generalizing marks s with
  | nil =>
    obtain rfl : s = t := Option.some.inj h
    rw [List.flatMap_nil, List.append_nil]
    exact hs
  | cons m members ih =>
    rw [Holder.fill, List.foldlM_cons] at h
    obtain ⟨s₁, happly, hrest⟩ := Option.bind_eq_some_iff.1 h
    rw [List.flatMap_cons, ← List.append_assoc]
    exact ih (hs.apply happly) hrest

end Outline

/-- **For each step of a passage's scenario, in order, whether it was included.** -/
def Passage.included (p : Passage) : List Bool :=
  p.members.flatMap (Member.included p.path p.above.groups)

theorem Passage.marked {p : Passage} {s : Scenario} (hp : p.scenario? = some s) :
    Marked p.included s := by
  have hstart : Marked [] (Holder.start p.path p.above p.mark p.label .scenario) := ⟨rfl, nofun⟩
  exact hstart.fill hp

/-- **The steps that are written in a scenario** keep to what they can see. -/
theorem scopedAt_of_written {p : Passage} {s : Scenario} (hp : p.scenario? = some s) {place : Nat}
    (h : p.included[place]? = some false) : s.ScopedAt place :=
  p.marked hp |>.scopedAt place h

/-- **All steps of a scenario** keep to what they can see if the included ones do. -/
theorem scopedAt_of_included {p : Passage} {s : Scenario} (hp : p.scenario? = some s)
    (h : ∀ place, p.included[place]? = some true → s.ScopedAt place) (place : Nat) :
    s.ScopedAt place := by
  cases hmark : p.included[place]? with
  | some mark =>
    cases mark with
    | true => exact h place hmark
    | false => exact scopedAt_of_written hp hmark
  | none =>
    rw [List.getElem?_eq_none_iff, (p.marked hp).length_eq] at hmark
    intro step hstep
    rw [List.getElem?_eq_none hmark] at hstep
    exact absurd hstep nofun

/-! ## The steps of a script -/

/-- Keys do not matter for what steps can see. -/
theorem forall_nameAnonymous_iff {set : ScenarioSet} {P : Scenario → Prop}
    (hkey : ∀ s key, P { s with key } ↔ P s) :
    (∀ s ∈ set.nameAnonymous.scenarios, P s) ↔ ∀ s ∈ set.scenarios, P s := by
  have hnamed : ∀ s key, P (if s.anonymous then { s with key } else s) ↔ P s := by
    intro s key
    split
    · exact hkey s key
    · exact Iff.rfl
  constructor
  · intro hall s hs
    obtain ⟨i, hi, rfl⟩ := List.getElem_of_mem hs
    exact (hnamed _ _).1 (hall _ (List.mem_mapIdx.2 ⟨i, hi, rfl⟩))
  · intro hall s hs
    obtain ⟨i, hi, rfl⟩ := List.mem_mapIdx.1 hs
    exact (hnamed _ _).2 (hall _ (List.getElem_mem hi))

/-- **When all steps of a script keep to what they can see**: those that are written in scenarios
always do, so it depends on those that inclusions bring in. -/
theorem parse_scoped_iff (env : Environment) (path : Option String) (text : String)
    (set : ScenarioSet) (h : (parse env path text).outcome = .ok set) :
    (∀ s ∈ set.scenarios, ∀ place, s.ScopedAt place) ↔
      ∀ p, Wrote env [] (path.map env.workspace.directory.resolve) text p →
        ∀ s, p.scenario? = some s → ∀ place, p.included[place]? = some true → s.ScopedAt place := by
  obtain ⟨-, before, hread, rfl⟩ := outcome_parse_eq_ok.1 h
  rw [forall_nameAnonymous_iff fun _ _ => Iff.rfl]
  constructor
  · intro hall p hwrote s hp place _
    exact hall s (mem_scenarios_of_wrote hwrote hread hp) place
  · intro hincluded s hs
    obtain ⟨p, hwrote, hp⟩ := exists_wrote hread hs
    exact scopedAt_of_included hp (hincluded p hwrote s hp)

/-! ## A script that is accepted -/

/-- A group whose step binds a name and uses it, included in a scenario. -/
def selfBinding : String :=
  "group g\n    reload\n        expect x == 1\n        set x 1\nscenario s\n    include g\n"

theorem exists_unscoped_selfBinding :
    ∃ set, (parse {} none selfBinding).outcome = .ok set ∧ ∃ s ∈ set.scenarios, ¬ s.ScopedAt 0 := by
  have hrun : ((parse {} none selfBinding).outcome.toOption.map fun set =>
      set.scenarios.map fun s => decide (s.ScopedAt 0)) = some [false] := by decide +kernel
  obtain ⟨set, hset, hmarks⟩ := Option.map_eq_some_iff.1 hrun
  have hmem : false ∈ set.scenarios.map fun s => decide (s.ScopedAt 0) :=
    hmarks ▸ List.mem_singleton_self false
  obtain ⟨s, hs, hscoped⟩ := List.mem_map.1 hmem
  exact ⟨set, toOption_eq_some.1 hset, s, hs, of_decide_eq_false hscoped⟩

/-- **Not all steps of an accepted script** keep to what they can see. -/
theorem not_parse_scoped :
    ¬ ∀ (env : Environment) (path : Option String) (text : String) (set : ScenarioSet),
      (parse env path text).outcome = .ok set →
        ∀ s ∈ set.scenarios, ∀ place, s.ScopedAt place := by
  intro hall
  obtain ⟨set, hset, s, hs, hscoped⟩ := exists_unscoped_selfBinding
  exact hscoped (hall {} none selfBinding set hset s hs 0)

/-- Here it is an included step that does not. -/
theorem exists_included_selfBinding :
    ∃ p, Wrote {} [] none selfBinding p ∧ ∃ s, p.scenario? = some s ∧
      ∃ place, p.included[place]? = some true ∧ ¬ s.ScopedAt place := by
  obtain ⟨set, hset, s, hs, hscoped⟩ := exists_unscoped_selfBinding
  have hnot := mt (parse_scoped_iff {} none selfBinding set hset).2 fun hall =>
    hscoped (hall s hs 0)
  simp only [Classical.not_forall, exists_prop] at hnot
  exact hnot

end ScenarioScript
