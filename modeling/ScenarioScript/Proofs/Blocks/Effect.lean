import ScenarioScript.Proofs.Blocks.Outline
import ScenarioScript.Proofs.Blocks.Run

/-!
# Proofs/Blocks/Effect — what a single statement does to the open block

A statement that may take effect in the open block is one part of an outline, or the head of one, and
its effect is what the part means.  So it is for each sort of block:

* `exists_clause`, `toOption_addToStep` — in a step it is a clause;
* `exists_member`, `toOption_addToBody`, `addToBody_opening` — in a scenario or group it is a member,
  or opens a step;
* `exists_entry`, `toOption_addToRoot`, `outcome_addToRoot_opening` — at top level it is an entry, or
  opens a scenario or group.
-/

namespace ScenarioScript

namespace Outline

open Outcome Draft

variable {site : Site} {set result : ScenarioSet} {holder : Holder}

/-! ## Parts of an outline as open blocks -/

/-- A scenario or group that is open. -/
def Holder.block : {holder : Holder} → holder.Body → Block
  | .scenario, s => .scenario s
  | .group, g => .group g

/-- A step that is open in a scenario or group. -/
def Holder.stepBlock : {holder : Holder} → holder.Body → Step → Block
  | .scenario, s, step => .scenarioStep s step
  | .group, g, step => .groupStep g step

@[simp] theorem Holder.depth_block (body : holder.Body) : (Holder.block body).depth = 1 := by
  cases holder <;> rfl

@[simp] theorem Holder.depth_stepBlock (body : holder.Body) (step : Step) :
    (Holder.stepBlock body step).depth = 2 := by
  cases holder <;> rfl

/-- **Closing a step** adds it to its block. -/
theorem closeStep_stepBlock {body : holder.Body} {step : Step} {d : Draft} :
    closeStep ⟨set, Holder.stepBlock body step⟩ = .ok d ↔
      ∃ body', Holder.addStep body step = some body' ∧ d = ⟨set, Holder.block body'⟩ := by
  cases holder with
  | group => simp [closeStep, Holder.stepBlock, Holder.addStep, Holder.block, eq_comm]
  | scenario =>
    simp only [closeStep, Holder.stepBlock, Holder.addStep, Holder.block, Step.checkScope, map_eq_ok]
    cases hown : step.forwardRef? body.visible with
    | none => simp [eq_comm]
    | some own => simp

/-- **Closing a scenario or group** adds it to the set. -/
theorem closeAll_block (body : holder.Body) :
    closeAll ⟨set, Holder.block body⟩ = .ok (Holder.finish set body) := by
  cases holder <;> rfl

/-! ## One statement in the open block -/

/-- **A clause** means what its statement does to the open step. -/
theorem toOption_addToStep (step : Step) (c : Clause) :
    (addToStep step c.statement).toOption = c.apply step := by
  cases c with
  | setting mark choice => exact toOption_map _ _
  | json mark value => exact toOption_map _ _
  | param mark bound value =>
    show ((newParam bound value).map _).toOption = _
    rw [toOption_map, newParam, Clause.apply]
    split <;> rfl
  | _ => rfl

theorem exists_clause {step step' : Step} {s : Statement} (hdepth : s.depth = 2)
    (h : addToStep step s = .ok step') : ∃ c : Clause, c.statement = s := by
  obtain ⟨command, argument, depth, line, column⟩ := s
  obtain rfl : depth = 2 := hdepth
  cases command with
  | setting choice => exact ⟨.setting ⟨argument, line, column⟩ choice, rfl⟩
  | name value => exact ⟨.name ⟨argument, line, column⟩ value, rfl⟩
  | method value => exact ⟨.method ⟨argument, line, column⟩ value, rfl⟩
  | body value => exact ⟨.body ⟨argument, line, column⟩ value, rfl⟩
  | json value => exact ⟨.json ⟨argument, line, column⟩ value, rfl⟩
  | param bound value => exact ⟨.param ⟨argument, line, column⟩ bound value, rfl⟩
  | expect condition => exact ⟨.expect ⟨argument, line, column⟩ condition, rfl⟩
  | bind bound value => exact ⟨.bind ⟨argument, line, column⟩ bound value, rfl⟩
  | _ => simp [addToStep, notAllowed] at h

/-- Let a statement take effect in an open scenario or group. -/
def addToBody (path : Option String) (groups : OrderedMap String Group) :
    {holder : Holder} → holder.Body → Statement → Except Failure Block
  | .scenario, s => addToScenario path groups s
  | .group, g => addToGroup path g

/-- A member that is a statement by itself. -/
def Member.single? {holder : Holder} : Member holder → Option Statement
  | step _ => none
  | m => m.statements.head?

/-- **A member that is no step** means what its statement does to the open block. -/
theorem toOption_addToBody {path : Option String} {groups : OrderedMap String Group}
    (body : holder.Body) {m : Member holder} {s : Statement} (h : m.single? = some s) :
    (addToBody path groups body s).toOption = (m.apply path groups body).map Holder.block := by
  cases m with
  | step block => simp [Member.single?] at h
  | inclusion mark group =>
    obtain rfl := Option.some.inj h
    cases holder with
    | group => rfl
    | scenario =>
      show (((expandGroup _ _ _ _).mapError _).map _).toOption = ((expandGroup _ _ _ _).toOption.map _).map _
      rw [toOption_map, toOption_mapError, Option.map_map]
      rfl
  | setting mark choice =>
    obtain rfl := Option.some.inj h
    show ((Config.apply _ _).map _).toOption = ((Config.apply _ _).toOption.map _).map _
    rw [toOption_map, Option.map_map]
    rfl
  | _ =>
    obtain rfl := Option.some.inj h
    rfl

theorem addToBody_eq_ok {path : Option String} {groups : OrderedMap String Group}
    {body : holder.Body} {m : Member holder} {s : Statement} {block : Block}
    (h : m.single? = some s) :
    addToBody path groups body s = .ok block ↔
      ∃ body', m.apply path groups body = some body' ∧ Holder.block body' = block := by
  rw [← toOption_eq_some, toOption_addToBody body h, Option.map_eq_some_iff]

theorem Member.of_single? {m : Member holder} {s : Statement} (h : m.single? = some s) :
    m.statements = [s] ∧ s.depth = 1 := by
  cases m with
  | step block => simp [Member.single?] at h
  | _ =>
    obtain rfl := Option.some.inj h
    exact ⟨rfl, rfl⟩

theorem newStep_eq_ok {path : Option String} {b : StepBlock} {step : Step}
    (hcomplete : b.opening.Complete) :
    newStep path b.opening b.kind b.target = .ok step ↔ b.head path = step := by
  have htarget : ¬ (b.kind.hasTarget && b.target.isNone) = true := by
    rw [Bool.and_eq_true, Option.isNone_iff_eq_none]
    rintro ⟨hkind, hnone⟩
    have hsome := hcomplete b.kind b.target rfl hkind
    simp [hnone] at hsome
  rw [newStep, if_neg htarget, Except.ok.injEq]
  rfl

/-- **The head of a step** opens the step. -/
theorem addToBody_opening {path : Option String} {groups : OrderedMap String Group}
    {body : holder.Body} {b : StepBlock} {block : Block} (hcomplete : b.opening.Complete) :
    addToBody path groups body b.opening = .ok block ↔
      Holder.stepBlock body (b.head path) = block := by
  have hopen : addToBody path groups body b.opening =
      (newStep path b.opening b.kind b.target).map (Holder.stepBlock body) := by
    cases holder <;> rfl
  rw [hopen, map_eq_ok]
  simp only [newStep_eq_ok hcomplete, exists_eq_left']

/-- **In a scenario or group** a statement is a member by itself, or the head of a step. -/
theorem exists_member {path : Option String} {groups : OrderedMap String Group} {body : holder.Body}
    {s : Statement} {block : Block} (hdepth : s.depth = 1)
    (h : addToBody path groups body s = .ok block) :
    (∃ m : Member holder, m.single? = some s) ∨ ∃ b : StepBlock, b.opening = s := by
  obtain ⟨command, argument, depth, line, column⟩ := s
  obtain rfl : depth = 1 := hdepth
  cases command with
  | inclusion group => exact .inl ⟨.inclusion ⟨argument, line, column⟩ group, rfl⟩
  | step kind target => exact .inr ⟨⟨⟨argument, line, column⟩, kind, target, []⟩, rfl⟩
  | bind bound value =>
    cases holder with
    | scenario => exact .inl ⟨.bind ⟨argument, line, column⟩ bound value, rfl⟩
    | group => simp [addToBody, addToGroup, notAllowed] at h
  | endpoint value =>
    cases holder with
    | scenario => exact .inl ⟨.endpoint ⟨argument, line, column⟩ value, rfl⟩
    | group => simp [addToBody, addToGroup, notAllowed] at h
  | name value =>
    cases holder with
    | scenario => exact .inl ⟨.name ⟨argument, line, column⟩ value, rfl⟩
    | group => simp [addToBody, addToGroup, notAllowed] at h
  | setting choice =>
    cases holder with
    | scenario => exact .inl ⟨.setting ⟨argument, line, column⟩ choice, rfl⟩
    | group => simp [addToBody, addToGroup, notAllowed] at h
  | _ => cases holder <;> simp [addToBody, addToScenario, addToGroup, notAllowed] at h

/-- An entry that is a statement by itself. -/
def Entry.single? : Entry → Option Statement
  | block .. => none
  | e => e.statements.head?

theorem Entry.of_single? {e : Entry} {s : Statement} (h : e.single? = some s) :
    e.statements = [s] ∧ s.depth = 0 := by
  cases e with
  | block holder mark label members => simp [Entry.single?] at h
  | _ =>
    obtain rfl := Option.some.inj h
    exact ⟨rfl, rfl⟩

/-- **An entry that is no block** means what its statement does at top level. -/
theorem toOption_addToRoot (set : ScenarioSet) {e : Entry} {s : Statement}
    (h : e.single? = some s) :
    (addToRoot site set s).outcome.toOption = (e.apply site set).map fun set => ⟨set, .root⟩ := by
  cases e with
  | block holder mark label members => simp [Entry.single?] at h
  | setting mark choice =>
    obtain rfl := Option.some.inj h
    show ((liftM (set.config.apply choice) : Traced Config) >>= fun config =>
      pure ({ finished := { set with config } } : Draft)).outcome.toOption = _
    rw [Traced.outcome_bind_pure, toOption_map, Traced.outcome_liftM, Entry.apply, Option.map_map]
    rfl
  | load mark target =>
    obtain rfl := Option.some.inj h
    show (site.load target _ >>= fun loaded =>
      pure ({ finished := set.merge loaded } : Draft)).outcome.toOption = _
    rw [Traced.outcome_bind_pure, toOption_map, Entry.apply, Option.map_map]
    rfl
  | _ =>
    obtain rfl := Option.some.inj h
    rfl

theorem addToRoot_eq_ok {e : Entry} {s : Statement} {d : Draft} (h : e.single? = some s) :
    (addToRoot site set s).outcome = .ok d ↔
      ∃ set', e.apply site set = some set' ∧ (⟨set', .root⟩ : Draft) = d := by
  rw [← toOption_eq_some, toOption_addToRoot set h, Option.map_eq_some_iff]

/-- **The head of a scenario or group** opens it. -/
theorem outcome_addToRoot_opening (site : Site) (set : ScenarioSet) (holder : Holder) (mark : Mark)
    (label : String) :
    (addToRoot site set (holder.opening mark label)).outcome =
      .ok ⟨set, Holder.block (holder.start site.path set mark label)⟩ := by
  cases holder <;> rfl

/-- **At top level** a statement is an entry by itself, or the head of a scenario or group. -/
theorem exists_entry {s : Statement} {d : Draft} (hdepth : s.depth = 0)
    (h : (addToRoot site set s).outcome = .ok d) :
    (∃ e : Entry, e.single? = some s) ∨
      ∃ (holder : Holder) (mark : Mark) (label : String), holder.opening mark label = s := by
  obtain ⟨command, argument, depth, line, column⟩ := s
  obtain rfl : depth = 0 := hdepth
  cases command with
  | bind bound value => exact .inl ⟨.bind ⟨argument, line, column⟩ bound value, rfl⟩
  | endpoint value => exact .inl ⟨.endpoint ⟨argument, line, column⟩ value, rfl⟩
  | setting choice => exact .inl ⟨.setting ⟨argument, line, column⟩ choice, rfl⟩
  | load target => exact .inl ⟨.load ⟨argument, line, column⟩ target, rfl⟩
  | scenario label => exact .inr ⟨.scenario, ⟨argument, line, column⟩, label, rfl⟩
  | group name => exact .inr ⟨.group, ⟨argument, line, column⟩, name, rfl⟩
  | _ => simp [addToRoot, notAllowed] at h

/-! ## Drafts taking in the parts -/

theorem takeIn_block (body : holder.Body) (s : Statement) :
    (takeIn site ⟨set, Holder.block body⟩ s).outcome =
      (addToBody site.path set.groups body s).map fun block => ⟨set, block⟩ := by
  cases holder <;> exact Traced.outcome_bind_pure _ _

theorem takeIn_stepBlock (body : holder.Body) (step : Step) (s : Statement) :
    (takeIn site ⟨set, Holder.stepBlock body step⟩ s).outcome =
      (addToStep step s).map fun step => ⟨set, Holder.stepBlock body step⟩ := by
  cases holder <;> exact Traced.outcome_bind_pure _ _

/-- A statement that stands directly in the open block closes nothing. -/
theorem add_of_depth {d e : Draft} {s : Statement} (hdepth : s.depth = d.block.depth) :
    (d.add site s).outcome = .ok e ↔ (d.takeIn site s).outcome = .ok e := by
  have hclose : d.closeTo s.depth = .ok d := by
    obtain ⟨finished, block⟩ := d
    rw [hdepth]
    cases block <;> rfl
  rw [add_eq_ok]
  constructor
  · rintro ⟨c, hc, -, htake⟩
    obtain rfl : d = c := Except.ok.inj (hclose.symm.trans hc)
    exact htake
  · exact fun htake => ⟨d, hclose, hdepth, htake⟩

end Outline

end ScenarioScript
