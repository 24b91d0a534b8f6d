import ScenarioScript.Proofs.Blocks.Progress
import ScenarioScript.Proofs.Scope.Scoping
import ScenarioScript.Proofs.Sharing.Order

/-!
# Proofs/Scope/Closing — what a step can see when it is closed

The statements that have been taken in tell what a step that is open in a scenario can see: the
names bound above the scenario, the names that the scenario itself binds before the step, and those
that are bound by the steps before it, whether they are written there or included.

* `ScenarioTold` — the names of a scenario, in terms of the statements that stand in it;
* `Stands` — where a run of statements has come to; `stands_foldlM` proves it of every run, from one
  statement to the next;
* `Step.forwardRef?_eq_some_iff` — what the check of a step finds is the **first** own use;
* `Draft.foldlM_scenarioStep_closes` — **closing an open step** fails exactly if it uses one of its
  own names that it cannot see, whatever it is that closes the step.
-/

namespace ScenarioScript

open Outcome

/-! ## The first use of an own name -/

/-- **The first use that comes too early**: the step binds the name and cannot see it, and neither
an expression that is looked through before nor a name further to the front is such a use. -/
structure Step.FirstOwnUse (step : Step) (visible : List String) (name : String) (value : Tree) :
    Prop where
  bound : name ∈ step.setNames
  not_visible : name ∉ visible
  expressions : ∃ before after, step.expressions = before ++ value :: after ∧
    ∀ e ∈ before, ∀ n ∈ e.refs, n ∈ step.setNames → n ∈ visible
  refs : ∃ before after, value.refs = before ++ name :: after ∧
    ∀ n ∈ before, n ∈ step.setNames → n ∈ visible

theorem Step.mem_ownNames {step : Step} {visible : List String} {name : String} :
    name ∈ step.ownNames visible ↔ name ∈ step.setNames ∧ name ∉ visible := by
  rw [Step.ownNames, List.mem_filter, decide_eq_true_eq]

theorem Step.not_mem_ownNames {step : Step} {visible : List String} {name : String} :
    name ∉ step.ownNames visible ↔ (name ∈ step.setNames → name ∈ visible) := by
  rw [Step.mem_ownNames, not_and, Decidable.not_not]

/-- **What the check finds** is the first use that comes too early. -/
theorem Step.forwardRef?_eq_some_iff {step : Step} {visible : List String} {name : String}
    {value : Tree} :
    step.forwardRef? visible = some (name, value) ↔ step.FirstOwnUse visible name value := by
  have hnone (e : Tree) : (e.refs.find? (· ∈ step.ownNames visible)).map (fun n => (n, e)) = none ↔
      ∀ n ∈ e.refs, n ∈ step.setNames → n ∈ visible := by
    simp only [Option.map_eq_none_iff, List.find?_eq_none, decide_eq_true_eq, Step.not_mem_ownNames]
  have hsome (e : Tree) (n : String) : e.refs.find? (· ∈ step.ownNames visible) = some n ↔
      n ∈ step.ownNames visible ∧ ∃ before after, e.refs = before ++ n :: after ∧
        ∀ m ∈ before, m ∈ step.setNames → m ∈ visible := by
    simp only [List.find?_eq_some_iff_append, decide_eq_true_eq, Bool.not_eq_eq_eq_not,
      Bool.not_true, decide_eq_false_iff_not, Step.not_mem_ownNames]
  simp only [Step.forwardRef?, List.findSome?_eq_some_iff, hnone, Option.map_eq_some_iff, hsome,
    Prod.mk.injEq]
  constructor
  · rintro ⟨before, e, after, hexpressions, ⟨n, ⟨hown, hrefs⟩, rfl, rfl⟩, hbefore⟩
    obtain ⟨hbound, hvisible⟩ := Step.mem_ownNames.1 hown
    exact ⟨hbound, hvisible, ⟨before, after, hexpressions, hbefore⟩, hrefs⟩
  · rintro ⟨hbound, hvisible, ⟨before, after, hexpressions, hbefore⟩, hrefs⟩
    exact ⟨before, value, after, hexpressions,
      ⟨name, ⟨Step.mem_ownNames.2 ⟨hbound, hvisible⟩, hrefs⟩, rfl, rfl⟩, hbefore⟩

/-- **How closing a step comes out**: it fails exactly if the step uses a name that it binds itself
and cannot see, and the fault names the first such use and stands where its expression begins. -/
structure Step.ClosesWith {α : Type} (step : Step) (visible : List String)
    (closing : Except Diagnostic α) : Prop where
  fails_iff : (∃ diagnostic, closing = .error diagnostic) ↔
    ∃ value ∈ step.expressions, ∃ name ∈ value.refs, name ∈ step.setNames ∧ name ∉ visible
  diagnostic_eq : ∀ diagnostic, closing = .error diagnostic →
    ∃ name value, step.FirstOwnUse visible name value ∧
      diagnostic = .atPosition (.ownBinding name) value.span.line value.span.column

theorem Step.checkScope_eq_error {step : Step} {visible : List String} {diagnostic : Diagnostic} :
    step.checkScope visible = .error diagnostic ↔
      ∃ name value, step.forwardRef? visible = some (name, value) ∧
        diagnostic = .atPosition (.ownBinding name) value.span.line value.span.column := by
  rw [Step.checkScope]
  cases step.forwardRef? visible with
  | none => simp
  | some use => simp [Prod.ext_iff, eq_comm (a := diagnostic)]

theorem Step.closesWith_checkScope (step : Step) (visible : List String) :
    step.ClosesWith visible (step.checkScope visible) := by
  constructor
  · have huse : (∃ diagnostic, step.checkScope visible = .error diagnostic) ↔
        ¬ step.forwardRef? visible = none := by
      simp only [Step.checkScope_eq_error, ← Option.isSome_iff_ne_none, Option.isSome_iff_exists,
        Prod.exists]
      exact ⟨fun ⟨_, name, value, h, _⟩ => ⟨name, value, h⟩, fun ⟨name, value, h⟩ =>
        ⟨_, name, value, h, rfl⟩⟩
    rw [huse, Step.forwardRef?_eq_none_iff]
    simp only [Classical.not_forall, exists_prop]
  · intro diagnostic h
    obtain ⟨name, value, huse, rfl⟩ := Step.checkScope_eq_error.1 h
    exact ⟨name, value, Step.forwardRef?_eq_some_iff.1 huse, rfl⟩

/-- What is made of the outcome behind a check does not matter. -/
theorem Step.ClosesWith.map {α β : Type} {step : Step} {visible : List String}
    {closing : Except Diagnostic α} (h : step.ClosesWith visible closing) (f : α → β) :
    step.ClosesWith visible (closing.map f) :=
  ⟨by simp only [map_eq_error, h.fails_iff], fun d hd => h.diagnostic_eq d (map_eq_error.1 hd)⟩

/-! ## The names that statements bind -/

namespace Statement

/-- **The name that a statement binds**, in a scenario or in a step. -/
def bound? (s : Statement) : Option String :=
  match s.command with
  | .bind name _ => some name
  | .endpoint _ => some "endpoint"
  | _ => none

/-- The names that are bound by the steps a statement includes. -/
def includedNames (path : Option String) (groups : OrderedMap String Group) (s : Statement) :
    List String :=
  match s.command with
  | .inclusion group =>
    ((expandGroup groups group (.includedFrom path s.position) []).toOption.getD []).flatMap
      (·.setNames)
  | _ => []

end Statement

variable {site : Site} {set : ScenarioSet} {scenario : Scenario} {step : Step} {d e : Draft}
  {s opening beginning : Statement} {statements above inside clauses : List Statement}

/-- **What a scenario has come to** by the statements `inside`, which stand in it behind the one
that begins it; what stands above that one makes the set. -/
structure ScenarioTold (site : Site) (set : ScenarioSet) (above : List Statement)
    (opening : Statement) (inside : List Statement) (scenario : Scenario) : Prop where
  run_eq : (Draft.run site {} above).outcome = .ok set
  command_eq : ∃ label, opening.command = .scenario label
  depth_eq : opening.depth = 0
  depth_inside : ∀ s ∈ inside, s.depth = 1 ∨ s.depth = 2
  mem_keys_iff : ∀ name, name ∈ scenario.bindings.keys ↔
    name ∈ set.bindings.keys ∨ ∃ s ∈ inside, s.depth = 1 ∧ s.bound? = some name
  mem_setNames_iff : ∀ name, (∃ earlier ∈ scenario.steps, name ∈ earlier.setNames) ↔
    ∃ s ∈ inside, s.depth = 1 ∧ name ∈ s.includedNames site.path set.groups ∨
      s.depth = 2 ∧ s.bound? = some name

/-- **What a step has come to** by its clauses, behind the statement that begins it. -/
structure StepTold (beginning : Statement) (clauses : List Statement) (step : Step) : Prop where
  command_eq : ∃ kind target, beginning.command = .step kind target
  depth_eq : beginning.depth = 1
  depth_clauses : ∀ s ∈ clauses, s.depth = 2
  setNames_eq : step.setNames = clauses.filterMap Statement.bound?

theorem StepTold.bound?_eq (h : StepTold beginning clauses step) : beginning.bound? = none := by
  obtain ⟨kind, target, hcommand⟩ := h.command_eq
  rw [Statement.bound?, hcommand]

theorem StepTold.includedNames_eq (h : StepTold beginning clauses step) (path : Option String)
    (groups : OrderedMap String Group) : beginning.includedNames path groups = [] := by
  obtain ⟨kind, target, hcommand⟩ := h.command_eq
  rw [Statement.includedNames, hcommand]

/-- **A further statement of the scenario.** -/
theorem ScenarioTold.behind (h : ScenarioTold site set above opening inside scenario)
    (hdepth : s.depth = 1) {scenario' : Scenario}
    (hkeys : ∀ name, name ∈ scenario'.bindings.keys ↔
      name ∈ scenario.bindings.keys ∨ s.bound? = some name)
    (hsteps : ∀ name, (∃ earlier ∈ scenario'.steps, name ∈ earlier.setNames) ↔
      (∃ earlier ∈ scenario.steps, name ∈ earlier.setNames) ∨
        name ∈ s.includedNames site.path set.groups) :
    ScenarioTold site set above opening (inside ++ [s]) scenario' where
  run_eq := h.run_eq
  command_eq := h.command_eq
  depth_eq := h.depth_eq
  depth_inside := forall_mem_concat h.depth_inside (.inl hdepth)
  mem_keys_iff name := by
    simp only [hkeys, h.mem_keys_iff, List.mem_append, List.mem_singleton, or_and_right, exists_or,
      exists_eq_left, hdepth, true_and, or_assoc]
  mem_setNames_iff name := by
    have hne : ¬ ((1 : Int) = 2) := by decide
    simp only [hsteps, h.mem_setNames_iff, List.mem_append, List.mem_singleton, or_and_right,
      exists_or, exists_eq_left, hdepth, hne, true_and, false_and, or_false]

/-- A further statement that has nothing to do with names. -/
theorem ScenarioTold.behind_plain (h : ScenarioTold site set above opening inside scenario)
    (hdepth : s.depth = 1) {scenario' : Scenario} (hbound : s.bound? = none)
    (hincluded : s.includedNames site.path set.groups = [])
    (hbindings : scenario'.bindings = scenario.bindings)
    (hsteps : scenario'.steps = scenario.steps) :
    ScenarioTold site set above opening (inside ++ [s]) scenario' :=
  h.behind hdepth (fun name => by simp [hbindings, hbound]) fun name => by simp [hsteps, hincluded]

/-- **A step that is closed**, with its clauses, becomes part of what stands in the scenario. -/
theorem ScenarioTold.close (h : ScenarioTold site set above opening inside scenario)
    (hstep : StepTold beginning clauses step) :
    ScenarioTold site set above opening (inside ++ beginning :: clauses)
      { scenario with steps := scenario.steps ++ [step] } where
  run_eq := h.run_eq
  command_eq := h.command_eq
  depth_eq := h.depth_eq
  depth_inside := List.forall_mem_append.2 ⟨h.depth_inside,
    List.forall_mem_cons.2 ⟨.inl hstep.depth_eq, fun s hs => .inr (hstep.depth_clauses s hs)⟩⟩
  mem_keys_iff name := by
    have hclauses : ¬ ∃ s ∈ beginning :: clauses, s.depth = 1 ∧ s.bound? = some name := by
      rintro ⟨s, hs, hdepth, hbound⟩
      obtain rfl | hs := List.mem_cons.1 hs
      · rw [hstep.bound?_eq] at hbound
        exact absurd hbound nofun
      · rw [hstep.depth_clauses s hs] at hdepth
        exact absurd hdepth (by decide)
    simp only [h.mem_keys_iff, List.mem_append, or_and_right, exists_or, hclauses, or_false]
  mem_setNames_iff name := by
    have hclauses : name ∈ step.setNames ↔ ∃ s ∈ beginning :: clauses,
        s.depth = 1 ∧ name ∈ s.includedNames site.path set.groups ∨
          s.depth = 2 ∧ s.bound? = some name := by
      rw [hstep.setNames_eq, List.mem_filterMap]
      constructor
      · rintro ⟨s, hs, hbound⟩
        exact ⟨s, List.mem_cons_of_mem _ hs, .inr ⟨hstep.depth_clauses s hs, hbound⟩⟩
      · rintro ⟨s, hs, hname⟩
        obtain rfl | hs := List.mem_cons.1 hs
        · rw [hstep.includedNames_eq, hstep.bound?_eq] at hname
          simp at hname
        · rw [hstep.depth_clauses s hs] at hname
          obtain ⟨hdepth, -⟩ | ⟨-, hbound⟩ := hname
          · exact absurd hdepth (by decide)
          · exact ⟨s, hs, hbound⟩
    simp only [h.mem_setNames_iff, List.mem_append, List.mem_singleton, or_and_right, exists_or,
      exists_eq_left, hclauses]

/-! ## Where a run of statements has come to -/

/-- **Where a run has come to**: what a scenario that is open, or a step that is open in one, has
come to by the statements that stand in it. -/
def Stands (site : Site) (statements : List Statement) (d : Draft) : Prop :=
  match d.block with
  | .scenario scenario => ∃ above opening inside, statements = above ++ opening :: inside ∧
    ScenarioTold site d.finished above opening inside scenario
  | .scenarioStep scenario step => ∃ above opening inside beginning clauses,
    statements = above ++ opening :: (inside ++ beginning :: clauses) ∧
      ScenarioTold site d.finished above opening inside scenario ∧ StepTold beginning clauses step
  | _ => True

/-- **Closing blocks** leaves a scenario open or none. -/
theorem Stands.closeTo (h : Stands site statements d) {depth : Int}
    (hclose : d.closeTo depth = .ok e) : Stands site statements e := by
  obtain ⟨set, block⟩ := d
  unfold Draft.closeTo at hclose
  split at hclose
  · obtain ⟨set', -, rfl⟩ := map_eq_ok.1 hclose
    trivial
  split at hclose
  · cases block with
    | scenarioStep scenario step =>
      obtain ⟨above, opening, inside, beginning, clauses, rfl, hscenario, hstep⟩ := h
      obtain ⟨-, -, rfl⟩ := map_eq_ok.1 hclose
      exact ⟨above, opening, inside ++ beginning :: clauses, rfl, hscenario.close hstep⟩
    | groupStep group step =>
      obtain rfl := Except.ok.inj hclose
      trivial
    | _ =>
      obtain rfl := Except.ok.inj hclose
      exact h
  · obtain rfl := Except.ok.inj hclose
    exact h

/-- Where no block is left open, all is finished. -/
theorem Draft.closeAll_of_closeTo {depth : Int} (hclose : d.closeTo depth = .ok ⟨set, .root⟩) :
    d.closeAll = .ok set := by
  unfold Draft.closeTo at hclose
  split at hclose
  · obtain ⟨set', hset, hdraft⟩ := map_eq_ok.1 hclose
    obtain ⟨rfl, -⟩ := Draft.mk.injEq .. ▸ hdraft
    exact hset
  split at hclose
  · exact map_eq_ok.2 ⟨_, hclose, rfl⟩
  · obtain rfl := Except.ok.inj hclose
    rfl

/-- **At top level** a statement begins a scenario, or none is open behind it. -/
theorem stands_addToRoot (hrun : (Draft.run site {} statements).outcome = .ok set)
    (hdepth : s.depth = 0) (h : (Draft.addToRoot site set s).outcome = .ok e) :
    Stands site (statements ++ [s]) e := by
  unfold Draft.addToRoot at h
  split at h
  · exact Except.ok.inj h ▸ trivial
  · exact Except.ok.inj h ▸ trivial
  · rw [Traced.outcome_bind_pure, map_eq_ok] at h
    obtain ⟨config, -, rfl⟩ := h
    trivial
  · rw [Traced.outcome_bind_pure, map_eq_ok] at h
    obtain ⟨loaded, -, rfl⟩ := h
    trivial
  · next label hcommand =>
    obtain rfl := Except.ok.inj h
    refine ⟨statements, s, [], rfl, hrun, ⟨label, hcommand⟩, hdepth, List.forall_mem_nil _, ?_, ?_⟩
    · simp [Draft.newScenario]
    · simp [Draft.newScenario]
  · exact Except.ok.inj h ▸ trivial
  · exact absurd h error_ne_ok

/-- A step begins without names of its own. -/
theorem Draft.setNames_newStep {path : Option String} {kind : StepKind} {target : Option Tree}
    (h : Draft.newStep path s kind target = .ok step) : step.setNames = [] := by
  unfold Draft.newStep at h
  split at h
  · exact absurd h error_ne_ok
  · exact Except.ok.inj h ▸ rfl

/-- **In a scenario** a statement begins a step, or tells more of the scenario. -/
theorem stands_addToScenario (h : ScenarioTold site set above opening inside scenario)
    (hdepth : s.depth = 1) {block : Block}
    (hadd : Draft.addToScenario site.path set.groups scenario s = .ok block) :
    Stands site (above ++ opening :: (inside ++ [s])) ⟨set, block⟩ := by
  unfold Draft.addToScenario at hadd
  cases hcommand : s.command with
  | step kind target =>
    simp only [hcommand] at hadd
    obtain ⟨step, hstep, rfl⟩ := map_eq_ok.1 hadd
    exact ⟨above, opening, inside, s, [], rfl, h, ⟨kind, target, hcommand⟩, hdepth,
      List.forall_mem_nil _, Draft.setNames_newStep hstep⟩
  | bind | endpoint =>
    simp only [hcommand, Except.ok.injEq] at hadd
    subst hadd
    refine ⟨above, opening, inside ++ [s], rfl, h.behind hdepth (fun n => ?_) fun n => ?_⟩
    · simp [Scenario.bind, Statement.bound?, hcommand, or_comm, eq_comm]
    · simp [Scenario.bind, Statement.includedNames, hcommand]
  | name value =>
    simp only [hcommand, Except.ok.injEq] at hadd
    subst hadd
    exact ⟨above, opening, inside ++ [s], rfl, h.behind_plain hdepth
      (by simp [Statement.bound?, hcommand]) (by simp [Statement.includedNames, hcommand]) rfl rfl⟩
  | setting setting =>
    simp only [hcommand] at hadd
    obtain ⟨config, -, rfl⟩ := map_eq_ok.1 hadd
    exact ⟨above, opening, inside ++ [s], rfl, h.behind_plain hdepth
      (by simp [Statement.bound?, hcommand]) (by simp [Statement.includedNames, hcommand]) rfl rfl⟩
  | inclusion group =>
    simp only [hcommand] at hadd
    obtain ⟨steps, hsteps, rfl⟩ := map_eq_ok.1 hadd
    rw [mapError_eq_ok, ← toOption_eq_some] at hsteps
    refine ⟨above, opening, inside ++ [s], rfl, h.behind hdepth (fun n => ?_) fun n => ?_⟩
    · simp [Statement.bound?, hcommand]
    · simp [Statement.includedNames, hcommand, hsteps, or_and_right, exists_or]
  | _ =>
    simp only [hcommand] at hadd
    exact absurd hadd error_ne_ok

/-- In a group no scenario is open. -/
theorem stands_addToGroup {group : Group} {block : Block}
    (h : Draft.addToGroup site.path group s = .ok block) : Stands site statements ⟨set, block⟩ := by
  unfold Draft.addToGroup at h
  split at h
  · obtain ⟨step, -, rfl⟩ := map_eq_ok.1 h
    trivial
  · exact Except.ok.inj h ▸ trivial
  · exact absurd h error_ne_ok

/-- **In a step** a statement binds the name that it binds anywhere. -/
theorem Draft.setNames_addToStep {step' : Step} (h : Draft.addToStep step s = .ok step') :
    step'.setNames = step.setNames ++ s.bound?.toList := by
  unfold Draft.addToStep at h
  rw [Statement.bound?]
  generalize s.command = command at h ⊢
  cases command with
  | setting | json | param =>
    obtain ⟨_, -, rfl⟩ := map_eq_ok.1 h
    exact (List.append_nil _).symm
  | name | method | body | expect =>
    obtain rfl := Except.ok.inj h
    exact (List.append_nil _).symm
  | bind name value =>
    obtain rfl := Except.ok.inj h
    exact List.map_append
  | _ => exact absurd h error_ne_ok

/-- **One statement more.** -/
theorem Stands.add (hrun : (statements.foldlM (Draft.add site) {}).outcome = .ok d)
    (h : Stands site statements d) (hadd : (d.add site s).outcome = .ok e) :
    Stands site (statements ++ [s]) e := by
  obtain ⟨⟨set, block⟩, hclose, hdepth, htake⟩ := Draft.add_eq_ok.1 hadd
  have hstands := h.closeTo hclose
  cases block with
  | root =>
    have hset : (Draft.run site {} statements).outcome = .ok set :=
      Traced.outcome_bind_eq_ok.2 ⟨d, hrun, mapError_eq_ok.2 (Draft.closeAll_of_closeTo hclose)⟩
    exact stands_addToRoot hset hdepth htake
  | scenario scenario =>
    obtain ⟨above, opening, inside, rfl, hscenario⟩ := hstands
    rw [Draft.takeIn, Traced.outcome_bind_pure, Traced.outcome_liftM, map_eq_ok] at htake
    obtain ⟨block, hblock, rfl⟩ := htake
    rw [List.append_assoc]
    exact stands_addToScenario hscenario hdepth hblock
  | scenarioStep scenario step =>
    obtain ⟨above, opening, inside, beginning, clauses, rfl, hscenario, hstep⟩ := hstands
    rw [Draft.takeIn, Traced.outcome_bind_pure, Traced.outcome_liftM, map_eq_ok] at htake
    obtain ⟨step', hstep', rfl⟩ := htake
    refine ⟨above, opening, inside, beginning, clauses ++ [s], by simp, hscenario, hstep.command_eq,
      hstep.depth_eq, forall_mem_concat hstep.depth_clauses hdepth, ?_⟩
    rw [Draft.setNames_addToStep hstep', hstep.setNames_eq, List.filterMap_append]
    cases hbound : s.bound? <;> simp [hbound]
  | group group =>
    rw [Draft.takeIn, Traced.outcome_bind_pure, Traced.outcome_liftM, map_eq_ok] at htake
    obtain ⟨block, hblock, rfl⟩ := htake
    exact stands_addToGroup hblock
  | groupStep group step =>
    rw [Draft.takeIn, Traced.outcome_bind_pure, Traced.outcome_liftM, map_eq_ok] at htake
    obtain ⟨step', -, rfl⟩ := htake
    trivial

/-- **Every run** of statements has come to where they tell. -/
theorem stands_foldlM (h : (statements.foldlM (Draft.add site) {}).outcome = .ok d) :
    Stands site statements d := by
  induction statements using List.reverseRecOn generalizing d with
  | nil => exact Except.ok.inj h ▸ trivial
  | append_singleton statements s ih =>
    rw [List.foldlM_append, Traced.outcome_bind_eq_ok] at h
    obtain ⟨c, hc, hadd⟩ := h
    simp only [List.foldlM_cons, List.foldlM_nil, bind_pure] at hadd
    exact (ih hc).add hc hadd

/-! ## The open step -/

theorem sameNames_sortedNames (names : List String) : SameNames (Draft.sortedNames names) names :=
  fun name => by simp only [Draft.sortedNames, List.mem_eraseDups, List.mem_mergeSort]

/-- **What a scenario lets be seen** at the step that comes next. -/
theorem ScenarioTold.mem_visible_iff (h : ScenarioTold site set above opening inside scenario)
    (name : String) :
    name ∈ scenario.visible ↔ name ∈ set.bindings.keys ∨
      (∃ s ∈ inside, s.depth = 1 ∧ s.bound? = some name) ∨
        ∃ earlier ∈ scenario.steps, name ∈ earlier.setNames := by
  rw [Scenario.visible, List.mem_append, h.mem_keys_iff, List.mem_flatMap, or_assoc]

/-- **A step is closed alike** by all that closes it: by a statement that does not stand in it, and
by the end of the text. -/
theorem Draft.closeTo_eq_error_iff {depth : Int} (hdepth : depth ≤ 1) {diagnostic : Diagnostic} :
    d.closeTo depth = .error diagnostic ↔ d.closeAll = .error diagnostic := by
  rw [Draft.closeTo]
  split
  · exact map_eq_error
  · exact map_eq_error.symm

/-- **What closing an open step comes to** is told by the names that can be seen. -/
theorem Draft.closesWith_closeAll (hopen : d.block = .scenarioStep scenario step)
    {visible : List String} (hvisible : SameNames visible scenario.visible) :
    step.ClosesWith visible d.closeAll := by
  have hclose : d.closeAll = ((step.checkScope visible).map fun _ =>
      { d with block := .scenario { scenario with steps := scenario.steps ++ [step] } }).map
        Draft.result := by
    rw [hvisible.checkScope_eq, Draft.closeAll, Draft.closeStep, hopen]
  exact hclose ▸ ((step.closesWith_checkScope visible).map _).map _

/-- A ledger has the block of an open step with the names that can be seen there. -/
theorem Ledger.Shows.exists_frames {l : Ledger} (h : l.Shows d)
    (hopen : d.block = .scenarioStep scenario step) :
    ∃ outer inner, l.frames = [outer, inner] ∧ SameNames inner.visible scenario.visible := by
  cases h with
  | scenarioStep h =>
    obtain ⟨rfl, -⟩ := Block.scenarioStep.inj hopen
    exact ⟨_, _, rfl, h.seen_eq⟩
  | _ => exact absurd hopen nofun

/-- **A step is closed** with what the statements have told: those above its scenario, the one that
begins the scenario, those that stand in it before the step, the one that begins the step, and its
clauses.

What can be seen in the step are the names that were bound when the scenario began, those that the
scenario binds before the step, and those that the earlier steps bind, which are written in the
scenario or included; a ledger, which adds a name to the open blocks where it is bound, comes to the
same names.  Closing the step fails exactly if it uses a name that it binds itself and cannot see;
the fault is that of the first such use, and it makes no difference whether a statement that does
not stand in the step closes it, further out or on its level, or the end of the text does. -/
theorem Draft.foldlM_scenarioStep_closes (site : Site) (statements : List Statement) (d : Draft)
    (scenario : Scenario) (step : Step)
    (h : (statements.foldlM (Draft.add site) {}).outcome = .ok d)
    (hopen : d.block = .scenarioStep scenario step) :
    ∃ above opening inside beginning clauses visible,
      statements = above ++ opening :: (inside ++ beginning :: clauses) ∧
      ScenarioTold site d.finished above opening inside scenario ∧ StepTold beginning clauses step ∧
      d.stack = [⟨0, .scenario, visible, true⟩, ⟨1, .step, visible, true⟩] ∧
      (∀ name, name ∈ visible ↔ name ∈ d.finished.bindings.keys ∨
        (∃ s ∈ inside, s.depth = 1 ∧ s.bound? = some name) ∨
          ∃ earlier ∈ scenario.steps, name ∈ earlier.setNames) ∧
      (∃ l outer inner, (statements.foldlM (Ledger.add site) {}).outcome = .ok l ∧
        l.frames = [outer, inner] ∧ SameNames inner.visible visible) ∧
      step.ClosesWith visible d.closeAll ∧
      (∀ depth ≤ 1, ∀ diagnostic,
        d.closeTo depth = .error diagnostic ↔ d.closeAll = .error diagnostic) ∧
      ∀ s : Statement, s.depth ≤ 1 → ∀ diagnostic, d.closeAll = .error diagnostic →
        (d.add site s).outcome = .error (.fault diagnostic) := by
  have hstands := stands_foldlM h
  rw [Stands, hopen] at hstands
  obtain ⟨above, opening, inside, beginning, clauses, hsplit, hscenario, hstep⟩ := hstands
  have hnames := sameNames_sortedNames scenario.visible
  obtain ⟨l, hl, hshows⟩ := (Ledger.shows_empty.matches_foldlM site statements).exists_ok h
  obtain ⟨outer, inner, hframes, hinner⟩ := hshows.exists_frames hopen
  refine ⟨above, opening, inside, beginning, clauses, Draft.sortedNames scenario.visible, hsplit,
    hscenario, hstep, by rw [Draft.stack, hopen], fun name => ?_,
    ⟨l, outer, inner, hl, hframes, ?_⟩, Draft.closesWith_closeAll hopen hnames,
    fun depth hdepth diagnostic => Draft.closeTo_eq_error_iff hdepth,
    fun s hdepth diagnostic hclose => ?_⟩
  · rw [hnames name, hscenario.mem_visible_iff]
  · exact fun name => (hinner name).trans (hnames name).symm
  · refine Draft.add_eq_error.2 (.inl (mapError_eq_error.2 ⟨diagnostic, ?_, rfl⟩))
    exact (Draft.closeTo_eq_error_iff hdepth).2 hclose

/-- A tree that is a variable. -/
def mention (name : String) (line column : Int) : Tree :=
  .node .var (.inLine name line column 0 name.length)
    [.leaf ⟨.ident, name, line, column, 0, name.length⟩]

/-- A name bound above a scenario, one bound by its endpoint, one by its first step; the second step
uses that one and a name of its own. -/
def relaying : List Statement :=
  [⟨.bind "a" (mention "b" 1 7), "a b", 0, 1, 1⟩, ⟨.scenario "s", "s", 0, 2, 1⟩,
    ⟨.endpoint (mention "a" 3 14), "a", 1, 3, 5⟩, ⟨.step .reload none, "", 1, 4, 5⟩,
    ⟨.bind "x" (mention "a" 5 15), "x a", 2, 5, 9⟩, ⟨.step .reload none, "", 1, 6, 5⟩,
    ⟨.expect (mention "x" 7 16), "x", 2, 7, 9⟩, ⟨.bind "y" (mention "y" 8 15), "y y", 2, 8, 9⟩]

/-- The second step is refused where its own name is used. -/
theorem exists_closes_relaying :
    ∃ d scenario step visible, (relaying.foldlM (Draft.add Draft.secluded) {}).outcome = .ok d ∧
      d.block = .scenarioStep scenario step ∧
      d.stack = [⟨0, .scenario, visible, true⟩, ⟨1, .step, visible, true⟩] ∧
      step.ClosesWith visible d.closeAll ∧
      d.closeAll = .error (.atPosition (.ownBinding "y") 8 15) := by
  have hrun : (relaying.foldlM (Draft.add Draft.secluded) {}).outcome.toOption.map
      (fun d => (d.stack.map (·.inScenario), d.closeAll)) =
        some ([true, true], .error (.atPosition (.ownBinding "y") 8 15)) := by decide +kernel
  obtain ⟨d, hd, hlook⟩ := Option.map_eq_some_iff.1 hrun
  rw [toOption_eq_some] at hd
  obtain ⟨hstack, hclose⟩ := Prod.mk.injEq .. ▸ hlook
  obtain ⟨scenario, step, hopen⟩ : ∃ scenario step, d.block = .scenarioStep scenario step := by
    rw [Draft.stack] at hstack
    split at hstack
    case h_3 scenario step hblock => exact ⟨scenario, step, hblock⟩
    all_goals simp at hstack
  obtain ⟨-, -, -, -, -, visible, -, -, -, hvisible, -, -, hcloses, -⟩ :=
    Draft.foldlM_scenarioStep_closes Draft.secluded relaying d scenario step hd hopen
  exact ⟨d, scenario, step, visible, hd, hopen, hvisible, hcloses, hclose⟩

end ScenarioScript
