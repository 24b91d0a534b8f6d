import ScenarioScript.Proofs.Blocks.Run
import ScenarioScript.Proofs.Groups.Unrolling
import ScenarioScript.ScenarioSet.Naming

/-!
# Proofs/Containment/Holdings — the expressions that a set holds

A set holds expressions in its bindings and settings, in those of its scenarios, and in the steps of
its scenarios and groups.  `ScenarioSet.Holds P` says that all of them are of the sort `P`, and that
the parameters that send a file say which.

* what is done with settings, scenarios and sets keeps to the sort (`Config.Holds.apply`,
  `Scenario.Holds.stepConfig`, `ScenarioSet.Holds.merge`);
* `Draft.Holds.add` — a draft keeps to it if the statements it takes in do, and so does what they
  load.
-/

namespace ScenarioScript

open Outcome

variable {P : Tree → Prop}

/-! ## Ordered maps -/

namespace OrderedMap

variable {κ α : Type} {p : α → Prop}

/-- Every value in the map is of the sort. -/
def All (p : α → Prop) (m : OrderedMap κ α) : Prop := ∀ e ∈ m.entries, p e.2

theorem all_empty : (empty : OrderedMap κ α).All p := List.forall_mem_nil _

variable [DecidableEq κ] {m n : OrderedMap κ α} {k : κ} {a : α}

variable {q : κ × α → Prop}

theorem forall_mem_putEntry {entries : List (κ × α)} (h : ∀ e ∈ entries, q e) (ha : q (k, a)) :
    ∀ e ∈ putEntry k a entries, q e := by
  induction entries with
  | nil => exact List.forall_mem_singleton.2 ha
  | cons e rest ih =>
    obtain ⟨he, hrest⟩ := List.forall_mem_cons.1 h
    rw [putEntry]
    split
    · exact List.forall_mem_cons.2 ⟨ha, hrest⟩
    · exact List.forall_mem_cons.2 ⟨he, ih hrest⟩

/-- **One entry more.** -/
theorem forall_mem_insert (h : ∀ e ∈ m.entries, q e) (ha : q (k, a)) :
    ∀ e ∈ (m.insert k a).entries, q e :=
  forall_mem_putEntry h ha

theorem forall_mem_foldl_insert {entries : List (κ × α)} (h : ∀ e ∈ m.entries, q e)
    (hentries : ∀ e ∈ entries, q e) :
    ∀ e ∈ (entries.foldl (fun m e => m.insert e.1 e.2) m).entries, q e := by
  induction entries generalizing m with
  | nil => exact h
  | cons e rest ih =>
    obtain ⟨he, hrest⟩ := List.forall_mem_cons.1 hentries
    exact ih (forall_mem_insert h he) hrest

/-- **The entries of a second map.** -/
theorem forall_mem_update (h : ∀ e ∈ m.entries, q e) (hn : ∀ e ∈ n.entries, q e) :
    ∀ e ∈ (m.update n).entries, q e :=
  forall_mem_foldl_insert h hn

theorem All.insert (h : m.All p) (ha : p a) : (m.insert k a).All p :=
  forall_mem_insert (q := fun e => p e.2) h ha

theorem All.update (h : m.All p) (hn : n.All p) : (m.update n).All p :=
  forall_mem_update h hn

theorem of_valueAt? {entries : List (κ × α)} (h : ∀ e ∈ entries, p e.2)
    (hvalue : valueAt? k entries = some a) : p a := by
  induction entries with
  | nil => exact absurd hvalue nofun
  | cons e rest ih =>
    obtain ⟨he, hrest⟩ := List.forall_mem_cons.1 h
    rw [valueAt?] at hvalue
    split at hvalue
    · exact Option.some.inj hvalue ▸ he
    · exact ih hrest hvalue

/-- **What is looked up** is of the sort. -/
theorem All.of_get? (h : m.All p) (hget : m.get? k = some a) : p a :=
  of_valueAt? h hget

end OrderedMap

/-! ## Expressions all of one sort -/

theorem forall_mem_concat {α : Type} {p : α → Prop} {row : List α} {a : α} (h : ∀ b ∈ row, p b)
    (ha : p a) : ∀ b ∈ row ++ [a], p b :=
  List.forall_mem_append.2 ⟨h, List.forall_mem_singleton.2 ha⟩

/-- The expressions of the settings. -/
structure Config.Holds (P : Tree → Prop) (c : Config) : Prop where
  endpoint : ∀ t ∈ c.endpoint, P t
  name : ∀ t ∈ c.name, P t
  auth : ∀ t ∈ c.auth, P t
  headers : ∀ t ∈ c.headers, P t
  blackfire : ∀ t ∈ c.blackfire, P t
  wait : ∀ t ∈ c.wait, P t

/-- The expressions of a step; a file that it sends comes with its path and no more than a name. -/
structure Step.Holds (P : Tree → Prop) (s : Step) : Prop where
  target : ∀ t ∈ s.target, P t
  config : s.config.Holds P
  method : ∀ t ∈ s.method, P t
  body : ∀ t ∈ s.body, P t
  params : ∀ p ∈ s.params, P p.value ∧ p.wellFormed = true
  expects : ∀ t ∈ s.expects, P t
  sets : ∀ b ∈ s.sets, P b.value

/-- The expressions of a scenario. -/
structure Scenario.Holds (P : Tree → Prop) (s : Scenario) : Prop where
  bindings : s.bindings.All P
  config : s.config.Holds P
  steps : ∀ step ∈ s.steps, step.Holds P
  name : ∀ t ∈ s.name, P t

/-- The expressions of a group are those of the steps in it. -/
def Group.Holds (P : Tree → Prop) (g : Group) : Prop :=
  ∀ step, GroupItem.step step ∈ g.items → step.Holds P

/-- **The expressions of a set.** -/
structure ScenarioSet.Holds (P : Tree → Prop) (s : ScenarioSet) : Prop where
  scenarios : ∀ scenario ∈ s.scenarios, scenario.Holds P
  groups : s.groups.All (Group.Holds P)
  bindings : s.bindings.All P
  config : s.config.Holds P

/-- The expressions of an open block. -/
def Block.Holds (P : Tree → Prop) : Block → Prop
  | root => True
  | scenario s => s.Holds P
  | scenarioStep s step => s.Holds P ∧ step.Holds P
  | group g => g.Holds P
  | groupStep g step => g.Holds P ∧ step.Holds P

/-- The expressions of a draft. -/
structure Draft.Holds (P : Tree → Prop) (d : Draft) : Prop where
  finished : d.finished.Holds P
  block : d.block.Holds P

/-! ## Settings -/

namespace Config

variable {c inner : Config}

theorem holds_empty : Config.Holds P {} := ⟨nofun, nofun, nofun, nofun, nofun, nofun⟩

theorem forall_mem_or {a b : Option Tree} (ha : ∀ t ∈ a, P t) (hb : ∀ t ∈ b, P t) :
    ∀ t ∈ a.or b, P t := fun t ht =>
  (Option.or_eq_some_iff.1 ht).elim (ha t) fun h => hb t h.2

theorem Holds.merged (h : c.Holds P) (hinner : inner.Holds P) : (c.merged inner).Holds P where
  endpoint := forall_mem_or hinner.endpoint h.endpoint
  name := forall_mem_or hinner.name h.name
  auth := forall_mem_or hinner.auth h.auth
  headers := List.forall_mem_append.2 ⟨h.headers, hinner.headers⟩
  blackfire := forall_mem_or hinner.blackfire h.blackfire
  wait := forall_mem_or hinner.wait h.wait

/-- **One setting more.** -/
theorem Holds.apply {setting : Setting} (h : c.Holds P) (hvalue : ∀ t ∈ setting.value?, P t) :
    Yields (Config.Holds P) (c.apply setting) := by
  cases setting with
  | auth value => exact .ok { h with auth := hvalue }
  | header value => exact .ok { h with headers := forall_mem_concat h.headers (hvalue value rfl) }
  | blackfire value => exact .ok { h with blackfire := hvalue }
  | wait value => exact .ok { h with wait := hvalue }
  | followRedirects | warmup | samples =>
    intro c' hc'
    obtain ⟨_, -, rfl⟩ := map_eq_ok.1 hc'
    exact { h with }

end Config

/-! ## Steps and scenarios -/

/-- **What a step evaluates** is among its expressions. -/
theorem Step.Holds.expressions {s : Step} (h : s.Holds P) : ∀ t ∈ s.expressions, P t := by
  intro t ht
  simp only [Step.expressions, List.filterMap_cons, id, List.filterMap_nil, List.mem_append,
    List.mem_map] at ht
  obtain (((ht | ht) | ⟨p, hp, rfl⟩) | ht) | ⟨b, hb, rfl⟩ := ht
  · have hrow : t ∈ [s.target, s.config.name, s.config.auth, s.config.blackfire, s.config.wait,
        s.method, s.body].filterMap id := ht
    obtain ⟨value, hvalue, hsome⟩ := List.mem_filterMap.1 hrow
    simp only [List.mem_cons, List.not_mem_nil, or_false] at hvalue
    obtain rfl | rfl | rfl | rfl | rfl | rfl | rfl := hvalue
    · exact h.target t hsome
    · exact h.config.name t hsome
    · exact h.config.auth t hsome
    · exact h.config.blackfire t hsome
    · exact h.config.wait t hsome
    · exact h.method t hsome
    · exact h.body t hsome
  · exact h.config.headers t ht
  · exact (h.params p hp).1
  · exact h.expects t ht
  · exact h.sets b hb

namespace Scenario

variable {s : Scenario}

theorem Holds.bind {name : String} {value : Tree} (h : s.Holds P) (hvalue : P value) :
    (s.bind name value).Holds P :=
  { h with bindings := h.bindings.insert hvalue }

/-- **The settings in force** for a step are those of the scenario and the step. -/
theorem Holds.stepConfig {step : Step} (h : s.Holds P) (hstep : step.Holds P) :
    (s.stepConfig step).Holds P :=
  h.config.merged hstep.config

end Scenario

/-! ## Sets -/

namespace ScenarioSet

variable {s loaded : ScenarioSet}

theorem holds_empty : ScenarioSet.Holds P {} :=
  ⟨List.forall_mem_nil _, OrderedMap.all_empty, OrderedMap.all_empty, Config.holds_empty⟩

theorem Holds.bind {name : String} {value : Tree} (h : s.Holds P) (hvalue : P value) :
    (s.bind name value).Holds P :=
  { h with bindings := h.bindings.insert hvalue }

theorem Holds.merge (h : s.Holds P) (hloaded : loaded.Holds P) : (s.merge loaded).Holds P where
  scenarios := List.forall_mem_append.2 ⟨h.scenarios, hloaded.scenarios⟩
  groups := h.groups.update hloaded.groups
  bindings := h.bindings.update hloaded.bindings
  config := h.config.merged hloaded.config

theorem Holds.nameAnonymous (h : s.Holds P) : s.nameAnonymous.Holds P :=
  { h with
    scenarios := fun scenario hscenario => by
      obtain ⟨i, hi, rfl⟩ := List.mem_mapIdx.1 hscenario
      have hfrom := h.scenarios _ (List.getElem_mem hi)
      split
      · exact { hfrom with }
      · exact hfrom }

end ScenarioSet

/-- **The steps that a group stands for** are steps of groups. -/
theorem holds_expandGroup {groups : OrderedMap String Group} (h : groups.All (Group.Holds P))
    (name : String) (origin : Location) (expanding : List String) :
    Yields (fun steps => ∀ step ∈ steps, step.Holds P)
      (expandGroup groups name origin expanding) :=
  steps_expandGroup (fun _ _ hget => h.of_get? hget) name origin expanding

/-! ## Drafts -/

namespace Draft

variable {d : Draft} {s : Statement}

theorem holds_group_append {g : Group} {item : GroupItem} (h : g.Holds P)
    (hitem : ∀ step, item = .step step → step.Holds P) :
    Group.Holds P { g with items := g.items ++ [item] } := by
  intro step hstep
  obtain hstep | hstep := List.mem_append.1 hstep
  · exact h step hstep
  · exact hitem step (List.mem_singleton.1 hstep).symm

/-- **What has been made so far**, the open blocks included. -/
theorem Holds.result (h : d.Holds P) : d.result.Holds P := by
  obtain ⟨finished, block⟩ := d
  obtain ⟨hfinished, hblock⟩ := h
  cases block with
  | root => exact hfinished
  | scenario s =>
    exact { hfinished with scenarios := forall_mem_concat hfinished.scenarios hblock }
  | scenarioStep s step =>
    have hscenario : Scenario.Holds P { s with steps := s.steps ++ [step] } :=
      { hblock.1 with steps := forall_mem_concat hblock.1.steps hblock.2 }
    exact { hfinished with scenarios := forall_mem_concat hfinished.scenarios hscenario }
  | group g => exact { hfinished with groups := hfinished.groups.insert hblock }
  | groupStep g step =>
    have hgroup := holds_group_append hblock.1 fun step' hstep =>
      GroupItem.step.inj hstep ▸ hblock.2
    exact { hfinished with groups := hfinished.groups.insert hgroup }

theorem Holds.closeStep (h : d.Holds P) : Yields (Draft.Holds P) d.closeStep := by
  obtain ⟨finished, block⟩ := d
  obtain ⟨hfinished, hblock⟩ := h
  cases block with
  | scenarioStep s step =>
    intro e he
    obtain ⟨_, -, rfl⟩ := map_eq_ok.1 he
    exact ⟨hfinished, { hblock.1 with steps := forall_mem_concat hblock.1.steps hblock.2 }⟩
  | groupStep g step =>
    exact .ok ⟨hfinished, holds_group_append hblock.1 fun step' hstep =>
      GroupItem.step.inj hstep ▸ hblock.2⟩
  | _ => exact .ok ⟨hfinished, hblock⟩

theorem Holds.closeAll (h : d.Holds P) : Yields (ScenarioSet.Holds P) d.closeAll :=
  h.closeStep.map fun _ => Holds.result

theorem Holds.closeTo (h : d.Holds P) (depth : Int) : Yields (Draft.Holds P) (d.closeTo depth) := by
  unfold Draft.closeTo
  split
  · exact h.closeAll.map fun set hset => ⟨hset, trivial⟩
  · split
    · exact h.closeStep
    · exact .ok h

/-! ### Taking in a statement -/

theorem holds_newStep {path : Option String} {kind : StepKind} {target : Option Tree}
    (h : ∀ t ∈ target, P t) : Yields (Step.Holds P) (newStep path s kind target) := by
  unfold newStep
  split
  · exact .error _
  · exact .ok ⟨h, Config.holds_empty, nofun, nofun, nofun, nofun, nofun⟩

theorem holds_addToStep {step : Step} (h : step.Holds P) (hs : ∀ t ∈ s.command.expr?, P t) :
    Yields (Step.Holds P) (addToStep step s) := by
  unfold addToStep
  split
  · next setting hcommand =>
    rw [hcommand] at hs
    exact (h.config.apply hs).map fun config hconfig => { h with config := hconfig }
  · next value hcommand =>
    rw [hcommand] at hs
    exact .ok { h with config := { h.config with name := hs } }
  · next value hcommand =>
    rw [hcommand] at hs
    exact .ok { h with method := hs }
  · next value hcommand =>
    rw [hcommand] at hs
    exact .ok { h with body := hs }
  · intro step' hstep'
    obtain ⟨flag, -, rfl⟩ := map_eq_ok.1 hstep'
    exact { h with }
  · next name value hcommand =>
    rw [hcommand] at hs
    have hparam : Yields (fun p => P p.value ∧ p.wellFormed = true) (newParam name value) := by
      simp only [newParam]
      split
      · next hformed => exact .ok ⟨hs value rfl, hformed⟩
      · exact .error _
    exact hparam.map fun param hparam => { h with params := forall_mem_concat h.params hparam }
  · next condition hcommand =>
    rw [hcommand] at hs
    exact .ok { h with expects := forall_mem_concat h.expects (hs condition rfl) }
  · next name value hcommand =>
    rw [hcommand] at hs
    exact .ok { h with sets := forall_mem_concat h.sets (hs value rfl) }
  · exact .error _

theorem holds_addToGroup {path : Option String} {group : Group} (h : group.Holds P)
    (hs : ∀ t ∈ s.command.expr?, P t) : Yields (Block.Holds P) (addToGroup path group s) := by
  unfold addToGroup
  split
  · next kind target hcommand =>
    rw [hcommand] at hs
    exact (holds_newStep hs).map fun step hstep => ⟨h, hstep⟩
  · exact .ok (holds_group_append h fun step hstep => absurd hstep (by simp))
  · exact .error _

theorem holds_addToScenario {path : Option String} {groups : OrderedMap String Group}
    {scenario : Scenario} (hgroups : groups.All (Group.Holds P)) (h : scenario.Holds P)
    (hs : ∀ t ∈ s.command.expr?, P t) :
    Yields (Block.Holds P) (addToScenario path groups scenario s) := by
  unfold addToScenario
  split
  · next kind target hcommand =>
    rw [hcommand] at hs
    exact (holds_newStep hs).map fun step hstep => ⟨h, hstep⟩
  · next name value hcommand =>
    rw [hcommand] at hs
    exact .ok (h.bind (hs value rfl))
  · next value hcommand =>
    rw [hcommand] at hs
    have hbound : (scenario.bind "endpoint" value).Holds P := h.bind (hs value rfl)
    exact .ok { hbound with config := { h.config with endpoint := hs } }
  · next value hcommand =>
    rw [hcommand] at hs
    exact .ok { h with name := hs, config := { h.config with name := hs } }
  · next setting hcommand =>
    rw [hcommand] at hs
    exact (h.config.apply hs).map fun config hconfig => { h with config := hconfig }
  · next group hcommand =>
    exact (holds_expandGroup hgroups group _ []).mapError.map fun steps hsteps =>
      { h with steps := List.forall_mem_append.2 ⟨h.steps, hsteps⟩ }
  · exact .error _

theorem holds_addToRoot {site : Site} {set : ScenarioSet} (h : set.Holds P)
    (hs : ∀ t ∈ s.command.expr?, P t)
    (hload : ∀ target, s.command = .load target → Yields (ScenarioSet.Holds P)
      (site.load target (.loadedFrom site.path s.position)).outcome) :
    Yields (Draft.Holds P) (addToRoot site set s).outcome := by
  unfold addToRoot
  split
  · next name value hcommand =>
    rw [hcommand] at hs
    exact .ok ⟨h.bind (hs value rfl), trivial⟩
  · next value hcommand =>
    rw [hcommand] at hs
    have hbound : (set.bind "endpoint" value).Holds P := h.bind (hs value rfl)
    exact .ok ⟨{ hbound with config := { h.config with endpoint := hs } }, trivial⟩
  · next setting hcommand =>
    rw [hcommand] at hs
    rw [Traced.outcome_bind_pure]
    exact (h.config.apply hs).map fun config hconfig => ⟨{ h with config := hconfig }, trivial⟩
  · next target hcommand =>
    rw [Traced.outcome_bind_pure]
    exact (hload target hcommand).map fun loaded hloaded => ⟨h.merge hloaded, trivial⟩
  · exact .ok ⟨h, ⟨h.bindings, h.config, List.forall_mem_nil _, nofun⟩⟩
  · exact .ok ⟨h, fun step hstep => absurd hstep List.not_mem_nil⟩
  · exact .error _

/-- **A draft takes in a statement** and keeps to the sort if the statement does, and what it
loads. -/
theorem Holds.add {site : Site} (h : d.Holds P) (hs : ∀ t ∈ s.command.expr?, P t)
    (hload : ∀ target, s.command = .load target → Yields (ScenarioSet.Holds P)
      (site.load target (.loadedFrom site.path s.position)).outcome) :
    Yields (Draft.Holds P) (d.add site s).outcome := by
  rw [add_eq, Traced.outcome_bind]
  refine (h.closeTo s.depth).mapError.bind fun c _ hc => ?_
  unfold place
  split
  · exact .error _
  obtain ⟨finished, block⟩ := c
  obtain ⟨hfinished, hblock⟩ := hc
  cases block with
  | root => exact holds_addToRoot hfinished hs hload
  | scenario scenario =>
    rw [takeIn, Traced.outcome_bind_pure]
    exact (holds_addToScenario hfinished.groups hblock hs).map fun block hblock =>
      ⟨hfinished, hblock⟩
  | group group =>
    rw [takeIn, Traced.outcome_bind_pure]
    exact (holds_addToGroup hblock hs).map fun block hblock => ⟨hfinished, hblock⟩
  | scenarioStep scenario step =>
    rw [takeIn, Traced.outcome_bind_pure]
    exact (holds_addToStep hblock.2 hs).map fun step hstep => ⟨hfinished, hblock.1, hstep⟩
  | groupStep group step =>
    rw [takeIn, Traced.outcome_bind_pure]
    exact (holds_addToStep hblock.2 hs).map fun step hstep => ⟨hfinished, hblock.1, hstep⟩

end Draft

end ScenarioScript
