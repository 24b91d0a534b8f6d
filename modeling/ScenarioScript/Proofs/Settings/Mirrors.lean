import ScenarioScript.Proofs.Blocks.Growth
import ScenarioScript.Proofs.Loading.Reading

/-!
# Proofs/Settings/Mirrors — what is kept in two places

An endpoint is a setting, and a value of the name `endpoint` as well; the name of a scenario is kept
in the scenario, and among its settings.  Bindings and settings are handed down together when a
scenario begins, but by rules of their own when a set is loaded; and `set endpoint` binds the name
and leaves the setting alone.

* `Mirrored` — the endpoint among bindings and among settings: one that is set is always bound, and
  is what the name stands for unless `set` has bound it;
* `Draft.Mirrors.add` — a statement keeps to it, whatever it is;
* `Draft.mirrored` — so **both places agree in every state** that a script comes by, and those that
  it loads.
-/

namespace ScenarioScript

open Outcome

/-! ## Endpoints -/

/-- **The endpoint among bindings and among settings**, where `only` says that no other statement
binds the name. -/
structure Mirrored (only : Prop) (bindings : OrderedMap String Tree) (config : Config) : Prop where
  /-- An endpoint that is set is bound. -/
  bound : config.endpoint.isSome = true → "endpoint" ∈ bindings.keys
  /-- The name stands for the endpoint, or for nothing if there is none. -/
  same : only → bindings.get? "endpoint" = config.endpoint

namespace Mirrored

variable {only only' : Prop} {bindings bindings' : OrderedMap String Tree} {config config' : Config}
  {name : String}

theorem empty : Mirrored only .empty {} := ⟨nofun, fun _ => rfl⟩

theorem mono (h : Mirrored only bindings config) (honly : only' → only) :
    Mirrored only' bindings config := ⟨h.bound, fun h' => h.same (honly h')⟩

/-- Other settings do not matter. -/
theorem congr (h : Mirrored only bindings config) (hendpoint : config'.endpoint = config.endpoint) :
    Mirrored only bindings config' where
  bound hset := h.bound (hendpoint ▸ hset)
  same honly := (h.same honly).trans hendpoint.symm

/-- **A name more** does not matter if it is another one. -/
theorem bind (h : Mirrored only bindings config) (hname : only → name ≠ "endpoint")
    (value : Tree) : Mirrored only (bindings.insert name value) config where
  bound hset := (OrderedMap.mem_keys_insert ..).2 (.inr (h.bound hset))
  same honly := by rw [OrderedMap.get?_insert, if_neg (hname honly), h.same honly]

/-- **An endpoint** is written to both places. -/
theorem endpoint (bindings : OrderedMap String Tree) (config : Config) (value : Tree) :
    Mirrored only (bindings.insert "endpoint" value) { config with endpoint := some value } where
  bound _ := (OrderedMap.mem_keys_insert ..).2 (.inl rfl)
  same _ := by rw [OrderedMap.get?_insert, if_pos rfl]

/-- **Both places are merged alike**: what comes in prevails where it has something. -/
theorem merge (h : Mirrored only bindings config) (h' : Mirrored only bindings' config') :
    Mirrored only (bindings.update bindings') (config.merged config') where
  bound hset := by
    rw [← OrderedMap.isSome_get?, OrderedMap.get?_update_eq_or, Option.isSome_or, Bool.or_eq_true,
      OrderedMap.isSome_get?, OrderedMap.isSome_get?]
    rw [Config.merged, Option.isSome_or, Bool.or_eq_true] at hset
    exact hset.imp h'.bound h.bound
  same honly := by
    rw [OrderedMap.get?_update_eq_or, h.same honly, h'.same honly]
    rfl

end Mirrored

/-- Settings of the other sorts leave the endpoint and the name alone. -/
theorem Config.endpoint_and_name_apply (c : Config) (setting : Setting) :
    Yields (fun c' => c'.endpoint = c.endpoint ∧ c'.name = c.name) (c.apply setting) := by
  cases setting with
  | auth | header | blackfire | wait => exact .ok ⟨rfl, rfl⟩
  | followRedirects | warmup | samples => exact Yields.map_of_forall _ fun _ => ⟨rfl, rfl⟩

/-! ## Scenarios and sets -/

/-- **A scenario keeps its endpoint and its name alike** in both places. -/
structure Scenario.Mirrors (only : Prop) (s : Scenario) : Prop where
  endpoint : Mirrored only s.bindings s.config
  name : s.name = s.config.name

/-- **A set keeps endpoints and names alike**, at top level and in its scenarios; there is no name at
top level. -/
structure ScenarioSet.Mirrors (only : Prop) (s : ScenarioSet) : Prop where
  endpoint : Mirrored only s.bindings s.config
  name : s.config.name = none
  scenarios : ∀ scenario ∈ s.scenarios, scenario.Mirrors only

namespace ScenarioSet

variable {only only' : Prop} {s loaded : ScenarioSet}

theorem mirrors_empty : ScenarioSet.Mirrors only {} :=
  ⟨.empty, rfl, List.forall_mem_nil _⟩

theorem Mirrors.mono (h : s.Mirrors only) (honly : only' → only) : s.Mirrors only' where
  endpoint := h.endpoint.mono honly
  name := h.name
  scenarios scenario hmem :=
    ⟨(h.scenarios scenario hmem).endpoint.mono honly, (h.scenarios scenario hmem).name⟩

theorem Mirrors.merge (h : s.Mirrors only) (hloaded : loaded.Mirrors only) :
    (s.merge loaded).Mirrors only where
  endpoint := h.endpoint.merge hloaded.endpoint
  name := by
    show loaded.config.name.or s.config.name = none
    rw [h.name, hloaded.name]
    rfl
  scenarios := List.forall_mem_append.2 ⟨h.scenarios, hloaded.scenarios⟩

theorem Mirrors.concat (h : s.Mirrors only) {scenario : Scenario}
    (hscenario : scenario.Mirrors only) :
    Mirrors only { s with scenarios := s.scenarios ++ [scenario] } :=
  { h with
    scenarios := List.forall_mem_append.2 ⟨h.scenarios, List.forall_mem_singleton.2 hscenario⟩ }

/-- **A scenario that begins** takes both places over. -/
theorem Mirrors.newScenario (h : s.Mirrors only) (path : Option String) (line : Int)
    (label : String) : (Draft.newScenario s path line label).Mirrors only :=
  ⟨h.endpoint, h.name.symm⟩

end ScenarioSet

/-! ## Statements -/

/-- **The statement binds the name** `endpoint` where it is looked for: in a step it is bound for the
steps behind. -/
def Statement.BindsEndpoint (s : Statement) : Prop :=
  s.depth ≤ 1 ∧ ∃ value, s.command = .bind "endpoint" value

theorem Statement.ne_endpoint_of_bind {s : Statement} {name : String} {value : Tree}
    (h : ¬s.BindsEndpoint) (hdepth : s.depth ≤ 1) (hcommand : s.command = .bind name value) :
    name ≠ "endpoint" := by
  rintro rfl
  exact h ⟨hdepth, value, hcommand⟩

/-- The scenario that is open keeps its endpoint and its name alike. -/
def Block.Mirrors (only : Prop) : Block → Prop
  | scenario s | scenarioStep s _ => s.Mirrors only
  | _ => True

namespace Draft

variable {only : Prop} {site : Site} {set : ScenarioSet} {scenario : Scenario} {s : Statement}
  {d : Draft}

/-- **A draft keeps endpoints and names alike**, in what is finished and in what is open. -/
structure Mirrors (only : Prop) (d : Draft) : Prop where
  finished : d.finished.Mirrors only
  block : d.block.Mirrors only

theorem mirrors_root (h : set.Mirrors only) : Mirrors only ⟨set, .root⟩ := ⟨h, trivial⟩

/-- **What a draft shows** keeps them alike. -/
theorem Mirrors.result (h : d.Mirrors only) : d.result.Mirrors only := by
  obtain ⟨finished, block⟩ := d
  obtain ⟨hfinished, hblock⟩ := h
  cases block with
  | root => exact hfinished
  | scenario => exact hfinished.concat hblock
  | scenarioStep => exact hfinished.concat ⟨hblock.endpoint, hblock.name⟩
  | group | groupStep => exact { hfinished with }

theorem Mirrors.closeStep (h : d.Mirrors only) : Yields (Mirrors only) d.closeStep := by
  obtain ⟨finished, block⟩ := d
  obtain ⟨hfinished, hblock⟩ := h
  cases block with
  | scenarioStep scenario step =>
    exact Yields.map_of_forall _ fun _ => ⟨hfinished, hblock.endpoint, hblock.name⟩
  | groupStep => exact .ok ⟨hfinished, trivial⟩
  | _ => exact .ok ⟨hfinished, hblock⟩

theorem Mirrors.closeAll (h : d.Mirrors only) :
    Yields (ScenarioSet.Mirrors only) d.closeAll :=
  h.closeStep.map fun _ => Mirrors.result

theorem Mirrors.closeTo (h : d.Mirrors only) (depth : Int) :
    Yields (Mirrors only) (d.closeTo depth) := by
  unfold Draft.closeTo
  split
  · exact h.closeAll.map fun set hset => mirrors_root hset
  · split
    · exact h.closeStep
    · exact .ok h

/-- **At top level** a statement keeps them alike, if what it loads does. -/
theorem mirrors_addToRoot (h : set.Mirrors only) (hdepth : s.depth = 0)
    (hbinds : only → ¬s.BindsEndpoint)
    (hload : ∀ target, s.command = .load target →
      Yields (ScenarioSet.Mirrors only)
        (site.load target (.loadedFrom site.path s.position)).outcome) :
    Yields (Mirrors only) (addToRoot site set s).outcome := by
  unfold addToRoot
  split
  · next name value hcommand =>
    have hname : only → name ≠ "endpoint" := fun honly =>
      Statement.ne_endpoint_of_bind (hbinds honly) (by omega) hcommand
    exact .ok (mirrors_root { h with endpoint := h.endpoint.bind hname value })
  · next value _ =>
    exact .ok (mirrors_root { h with endpoint := .endpoint set.bindings set.config value })
  · next setting _ =>
    rw [Traced.outcome_bind_pure]
    refine (set.config.endpoint_and_name_apply setting).map fun config hconfig => mirrors_root ?_
    exact ⟨h.endpoint.congr hconfig.1, hconfig.2.trans h.name, h.scenarios⟩
  · next target hcommand =>
    rw [Traced.outcome_bind_pure]
    exact (hload target hcommand).map fun loaded hloaded => mirrors_root (h.merge hloaded)
  · next label _ => exact .ok ⟨h, h.newScenario site.path s.line label⟩
  · exact .ok ⟨h, trivial⟩
  · exact .error _

/-- **In a scenario** a statement keeps them alike. -/
theorem mirrors_addToScenario (path : Option String) (groups : OrderedMap String Group)
    (h : scenario.Mirrors only) (hdepth : s.depth = 1) (hbinds : only → ¬s.BindsEndpoint) :
    Yields (Block.Mirrors only) (addToScenario path groups scenario s) := by
  unfold addToScenario
  split
  · exact Yields.map_of_forall _ fun _ => h
  · next name value hcommand =>
    have hname : only → name ≠ "endpoint" := fun honly =>
      Statement.ne_endpoint_of_bind (hbinds honly) (by omega) hcommand
    exact .ok ⟨h.endpoint.bind hname value, h.name⟩
  · next value _ => exact .ok ⟨.endpoint scenario.bindings scenario.config value, h.name⟩
  · exact .ok ⟨h.endpoint.congr rfl, rfl⟩
  · next setting _ =>
    refine (scenario.config.endpoint_and_name_apply setting).map fun config hconfig => ?_
    exact ⟨h.endpoint.congr hconfig.1, h.name.trans hconfig.2.symm⟩
  · exact Yields.map_of_forall _ fun _ => ⟨h.endpoint, h.name⟩
  · exact .error _

/-- In a group there is no scenario. -/
theorem mirrors_addToGroup (path : Option String) (group : Group) (s : Statement) :
    Yields (Block.Mirrors only) (addToGroup path group s) := by
  unfold addToGroup
  split
  · exact Yields.map_of_forall _ fun _ => trivial
  · exact .ok trivial
  · exact .error _

theorem Mirrors.takeIn (h : d.Mirrors only) (hdepth : s.depth = d.block.depth)
    (hbinds : only → ¬s.BindsEndpoint)
    (hload : ∀ target, s.command = .load target →
      Yields (ScenarioSet.Mirrors only)
        (site.load target (.loadedFrom site.path s.position)).outcome) :
    Yields (Mirrors only) (d.takeIn site s).outcome := by
  obtain ⟨finished, block⟩ := d
  obtain ⟨hfinished, hblock⟩ := h
  cases block with
  | root => exact mirrors_addToRoot hfinished hdepth hbinds hload
  | scenario scenario =>
    rw [Draft.takeIn, Traced.outcome_bind_pure]
    exact (mirrors_addToScenario _ _ hblock hdepth hbinds).map fun _ hblock => ⟨hfinished, hblock⟩
  | group group =>
    rw [Draft.takeIn, Traced.outcome_bind_pure]
    exact (mirrors_addToGroup _ group s).map fun _ hblock => ⟨hfinished, hblock⟩
  | scenarioStep | groupStep =>
    rw [Draft.takeIn, Traced.outcome_bind_pure]
    exact Yields.map_of_forall _ fun _ => ⟨hfinished, hblock⟩

/-- **A statement keeps endpoints and names alike**, if what it loads does. -/
theorem Mirrors.add (h : d.Mirrors only) (hbinds : only → ¬s.BindsEndpoint)
    (hload : ∀ target, s.command = .load target →
      Yields (ScenarioSet.Mirrors only)
        (site.load target (.loadedFrom site.path s.position)).outcome) :
    Yields (Mirrors only) (d.add site s).outcome := by
  intro e he
  obtain ⟨c, hclose, hdepth, htake⟩ := add_eq_ok.1 he
  exact (h.closeTo s.depth c hclose).takeIn hdepth hbinds hload e htake

end Draft

/-! ## Runs -/

/-- **The statements that are executed** where a script with the given path, or none, takes in a row
of statements: those of the row, and those of the files that they load. -/
inductive Executes (env : Environment) : Option Path → List Statement → Statement → Prop
  | own {path : Option Path} {statements : List Statement} {s : Statement}
      (mem : s ∈ statements) : Executes env path statements s
  | loaded {path : Option Path} {statements inner : List Statement} {s t : Statement}
      {target text : String} (mem : t ∈ statements) (command : t.command = .load target)
      (read : env.read (env.resolve target path) = .ok text)
      (lines : Draft.statementsOf env.unit text = .ok inner)
      (below : Executes env (some (env.resolve target path)) inner s) :
      Executes env path statements s

/-- No statement that is executed binds the name `endpoint` but those that set the endpoint. -/
def EndpointsOnly (env : Environment) (path : Option Path) (statements : List Statement) : Prop :=
  ∀ s, Executes env path statements s → ¬s.BindsEndpoint

/-- **No other statement binds the name** if none of the row does, nor any in the files that they
load. -/
theorem endpointsOnly_iff {env : Environment} {path : Option Path} {statements : List Statement} :
    EndpointsOnly env path statements ↔ (∀ s ∈ statements, ¬s.BindsEndpoint) ∧
      ∀ t ∈ statements, ∀ target text inner, t.command = .load target →
        env.read (env.resolve target path) = .ok text →
        Draft.statementsOf env.unit text = .ok inner →
          EndpointsOnly env (some (env.resolve target path)) inner := by
  constructor
  · intro h
    refine ⟨fun s hs => h s (.own hs), fun t ht target text inner hcommand hread hlines s hs => ?_⟩
    exact h s (.loaded ht hcommand hread hlines hs)
  · rintro ⟨hown, hloaded⟩ s hs
    cases hs with
    | own hs => exact hown s hs
    | loaded ht hcommand hread hlines hbelow =>
      exact hloaded _ ht _ _ _ hcommand hread hlines s hbelow

namespace Draft

variable {env : Environment} {loading : List Path} {path : Option Path} {text : String}
  {statements : List Statement} {set : ScenarioSet} {d : Draft}

/-- What is read from a text keeps endpoints and names alike. -/
def ReadsMirrored (env : Environment) (loading : List Path) (path : Option Path) (text : String) :
    Prop :=
  Yields (fun set => ∃ statements, statementsOf env.unit text = .ok statements ∧
      set.Mirrors (EndpointsOnly env path statements))
    (readScript env loading path text).outcome

/-- **What is loaded keeps endpoints and names alike**, if what is read does. -/
theorem mirrors_load {s : Statement} {target : String} {origin : Location} (hmem : s ∈ statements)
    (hcommand : s.command = .load target)
    (hread : ∀ target text, target ∉ loading ++ path.toList → env.read target = .ok text →
      ReadsMirrored env (loading ++ path.toList) (some target) text) :
    Yields (ScenarioSet.Mirrors (EndpointsOnly env path statements))
      ((env.site loading path).load target origin).outcome := by
  intro loaded hloaded
  by_cases hreaches : env.reaches target path = true
  · rw [load_site_of_reaches hreaches, outcome_loadScript_eq_ok] at hloaded
    obtain ⟨hnew, text, htext, hinner⟩ := hloaded
    obtain ⟨inner, hstatements, hmirrors⟩ := hread _ text hnew htext loaded hinner
    exact hmirrors.mono fun honly =>
      (endpointsOnly_iff.1 honly).2 s hmem target text inner hcommand htext hstatements
  · rw [load_site_of_not_reaches hreaches] at hloaded
    exact absurd hloaded nofun

/-- **A row of statements keeps endpoints and names alike**, if what is read does. -/
theorem mirrors_foldlM
    (hread : ∀ target text, target ∉ loading ++ path.toList → env.read target = .ok text →
      ReadsMirrored env (loading ++ path.toList) (some target) text) :
    Yields (Mirrors (EndpointsOnly env path statements))
      (statements.foldlM (add (env.site loading path)) {}).outcome := by
  refine Traced.yields_foldlM (fun s hs d hd => ?_) (mirrors_root ScenarioSet.mirrors_empty)
  refine hd.add (fun honly => (endpointsOnly_iff.1 honly).1 s hs) fun target hcommand => ?_
  exact mirrors_load hs hcommand hread

/-- **What is read keeps endpoints and names alike.**  The induction is on the files that are not in
the middle of being read. -/
theorem mirrors_readScript (env : Environment) (loading : List Path) (path : Option Path)
    (text : String) : ReadsMirrored env loading path text := by
  intro set hset
  rw [readScript_eq, Traced.outcome_mapFault, mapError_eq_ok, outcome_build_eq_ok] at hset
  obtain ⟨statements, hstatements, hrun⟩ := hset
  obtain ⟨d, hfold, hclose⟩ := Traced.outcome_bind_eq_ok.1 hrun
  have hd : d.Mirrors (EndpointsOnly env path statements) :=
    mirrors_foldlM (fun target text hnew hread => mirrors_readScript env _ (some target) text) d hfold
  exact ⟨statements, hstatements, hd.closeAll set (mapError_eq_ok.1 hclose)⟩
termination_by unvisited env.paths (loading ++ path.toList)
decreasing_by exact unvisited_lt (Workspace.mem_keys_of_read hread) hnew

/-- **Both places agree in every state** that is reached by taking in statements, and when all blocks
are closed.  At top level and in every scenario, an endpoint that is set is bound, and the name
stands for it if no statement that was executed, in a file that was loaded or not, bound it
otherwise; a scenario has one name; and there is none at top level. -/
theorem mirrored (env : Environment) (loading : List Path) (path : Option Path)
    (statements : List Statement) (d : Draft)
    (h : (statements.foldlM (add (env.site loading path)) {}).outcome = .ok d) :
    d.result.Mirrors (EndpointsOnly env path statements) ∧
      ∀ set, d.closeAll = .ok set → set.Mirrors (EndpointsOnly env path statements) := by
  have hd : d.Mirrors (EndpointsOnly env path statements) :=
    mirrors_foldlM (fun target text _ _ => mirrors_readScript env _ (some target) text) d h
  exact ⟨hd.result, hd.closeAll⟩

/-- A script that sets an endpoint, and has a scenario with a name. -/
def endpointText : String := "endpoint a\nscenario\n name b\n"

/-- The file that the script is in. -/
def setsEndpoint : Environment where
  workspace := { files := .ofList [(⟨["own"], by decide⟩, endpointText.toUTF8)] }

/-- A row that loads the file; in a step a name `endpoint` is bound for the steps behind. -/
def loadsEndpoint : List Statement :=
  [⟨.load "own", "\"own\"", 0, 1, 1⟩, ⟨.scenario "s", "s", 0, 2, 1⟩, ⟨.name default, "", 1, 3, 2⟩,
    ⟨.step .reload none, "", 1, 4, 2⟩, ⟨.bind "endpoint" default, "", 2, 5, 3⟩]

/-- The name is bound by no other statement: where `set` binds it, it does so in a step. -/
theorem endpointsOnly_loadsEndpoint : EndpointsOnly setsEndpoint none loadsEndpoint := by
  have htext : (setsEndpoint.read (setsEndpoint.resolve "own" none)).toOption =
      some endpointText := by decide +kernel
  have hwords : (statementsOf none endpointText).toOption.map (·.map (·.command.word)) =
      some ["endpoint", "scenario", "name"] := by decide +kernel
  refine endpointsOnly_iff.2 ⟨?own, ?loaded⟩
  case own =>
    simp [loadsEndpoint, Statement.BindsEndpoint]
  case loaded =>
    intro t ht target text inner hcommand hread hlines
    obtain rfl : target = "own" := by
      simp only [loadsEndpoint, List.mem_cons, List.not_mem_nil, or_false] at ht
      obtain rfl | rfl | rfl | rfl | rfl := ht <;> cases hcommand
      rfl
    rw [hread] at htext
    obtain rfl := Option.some.inj htext
    change statementsOf none _ = _ at hlines
    rw [hlines] at hwords
    replace hwords : inner.map (·.command.word) = _ := Option.some.inj hwords
    have hword : ∀ s ∈ inner, s.command.word ∈ ["endpoint", "scenario", "name"] := fun s hs =>
      hwords ▸ List.mem_map_of_mem hs
    refine endpointsOnly_iff.2 ⟨fun s hs hbinds => ?_, fun s hs target _ _ hload => ?_⟩
    · obtain ⟨-, value, hbind⟩ := hbinds
      exact absurd (hbind ▸ hword s hs) (by simp [Command.word, Keyword.word])
    · exact absurd (hload ▸ hword s hs) (by simp [Command.word, Keyword.word])

/-- The endpoint comes in with the file, and is handed down to the scenario that is open; what the
step binds is not. -/
theorem mirrored_loadsEndpoint :
    ∃ d, (loadsEndpoint.foldlM (add (setsEndpoint.site [] none)) {}).outcome = .ok d ∧
      d.result.Mirrors (EndpointsOnly setsEndpoint none loadsEndpoint) ∧
      EndpointsOnly setsEndpoint none loadsEndpoint ∧
      d.result.scenarios.map (fun s => (s.key, (s.bindings.get? "endpoint").map Tree.text,
        s.config.name.isSome)) = [("", some "a", true), ("s", some "a", true)] := by
  have hrun : (loadsEndpoint.foldlM (add (setsEndpoint.site [] none)) {}).outcome.toOption.map
      (fun d => d.result.scenarios.map fun s => (s.key,
        (s.bindings.get? "endpoint").map Tree.text, s.config.name.isSome)) =
          some [("", some "a", true), ("s", some "a", true)] := by
    decide +kernel
  obtain ⟨d, hd, hscenarios⟩ := Option.map_eq_some_iff.1 hrun
  rw [toOption_eq_some] at hd
  exact ⟨d, hd, (mirrored setsEndpoint [] none loadsEndpoint d hd).1, endpointsOnly_loadsEndpoint,
    hscenarios⟩

end Draft

end ScenarioScript
