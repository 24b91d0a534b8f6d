import ScenarioScript.Config.Typed
import ScenarioScript.Group.Expansion
import ScenarioScript.Load.Attempt
import ScenarioScript.ScenarioSet
import ScenarioScript.Statement.Classify

/-!
# Draft — a scenario set in the making

A draft is what the statements so far have defined, and the block that is still open: none, a
scenario or a group, or a step inside one of these.  A statement first closes the blocks that are
not above it in depth, and then takes effect in the block that is left.

* `Draft.closeTo` — close the blocks at a depth and deeper;
* `Draft.add` — take in one statement;
* `Draft.build` — take in a whole text, and close what is open.

When a step of a scenario is closed, it is checked that it uses no name it binds itself.
-/

namespace ScenarioScript

/-- The block that is open. -/
inductive Block where
  | root
  | scenario (scenario : Scenario)
  | scenarioStep (scenario : Scenario) (step : Step)
  | group (group : Group)
  | groupStep (group : Group) (step : Step)
  deriving DecidableEq

/-- What has been finished, and the block that is open. -/
structure Draft where
  finished : ScenarioSet := {}
  block : Block := .root
  deriving DecidableEq

/-- What a draft needs to know of the script it is made from: how a diagnostic names it, and what it
is to load another. -/
structure Site where
  path : Option String
  load : String → Location → Traced ScenarioSet

namespace Block

/-- How many blocks lie around what comes next. -/
def depth : Block → Int
  | root => 0
  | scenario _ | group _ => 1
  | scenarioStep .. | groupStep .. => 2

end Block

namespace Draft

/-! ## What a draft shows -/

/-- **The set so far**, with the open blocks as far as they have come. -/
def result (d : Draft) : ScenarioSet :=
  let set := d.finished
  match d.block with
  | .root => set
  | .scenario s => { set with scenarios := set.scenarios ++ [s] }
  | .scenarioStep s step =>
    { set with scenarios := set.scenarios ++ [{ s with steps := s.steps ++ [step] }] }
  | .group g => { set with groups := set.groups.insert g.name g }
  | .groupStep g step =>
    { set with
      groups := set.groups.insert g.name { g with items := g.items ++ [.step step] } }

/-- What is shown of an open block. -/
structure Frame where
  depth : Int
  kind : Surroundings
  /-- The names that can be used in it. -/
  visible : List String
  inScenario : Bool
  deriving DecidableEq, Repr

/-- Names in alphabetical order, each once. -/
def sortedNames (names : List String) : List String :=
  (names.mergeSort (fun a b => decide (a ≤ b))).eraseDups

/-- **The open blocks**, outermost first. -/
def stack (d : Draft) : List Frame :=
  match d.block with
  | .root => []
  | .scenario s => [⟨0, .scenario, sortedNames s.visible, true⟩]
  | .scenarioStep s _ =>
    let visible := sortedNames s.visible
    [⟨0, .scenario, visible, true⟩, ⟨1, .step, visible, true⟩]
  | .group _ => [⟨0, .group, [], false⟩]
  | .groupStep _ _ => [⟨0, .group, [], false⟩, ⟨1, .step, [], false⟩]

/-! ## Closing blocks -/

/-- Close the open step, if there is one. -/
def closeStep (d : Draft) : Except Diagnostic Draft :=
  match d.block with
  | .scenarioStep s step =>
    (step.checkScope s.visible).map fun _ =>
      { d with block := .scenario { s with steps := s.steps ++ [step] } }
  | .groupStep g step => .ok { d with block := .group { g with items := g.items ++ [.step step] } }
  | _ => .ok d

/-- Close every open block. -/
def closeAll (d : Draft) : Except Diagnostic ScenarioSet :=
  d.closeStep.map result

/-- **Close the blocks** at a depth and deeper. -/
def closeTo (d : Draft) (depth : Int) : Except Diagnostic Draft :=
  if depth ≤ 0 then d.closeAll.map fun set => ⟨set, .root⟩
  else if depth ≤ 1 then d.closeStep
  else .ok d

/-! ## Taking in a statement -/

/-- A statement that has no place where it stands. -/
def notAllowed {α : Type} (s : Statement) (place : Surroundings) : Except Failure α :=
  .error (.fault (s.fault (.notAllowed s.word place)))

/-- The step that a statement begins. -/
def newStep (path : Option String) (s : Statement) (kind : StepKind) (target : Option Tree) :
    Except Failure Step :=
  if kind.hasTarget && target.isNone then .error (.fault (s.fault (.targetRequired s.word)))
  else .ok { kind, target, line := s.line, path }

/-- The scenario that begins on a line: it takes over the bindings and settings there are. -/
def newScenario (set : ScenarioSet) (path : Option String) (line : Int) (label : String) :
    Scenario :=
  { key := label, bindings := set.bindings, config := set.config, anonymous := label.isEmpty,
    line, path }

/-- A statement at top level. -/
def addToRoot (site : Site) (set : ScenarioSet) (s : Statement) : Traced Draft :=
  match s.command with
  | .bind name value => pure { finished := set.bind name value }
  | .endpoint value =>
    pure { finished :=
      { set.bind "endpoint" value with config := { set.config with endpoint := some value } } }
  | .setting setting => do
    let config ← (set.config.apply setting : Except Failure Config)
    pure { finished := { set with config } }
  | .load target => do
    let loaded ← site.load target (.loadedFrom site.path s.position)
    pure { finished := set.merge loaded }
  | .scenario label => pure ⟨set, .scenario (newScenario set site.path s.line label)⟩
  | .group name => pure ⟨set, .group { name, line := s.line, path := site.path }⟩
  | _ => Traced.ofExcept (notAllowed s .topLevel)

/-- A statement in a scenario; the groups there are can be included. -/
def addToScenario (path : Option String) (groups : OrderedMap String Group) (scenario : Scenario)
    (s : Statement) : Except Failure Block :=
  match s.command with
  | .step kind target =>
    (newStep path s kind target).map fun step => .scenarioStep scenario step
  | .bind name value => .ok (.scenario (scenario.bind name value))
  | .endpoint value =>
    .ok (.scenario { scenario.bind "endpoint" value with
      config := { scenario.config with endpoint := some value } })
  | .name value =>
    .ok (.scenario { scenario with
      name := some value, config := { scenario.config with name := some value } })
  | .setting setting =>
    (scenario.config.apply setting).map fun config => .scenario { scenario with config }
  | .inclusion group =>
    ((expandGroup groups group (.includedFrom path s.position) []).mapError .fault).map fun steps =>
      .scenario { scenario with steps := scenario.steps ++ steps }
  | _ => notAllowed s .scenario

/-- A statement in a group. -/
def addToGroup (path : Option String) (group : Group) (s : Statement) : Except Failure Block :=
  match s.command with
  | .step kind target => (newStep path s kind target).map fun step => .groupStep group step
  | .inclusion name =>
    .ok (.group { group with items := group.items ++ [.inclusion ⟨name, s.line, s.column, path⟩] })
  | _ => notAllowed s .group

/-- The parameter that a statement gives; a file comes with its path and no more than a name. -/
def newParam (name : String) (value : Tree) : Except Failure Param :=
  let param : Param := ⟨name, value⟩
  if param.wellFormed then .ok param
  else .error (.atPosition .fileArguments value.span.line value.span.column)

/-- A statement in a step. -/
def addToStep (step : Step) (s : Statement) : Except Failure Step :=
  match s.command with
  | .setting setting => (step.config.apply setting).map fun config => { step with config }
  | .name value => .ok { step with config := { step.config with name := some value } }
  | .method value => .ok { step with method := some value }
  | .body value => .ok { step with body := some value }
  | .json value => (flagValue s.word value).map fun flag => { step with json := some flag }
  | .param name value =>
    (newParam name value).map fun param => { step with params := step.params ++ [param] }
  | .expect condition => .ok { step with expects := step.expects ++ [condition] }
  | .bind name value => .ok { step with sets := step.sets ++ [⟨name, value⟩] }
  | _ => notAllowed s .step

/-- **Take in a statement**: close the blocks it does not belong to, see that it stands directly in
the one that is left, and let it take effect there. -/
def add (site : Site) (d : Draft) (s : Statement) : Traced Draft := do
  let d ← (d.closeTo s.depth).mapError Failure.fault
  if s.depth ≠ d.block.depth then
    Traced.ofExcept (.error (.fault (s.fault (.unexpectedIndent s.word))))
  else
    match d.block with
    | .root => addToRoot site d.finished s
    | .scenario scenario => do
      let block ← addToScenario site.path d.finished.groups scenario s
      pure { d with block }
    | .group group => do
      let block ← addToGroup site.path group s
      pure { d with block }
    | .scenarioStep scenario step => do
      let step ← addToStep step s
      pure { d with block := .scenarioStep scenario step }
    | .groupStep group step => do
      let step ← addToStep step s
      pure { d with block := .groupStep group step }

/-- Take in a line: understand it, then take in the statement. -/
def addLine (site : Site) (d : Draft) (line : ScriptLine) : Traced Draft := do
  let s ← classify line
  d.add site s

/-- **Take in a text** whose indentation is in the given unit, and close every block. -/
def build (site : Site) (unit : Option Int) (d : Draft) (text : String) :
    Traced ScenarioSet := do
  let lines ← Layout.scan unit text
  let d ← lines.foldlM (addLine site) d
  d.closeAll.mapError Failure.fault

end Draft

end ScenarioScript
