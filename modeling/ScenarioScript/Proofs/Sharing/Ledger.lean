import Mathlib.Logic.Function.Basic
import ScenarioScript.Draft

/-!
# Proofs/Sharing/Ledger — a set in the making whose nodes are shared

A draft holds the open blocks apart from what has been finished.  A **ledger** does not: the nodes that
statements open are entered in a store, under a number each, and both the result and the stack of open
blocks refer to them by it.  So a statement in an open block changes one node, and the result shows the
change because it refers to the same node.

What comes from elsewhere, a loaded set or the steps of an included group, comes as a copy.

* `Ledger.add` — take in one statement, as `Draft.add` does;
* `Ledger.set` — the set so far, with every reference followed.
-/

namespace ScenarioScript

/-! ## Values of an ordered map -/

namespace OrderedMap

variable {κ α β : Type}

/-- The map with every value changed. -/
def map (f : α → β) (m : OrderedMap κ α) : OrderedMap κ β where
  entries := m.entries.map fun e => (e.1, f e.2)
  nodup_keys := by
    have := m.nodup_keys
    rwa [List.map_map]

theorem map_congr {f g : α → β} {m : OrderedMap κ α} (h : ∀ e ∈ m.entries, f e.2 = g e.2) :
    m.map f = m.map g :=
  OrderedMap.ext (List.map_congr_left fun e he => by rw [h e he])

variable [DecidableEq κ]

theorem map_insert (f : α → β) (m : OrderedMap κ α) (k : κ) (a : α) :
    (m.insert k a).map f = (m.map f).insert k (f a) := by
  have hput (entries : List (κ × α)) : (putEntry k a entries).map (fun e => (e.1, f e.2)) =
      putEntry k (f a) (entries.map fun e => (e.1, f e.2)) := by
    induction entries with
    | nil => rfl
    | cons e rest ih =>
      obtain ⟨key, value⟩ := e
      by_cases h : key = k <;> simp [putEntry, h, ih]
  exact OrderedMap.ext (hput m.entries)

theorem map_update (f : α → β) (m n : OrderedMap κ α) :
    (m.update n).map f = (m.map f).update (n.map f) := by
  have hfold (entries : List (κ × α)) (m : OrderedMap κ α) :
      (entries.foldl (fun m e => m.insert e.1 e.2) m).map f =
        (entries.map fun e => (e.1, f e.2)).foldl (fun m e => m.insert e.1 e.2) (m.map f) := by
    induction entries generalizing m with
    | nil => rfl
    | cons e rest ih => rw [List.foldl_cons, ih, map_insert, List.map_cons, List.foldl_cons]
  exact hfold n.entries m

end OrderedMap

/-! ## What is kept -/

/-- **A node as it is referred to**: by the number under which it is kept, or as a copy. -/
inductive Ref (α : Type) where
  | kept (id : Nat)
  | copy (value : α)

/-- A scenario that is kept: the steps are referred to, and all the rest is in its head. -/
structure KeptScenario where
  head : Scenario
  steps : List (Ref Step) := []

/-- What a kept group holds. -/
inductive KeptItem where
  | step (id : Nat)
  | inclusion (inclusion : Inclusion)

/-- A group that is kept: the items are referred to, and all the rest is in its head. -/
structure KeptGroup where
  head : Group
  items : List KeptItem := []

/-- **The store of kept nodes**, each under a number of its own; `size` is the next one. -/
structure Store where
  scenarios : Nat → KeptScenario := fun _ => ⟨{ key := "" }, []⟩
  groups : Nat → KeptGroup := fun _ => ⟨{ name := "" }, []⟩
  steps : Nat → Step := fun _ => { kind := .reload }
  size : Nat := 0

/-- A set that refers to its scenarios and groups; the bindings and settings are in its head. -/
structure KeptSet where
  head : ScenarioSet := {}
  scenarios : List (Ref Scenario) := []
  groups : OrderedMap String (Ref Group) := .empty

/-- The set with one scenario more, which comes last. -/
def KeptSet.withScenario (kept : KeptSet) (id : Nat) : KeptSet :=
  { kept with scenarios := kept.scenarios ++ [.kept id] }

/-- **Take in a loaded set**, whose scenarios and groups come as copies. -/
def KeptSet.merge (kept : KeptSet) (loaded : ScenarioSet) : KeptSet where
  head := { kept.head with
    bindings := kept.head.bindings.update loaded.bindings
    config := kept.head.config.merged loaded.config }
  scenarios := kept.scenarios ++ loaded.scenarios.map .copy
  groups := kept.groups.update (loaded.groups.map .copy)

/-- The set with a group under a name. -/
def KeptSet.withGroup (kept : KeptSet) (name : String) (id : Nat) : KeptSet :=
  { kept with groups := kept.groups.insert name (.kept id) }

namespace Store

/-! ## Following references -/

/-- The step that is referred to. -/
def step (σ : Store) : Ref Step → Step
  | .kept id => σ.steps id
  | .copy step => step

/-- The item that is referred to. -/
def item (σ : Store) : KeptItem → GroupItem
  | .step id => .step (σ.steps id)
  | .inclusion inclusion => .inclusion inclusion

/-- **The scenario that is referred to**, with its steps. -/
def scenario (σ : Store) : Ref Scenario → Scenario
  | .kept id => { (σ.scenarios id).head with steps := (σ.scenarios id).steps.map σ.step }
  | .copy scenario => scenario

/-- **The group that is referred to**, with its items. -/
def group (σ : Store) : Ref Group → Group
  | .kept id => { (σ.groups id).head with items := (σ.groups id).items.map σ.item }
  | .copy group => group

/-- The set with every reference followed. -/
def set (σ : Store) (kept : KeptSet) : ScenarioSet :=
  { kept.head with
    scenarios := kept.scenarios.map σ.scenario
    groups := kept.groups.map σ.group }

/-! ## Entering and changing nodes -/

/-- Enter a scenario, under the next number. -/
def enterScenario (σ : Store) (head : Scenario) : Store :=
  { σ with scenarios := Function.update σ.scenarios σ.size ⟨head, []⟩, size := σ.size + 1 }

/-- Enter a group, under the next number. -/
def enterGroup (σ : Store) (head : Group) : Store :=
  { σ with groups := Function.update σ.groups σ.size ⟨head, []⟩, size := σ.size + 1 }

/-- Enter a step, under the next number. -/
def enterStep (σ : Store) (step : Step) : Store :=
  { σ with steps := Function.update σ.steps σ.size step, size := σ.size + 1 }

/-- Change the scenario with a number. -/
def changeScenario (σ : Store) (id : Nat) (f : KeptScenario → KeptScenario) : Store :=
  { σ with scenarios := Function.update σ.scenarios id (f (σ.scenarios id)) }

/-- Change the group with a number. -/
def changeGroup (σ : Store) (id : Nat) (f : KeptGroup → KeptGroup) : Store :=
  { σ with groups := Function.update σ.groups id (f (σ.groups id)) }

/-- Change the step with a number. -/
def changeStep (σ : Store) (id : Nat) (step : Step) : Store :=
  { σ with steps := Function.update σ.steps id step }

end Store

/-! ## Open blocks -/

namespace Ledger

/-- Which node an open block builds. -/
inductive Node where
  | scenario (id : Nat)
  | group (id : Nat)
  | step (id : Nat)
  deriving DecidableEq, Repr

/-- **An open block**: how deep its statement stands, the node it builds, the scenario it is in, if it
is in one, and the names that can be used in it. -/
structure Frame where
  depth : Int
  node : Node
  scenario : Option Nat := none
  visible : List String := []
  deriving DecidableEq, Repr

/-- The open block when more names can be used in it. -/
def Frame.see (f : Frame) (names : List String) : Frame :=
  { f with visible := f.visible ++ names }

end Ledger

/-- **A ledger**: the store, the result, and the open blocks, innermost first. -/
structure Ledger where
  store : Store := {}
  result : KeptSet := {}
  stack : List Ledger.Frame := []

namespace Ledger

/-- **The set so far**, with every reference followed. -/
def set (l : Ledger) : ScenarioSet := l.store.set l.result

/-! ## Closing blocks -/

/-- **Close an open block.**  A step of a scenario is checked, and the names that it binds can be used
in the block around it. -/
def close (σ : Store) (f : Frame) : Except Diagnostic (List String) :=
  match f.node, f.scenario with
  | .step id, some _ => ((σ.steps id).checkScope f.visible).map fun _ => (σ.steps id).setNames
  | _, _ => .ok []

/-- **Close the blocks** at a depth and deeper; the first of them comes to see the given names. -/
def closeFrames (σ : Store) (depth : Int) (names : List String) :
    List Frame → Except Diagnostic (List Frame)
  | [] => .ok []
  | f :: below =>
    if depth ≤ f.depth then
      (close σ (f.see names)).bind fun names => closeFrames σ depth names below
    else .ok (f.see names :: below)

/-- The ledger with the blocks closed that are at a depth and deeper. -/
def closeTo (l : Ledger) (depth : Int) : Except Diagnostic Ledger :=
  (closeFrames l.store depth [] l.stack).map fun stack => { l with stack }

/-! ## Taking in a statement -/

/-- The depth that a statement has which stands directly in the innermost open block. -/
def expectedDepth (l : Ledger) : Int :=
  match l.stack with
  | [] => 0
  | f :: _ => f.depth + 1

/-- Let more names be seen in the innermost open block. -/
def see (l : Ledger) (names : List String) : Ledger :=
  { l with stack := l.stack.modifyHead (·.see names) }

/-- A scenario that begins: it is entered, and comes last in the result. -/
def openScenario (l : Ledger) (depth : Int) (scenario : Scenario) : Ledger :=
  let id := l.store.size
  { store := l.store.enterScenario scenario
    result := l.result.withScenario id
    stack := ⟨depth, .scenario id, some id, scenario.bindings.keys⟩ :: l.stack }

/-- A group that begins: it is entered, and the result has it under its name. -/
def openGroup (l : Ledger) (depth : Int) (group : Group) : Ledger :=
  let id := l.store.size
  { store := l.store.enterGroup group
    result := l.result.withGroup group.name id
    stack := ⟨depth, .group id, none, []⟩ :: l.stack }

/-- A step that begins in a scenario: it is entered, and comes last in the scenario. -/
def openScenarioStep (l : Ledger) (depth : Int) (id : Nat) (visible : List String) (step : Step) :
    Ledger :=
  let own := l.store.size
  { l with
    store := (l.store.enterStep step).changeScenario id fun s =>
      { s with steps := s.steps ++ [.kept own] }
    stack := ⟨depth, .step own, some id, visible⟩ :: l.stack }

/-- A step that begins in a group: it is entered, and comes last in the group. -/
def openGroupStep (l : Ledger) (depth : Int) (id : Nat) (step : Step) : Ledger :=
  let own := l.store.size
  { l with
    store := (l.store.enterStep step).changeGroup id fun g =>
      { g with items := g.items ++ [.step own] }
    stack := ⟨depth, .step own, none, []⟩ :: l.stack }

/-- The ledger with the head of a scenario changed. -/
def changeHead (l : Ledger) (id : Nat) (f : Scenario → Scenario) : Ledger :=
  { l with store := l.store.changeScenario id fun s => { s with head := f s.head } }

/-- A statement at top level. -/
def addToRoot (site : Site) (l : Ledger) (s : Statement) : Traced Ledger :=
  let head := l.result.head
  match s.command with
  | .bind name value => pure { l with result := { l.result with head := head.bind name value } }
  | .endpoint value =>
    pure { l with
      result := { l.result with
        head := { head.bind "endpoint" value with
          config := { head.config with endpoint := some value } } } }
  | .setting setting => do
    let config ← (head.config.apply setting : Except Failure Config)
    pure { l with result := { l.result with head := { head with config } } }
  | .load target => do
    let loaded ← site.load target (.loadedFrom site.path s.position)
    pure { l with result := l.result.merge loaded }
  | .scenario label =>
    pure (l.openScenario s.depth (Draft.newScenario head site.path s.line label))
  | .group name => pure (l.openGroup s.depth { name, line := s.line, path := site.path })
  | _ => Traced.ofExcept (Draft.notAllowed s .topLevel)

/-- A statement in the scenario with the given number, in whose block the given names can be used. -/
def addToScenario (path : Option String) (l : Ledger) (id : Nat) (visible : List String)
    (s : Statement) : Except Failure Ledger :=
  match s.command with
  | .step kind target =>
    (Draft.newStep path s kind target).map fun step => l.openScenarioStep s.depth id visible step
  | .bind name value => .ok ((l.changeHead id (·.bind name value)).see [name])
  | .endpoint value =>
    let change := fun head : Scenario => { head.bind "endpoint" value with
      config := { head.config with endpoint := some value } }
    .ok ((l.changeHead id change).see ["endpoint"])
  | .name value =>
    let change := fun head : Scenario => { head with
      name := some value, config := { head.config with name := some value } }
    .ok (l.changeHead id change)
  | .setting setting =>
    ((l.store.scenarios id).head.config.apply setting).map fun config =>
      l.changeHead id ({ · with config })
  | .inclusion group =>
    let origin := Location.includedFrom path s.position
    ((expandGroup l.set.groups group origin []).mapError Failure.fault).map fun steps =>
      let store := l.store.changeScenario id fun s => { s with steps := s.steps ++ steps.map .copy }
      see { l with store } (steps.flatMap (·.setNames))
  | _ => Draft.notAllowed s .scenario

/-- A statement in the group with the given number. -/
def addToGroup (path : Option String) (l : Ledger) (id : Nat) (s : Statement) :
    Except Failure Ledger :=
  match s.command with
  | .step kind target =>
    (Draft.newStep path s kind target).map fun step => l.openGroupStep s.depth id step
  | .inclusion name =>
    let item := KeptItem.inclusion ⟨name, s.line, s.column, path⟩
    .ok { l with store := l.store.changeGroup id fun g => { g with items := g.items ++ [item] } }
  | _ => Draft.notAllowed s .group

/-- A statement in the step with the given number. -/
def addToStep (l : Ledger) (id : Nat) (s : Statement) : Except Failure Ledger :=
  (Draft.addToStep (l.store.steps id) s).map fun step =>
    { l with store := l.store.changeStep id step }

/-- Let a statement take effect in the innermost open block. -/
def takeIn (site : Site) (l : Ledger) (s : Statement) : Traced Ledger :=
  match l.stack with
  | [] => l.addToRoot site s
  | f :: _ =>
    match f.node with
    | .scenario id => liftM (l.addToScenario site.path id f.visible s)
    | .group id => liftM (l.addToGroup site.path id s)
    | .step id => liftM (l.addToStep id s)

/-- **Take in a statement**: close the blocks it does not belong to, see that it stands directly in
the innermost one that is left, and let it take effect there. -/
def add (site : Site) (l : Ledger) (s : Statement) : Traced Ledger := do
  let l ← (l.closeTo s.depth).mapError Failure.fault
  if s.depth ≠ l.expectedDepth then
    Traced.ofExcept (.error (.fault (s.fault (.unexpectedIndent s.word))))
  else l.takeIn site s

end Ledger

end ScenarioScript
