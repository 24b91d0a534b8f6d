import ScenarioScript.Draft

/-!
# Proofs/Blocks/Outline — a script as a forest of blocks

An **outline** is what the lines of a script are when their depth is read as nesting: a row of
entries, some of them scenarios and groups, whose members may be steps, whose clauses say more of
them.  The types let nothing stand where it may not, so an outline is well formed by being one.

* `Outline.statements` — the statements of an outline in the order in which they are written, each
  with its nesting level for its depth;
* `Outline.meaning` — the set that an outline defines, by recursion on it: every block is worked out
  from its parts, and there is neither an open block nor a depth.
-/

namespace ScenarioScript

namespace Outline

/-- What a statement brings along besides its command: where it stands, and its argument as it was
written. -/
structure Mark where
  argument : String
  line : Int
  column : Int

/-- The statement with a command at a depth. -/
def Mark.statement (m : Mark) (command : Command) (depth : Int) : Statement :=
  ⟨command, m.argument, depth, m.line, m.column⟩

/-- The place at which the statement begins. -/
def Mark.position (m : Mark) : Position := ⟨m.line, m.column⟩

/-! ## The parts of an outline -/

/-- What can stand in a step. -/
inductive Clause where
  | setting (mark : Mark) (setting : Setting)
  | name (mark : Mark) (value : Tree)
  | method (mark : Mark) (value : Tree)
  | body (mark : Mark) (value : Tree)
  | json (mark : Mark) (value : Option Tree)
  | param (mark : Mark) (name : String) (value : Tree)
  | expect (mark : Mark) (condition : Tree)
  | bind (mark : Mark) (name : String) (value : Tree)

/-- A step with all that stands in it. -/
structure StepBlock where
  mark : Mark
  kind : StepKind
  target : Option Tree
  clauses : List Clause

/-- The blocks that hold steps. -/
inductive Holder where
  | scenario
  | group

/-- What such a block comes to be. -/
abbrev Holder.Body : Holder → Type
  | scenario => Scenario
  | group => Group

/-- **What can stand in a scenario or a group**: both hold steps and inclusions, a scenario has
bindings and settings besides. -/
inductive Member : Holder → Type where
  | step {holder : Holder} (block : StepBlock) : Member holder
  | inclusion {holder : Holder} (mark : Mark) (group : String) : Member holder
  | bind (mark : Mark) (name : String) (value : Tree) : Member .scenario
  | endpoint (mark : Mark) (value : Tree) : Member .scenario
  | name (mark : Mark) (value : Tree) : Member .scenario
  | setting (mark : Mark) (setting : Setting) : Member .scenario

/-- **What can stand at top level**: bindings and settings, the loading of other scripts, scenarios and
groups. -/
inductive Entry where
  | bind (mark : Mark) (name : String) (value : Tree)
  | endpoint (mark : Mark) (value : Tree)
  | setting (mark : Mark) (setting : Setting)
  | load (mark : Mark) (target : String)
  | block (holder : Holder) (mark : Mark) (label : String) (members : List (Member holder))

/-! ## The statements in writing order -/

/-- The statement that a clause is. -/
def Clause.statement : Clause → Statement
  | setting mark choice => mark.statement (.setting choice) 2
  | name mark value => mark.statement (.name value) 2
  | method mark value => mark.statement (.method value) 2
  | body mark value => mark.statement (.body value) 2
  | json mark value => mark.statement (.json value) 2
  | param mark bound value => mark.statement (.param bound value) 2
  | expect mark condition => mark.statement (.expect condition) 2
  | bind mark bound value => mark.statement (.bind bound value) 2

/-- The statement that begins a step. -/
def StepBlock.opening (b : StepBlock) : Statement :=
  b.mark.statement (.step b.kind b.target) 1

/-- The statements of a step: the one that begins it, and behind it the clauses. -/
def StepBlock.statements (b : StepBlock) : List Statement :=
  b.opening :: b.clauses.map Clause.statement

/-- The statements of a member. -/
def Member.statements {holder : Holder} : Member holder → List Statement
  | step block => block.statements
  | inclusion mark group => [mark.statement (.inclusion group) 1]
  | bind mark bound value => [mark.statement (.bind bound value) 1]
  | endpoint mark value => [mark.statement (.endpoint value) 1]
  | name mark value => [mark.statement (.name value) 1]
  | setting mark choice => [mark.statement (.setting choice) 1]

/-- The statement that begins a scenario or group. -/
def Holder.opening (mark : Mark) (label : String) : Holder → Statement
  | scenario => mark.statement (.scenario label) 0
  | group => mark.statement (.group label) 0

/-- The statements of an entry. -/
def Entry.statements : Entry → List Statement
  | bind mark bound value => [mark.statement (.bind bound value) 0]
  | endpoint mark value => [mark.statement (.endpoint value) 0]
  | setting mark choice => [mark.statement (.setting choice) 0]
  | load mark target => [mark.statement (.load target) 0]
  | block holder mark label members =>
    holder.opening mark label :: members.flatMap Member.statements

/-! ## What the parts mean

Where a check does not pass there is no meaning. -/

/-- What a clause makes of its step. -/
def Clause.apply (step : Step) : Clause → Option Step
  | setting _ choice =>
    (step.config.apply choice).toOption.map fun config => { step with config }
  | name _ value => some { step with config := { step.config with name := some value } }
  | method _ value => some { step with method := some value }
  | body _ value => some { step with body := some value }
  | json _ value =>
    (flagValue Keyword.json.word value).toOption.map fun flag => { step with json := some flag }
  | param _ bound value =>
    let param : Param := ⟨bound, value⟩
    if param.wellFormed then some { step with params := step.params ++ [param] } else none
  | expect _ condition => some { step with expects := step.expects ++ [condition] }
  | bind _ bound value => some { step with sets := step.sets ++ [⟨bound, value⟩] }

/-- A step before its clauses. -/
def StepBlock.head (path : Option String) (b : StepBlock) : Step :=
  { kind := b.kind, target := b.target, line := b.mark.line, path }

/-- **The meaning of a step** in a script with the given path. -/
def StepBlock.meaning (path : Option String) (b : StepBlock) : Option Step :=
  b.clauses.foldlM Clause.apply (b.head path)

/-- A step behind those there are.  In a scenario it may not use a name that it binds itself and that
nothing above it has bound. -/
def Holder.addStep : {holder : Holder} → holder.Body → Step → Option holder.Body
  | .scenario, s, step =>
    if step.forwardRef? s.visible = none then some { s with steps := s.steps ++ [step] } else none
  | .group, g, step => some { g with items := g.items ++ [.step step] }

/-- **What a member makes of its block**, where the groups above the block are given. -/
def Member.apply (path : Option String) (groups : OrderedMap String Group) :
    {holder : Holder} → holder.Body → Member holder → Option holder.Body
  | _, body, step block => (block.meaning path).bind (Holder.addStep body)
  | .scenario, s, inclusion mark group =>
    (expandGroup groups group (.includedFrom path mark.position) []).toOption.map fun steps =>
      { s with steps := s.steps ++ steps }
  | .group, g, inclusion mark group =>
    some { g with items := g.items ++ [.inclusion ⟨group, mark.line, mark.column, path⟩] }
  | _, s, bind _ bound value => some (s.bind bound value)
  | _, s, endpoint _ value =>
    some { s.bind "endpoint" value with config := { s.config with endpoint := some value } }
  | _, s, name _ value =>
    some { s with name := some value, config := { s.config with name := some value } }
  | _, s, setting _ choice =>
    (s.config.apply choice).toOption.map fun config => { s with config }

/-- A scenario or group before its members.  A scenario begins with the bindings and settings that
there are. -/
def Holder.start (path : Option String) (set : ScenarioSet) (mark : Mark) (label : String) :
    (holder : Holder) → holder.Body
  | scenario => Draft.newScenario set path mark.line label
  | group => { name := label, line := mark.line, path }

/-- A scenario or group behind those there are. -/
def Holder.finish (set : ScenarioSet) : {holder : Holder} → holder.Body → ScenarioSet
  | .scenario, s => { set with scenarios := set.scenarios ++ [s] }
  | .group, g => { set with groups := set.groups.insert g.name g }

/-- What the members make of a scenario or group. -/
def Holder.fill (path : Option String) (groups : OrderedMap String Group) {holder : Holder}
    (members : List (Member holder)) (body : holder.Body) : Option holder.Body :=
  members.foldlM (Member.apply path groups) body

/-- **What an entry makes of the set above it.** -/
def Entry.apply (site : Site) (set : ScenarioSet) : Entry → Option ScenarioSet
  | bind _ bound value => some (set.bind bound value)
  | endpoint _ value =>
    some { set.bind "endpoint" value with config := { set.config with endpoint := some value } }
  | setting _ choice =>
    (set.config.apply choice).toOption.map fun config => { set with config }
  | load mark target =>
    (site.load target (.loadedFrom site.path mark.position)).outcome.toOption.map set.merge
  | block holder mark label members =>
    (Holder.fill site.path set.groups members (holder.start site.path set mark label)).map
      (Holder.finish set)

end Outline

/-- **An outline**: what stands at top level, in order. -/
abbrev Outline : Type := List Outline.Entry

namespace Outline

/-- The statements of an outline. -/
def statements (o : Outline) : List Statement := o.flatMap Entry.statements

/-- **The set that an outline defines**, on top of a set there is. -/
def meaning (site : Site) (set : ScenarioSet) (o : Outline) : Option ScenarioSet :=
  o.foldlM (Entry.apply site) set

/-- **Every entry of an outline with a meaning** makes something of the meaning of those above it. -/
theorem exists_apply_of_meaning {site : Site} {set result : ScenarioSet} {before after : Outline}
    {e : Entry} (h : meaning site set (before ++ e :: after) = some result) :
    ∃ above below, before.meaning site set = some above ∧ e.apply site above = some below ∧
      after.meaning site below = some result := by
  rw [meaning, List.foldlM_append] at h
  obtain ⟨above, habove, hrest⟩ := Option.bind_eq_some_iff.1 h
  rw [List.foldlM_cons] at hrest
  obtain ⟨below, happly, hafter⟩ := Option.bind_eq_some_iff.1 hrest
  exact ⟨above, below, habove, happly, hafter⟩

/-! ## Where statements to load stand -/

theorem Member.command_ne_load {holder : Holder} (m : Member holder) (target : String) :
    ∀ s ∈ m.statements, s.command ≠ .load target := by
  cases m with
  | step block =>
    refine List.forall_mem_cons.2 ⟨nofun, fun s hs => ?_⟩
    obtain ⟨clause, -, rfl⟩ := List.mem_map.1 hs
    cases clause <;> exact nofun
  | _ => exact List.forall_mem_singleton.2 nofun

/-- **Statements to load** stand at top level. -/
theorem exists_load_of_mem_statements {o : Outline} {s : Statement} {target : String}
    (hs : s ∈ o.statements) (hcommand : s.command = .load target) :
    ∃ (before : Outline) (mark : Mark) (after : Outline), o = before ++ .load mark target :: after := by
  obtain ⟨e, he, hmem⟩ := List.mem_flatMap.1 hs
  obtain ⟨before, after, rfl⟩ := List.append_of_mem he
  cases e with
  | load mark target' =>
    obtain rfl := List.mem_singleton.1 hmem
    obtain rfl := Command.load.inj hcommand
    exact ⟨before, mark, after, rfl⟩
  | block holder mark label members =>
    obtain rfl | hmem := List.mem_cons.1 hmem
    · cases holder <;> exact absurd hcommand nofun
    · obtain ⟨m, -, hmem⟩ := List.mem_flatMap.1 hmem
      exact absurd hcommand (m.command_ne_load target s hmem)
  | _ =>
    obtain rfl := List.mem_singleton.1 hmem
    exact absurd hcommand nofun

end Outline

end ScenarioScript
