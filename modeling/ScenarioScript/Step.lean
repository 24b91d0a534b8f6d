import ScenarioScript.Config
import ScenarioScript.Diagnostic
import ScenarioScript.Statement.Keyword

/-!
# Step — one step of a scenario

A step says what is done and to what, under which settings, what is sent along, what is expected of
the answer, and which names are bound to parts of it.  A name that a step binds can be used from the
next step on: `Step.forwardRef?` finds a use that comes too early.
-/

namespace ScenarioScript

/-- A name bound to a value taken from a step's answer. -/
structure Binding where
  name : String
  value : Tree
  deriving DecidableEq, Repr

/-- A parameter that a step sends. -/
structure Param where
  name : String
  value : Tree
  deriving DecidableEq, Repr

namespace Param

/-- Is a file sent? -/
def isFile (p : Param) : Bool := p.value.callName? == some "file"

/-- The path of the file that is sent. -/
def filePath? (p : Param) : Option Tree := if p.isFile then p.value.callArgs[0]? else none

/-- The name under which the file is sent. -/
def fileName? (p : Param) : Option Tree := if p.isFile then p.value.callArgs[1]? else none

/-- Does a file come with its path and no more than a name? -/
def wellFormed (p : Param) : Bool :=
  !p.isFile || (1 ≤ p.value.callArgs.length && p.value.callArgs.length ≤ 2)

end Param

/-- A step. -/
structure Step where
  kind : StepKind
  target : Option Tree := none
  config : Config := {}
  method : Option Tree := none
  body : Option Tree := none
  params : List Param := []
  json : Option Bool := none
  expects : List Tree := []
  sets : List Binding := []
  line : Int := 0
  path : Option String := none
  deriving DecidableEq, Repr

namespace Step

/-- The text of the target. -/
def targetText? (s : Step) : Option String := s.target.map (·.text)

/-- The names that the step binds. -/
def setNames (s : Step) : List String := s.sets.map (·.name)

/-- **Every expression that the step evaluates**, in the order in which it is looked through. -/
def expressions (s : Step) : List Tree :=
  [s.target, s.config.name, s.config.auth, s.config.blackfire, s.config.wait, s.method,
      s.body].filterMap id ++
    s.config.headers ++ s.params.map (·.value) ++ s.expects ++ s.sets.map (·.value)

/-- The names that the step binds and that were not to be seen before. -/
def ownNames (s : Step) (visible : List String) : List String :=
  s.setNames.filter (· ∉ visible)

/-- **A name used too early**: the first name that the step uses and binds itself, and the
expression that uses it, given the names that can be seen before the step. -/
def forwardRef? (s : Step) (visible : List String) : Option (String × Tree) :=
  let own := s.ownNames visible
  s.expressions.findSome? fun value =>
    (value.refs.find? (· ∈ own)).map fun name => (name, value)

/-- A step that uses a name too early is refused, at the expression that does so. -/
def checkScope (s : Step) (visible : List String) : Except Diagnostic Unit :=
  match s.forwardRef? visible with
  | none => .ok ()
  | some (name, value) =>
    .error (.atPosition (.ownBinding name) value.span.line value.span.column)

end Step

end ScenarioScript
