import ScenarioScript.Expression.Tree
import ScenarioScript.Layout
import ScenarioScript.Statement.Keyword

/-!
# Statement — one line of a script, understood

A statement is a command and the place it was given at.  Each command holds what its keyword asks
for: a label or name as it stands, a path, a name with an expression, an expression, an expression
that may be left out, or nothing.
-/

namespace ScenarioScript

/-- A setting that a script, a scenario and a step can all have, and its value as it was written. -/
inductive Setting where
  | auth (value : Tree)
  | header (value : Tree)
  | blackfire (value : Tree)
  | followRedirects (value : Option Tree)
  | warmup (value : Tree)
  | samples (value : Tree)
  | wait (value : Tree)
  deriving DecidableEq, Repr

namespace Setting

/-- Which setting it is. -/
def key : Setting → SettingKey
  | auth _ => .auth
  | header _ => .header
  | blackfire _ => .blackfire
  | followRedirects _ => .followRedirects
  | warmup _ => .warmup
  | samples _ => .samples
  | wait _ => .wait

/-- The value as it was written; only a truth value can be left out. -/
def value? : Setting → Option Tree
  | auth value | header value | blackfire value | warmup value | samples value | wait value =>
    some value
  | followRedirects value => value

end Setting

/-- What a statement tells to do. -/
inductive Command where
  /-- Begin a scenario; without a label it is anonymous. -/
  | scenario (label : String)
  /-- Begin a group of steps. -/
  | group (name : String)
  /-- Put in the steps of a group. -/
  | inclusion (group : String)
  /-- Read another script. -/
  | load (target : String)
  /-- Bind a name to a value. -/
  | bind (name : String) (value : Tree)
  | endpoint (value : Tree)
  | name (value : Tree)
  | method (value : Tree)
  | body (value : Tree)
  | param (name : String) (value : Tree)
  | json (value : Option Tree)
  | expect (condition : Tree)
  | setting (setting : Setting)
  /-- Begin a step, with the target it acts on. -/
  | step (kind : StepKind) (target : Option Tree)
  /-- A word that is no keyword, or one that came without what it asks for. -/
  | unknown (word : String)
  deriving DecidableEq, Repr

namespace Command

/-- The word that a command begins with. -/
def word : Command → String
  | scenario _ => Keyword.scenario.word
  | group _ => Keyword.group.word
  | inclusion _ => Keyword.inclusion.word
  | load _ => Keyword.load.word
  | bind .. => Keyword.bind.word
  | endpoint _ => Keyword.endpoint.word
  | name _ => Keyword.name.word
  | method _ => Keyword.method.word
  | body _ => Keyword.body.word
  | param .. => Keyword.param.word
  | json _ => Keyword.json.word
  | expect _ => Keyword.expect.word
  | Command.setting choice => choice.key.word
  | step kind _ => kind.word
  | unknown word => word

/-- The label, name or path that is taken as it stands. -/
def label? : Command → Option String
  | scenario label | group label | inclusion label | load label => some label
  | _ => none

/-- The name that a value is given to. -/
def boundName? : Command → Option String
  | bind bound _ | param bound _ => some bound
  | _ => none

/-- The expression. -/
def expr? : Command → Option Tree
  | bind _ value | endpoint value | name value | method value | body value | param _ value
  | expect value => some value
  | json value | step _ value => value
  | Command.setting choice => choice.value?
  | _ => none

/-- Does the command begin a block? -/
def opensBlock : Command → Bool
  | scenario _ | group _ | step .. => true
  | _ => false

/-- **A word that stands alone**: the command it is, as far as it can do without an argument. -/
def ofWordAlone (word : String) : Command :=
  match Keyword.ofWord? word with
  | some .scenario => scenario ""
  | some .group => group ""
  | some .inclusion => inclusion ""
  | some .load => load ""
  | some .json => json none
  | some (.setting .followRedirects) => setting (.followRedirects none)
  | some (.step kind) => step kind none
  | _ => unknown word

end Command

/-- A statement: a command, its argument as it was written, and where it stands. -/
structure Statement where
  command : Command
  argument : String
  depth : Int
  line : Int
  column : Int
  deriving DecidableEq, Repr

namespace Statement

/-- The word that a statement begins with. -/
def word (s : Statement) : String := s.command.word

/-- The place at which a statement begins. -/
def position (s : Statement) : Position := ⟨s.line, s.column⟩

/-- A fault of the statement as a whole. -/
def fault (s : Statement) (cause : Cause) : Diagnostic := .atPosition cause s.line s.column

end Statement

end ScenarioScript
