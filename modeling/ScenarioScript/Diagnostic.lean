import ScenarioScript.Diagnostic.Cause
import ScenarioScript.Diagnostic.Location

/-!
# Diagnostic — a fault, its place, and the way it came

A diagnostic is a cause, as much of its place as is known, and its **trace**: the statements that
loaded or included the text in which it arose, innermost first.  On its way out a diagnostic gains
a path if it has none (`locate`) and one frame for each statement it passes (`addFrame`); neither
changes its cause or position.
-/

namespace ScenarioScript

/-- A fault with its place and its trace. -/
structure Diagnostic where
  cause : Cause
  line : Option Int := none
  column : Option Int := none
  path : Option String := none
  /-- **The trace**, innermost statement first. -/
  frames : List Location := []
  deriving DecidableEq, Repr

namespace Diagnostic

/-- A fault at a position of the text at hand. -/
def atPosition (cause : Cause) (line column : Int) : Diagnostic :=
  { cause, line := some line, column := some column }

/-- The kind of the fault. -/
def kind (d : Diagnostic) : Kind := d.cause.kind

/-- The fault in words. -/
def message (d : Diagnostic) : String := d.cause.message

/-- Name the path of the text the fault is in, unless one is named already. -/
def locate (d : Diagnostic) (path : Option String) : Diagnostic :=
  if d.path.isNone then { d with path } else d

/-- Note a statement that the diagnostic travelled through. -/
def addFrame (d : Diagnostic) (origin : Location) : Diagnostic :=
  { d with frames := d.frames ++ [origin] }

/-- The place and the fault on one line; without a line number, as much of it as is known. -/
def headline (d : Diagnostic) : String :=
  match d.line, d.column, d.path with
  | some line, some column, path => s!"{shownPath path}:{line}:{column}: {d.message}"
  | some line, none, path => s!"{shownPath path}:{line}: {d.message}"
  | none, _, some path => s!"{path}: {d.message}"
  | none, _, none => d.message

/-- The diagnostic in full: its headline, then its trace, a line to a frame. -/
def render (d : Diagnostic) : String :=
  d.frames.foldl (fun text frame => s!"{text}\n  {frame.via} {frame.render}") d.headline

/-! ## What the way out leaves alone -/

@[simp] theorem cause_atPosition (cause : Cause) (line column : Int) :
    (atPosition cause line column).cause = cause := rfl

@[simp] theorem cause_locate (d : Diagnostic) (path : Option String) :
    (d.locate path).cause = d.cause := by
  unfold locate
  split <;> rfl

@[simp] theorem frames_locate (d : Diagnostic) (path : Option String) :
    (d.locate path).frames = d.frames := by
  unfold locate
  split <;> rfl

@[simp] theorem path_locate (d : Diagnostic) (path : Option String) :
    (d.locate path).path = d.path.or path := by
  unfold locate
  cases h : d.path <;> simp [h]

@[simp] theorem cause_addFrame (d : Diagnostic) (origin : Location) :
    (d.addFrame origin).cause = d.cause := rfl

@[simp] theorem path_addFrame (d : Diagnostic) (origin : Location) :
    (d.addFrame origin).path = d.path := rfl

@[simp] theorem frames_addFrame (d : Diagnostic) (origin : Location) :
    (d.addFrame origin).frames = d.frames ++ [origin] := rfl

/-- **The first path stays**: to locate a second time changes nothing. -/
theorem locate_locate (d : Diagnostic) (p : String) (q : Option String) :
    (d.locate (some p)).locate q = d.locate (some p) := by
  unfold locate
  cases h : d.path <;> simp [h]

end Diagnostic

end ScenarioScript
