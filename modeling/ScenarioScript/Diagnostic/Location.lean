/-!
# Diagnostic/Location — a place in a script, and how it was reached

A location names the script, line and column of a statement that led on to other text: a `load` or
an `include`.  A diagnostic carries the locations it travelled through.
-/

namespace ScenarioScript

/-- The line and column of something in a text, both counted from one. -/
structure Position where
  line : Int
  column : Int
  deriving DecidableEq, Repr, Inhabited

/-- **A text without a path** shows under this name. -/
def namelessText : String := "<string>"

/-- The path of a script as it shows beside a line number. -/
def shownPath : Option String → String
  | none => namelessText
  | some path => if path.isEmpty then namelessText else path

/-- The place of a statement that led on to other text. -/
structure Location where
  path : Option String
  line : Int
  column : Int
  /-- How the other text was reached. -/
  via : String := "loaded from"
  deriving DecidableEq, Repr, Inhabited

namespace Location

/-- The place of a statement that loads another script. -/
def loadedFrom (path : Option String) (origin : Position) : Location :=
  ⟨path, origin.line, origin.column, "loaded from"⟩

/-- The place of a statement that includes a group. -/
def includedFrom (path : Option String) (origin : Position) : Location :=
  ⟨path, origin.line, origin.column, "included from"⟩

/-- The position of a location in its script. -/
def position (l : Location) : Position := ⟨l.line, l.column⟩

/-- A location in one piece: path, line and column. -/
def render (l : Location) : String := s!"{shownPath l.path}:{l.line}:{l.column}"

end Location

end ScenarioScript
