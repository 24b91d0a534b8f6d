import ScenarioScript.Diagnostic.Failure
import ScenarioScript.Text.Lines

/-!
# Layout — the statements of a text and how deep they are nested

A script holds one statement to a line; nesting is shown by indentation, in a unit that is given
or else is the width of the first indented statement.  Lines that are blank or hold only a comment
do not count, whatever their indentation.

* `Margin.enter` — what one statement's indentation says, given the statement before it;
* `Layout.scan` — the statements of a text, each with its depth and place.

`scanLines_idle` says that a line that does not count has no effect but on the line numbers.
-/

namespace ScenarioScript

/-- A statement as it stands in a script: how deep it is nested, its text without indentation, and
the place where the text begins. -/
structure ScriptLine where
  depth : Int
  text : String
  line : Int
  column : Int
  deriving DecidableEq, Repr, Inhabited

namespace Layout

/-- Does a line hold no statement?  So it is when it is blank or a comment. -/
def isIdle (line : List Char) : Bool :=
  match Text.trim line with
  | [] => true
  | c :: _ => c == '#'

/-- The spaces and tabs at the start of a line. -/
def indentOf (line : List Char) : List Char := line.takeWhile fun c => c == ' ' || c == '\t'

/-- What is known of the layout between two statements: the unit, once there is one, and the depth
of the statement above. -/
structure Margin where
  unit : Option Int
  depth : Int
  deriving DecidableEq, Repr

/-- **The margin of a statement** with the given indentation on the given line.  An indentation is
a whole number of units, and at most one unit deeper than that of the statement above. -/
def Margin.enter (above : Margin) (indent : List Char) (line : Int) : Except Failure Margin :=
  let width := indent.length
  if '\t' ∈ indent then .error (.atPosition .tabInIndent line (indent.idxOf '\t' + 1))
  else if width = 0 then .ok { above with depth := 0 }
  else
    let unit := above.unit.getD width
    if unit = 0 then .error .zeroUnit
    else if Int.fmod width unit ≠ 0 then
      .error (.atPosition (.unevenIndent width unit) line (width + 1))
    else
      let depth := Int.fdiv width unit
      if depth > above.depth + 1 then .error (.atPosition .indentTooDeep line (width + 1))
      else .ok ⟨some unit, depth⟩

/-- The statements of the given lines, which are numbered from `number` on. -/
def scanLines (above : Margin) (number : Int) : List (List Char) → Except Failure (List ScriptLine)
  | [] => .ok []
  | line :: below =>
    if isIdle line then scanLines above (number + 1) below
    else
      let indent := indentOf line
      match above.enter indent number with
      | .error failure => .error failure
      | .ok margin =>
        match scanLines margin (number + 1) below with
        | .error failure => .error failure
        | .ok statements =>
          .ok (⟨margin.depth, String.ofList (Text.trim line), number, indent.length + 1⟩ ::
            statements)

/-- **The statements of a text**, with indentation in the given unit or, without one, in units of
the first indentation there is. -/
def scan (unit : Option Int) (text : String) : Except Failure (List ScriptLine) :=
  scanLines ⟨unit, 0⟩ 1 (Text.splitLines text.toList)

/-! ## Lines that do not count -/

theorem isIdle_of_blank {line : List Char} (h : ∀ c ∈ line, Text.isBlank c = true) :
    isIdle line = true := by
  simp [isIdle, Text.trim_eq_nil_iff.2 h]

/-- A line counts if there is more to it than blanks and a comment. -/
theorem isIdle_eq_false_iff {line : List Char} :
    isIdle line = false ↔ Text.trim line ≠ [] ∧ (Text.trim line).head? ≠ some '#' := by
  rw [isIdle]
  cases Text.trim line <;> simp

/-- **An idle line** has no effect but on the line numbers. -/
theorem scanLines_idle {line : List Char} (h : isIdle line = true) (above : Margin) (number : Int)
    (below : List (List Char)) :
    scanLines above number (line :: below) = scanLines above (number + 1) below := by
  simp [scanLines, h]

/-- A statement at the left edge is at depth zero, whatever the unit. -/
@[simp] theorem Margin.enter_nil (above : Margin) (line : Int) :
    above.enter [] line = .ok { above with depth := 0 } := by
  simp [Margin.enter]

end Layout

end ScenarioScript
