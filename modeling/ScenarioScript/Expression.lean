import ScenarioScript.Expression.Parser

/-!
# Expression — from the text of an expression to its tree

`parseExpression` reads the argument of a statement.  It is given the place at which the text stands
in the script, so that every span and every diagnostic speaks of the script.
-/

namespace ScenarioScript

/-- **The tree of an expression**, given its text and place.  A comparison is read only where it is
allowed. -/
def parseExpression (text : List Char) (line column : Int) (allowCompare : Bool) :
    Except Failure Tree :=
  match tokensOf line column text with
  | .error failure => .error failure
  | .ok tokens =>
    match Descent.whole (.ofText text line column) allowCompare ⟨tokens, 0⟩ with
    | .error halt => .error halt.failure
    | .ok (tree, _) => .ok tree

end ScenarioScript
