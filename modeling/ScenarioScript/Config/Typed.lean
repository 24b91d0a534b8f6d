import ScenarioScript.Config
import ScenarioScript.Diagnostic.Failure
import ScenarioScript.Statement
import ScenarioScript.Text.Numeral

/-!
# Config/Typed — settings whose value is read at once

Most settings keep their expression for later.  Three kinds are read when the statement is met: a
count of samples, the mode of warming up, and a truth value.  A value of another form is refused at
the place where it stands.
-/

namespace ScenarioScript

/-- **The most digits a count may have**, leading zeros included. -/
def digitLimit : Nat := 4300

/-- Refuse the value of a setting. -/
def refuseValue {α : Type} (word : String) (wanted : Wanted) (value : Tree) : Except Failure α :=
  .error (.atPosition (.badValue word wanted value.text) value.span.line value.span.column)

/-- **A count**: a number that is nothing but decimal digits. -/
def countValue (word : String) (value : Tree) : Except Failure Nat :=
  let digits := value.text.toList
  if value.label? = some .number ∧ digits ≠ [] ∧ digits.all Text.isDecimal then
    if digits.length ≤ digitLimit then .ok (Text.decimalNumber digits) else .error .numeralTooLong
  else refuseValue word .wholeNumber value

/-- **A mode of warming up**: a truth value, or the mode `'auto'`. -/
def warmupValue (word : String) (value : Tree) : Except Failure Warmup :=
  if value.label? = some .bool ∨ value.label? = some .auto then
    match Warmup.ofText? value.text with
    | some mode => .ok mode
    | none => refuseValue word .warmupMode value
  else refuseValue word .warmupMode value

/-- **A truth value**, which holds when it is left out. -/
def flagValue (word : String) : Option Tree → Except Failure Bool
  | none => .ok true
  | some value =>
    if value.label? = some .bool then .ok (value.text == "true")
    else refuseValue word .truthValue value

/-- The settings with one more statement taken in. -/
def Config.apply (c : Config) (setting : Setting) : Except Failure Config :=
  let word := setting.key.word
  match setting with
  | .auth value => .ok { c with auth := some value }
  | .header value => .ok { c with headers := c.headers ++ [value] }
  | .blackfire value => .ok { c with blackfire := some value }
  | .wait value => .ok { c with wait := some value }
  | .followRedirects value =>
    (flagValue word value).map fun flag => { c with followRedirects := some flag }
  | .warmup value => (warmupValue word value).map fun mode => { c with warmup := some mode }
  | .samples value => (countValue word value).map fun count => { c with samples := some count }

end ScenarioScript
