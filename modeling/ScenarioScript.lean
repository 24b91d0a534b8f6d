import ScenarioScript.Expression.Lexer
import ScenarioScript.Main
import ScenarioScript.Proofs.Blocks.Growth
import ScenarioScript.Proofs.Blocks.Meaning
import ScenarioScript.Proofs.Containment.Parse
import ScenarioScript.Proofs.Expression.Earliest
import ScenarioScript.Proofs.Expression.Excerpt
import ScenarioScript.Proofs.Expression.Nesting
import ScenarioScript.Proofs.Expression.Parsing
import ScenarioScript.Proofs.Faults.Block
import ScenarioScript.Proofs.Form.Faithful
import ScenarioScript.Proofs.Form.Parse
import ScenarioScript.Proofs.Groups.Flattening
import ScenarioScript.Proofs.Layout.Columns
import ScenarioScript.Proofs.Layout.Idle
import ScenarioScript.Proofs.Layout.Rewriting
import ScenarioScript.Proofs.Loading.Alone
import ScenarioScript.Proofs.Loading.Discipline
import ScenarioScript.Proofs.Merging.Loads
import ScenarioScript.Proofs.Merging.Run
import ScenarioScript.Proofs.Naming.Set
import ScenarioScript.Proofs.Report.Parse
import ScenarioScript.Proofs.Scope.Closing
import ScenarioScript.Proofs.Scope.Referring
import ScenarioScript.Proofs.Scope.Scoping
import ScenarioScript.Proofs.Settings.Flags
import ScenarioScript.Proofs.Settings.Inheritance
import ScenarioScript.Proofs.Settings.Literals
import ScenarioScript.Proofs.Settings.Mirrors
import ScenarioScript.Proofs.Sharing.Order
import ScenarioScript.Proofs.Trace.Pointing
