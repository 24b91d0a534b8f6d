/-!
# Diagnostic/Kind — the families of diagnostics

Diagnostics form a small tree: a diagnostic concerns the *script* as a whole, and more closely its
characters (`lexical`), its *syntax*, its *references* or a *cycle*; most belong to a leaf below one
of these.  `lineage` is the way from a kind up to the root.
-/

namespace ScenarioScript

/-- The kinds of diagnostic. -/
inductive Kind where
  | script
  | lexical
  | inconsistentIndent
  | unterminatedString
  | grammar
  | unexpectedToken
  | unbalancedParens
  | missingValue
  | unknownStatement
  | reference
  | unknownGroup
  | unresolvedLoad
  | cycle
  | includeCycle
  | loadCycle
  deriving DecidableEq, Repr, Inhabited

namespace Kind

/-- The kind above a kind; `script` is the root. -/
def parent? : Kind → Option Kind
  | script => none
  | lexical | grammar | reference | cycle => some script
  | inconsistentIndent | unterminatedString => some lexical
  | unexpectedToken | unbalancedParens | missingValue | unknownStatement => some grammar
  | unknownGroup | unresolvedLoad => some reference
  | includeCycle | loadCycle => some cycle

/-- How far below the root a kind lies. -/
def level : Kind → Nat
  | script => 0
  | lexical | grammar | reference | cycle => 1
  | _ => 2

theorem level_parent? {k p : Kind} (h : k.parent? = some p) : p.level < k.level := by
  cases k <;> simp [parent?] at h <;> subst h <;> decide

/-- **The lineage** of a kind: the kind itself, the kind above it, and so on up to the root. -/
def lineage (k : Kind) : List Kind :=
  match _h : k.parent? with
  | none => [k]
  | some p => k :: p.lineage
termination_by k.level
decreasing_by exact level_parent? _h

end Kind

end ScenarioScript
