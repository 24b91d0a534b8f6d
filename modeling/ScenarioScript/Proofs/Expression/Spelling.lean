import ScenarioScript.Expression.Cursor
import ScenarioScript.Proofs.Expression.Grammar

/-!
# Proofs/Expression/Spelling — the tree of a derivation, spans included

A span is known once it is known from which tokens its node was read: it reaches from the start of
the first of them to the stop of the last (`Source.spanOf`).  So a derivation says more of its tree
than the shape, and `Whole.tree` is all of it.

The tree does not depend on where a derivation stands in an expression, but for its span: what is
joined to a chain lengthens the span of the concatenation, and parentheses widen the span of what
they enclose.
-/

namespace ScenarioScript

/-! ## The span of a row of tokens -/

/-- Where a row of tokens starts. -/
def rowStart (row : List Token) : Nat := (row.head?.map Token.start).getD 0

/-- **Where the token last passed stops** behind a row of tokens; before the row it was at the given
offset. -/
def rowStop (before : Nat) (row : List Token) : Nat := row.foldl (fun _ t => t.stop) before

/-- **The span of a row of tokens**, from the start of the first to the stop of the last. -/
def Source.spanOf (src : Source) (row : List Token) : Span :=
  src.span (rowStart row) (rowStop 0 row)

@[simp] theorem rowStart_cons (t : Token) (row : List Token) : rowStart (t :: row) = t.start := rfl

theorem rowStart_append {row : List Token} (h : row ≠ []) (more : List Token) :
    rowStart (row ++ more) = rowStart row := by
  cases row with
  | nil => exact absurd rfl h
  | cons t row => rfl

@[simp] theorem rowStop_nil (before : Nat) : rowStop before [] = before := rfl

@[simp] theorem rowStop_cons (before : Nat) (t : Token) (row : List Token) :
    rowStop before (t :: row) = rowStop t.stop row := rfl

@[simp] theorem rowStop_append (before : Nat) (row more : List Token) :
    rowStop before (row ++ more) = rowStop (rowStop before row) more :=
  List.foldl_append

/-- What was before a row does not matter behind it, unless the row is empty. -/
theorem rowStop_of_ne_nil {row : List Token} (h : row ≠ []) (before : Nat) :
    rowStop before row = rowStop 0 row := by
  cases row with
  | nil => exact absurd rfl h
  | cons t row => rfl

namespace Cursor

/-- **The node of a row that has just been passed** has the span of the row. -/
theorem node_passed {row : List Token} (h : row ≠ []) (src : Source) (label : Label)
    (children : List Tree) (rest : List Token) (before : Nat) :
    node ⟨rest, rowStop before row⟩ src label children (rowStart row) =
      .node label (src.spanOf row) children := by
  rw [node, rowStop_of_ne_nil h]
  rfl

theorem start_current_append {row : List Token} (h : row ≠ []) (src : Source) (rest : List Token)
    (before : Nat) : (current ⟨row ++ rest, before⟩ src).start = rowStart row := by
  cases row with
  | nil => exact absurd rfl h
  | cons t row => rfl

end Cursor

/-! ## The tree of a derivation -/

namespace Grammar

variable (src : Source)

mutual

/-- The tree of a concatenation. -/
def Concat.tree : Concat → Tree
  | .mk first joined => joined.treeOn first.tokens first.tree

/-- The tree of `left`, which was read from a row, with everything joined to it. -/
def Joined.treeOn : Joined → List Token → Tree → Tree
  | .none, _, left => left
  | .join tilde right more, row, left =>
    more.treeOn (row ++ tilde.token :: right.tokens)
      (.node .concat (src.spanOf (row ++ tilde.token :: right.tokens)) [left, right.tree])

/-- The tree of a chain: the primary itself if no method is called on it. -/
def Chain.tree : Chain → Tree
  | .mk base .none => base.tree
  | .mk base (.call point name opening args more) =>
    .node .chain (src.spanOf (base.tokens ++ (Calls.call point name opening args more).tokens))
      (base.tree :: (Calls.call point name opening args more).trees)

/-- The trees of method calls. -/
def Calls.trees : Calls → List Tree
  | .none => []
  | .call _ name opening args more =>
    .node .method (src.spanOf (name.token :: opening.token :: args.tokens))
      [.leaf name.token, args.tree opening.token] :: more.trees

/-- The tree of a primary.  Parentheses change nothing but the span. -/
def Primary.tree : Primary → Tree
  | .literal t label _ => .node label (src.spanOf [t]) [.leaf t]
  | .var name => .node .var (src.spanOf [name.token]) [.leaf name.token]
  | .call name opening _ args =>
    .node .call (src.spanOf (name.token :: opening.token :: args.tokens))
      [.leaf name.token, args.tree opening.token]
  | .paren opening inner closing =>
    inner.tree.withSpan (src.spanOf (opening.token :: (inner.tokens ++ [closing.token])))

/-- The tree of arguments, behind the given opening parenthesis. -/
def Args.tree {inMethod : Bool} : Args inMethod → Token → Tree
  | .none closing, opening => .node .args (src.spanOf [opening, closing.token]) []
  | .some list, opening => .node .args (src.spanOf (opening :: list.tokens)) list.trees

/-- The trees of one argument or more. -/
def ArgList.trees {inMethod : Bool} : ArgList inMethod → List Tree
  | .last argument _ => [argument.tree]
  | .more argument _ list => argument.tree :: list.trees

/-- The tree of an argument. -/
def Argument.tree {inMethod : Bool} : Argument inMethod → Tree
  | .value c => c.tree
  | .current t => .node .current (src.spanOf [t.token]) [.leaf t.token]

end

/-- **The tree of an expression**, spans included. -/
def Whole.tree {allowCompare : Bool} : Whole allowCompare → Tree
  | .value c => c.tree src
  | .compare left op _ right =>
    .node .compare (src.spanOf (left.tokens ++ op :: right.tokens))
      [left.tree src, .leaf op, right.tree src]

end Grammar

end ScenarioScript
