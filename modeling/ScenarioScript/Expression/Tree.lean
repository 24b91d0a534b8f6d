import ScenarioScript.Expression.Token

/-!
# Expression/Tree — the syntax tree of an expression

A tree is a token or a labelled row of trees with the **span** of text it was read from.  The span
is kept word for word, since what evaluates an expression later is given its text and not its tree.

* `Tree.refs` — the variables a tree refers to, in order;
* `Tree.callName?`, `Tree.callArgs`, `Tree.methods` — what a call calls;
* `Tree.outline` — the tree drawn with one line to a node.
-/

namespace ScenarioScript

/-- What a node is. -/
inductive Label where
  /-- A quoted text. -/
  | string
  | number
  | bool
  /-- The mode `'auto'`, which is written like a string. -/
  | auto
  | var
  /-- The current value inside a chained call. -/
  | current
  /-- A function and its arguments. -/
  | call
  /-- A method and its arguments, as part of a chain. -/
  | method
  | args
  /-- A value and the methods called on it, one on the result of the other. -/
  | chain
  /-- Two texts joined. -/
  | concat
  /-- Two values compared. -/
  | compare
  deriving DecidableEq, Repr, Inhabited

/-- The name under which an outline shows a node. -/
def Label.name : Label → String
  | string => "string"
  | number => "number"
  | bool => "bool"
  | auto => "auto"
  | var => "var"
  | current => "current"
  | call => "call"
  | method => "method"
  | args => "args"
  | chain => "chain"
  | concat => "concat"
  | compare => "compare"

/-- A piece of a text: its characters, the places where it begins and ends, and the offsets between
which it lies. -/
structure Span where
  text : String
  line : Int
  column : Int
  endLine : Int
  /-- The column behind the last character. -/
  endColumn : Int
  start : Nat
  stop : Nat
  deriving DecidableEq, Repr, Inhabited

namespace Span

variable (text : String) (line column : Int) (start stop : Nat)

/-- **The span of a piece of one line**: it ends in the line in which it begins, and as far behind its
column as its offsets are apart. -/
def inLine : Span where
  text
  line
  column
  endLine := line
  endColumn := column + ((stop : Int) - start)
  start
  stop

@[simp] theorem text_inLine : (inLine text line column start stop).text = text := rfl

@[simp] theorem start_inLine : (inLine text line column start stop).start = start := rfl

@[simp] theorem stop_inLine : (inLine text line column start stop).stop = stop := rfl

end Span

/-- The span of a token. -/
def Token.span (t : Token) : Span := .inLine t.text t.line t.column t.start t.stop

/-- **The syntax tree of an expression.** -/
inductive Tree where
  | leaf (token : Token)
  | node (label : Label) (span : Span) (children : List Tree)
  deriving Repr, Inhabited

namespace Tree

/-! ## Equality can be decided -/

mutual

/-- Are two trees the same? -/
def same : Tree → Tree → Bool
  | leaf s, leaf t => s == t
  | node l p xs, node m q ys => l == m && p == q && sameAll xs ys
  | _, _ => false

/-- Are two rows of trees the same? -/
def sameAll : List Tree → List Tree → Bool
  | [], [] => true
  | x :: xs, y :: ys => same x y && sameAll xs ys
  | _, _ => false

end

mutual

theorem same_iff : ∀ x y : Tree, same x y = true ↔ x = y
  | leaf s, leaf t => by simp [same]
  | node l p xs, node m q ys => by simp [same, sameAll_iff xs ys, and_assoc]
  | leaf s, node m q ys => by simp [same]
  | node l p xs, leaf t => by simp [same]

theorem sameAll_iff : ∀ xs ys : List Tree, sameAll xs ys = true ↔ xs = ys
  | [], [] => by simp [sameAll]
  | x :: xs, y :: ys => by simp [sameAll, same_iff x y, sameAll_iff xs ys]
  | [], y :: ys => by simp [sameAll]
  | x :: xs, [] => by simp [sameAll]

end

instance : DecidableEq Tree := fun x y => decidable_of_iff _ (same_iff x y)

/-! ## The parts of a tree -/

/-- The label of a node; a token has none. -/
def label? : Tree → Option Label
  | leaf _ => none
  | node label _ _ => some label

/-- The span a tree was read from. -/
def span : Tree → Span
  | leaf token => token.span
  | node _ span _ => span

/-- **The text** a tree was read from, word for word. -/
def text (t : Tree) : String := t.span.text

/-- The trees directly below. -/
def children : Tree → List Tree
  | leaf _ => []
  | node _ _ children => children

/-- Is the tree a single token? -/
def isLeaf : Tree → Bool
  | leaf _ => true
  | node .. => false

/-- The first tree directly below that has the label. -/
def child? (t : Tree) (label : Label) : Option Tree :=
  t.children.find? (·.label? == some label)

/-- The same node read from another span, as when parentheses are put around it. -/
def withSpan (span : Span) : Tree → Tree
  | leaf token => leaf token
  | node label _ children => node label span children

/-- The text of the first token below. -/
def firstText (t : Tree) : String := (t.children.head?.map text).getD ""

/-! ## What a tree says -/

/-- The text of a string between its first and its last character. -/
def stringValue? (t : Tree) : Option String :=
  if t.label? = some .string || t.label? = some .auto then
    some (String.ofList (t.text.toList.drop 1).dropLast)
  else none

/-- The function that a call calls. -/
def callName? (t : Tree) : Option String :=
  if t.label? = some .call then some t.firstText else none

/-- The arguments of a call or method. -/
def callArgs (t : Tree) : List Tree := ((t.child? .args).map children).getD []

/-- The methods of a chain, in the order in which they are called. -/
def methods (t : Tree) : List String :=
  if t.label? = some .chain then t.children.tail.map firstText else []

mutual

/-- **The variables** that a tree refers to, in the order of the text and with repetitions. -/
def refs : Tree → List String
  | leaf _ => []
  | node .var _ children => ((children.head?.map text).getD "") :: refsAll children
  | node _ _ children => refsAll children

/-- The variables that a row of trees refers to. -/
def refsAll : List Tree → List String
  | [] => []
  | t :: ts => refs t ++ refsAll ts

end

theorem refsAll_eq_flatMap (ts : List Tree) : refsAll ts = ts.flatMap refs := by
  induction ts with
  | nil => simp [refsAll]
  | cons t ts ih => simp [refsAll, ih]

mutual

/-- The tree and all trees below it, each before those below it. -/
def preorder : Tree → List Tree
  | leaf token => [leaf token]
  | node label span children => node label span children :: preorderAll children

/-- All trees of a row and below it. -/
def preorderAll : List Tree → List Tree
  | [] => []
  | t :: ts => preorder t ++ preorderAll ts

end

theorem preorderAll_eq_flatMap (ts : List Tree) : preorderAll ts = ts.flatMap preorder := by
  induction ts with
  | nil => simp [preorderAll]
  | cons t ts ih => simp [preorderAll, ih]

/-! ## The outline of a tree -/

/-- The start of a line of an outline: two spaces to a level. -/
def outlineIndent (level : Nat) : String := String.ofList (List.replicate (2 * level) ' ')

mutual

/-- The outline of a tree that lies so many levels deep. -/
def outlineAt (level : Nat) : Tree → String
  | leaf token => outlineIndent level ++ token.text ++ "\n"
  | node label _ [leaf token] => outlineIndent level ++ label.name ++ "\t" ++ token.text ++ "\n"
  | node label _ children =>
    outlineIndent level ++ label.name ++ "\n" ++ outlineAll (level + 1) children

/-- The outlines of a row of trees, one below the other. -/
def outlineAll (level : Nat) : List Tree → String
  | [] => ""
  | t :: ts => outlineAt level t ++ outlineAll level ts

end

/-- **The outline of a tree**: a line to a node, deeper nodes further to the right.  A node that
holds one token and nothing else shares its line with it. -/
def outline (t : Tree) : String := outlineAt 0 t

end Tree

/-- A node that stands for itself, without a text it was read from. -/
structure LooseNode where
  label : String
  deriving DecidableEq, Repr

/-- What there is to say when the text of such a node is asked for. -/
def LooseNode.noText (n : LooseNode) : String :=
  s!"node {Text.quote n.label} carries no source span"

end ScenarioScript
