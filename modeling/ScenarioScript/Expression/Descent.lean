import ScenarioScript.Expression.Cursor

/-!
# Expression/Descent — reading an expression by recursive descent

From the loosest to the tightest binding, an expression is

* a **comparison** of two concatenations, only at the top and only where it is allowed;
* a **concatenation** of chains, folded to the left;
* a **chain** of methods called on a primary, one on the result of the other;
* a **primary**: a literal, a variable, a call (its parenthesis stands directly behind the name), or
  an expression in parentheses.

Each function reads as far as it can from a cursor and answers with what it read and the cursor
behind it, or with the reason why it halted.  An answer carries the proof that fewer tokens are
ahead than a bound, which is what ends the recursion.
-/

namespace ScenarioScript.Descent

/-- What was read, with fewer tokens ahead than the bound. -/
structure Read (α : Type) (bound : Nat) where
  value : α
  cursor : Cursor
  shorter : cursor.ahead.length < bound

/-- What was read and the cursor behind it. -/
def Read.pair {α : Type} {bound : Nat} (r : Read α bound) : α × Cursor := (r.value, r.cursor)

/-- An answer without its bound. -/
def pairs {α : Type} {bound : Nat} (r : Except Halt (Read α bound)) : Except Halt (α × Cursor) :=
  r.map Read.pair

/-- The label of a string: the mode `'auto'` is told from other texts by its spelling alone. -/
def stringLabel (t : Token) : Label := if t.text = "'auto'" then .auto else .string

/-- A literal or variable: one token is all there is to it. -/
def atom (src : Source) (label : Label) (t : Token) (ahead : List Token) : Tree :=
  (Cursor.past t ahead).node src label [.leaf t] t.start

mutual

/-- Read a concatenation. -/
def concat (src : Source) (c : Cursor) : Except Halt (Read Tree c.ahead.length) :=
  match chain src c with
  | .error halt => .error halt
  | .ok first =>
    have := first.shorter
    match concatRest src (c.current src).start first.value first.cursor with
    | .error halt => .error halt
    | .ok whole => .ok ⟨whole.value, whole.cursor, by have := whole.shorter; omega⟩
termination_by 6 * c.ahead.length + 2

/-- Read what is joined to the right of `left`, which begins at `start`. -/
def concatRest (src : Source) (start : Nat) (left : Tree) (c : Cursor) :
    Except Halt (Read Tree (c.ahead.length + 1)) :=
  match c.take? .tilde with
  | none => .ok ⟨left, c, Nat.lt_succ_self _⟩
  | some tilde =>
    have := tilde.shorter
    match chain src tilde.cursor with
    | .error halt => .error halt
    | .ok right =>
      have := right.shorter
      let joined := right.cursor.node src .concat [left, right.value] start
      match concatRest src start joined right.cursor with
      | .error halt => .error halt
      | .ok whole => .ok ⟨whole.value, whole.cursor, by have := whole.shorter; omega⟩
termination_by 6 * c.ahead.length + 2

/-- Read a primary and the methods called on it. -/
def chain (src : Source) (c : Cursor) : Except Halt (Read Tree c.ahead.length) :=
  match primary src c with
  | .error halt => .error halt
  | .ok base =>
    have := base.shorter
    match methods src base.cursor with
    | .error halt => .error halt
    | .ok calls =>
      let start := (c.current src).start
      let whole := if calls.value.isEmpty then base.value
        else calls.cursor.node src .chain (base.value :: calls.value) start
      .ok ⟨whole, calls.cursor, by have := calls.shorter; omega⟩
termination_by 6 * c.ahead.length + 1

/-- Read any number of method calls. -/
def methods (src : Source) (c : Cursor) :
    Except Halt (Read (List Tree) (c.ahead.length + 1)) :=
  match c.take? .dot with
  | none => .ok ⟨[], c, Nat.lt_succ_self _⟩
  | some point =>
    match point.cursor.take? .ident with
    | none => .error (point.cursor.haltFor src .methodNameExpected)
    | some name =>
      match name.cursor.take? .lpar with
      | none => .error (name.cursor.haltFor src (.argumentsExpected name.token.text))
      | some opening =>
        have := point.shorter
        have := name.shorter
        have := opening.shorter
        match args src true opening.token opening.cursor with
        | .error halt => .error halt
        | .ok list =>
          have := list.shorter
          let call := list.cursor.node src .method [.leaf name.token, list.value] name.token.start
          match methods src list.cursor with
          | .error halt => .error halt
          | .ok more =>
            .ok ⟨call :: more.value, more.cursor, by have := more.shorter; omega⟩
termination_by 6 * c.ahead.length + 1

/-- Read a literal, a variable, a call, or an expression in parentheses. -/
def primary (src : Source) (c : Cursor) : Except Halt (Read Tree c.ahead.length) :=
  match h : c.ahead with
  | [] => .error (c.unexpected src)
  | t :: ahead =>
    match t.kind with
    | .number => .ok ⟨atom src .number t ahead, .past t ahead, by simp⟩
    | .string => .ok ⟨atom src (stringLabel t) t ahead, .past t ahead, by simp⟩
    | .trueWord | .falseWord => .ok ⟨atom src .bool t ahead, .past t ahead, by simp⟩
    | .ident =>
      match (Cursor.past t ahead).take? .lpar with
      | none => .ok ⟨atom src .var t ahead, .past t ahead, by simp⟩
      | some opening =>
        if opening.token.start = t.stop then
          have := opening.shorter
          match args src false opening.token opening.cursor with
          | .error halt => .error halt
          | .ok list =>
            .ok ⟨list.cursor.node src .call [.leaf t, list.value] t.start, list.cursor, by
              have := list.shorter
              simp only [Cursor.ahead_past, List.length_cons] at *
              omega⟩
        else .ok ⟨atom src .var t ahead, .past t ahead, by simp⟩
    | .lpar =>
      match concat src (.past t ahead) with
      | .error halt => .error halt
      | .ok inner =>
        match inner.cursor.take? .rpar with
        | none => .error (inner.cursor.unclosed src t)
        | some closing =>
          .ok ⟨inner.value.withSpan (src.span t.start closing.token.stop), closing.cursor, by
            have := inner.shorter
            have := closing.shorter
            simp only [Cursor.ahead_past, List.length_cons] at *
            omega⟩
    | .atSign => .error (c.haltFor src .strayCurrent)
    | _ => .error (c.unexpected src)
termination_by 6 * c.ahead.length
decreasing_by
  all_goals
    simp only [h, Cursor.ahead_past, List.length_cons] at *
    omega

/-- Read the arguments of a call, and its closing parenthesis; the opening one has been read.  In a
method the current value may be an argument. -/
def args (src : Source) (inMethod : Bool) (opening : Token) (c : Cursor) :
    Except Halt (Read Tree c.ahead.length) :=
  match c.take? .rpar with
  | some closing =>
    .ok ⟨closing.cursor.node src .args [] opening.start, closing.cursor, closing.shorter⟩
  | none =>
    match argsRest src inMethod opening c with
    | .error halt => .error halt
    | .ok list =>
      .ok ⟨list.cursor.node src .args list.value opening.start, list.cursor, list.shorter⟩
termination_by 6 * c.ahead.length + 5

/-- Read one argument or more, and the closing parenthesis. -/
def argsRest (src : Source) (inMethod : Bool) (opening : Token) (c : Cursor) :
    Except Halt (Read (List Tree) c.ahead.length) :=
  match argument src inMethod c with
  | .error halt => .error halt
  | .ok first =>
    match first.cursor.take? .comma with
    | some comma =>
      have := first.shorter
      have := comma.shorter
      match argsRest src inMethod opening comma.cursor with
      | .error halt => .error halt
      | .ok more =>
        .ok ⟨first.value :: more.value, more.cursor, by have := more.shorter; omega⟩
    | none =>
      match first.cursor.take? .rpar with
      | some closing =>
        .ok ⟨[first.value], closing.cursor, by
          have := first.shorter
          have := closing.shorter
          omega⟩
      | none => .error (first.cursor.unclosed src opening)
termination_by 6 * c.ahead.length + 4

/-- Read one argument: a concatenation or, in a method, the current value. -/
def argument (src : Source) (inMethod : Bool) (c : Cursor) :
    Except Halt (Read Tree c.ahead.length) :=
  match if inMethod then c.take? .atSign else none with
  | some current =>
    .ok ⟨current.cursor.node src .current [.leaf current.token] current.token.start,
      current.cursor, current.shorter⟩
  | none => concat src c
termination_by 6 * c.ahead.length + 3

end

/-- Read a comparison, or a concatenation if no comparison follows it. -/
def compare (src : Source) (c : Cursor) : Except Halt (Tree × Cursor) := do
  let left ← concat src c
  if (left.cursor.kind src).isComparison then
    let op := left.cursor.current src
    let right ← concat src (left.cursor.next src)
    if (right.cursor.kind src).isComparison then
      .error (right.cursor.haltFor src .chainedComparison)
    else
      let start := (c.current src).start
      let tree := right.cursor.node src .compare [left.value, .leaf op, right.value] start
      .ok (tree, right.cursor)
  else .ok left.pair

/-- **Read a whole expression**, behind which nothing may be left. -/
def whole (src : Source) (allowCompare : Bool) (c : Cursor) : Except Halt (Tree × Cursor) := do
  if c.kind src = .eof then .error (c.haltFor src .missingExpression)
  else
    let (tree, c) ← if allowCompare then compare src c else pairs (concat src c)
    if c.kind src = .eof then .ok (tree, c) else .error (c.unexpected src)

end ScenarioScript.Descent
