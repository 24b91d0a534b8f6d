import ScenarioScript.Expression.Tokens
import ScenarioScript.Expression.Tree

/-!
# Expression/Cursor — a place between the tokens of an expression

A cursor holds the tokens that are still ahead, the end of the text not counted among them, and the
offset at which the token last passed stops.  The source is the same throughout: it gives the text
of spans, and the token for the end, which is the current token when no other is ahead.

`Cursor.unexpected` is the best that can be said of a current token that cannot stand where it is.
-/

namespace ScenarioScript

/-- The text that an expression is read from, its place, and the token for its end. -/
structure Source where
  text : List Char
  line : Int
  column : Int
  ending : Token
  deriving DecidableEq, Repr, Inhabited

/-- The source that consists of a text at a place. -/
def Source.ofText (text : List Char) (line column : Int) : Source :=
  ⟨text, line, column, .endOf line column text.length⟩

/-- **The text between two offsets**, with its place. -/
def Source.span (src : Source) (start stop : Nat) : Span :=
  .inLine (String.ofList ((src.text.drop start).take (stop - start))) src.line (src.column + start)
    start stop

/-- A place between tokens. -/
structure Cursor where
  ahead : List Token
  lastStop : Nat
  deriving DecidableEq, Repr, Inhabited

/-- Why reading an expression ended early: the fault, the token it is reported at, and how far
reading had come. -/
structure Halt where
  cause : Cause
  culprit : Token
  cursor : Cursor
  deriving DecidableEq, Repr

/-- A halt as a failure. -/
def Halt.failure (h : Halt) : Failure := .atPosition h.cause h.culprit.line h.culprit.column

namespace Cursor

/-- The token at the cursor; at the end, the token for the end. -/
def current (c : Cursor) (src : Source) : Token := c.ahead.head?.getD src.ending

/-- The kind of the token at the cursor. -/
def kind (c : Cursor) (src : Source) : TokenKind := (c.current src).kind

/-- The cursor behind a token. -/
def past (t : Token) (ahead : List Token) : Cursor := ⟨ahead, t.stop⟩

/-- The cursor behind the current token; behind the end there is nothing but the end. -/
def next (c : Cursor) (src : Source) : Cursor :=
  match c.ahead with
  | [] => { c with lastStop := src.ending.stop }
  | t :: ahead => past t ahead

/-- Is nothing ahead? -/
def atEnd (c : Cursor) : Bool := c.ahead.isEmpty

@[simp] theorem ahead_past (t : Token) (ahead : List Token) : (past t ahead).ahead = ahead := rfl

@[simp] theorem lastStop_past (t : Token) (ahead : List Token) :
    (past t ahead).lastStop = t.stop := rfl

/-- Why a token cannot stand where it is. -/
def whyUnexpected (t : Token) : Cause :=
  if t.kind.isComparison then .misplacedComparison t.text
  else if t.kind = .rpar then .unmatchedClose
  else if t.kind = .eof then .endOfExpression
  else .unexpectedToken t.text

/-- Halt at the current token for a given cause. -/
def haltFor (c : Cursor) (src : Source) (cause : Cause) : Halt := ⟨cause, c.current src, c⟩

/-- **Halt at the current token**, which cannot stand where it is. -/
def unexpected (c : Cursor) (src : Source) : Halt :=
  c.haltFor src (whyUnexpected (c.current src))

/-- Halt where a parenthesis should close: at the opening one if the text has ended, and otherwise
at the current token. -/
def unclosed (c : Cursor) (src : Source) (opening : Token) : Halt :=
  if c.atEnd then ⟨.unclosedOpen, opening, c⟩ else c.unexpected src

/-- A token that was taken, and the cursor behind it, with fewer tokens ahead than the bound. -/
structure Taken (bound : Nat) where
  token : Token
  cursor : Cursor
  shorter : cursor.ahead.length < bound

/-- **Take the current token** if it is of the given kind. -/
def take? (c : Cursor) (kind : TokenKind) : Option (Taken c.ahead.length) :=
  match h : c.ahead with
  | [] => none
  | t :: ahead => if t.kind = kind then some ⟨t, past t ahead, by simp⟩ else none

/-- **What is taken** is the first token ahead, and it is of the kind that was asked for. -/
theorem of_take? {c : Cursor} {kind : TokenKind} {taken : Taken c.ahead.length}
    (h : c.take? kind = some taken) :
    taken.token.kind = kind ∧ c.ahead = taken.token :: taken.cursor.ahead ∧
      taken.cursor.lastStop = taken.token.stop := by
  obtain ⟨ahead, lastStop⟩ := c
  cases ahead with
  | nil => simp [take?] at h
  | cons t ahead =>
    by_cases hkind : t.kind = kind
    · simp only [take?, hkind, if_true, Option.some.injEq] at h
      subst h
      exact ⟨hkind, rfl, rfl⟩
    · simp [take?, hkind] at h

/-- The node of everything from an offset to the token last passed. -/
def node (c : Cursor) (src : Source) (label : Label) (children : List Tree) (start : Nat) : Tree :=
  .node label (src.span start c.lastStop) children

end Cursor

end ScenarioScript
