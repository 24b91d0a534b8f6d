import ScenarioScript.Expression.Descent
import ScenarioScript.Indexing

/-!
# Expression/Parser — a parser moved by hand

A parser is a cursor in the tokens of a source.  It can look ahead, take tokens one by one, or
read an expression of any of the forms of `Expression/Descent`; where that halts, the parser stays
where it was halted.
-/

namespace ScenarioScript

/-- A parser: the source, its tokens without the end, and the place reached. -/
structure Parser where
  source : Source
  tokens : List Token
  cursor : Cursor
  allowCompare : Bool := false
  deriving DecidableEq, Repr

namespace Parser

/-- A parser at the first token of a source. -/
def start (source : Source) (tokens : List Token) (allowCompare : Bool) : Parser :=
  ⟨source, tokens, ⟨tokens, 0⟩, allowCompare⟩

/-- The token at the place reached. -/
def current (p : Parser) : Token := p.cursor.current p.source

/-- How many tokens lie behind. -/
def position (p : Parser) : Nat := p.tokens.length - p.cursor.ahead.length

/-- The token so many places ahead.  A place before the reached one may be asked for, and one before
the first token counts from the end; behind the end there is nothing but the end. -/
def peek? (p : Parser) (ahead : Int) : Option Token :=
  let tokens := p.tokens ++ [p.source.ending]
  let place := p.position + ahead
  if place < tokens.length then elementAt? tokens place else some p.source.ending

/-- Is the current token of one of the kinds? -/
def check (p : Parser) (kinds : List TokenKind) : Bool := kinds.contains p.current.kind

/-- Take the current token. -/
def advance (p : Parser) : Parser := { p with cursor := p.cursor.next p.source }

/-- Take the current token if it is of one of the kinds; the answer says whether it was. -/
def accept (p : Parser) (kinds : List TokenKind) : Parser × Bool :=
  if p.check kinds then (p.advance, true) else (p, false)

/-- Take the current token, which must be of a kind; the words for the case that it is not may be
given. -/
def expect (p : Parser) (kind : TokenKind) (message : Option String) :
    Parser × Except Failure Token :=
  if p.check [kind] then (p.advance, .ok p.current)
  else
    let cause : Cause := match message.filter (!·.isEmpty) with
      | some message => .otherExpected message
      | none => .tokenExpected kind p.current.kind
    (p, .error (p.cursor.haltFor p.source cause).failure)

/-- What there is to say of a current token that cannot stand where it is. -/
def unexpected (p : Parser) : Failure := (p.cursor.unexpected p.source).failure

/-- The forms of expression that can be asked for one by one. -/
inductive Form where
  | whole
  | compare
  | concat
  | chain
  | primary
  deriving DecidableEq, Repr

/-- Read an expression of a form from a cursor. -/
def Form.read (source : Source) (allowCompare : Bool) (c : Cursor) :
    Form → Except Halt (Tree × Cursor)
  | whole => Descent.whole source allowCompare c
  | compare => Descent.compare source c
  | concat => Descent.pairs (Descent.concat source c)
  | chain => Descent.pairs (Descent.chain source c)
  | primary => Descent.pairs (Descent.primary source c)

/-- **Read an expression** of a form from the place reached. -/
def read (p : Parser) (form : Form) : Parser × Except Failure Tree :=
  match form.read p.source p.allowCompare p.cursor with
  | .ok (tree, cursor) => ({ p with cursor }, .ok tree)
  | .error halt => ({ p with cursor := halt.cursor }, .error halt.failure)

end Parser

end ScenarioScript
