import ScenarioScript.Text.Quoted

/-!
# Expression/Token — the tokens of an expression

A token is a kind, its text exactly as written, and its place: the line, the column of its first
character, and the offsets in the expression's text at which it starts and stops.  The end of the
text is a token of its own, of kind `eof` and without text.
-/

namespace ScenarioScript

/-- The kinds of token. -/
inductive TokenKind where
  | number
  | string
  | ident
  | trueWord
  | falseWord
  | eq
  | neq
  | lt
  | lte
  | gt
  | gte
  | tilde
  | lpar
  | rpar
  | dot
  | comma
  | atSign
  | eof
  deriving DecidableEq, Repr, Inhabited

namespace TokenKind

/-- The name under which messages speak of a kind. -/
def name : TokenKind → String
  | number => "NUMBER"
  | string => "STRING"
  | ident => "IDENT"
  | trueWord => "TRUE"
  | falseWord => "FALSE"
  | eq => "EQ"
  | neq => "NEQ"
  | lt => "LT"
  | lte => "LTE"
  | gt => "GT"
  | gte => "GTE"
  | tilde => "TILDE"
  | lpar => "LPAR"
  | rpar => "RPAR"
  | dot => "DOT"
  | comma => "COMMA"
  | atSign => "AT"
  | eof => "EOF"

/-- Every kind, in the order in which they are declared. -/
def all : List TokenKind :=
  [number, string, ident, trueWord, falseWord, eq, neq, lt, lte, gt, gte, tilde, lpar, rpar, dot,
    comma, atSign, eof]

theorem mem_all (kind : TokenKind) : kind ∈ all := by cases kind <;> decide

/-- The kind with a given name. -/
def ofName? (name : String) : Option TokenKind := all.find? (·.name == name)

/-- Does a token of this kind compare two values? -/
def isComparison : TokenKind → Bool
  | eq | neq | lt | lte | gt | gte => true
  | _ => false

/-- **The kind of a word**: the two truth values are words of their own, all others are names. -/
def ofWord (word : List Char) : TokenKind :=
  if word = ['t', 'r', 'u', 'e'] then trueWord
  else if word = ['f', 'a', 'l', 's', 'e'] then falseWord
  else ident

end TokenKind

/-- A token: its kind, its text and its place. -/
structure Token where
  kind : TokenKind
  text : String
  line : Int
  column : Int
  /-- The offset of the first character. -/
  start : Nat
  /-- The offset behind the last character. -/
  stop : Nat
  deriving DecidableEq, Repr, Inhabited

namespace Token

/-- The token for the end of a text of the given length that begins at the given place. -/
def endOf (line column : Int) (length : Nat) : Token :=
  ⟨.eof, "", line, column + length, length, length⟩

@[simp] theorem kind_endOf (line column : Int) (length : Nat) :
    (endOf line column length).kind = .eof := rfl

/-- The text of a token, in quotes, as a list of tokens shows it; the end has no text to show. -/
def shownText (t : Token) : String := if t.kind = .eof then "None" else Text.quote t.text

/-- A token as a list of tokens shows it. -/
def render (t : Token) : String :=
  s!"Tok({t.kind.name}, {t.shownText}, {t.line}:{t.column})"

end Token

end ScenarioScript
