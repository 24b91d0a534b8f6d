import ScenarioScript.Expression.Tokens
import ScenarioScript.Indexing

/-!
# Expression/Lexer — a lexer moved by hand

A lexer is a place in a text with the tokens read so far.  It can look ahead, step over characters,
take the next gap or lexeme, or read all that is left; after a fault it stays where the fault left
it.  Behind the end of the text there are NUL characters without end.
-/

namespace ScenarioScript

/-- A lexer: the text and its place, the offset reached, the offset of the token last begun, and the
tokens read. -/
structure Lexer where
  text : List Char
  line : Int
  /-- The column of offset zero. -/
  origin : Int
  offset : Nat := 0
  start : Nat := 0
  tokens : List Token := []
  deriving DecidableEq, Repr

namespace Lexer

/-- A lexer at the start of a text. -/
def ofText (text : String) (line column : Int) : Lexer :=
  { text := text.toList, line, origin := column }

/-- What has not been read. -/
def rest (l : Lexer) : List Char := l.text.drop l.offset

/-- The column reached. -/
def column (l : Lexer) : Int := l.origin + l.offset

/-- The character so many places ahead.  A place before the reached one may be asked for, and one
before the start counts from the end of the text. -/
def peek? (l : Lexer) (ahead : Int) : Option Char :=
  let place := l.offset + ahead
  if place < l.text.length then elementAt? l.text place else some '\x00'

/-- Step over a number of characters, which are the answer; there is no stepping back. -/
def advance? (l : Lexer) (count : Int) : Option (Lexer × List Char) :=
  if count < 0 then none
  else
    let read := l.rest.take count.toNat
    let beyond := List.replicate (count.toNat - read.length) '\x00'
    some ({ l with offset := l.offset + count.toNat }, read ++ beyond)

/-- What there is to say when a lexer is told to step back. -/
def stepBackRefused (count : Int) : String := s!"advance() requires n >= 0, got {count}"

/-- Step over spaces and tabs; the answer says whether there were any. -/
def skipGap (l : Lexer) : Lexer × Bool :=
  let gap := l.rest.takeWhile Lexeme.isGap
  ({ l with offset := l.offset + gap.length }, !gap.isEmpty)

/-- A fault of the token last begun. -/
def failure (l : Lexer) (cause : Cause) : Failure :=
  .atPosition cause l.line (l.origin + l.start)

/-- Take the next gap or lexeme. -/
def scanToken (l : Lexer) : Lexer × Option Failure :=
  match l.rest with
  | [] =>
    let l := { l with start := l.offset }
    (l, some (l.failure (.strayCharacter '\x00')))
  | c :: tail =>
    match Lexeme.head c tail with
    | .gap text _ => ({ l with offset := l.offset + text.length }, none)
    | .lexeme kind text _ =>
      let token := Token.ofLexeme l.line l.origin l.offset kind text
      ({ l with offset := token.stop, start := token.start, tokens := l.tokens ++ [token] }, none)
    | .fault cause read =>
      let l := { l with offset := l.offset + read, start := l.offset }
      (l, some (l.failure cause))

/-- Read all that is left, and add the token for the end. -/
def tokenize (l : Lexer) : Lexer × Option Failure :=
  let reading := readTokens l.line l.origin l.offset l.rest
  let l := { l with
    offset := reading.stop, start := reading.start, tokens := l.tokens ++ reading.tokens }
  match reading.fault with
  | some cause => (l, some (l.failure cause))
  | none => ({ l with tokens := l.tokens ++ [.endOf l.line l.origin l.offset] }, none)

/-- **A fresh lexer** reads the tokens of its text. -/
theorem tokenize_ofText (text : String) (line column : Int) :
    ScenarioScript.tokenize line column text.toList =
      match (ofText text line column).tokenize with
      | (_, some failure) => .error failure
      | (l, none) => .ok l.tokens := by
  simp only [tokenize, ScenarioScript.tokenize, tokensOf, ofText, rest, failure, List.drop_zero]
  cases h : (readTokens line column 0 text.toList).fault with
  | some cause => rfl
  | none => simp [Except.map, stop_readTokens h]

end Lexer

end ScenarioScript
