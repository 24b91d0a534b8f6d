import ScenarioScript.Diagnostic.Failure
import ScenarioScript.Expression.Lexeme

/-!
# Expression/Tokens — the tokens of a text

`readTokens` takes heads off a text until nothing is left or a fault turns up, and keeps what it
has come to in either case; `tokensOf` is the row of tokens or the fault, and `tokenize` closes
the row with a token for the end.
-/

namespace ScenarioScript

open Lexeme

/-- What came of reading a text: the tokens, the offset at which reading ended, the offset of the
lexeme that was being read, and what was wrong with it, if anything was. -/
structure Reading where
  tokens : List Token
  stop : Nat
  start : Nat
  fault : Option Cause
  deriving DecidableEq, Repr

/-- A lexeme as a token of the text that begins at the given place. -/
def Token.ofLexeme (line column : Int) (start : Nat) (kind : TokenKind) (text : List Char) :
    Token :=
  ⟨kind, String.ofList text, line, column + start, start, start + text.length⟩

/-- **Read a text** from the given offset on.  Line and column are the place of offset zero. -/
def readTokens (line column : Int) (offset : Nat) : List Char → Reading
  | [] => ⟨[], offset, offset, none⟩
  | c :: tail =>
    match h : head c tail with
    | .gap text rest =>
      have := length_rest_of_head_gap h
      readTokens line column (offset + text.length) rest
    | .lexeme kind text rest =>
      have := length_rest_of_head_lexeme h
      let reading := readTokens line column (offset + text.length) rest
      { reading with tokens := .ofLexeme line column offset kind text :: reading.tokens }
    | .fault cause read => ⟨[], offset + read, offset, some cause⟩
termination_by text => text.length
decreasing_by all_goals assumption

/-- **The tokens of a text**, or the first fault there is in it. -/
def tokensOf (line column : Int) (text : List Char) : Except Failure (List Token) :=
  let reading := readTokens line column 0 text
  match reading.fault with
  | some cause => .error (.atPosition cause line (column + reading.start))
  | none => .ok reading.tokens

/-- The tokens of a text and behind them the token for its end. -/
def tokenize (line column : Int) (text : List Char) : Except Failure (List Token) :=
  (tokensOf line column text).map (· ++ [.endOf line column text.length])

/-! ## Reading, step by step -/

@[simp] theorem readTokens_nil (line column : Int) (offset : Nat) :
    readTokens line column offset [] = ⟨[], offset, offset, none⟩ := by
  rw [readTokens]

theorem readTokens_of_gap {c : Char} {tail text rest : List Char}
    (h : head c tail = .gap text rest) (line column : Int) (offset : Nat) :
    readTokens line column offset (c :: tail) =
      readTokens line column (offset + text.length) rest := by
  rw [readTokens]
  split <;> simp_all

theorem readTokens_of_lexeme {c : Char} {tail text rest : List Char} {kind : TokenKind}
    (h : head c tail = .lexeme kind text rest) (line column : Int) (offset : Nat) :
    readTokens line column offset (c :: tail) =
      { readTokens line column (offset + text.length) rest with
        tokens := .ofLexeme line column offset kind text ::
          (readTokens line column (offset + text.length) rest).tokens } := by
  rw [readTokens]
  split <;> simp_all

theorem readTokens_of_fault {c : Char} {tail : List Char} {cause : Cause} {read : Nat}
    (h : head c tail = .fault cause read) (line column : Int) (offset : Nat) :
    readTokens line column offset (c :: tail) = ⟨[], offset + read, offset, some cause⟩ := by
  rw [readTokens]
  split <;> simp_all

/-- **A text without fault is read to its end.** -/
theorem stop_readTokens {line column : Int} {offset : Nat} {text : List Char}
    (h : (readTokens line column offset text).fault = none) :
    (readTokens line column offset text).stop = offset + text.length := by
  fun_induction readTokens line column offset text with
  | case1 => simp
  | case2 offset c tail text rest hhead _ ih =>
    rw [ih h, ← append_of_head_gap hhead, List.length_append, Nat.add_assoc]
  | case3 offset c tail kind text rest hhead _ reading ih =>
    have := ih h
    simp only [reading, this, ← (append_of_head_lexeme hhead).1, List.length_append, Nat.add_assoc]
  | case4 => simp at h

end ScenarioScript
