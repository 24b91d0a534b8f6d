import ScenarioScript.Diagnostic.Kind
import ScenarioScript.Expression.Token

/-!
# Diagnostic/Cause — what can be wrong with a script

One constructor for each fault, with what there is to say about it; `Cause.kind` files it under a
kind, and `Cause.message` is the only place where it is put into words.
-/

namespace ScenarioScript

/-- What a statement lacks. -/
inductive Lack where
  | name
  | quotedPath
  | nameAndValue
  | valueFor (name : String)
  | value
  deriving DecidableEq, Repr

/-- What a statement lacks, in words. -/
def Lack.text : Lack → String
  | .name => "a name"
  | .quotedPath => "a quoted path"
  | .nameAndValue => "a name and a value"
  | .valueFor bound => s!"a value for '{bound}'"
  | .value => "a value"

/-- What a typed setting takes. -/
inductive Wanted where
  | wholeNumber
  | warmupMode
  | truthValue
  deriving DecidableEq, Repr

/-- What a typed setting takes, in words. -/
def Wanted.text : Wanted → String
  | .wholeNumber => "a whole number"
  | .warmupMode => "true, false or 'auto'"
  | .truthValue => "true or false"

/-- The blocks in which a statement can stand. -/
inductive Surroundings where
  | topLevel
  | scenario
  | group
  | step
  deriving DecidableEq, Repr

/-- The surroundings of a statement, in words. -/
def Surroundings.text : Surroundings → String
  | .topLevel => "at top level"
  | .scenario => "in a scenario"
  | .group => "in a group"
  | .step => "in a step"

/-- The faults of a script. -/
inductive Cause where
  /- Layout -/
  | tabInIndent
  | unevenIndent (width : Nat) (unit : Int)
  | indentTooDeep
  /- Characters -/
  | unterminatedString
  | numberSuffix
  | strayCharacter (char : Char)
  /- Expressions -/
  | misplacedComparison (operator : String)
  | unmatchedClose
  | unclosedOpen
  | endOfExpression
  | unexpectedToken (text : String)
  | missingExpression
  | chainedComparison
  | methodNameExpected
  | argumentsExpected (method : String)
  | strayCurrent
  | tokenExpected (wanted found : TokenKind)
  | otherExpected (message : String)
  /- Statements -/
  | unknownStatement (word : String)
  | missing (word : String) (lack : Lack)
  | argumentRefused (word : String)
  | nameExpected (word found : String)
  | pathExpected
  | tokenAfterPath (text : String)
  /- Blocks -/
  | unexpectedIndent (word : String)
  | notAllowed (word : String) (place : Surroundings)
  | targetRequired (word : String)
  | ownBinding (name : String)
  | badValue (word : String) (wanted : Wanted) (found : String)
  | fileArguments
  /- References -/
  | unknownGroup (name : String)
  | unresolvedLoad (target reason : String)
  | includeCycle (chain : List String)
  | loadCycle (chain : List String)
  /- A cycle described in other words -/
  | otherCycle (message : String) (chain : List String)
  /- A fault of a kind of which nothing more is known than the words -/
  | other (kind : Kind) (message : String)
  deriving DecidableEq, Repr

namespace Cause

/-- The kind under which a fault is filed. -/
def kind : Cause → Kind
  | tabInIndent | unevenIndent .. | indentTooDeep => .inconsistentIndent
  | Cause.unterminatedString => .unterminatedString
  | numberSuffix | strayCharacter _ => .lexical
  | misplacedComparison _ => .grammar
  | unmatchedClose | unclosedOpen => .unbalancedParens
  | endOfExpression | Cause.unexpectedToken _ | missingExpression | chainedComparison
  | methodNameExpected | argumentsExpected _ | strayCurrent | tokenExpected ..
  | otherExpected _ => .unexpectedToken
  | Cause.unknownStatement _ => .unknownStatement
  | missing .. => .missingValue
  | argumentRefused _ | nameExpected .. | pathExpected | tokenAfterPath _ => .unexpectedToken
  | unexpectedIndent _ | notAllowed .. | targetRequired _ | ownBinding _ | badValue ..
  | fileArguments => .grammar
  | Cause.unknownGroup _ => .unknownGroup
  | Cause.unresolvedLoad .. => .unresolvedLoad
  | Cause.includeCycle _ => .includeCycle
  | Cause.loadCycle _ => .loadCycle
  | otherCycle .. => .cycle
  | other kind _ => kind

/-- A cycle, from each member to the next. -/
def arrows (chain : List String) : String := " -> ".intercalate chain

/-- The fault in words. -/
def message : Cause → String
  | tabInIndent => "Tabs are not allowed in indentation"
  | unevenIndent width unit => s!"Indentation of {width} spaces is not a multiple of {unit}"
  | indentTooDeep => "Indentation is deeper than the enclosing block allows"
  | Cause.unterminatedString => "Unterminated string"
  | numberSuffix => "Invalid number suffix"
  | strayCharacter char => s!"Unexpected character '{char}'"
  | misplacedComparison operator =>
    s!"Comparison '{operator}' is only allowed at the top of an expect statement"
  | unmatchedClose => "Unmatched ')'"
  | unclosedOpen => "Unclosed '('"
  | endOfExpression => "Unexpected end of expression"
  | Cause.unexpectedToken text => s!"Unexpected token {Text.quote text}"
  | missingExpression => "Expected expression"
  | chainedComparison => "Comparisons cannot be chained"
  | methodNameExpected => "Expected method name after '.'"
  | argumentsExpected method => s!"Expected '(' after method name '{method}'"
  | strayCurrent => "'@' is only valid as an argument of a chained call"
  | tokenExpected wanted found => s!"Expected {wanted.name}, got {found.name}"
  | otherExpected message => message
  | Cause.unknownStatement word => s!"Unknown statement '{word}'"
  | missing word lack => s!"'{word}' requires {lack.text}"
  | argumentRefused word => s!"'{word}' takes no argument"
  | nameExpected word found => s!"'{word}' expects a name, got {Text.quote found}"
  | pathExpected => "'load' expects a quoted path"
  | tokenAfterPath text => s!"Unexpected token {Text.quote text} after load path"
  | unexpectedIndent word => s!"Unexpected indentation before '{word}'"
  | notAllowed word place => s!"'{word}' is not allowed {place.text}"
  | targetRequired word => s!"'{word}' requires a target"
  | ownBinding name => s!"'{name}' is set by this step and only usable in later steps"
  | badValue word wanted found => s!"'{word}' expects {wanted.text}, got {found}"
  | fileArguments => "file() takes a path and an optional file name"
  | Cause.unknownGroup name => s!"Unknown group '{name}'"
  | Cause.unresolvedLoad target reason => s!"Cannot load '{target}': {reason}"
  | Cause.includeCycle chain => s!"Include cycle: {arrows chain}"
  | Cause.loadCycle chain => s!"Load cycle: {arrows chain}"
  | otherCycle message _ => message
  | other _ message => message

/-- Why a load fails when no file has the path. -/
def fileNotFound : String := "file not found"

/-- Why a load fails when the file does not decode. -/
def notText (encoding : String) : String := s!"not valid {encoding} text"

end Cause

end ScenarioScript
