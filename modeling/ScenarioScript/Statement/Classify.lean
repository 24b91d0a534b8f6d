import ScenarioScript.Expression
import ScenarioScript.Statement

/-!
# Statement/Classify — from a line of a script to a statement

The first word of a line is its keyword, and what follows is its argument, which is read in the form
that the keyword asks for.

* `splitStatement?` — the word, the argument, and how far into the line the argument begins;
* `Keyword.read` — the command that a keyword and an argument make;
* `classify` — the statement that a line holds.
-/

namespace ScenarioScript

open Text

/-- The argument of a statement, with the place at which it begins. -/
structure Argument where
  text : List Char
  line : Int
  column : Int
  deriving DecidableEq, Repr

/-! ## Words and names -/

/-- A line without the line feed at its end; there may be no other in it. -/
def dropLastBreak? (text : List Char) : Option (List Char) :=
  if '\n' ∈ text.dropLast then none
  else if text.getLast? = some '\n' then some text.dropLast
  else some text

/-- **The first word of a line, the rest, and where the rest begins.**  Where there is no rest it
begins at the end. -/
def splitStatement? (text : List Char) : Option (List Char × List Char × Nat) :=
  let cut := cutWord text
  match cut.word, cut.rest with
  | [], _ => none
  | word, [] => some (word, [], text.length)
  | word, rest =>
    (dropLastBreak? rest).map fun argument => (word, argument, word.length + cut.gap.length)

/-- May the character begin a name that is bound? -/
def isNameStart (c : Char) : Bool := c.isAlpha || c == '_'

/-- May the character continue a name that is bound? -/
def isNameChar (c : Char) : Bool := c.isAlphanum || c == '_'

/-- The name at the start of a text, what follows it behind blanks, and where that begins. -/
def splitName? (text : List Char) : Option (List Char × List Char × Nat) :=
  match text with
  | [] => none
  | c :: _ =>
    let name := text.takeWhile isNameChar
    let tail := text.dropWhile isNameChar
    let rest := tail.dropWhile isBlank
    if isNameStart c && !(tail.head?.any fun c => !isBlank c) then
      some (name, rest, text.length - rest.length)
    else none

/-! ## Reading an argument -/

namespace Argument

/-- A fault of the argument. -/
def refuse {α : Type} (a : Argument) (cause : Cause) : Except Failure α :=
  .error (.atPosition cause a.line a.column)

/-- The argument as it was written. -/
def written (a : Argument) : String := String.ofList a.text

/-- The argument as an expression. -/
def expression (a : Argument) (allowCompare : Bool) : Except Failure Tree :=
  parseExpression a.text a.line a.column allowCompare

/-- The argument as a label that cannot be left out. -/
def name (a : Argument) (k : Keyword) : Except Failure String :=
  if a.text.isEmpty then a.refuse (.missing k.word .name) else .ok a.written

/-- The argument as an expression that cannot be left out. -/
def value (a : Argument) (k : Keyword) (allowCompare : Bool) : Except Failure Tree :=
  if a.text.isEmpty then a.refuse (.missing k.word .value) else a.expression allowCompare

/-- The argument as an expression that can be left out. -/
def optionalValue (a : Argument) : Except Failure (Option Tree) :=
  if a.text.isEmpty then .ok none else (a.expression false).map some

/-- The argument as a path in quotes, with nothing behind it. -/
def quotedPath (a : Argument) : Except Failure String :=
  if a.text.isEmpty then a.refuse (.missing Keyword.load.word .quotedPath)
  else
    match tokensOf a.line a.column a.text with
    | .error failure => .error failure
    | .ok [] => a.refuse .pathExpected
    | .ok (path :: more) =>
      if path.kind = .string then
        match more with
        | [] => .ok (String.ofList (path.text.toList.drop 1).dropLast)
        | extra :: _ =>
          .error (.atPosition (.tokenAfterPath extra.text) extra.line extra.column)
      else a.refuse .pathExpected

/-- The argument as a name and an expression. -/
def binding (a : Argument) (k : Keyword) : Except Failure (String × Tree) :=
  if a.text.isEmpty then a.refuse (.missing k.word .nameAndValue)
  else
    match splitName? a.text with
    | none => a.refuse (.nameExpected k.word (String.ofList (cutWord a.text).word))
    | some (name, [], _) => a.refuse (.missing k.word (.valueFor (String.ofList name)))
    | some (name, rest, offset) =>
      (Argument.expression ⟨rest, a.line, a.column + offset⟩ false).map (String.ofList name, ·)

/-- No argument at all. -/
def absent (a : Argument) (k : Keyword) : Except Failure Unit :=
  if a.text.isEmpty then .ok () else a.refuse (.argumentRefused k.word)

end Argument

/-! ## Statements -/

/-- The setting that a key and an argument make. -/
def SettingKey.read (key : SettingKey) (a : Argument) : Except Failure Setting :=
  let value := a.value (.setting key) false
  match key with
  | .auth => value.map .auth
  | .header => value.map .header
  | .blackfire => value.map .blackfire
  | .followRedirects => a.optionalValue.map .followRedirects
  | .warmup => value.map .warmup
  | .samples => value.map .samples
  | .wait => value.map .wait

/-- **The command that a keyword and an argument make.** -/
def Keyword.read (k : Keyword) (a : Argument) : Except Failure Command :=
  match k with
  | .scenario => .ok (.scenario a.written)
  | .group => (a.name k).map .group
  | .inclusion => (a.name k).map .inclusion
  | .load => a.quotedPath.map .load
  | .bind => (a.binding k).map fun (bound, value) => .bind bound value
  | .param => (a.binding k).map fun (bound, value) => .param bound value
  | .endpoint => (a.value k false).map .endpoint
  | .name => (a.value k false).map .name
  | .method => (a.value k false).map .method
  | .body => (a.value k false).map .body
  | .json => a.optionalValue.map .json
  | .expect => (a.value k true).map .expect
  | .setting key => (key.read a).map .setting
  | .step kind =>
    if kind.hasTarget then (a.value k false).map fun target => .step kind (some target)
    else (a.absent k).map fun _ => .step kind none

/-- **The statement that a line holds.** -/
def classify (l : ScriptLine) : Except Failure Statement :=
  match splitStatement? l.text.toList with
  | none => .error .brokenStatement
  | some (word, argument, offset) =>
    match Keyword.ofWord? (String.ofList word) with
    | none => .error (.atPosition (.unknownStatement (String.ofList word)) l.line l.column)
    | some keyword =>
      let a : Argument := ⟨argument, l.line, l.column + offset⟩
      (keyword.read a).map fun command => ⟨command, a.written, l.depth, l.line, l.column⟩

/-- **The command of a line** is what the keyword in front makes of the argument behind it. -/
theorem exists_read_of_classify {l : ScriptLine} {s : Statement} (h : classify l = .ok s) :
    ∃ word argument offset k command,
      splitStatement? l.text.toList = some (word, argument, offset) ∧
        k.word = String.ofList word ∧
        Keyword.read k ⟨argument, l.line, l.column + (offset : Nat)⟩ = .ok command ∧
        s = ⟨command, String.ofList argument, l.depth, l.line, l.column⟩ := by
  unfold classify at h
  split at h
  · exact absurd h nofun
  · next word argument offset hsplit =>
    split at h
    · exact absurd h nofun
    · next k hword =>
      dsimp only at h
      cases hread : k.read ⟨argument, l.line, l.column + (offset : Nat)⟩ with
      | error failure =>
        rw [hread] at h
        exact absurd h nofun
      | ok command =>
        rw [hread] at h
        exact ⟨word, argument, offset, k, command, hsplit, Keyword.word_of_ofWord? hword, hread,
          (Except.ok.inj h).symm⟩

end ScenarioScript
