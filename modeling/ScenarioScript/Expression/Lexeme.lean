import ScenarioScript.Diagnostic.Cause
import ScenarioScript.Text.Numeral

/-!
# Expression/Lexeme — what stands at the head of a text

The text of an expression is a row of **lexemes** with gaps of spaces and tabs between them.
`head` takes from a text that is not empty the longest gap or lexeme it begins with:

* a **string** runs from a quote to the next quote of its kind; a backslash shields the character
  behind it;
* a **number** is digits, with a minus sign in front if there is one, and a point and digits behind
  if there are any; no name may follow directly;
* a **word** is a name or a truth value;
* an **operator** is one of the twelve of `cutOperator`.

`append_of_head_gap` and `append_of_head_lexeme`: what `head` takes off, put back in front of what
it leaves, is the text.
-/

namespace ScenarioScript.Lexeme

open ScenarioScript.Text

/-- What a text begins with. -/
inductive Head where
  /-- Spaces and tabs, and what follows them. -/
  | gap (text rest : List Char)
  /-- A lexeme, and what follows it. -/
  | lexeme (kind : TokenKind) (text rest : List Char)
  /-- No lexeme: why not, and how many characters had been read when that came out. -/
  | fault (cause : Cause) (read : Nat)
  deriving DecidableEq, Repr

/-- Is the character part of a gap? -/
def isGap (c : Char) : Bool := c == ' ' || c == '\t'

/-- Does the character begin a string, and so end it? -/
def isQuote (c : Char) : Bool := c == '"' || c == '\''

/-! ## Strings -/

/-- A string's characters behind its opening quote, the closing quote included, and what follows.
There is none if the text ends first. -/
def cutString (mark : Char) : List Char → Option (List Char × List Char)
  | [] => none
  | '\\' :: c :: rest => (cutString mark rest).map fun (body, rest) => ('\\' :: c :: body, rest)
  | c :: rest =>
    if c = mark then some ([c], rest)
    else (cutString mark rest).map fun (body, rest) => (c :: body, rest)

theorem append_of_cutString {mark : Char} {text body rest : List Char}
    (h : cutString mark text = some (body, rest)) : body ++ rest = text := by
  fun_induction cutString mark text generalizing body with
  | case1 => simp at h
  | case2 c tail ih =>
    obtain ⟨⟨b, r⟩, hb, hpair⟩ := Option.map_eq_some_iff.1 h
    obtain ⟨rfl, rfl⟩ := Prod.mk.injEq .. ▸ hpair
    simp [ih hb]
  | case3 tail _ =>
    obtain ⟨rfl, rfl⟩ := Prod.mk.injEq .. ▸ Option.some.inj h
    rfl
  | case4 c tail _ hc ih =>
    obtain ⟨⟨b, r⟩, hb, hpair⟩ := Option.map_eq_some_iff.1 h
    obtain ⟨rfl, rfl⟩ := Prod.mk.injEq .. ▸ hpair
    simp [ih hb]

/-! ## Numbers -/

/-- A point with digits behind it, if the text begins so, and what follows. -/
def cutFraction : List Char → List Char × List Char
  | '.' :: rest =>
    match rest.takeWhile isDigit with
    | [] => ([], '.' :: rest)
    | digits => ('.' :: digits, rest.dropWhile isDigit)
  | text => ([], text)

theorem append_cutFraction (text : List Char) :
    (cutFraction text).1 ++ (cutFraction text).2 = text := by
  unfold cutFraction
  split
  · split
    · rfl
    · simp [List.takeWhile_append_dropWhile]
  · rfl

/-- The number without sign at the head of a text, and what follows. -/
def cutNumber (text : List Char) : List Char × List Char :=
  let (fraction, rest) := cutFraction (text.dropWhile isDigit)
  (text.takeWhile isDigit ++ fraction, rest)

theorem append_cutNumber (text : List Char) : (cutNumber text).1 ++ (cutNumber text).2 = text := by
  simp [cutNumber, append_cutFraction, List.takeWhile_append_dropWhile]

/-- A number that has been cut off: refused if a name follows directly. -/
def numberHead (sign : List Char) (cut : List Char × List Char) : Head :=
  let text := sign ++ cut.1
  match cut.2 with
  | c :: rest =>
    if isWordStart c then .fault .numberSuffix text.length else .lexeme .number text (c :: rest)
  | [] => .lexeme .number text []

/-! ## Operators -/

/-- **The operators**: the operator that begins with `c`, and what follows it.  Where one operator
begins another, the longer is taken. -/
def cutOperator (c : Char) (rest : List Char) : Option (TokenKind × List Char × List Char) :=
  match c, rest with
  | '=', '=' :: rest => some (.eq, ['=', '='], rest)
  | '!', '=' :: rest => some (.neq, ['!', '='], rest)
  | '<', '=' :: rest => some (.lte, ['<', '='], rest)
  | '>', '=' :: rest => some (.gte, ['>', '='], rest)
  | '<', rest => some (.lt, ['<'], rest)
  | '>', rest => some (.gt, ['>'], rest)
  | '~', rest => some (.tilde, ['~'], rest)
  | '(', rest => some (.lpar, ['('], rest)
  | ')', rest => some (.rpar, [')'], rest)
  | '.', rest => some (.dot, ['.'], rest)
  | ',', rest => some (.comma, [','], rest)
  | '@', rest => some (.atSign, ['@'], rest)
  | _, _ => none

theorem append_of_cutOperator {c : Char} {tail text rest : List Char} {kind : TokenKind}
    (h : cutOperator c tail = some (kind, text, rest)) :
    text ++ rest = c :: tail ∧ text ≠ [] := by
  unfold cutOperator at h
  split at h <;> simp at h <;> obtain ⟨_, rfl, rfl⟩ := h <;> simp

/-! ## The head of a text -/

/-- **The head of a text** whose first character is `c`. -/
def head (c : Char) (rest : List Char) : Head :=
  if isGap c then .gap (c :: rest.takeWhile isGap) (rest.dropWhile isGap)
  else if isQuote c then
    match cutString c rest with
    | some (body, rest) => .lexeme .string (c :: body) rest
    | none => .fault .unterminatedString (rest.length + 1)
  else if isDigit c then numberHead [] (cutNumber (c :: rest))
  else if c = '-' && (rest.head?.any isDigit) then numberHead ['-'] (cutNumber rest)
  else if isWordStart c then
    let word := c :: rest.takeWhile isWord
    .lexeme (.ofWord word) word (rest.dropWhile isWord)
  else
    match cutOperator c rest with
    | some (kind, text, rest) => .lexeme kind text rest
    | none => .fault (.strayCharacter c) 0

theorem eq_of_numberHead {sign text rest : List Char} {cut : List Char × List Char}
    {kind : TokenKind} (h : numberHead sign cut = .lexeme kind text rest) :
    kind = .number ∧ text = sign ++ cut.1 ∧ rest = cut.2 := by
  unfold numberHead at h
  split at h
  · split at h <;> simp_all
  · simp_all

/-- A gap is the longest start of spaces and tabs. -/
theorem eq_of_head_gap {c : Char} {tail text rest : List Char} (h : head c tail = .gap text rest) :
    text = c :: tail.takeWhile isGap ∧ rest = tail.dropWhile isGap := by
  unfold head at h
  split at h
  · obtain ⟨rfl, rfl⟩ := Head.gap.injEq .. ▸ h
    exact ⟨rfl, rfl⟩
  · repeat' split at h
    all_goals first
      | simp at h
      | (unfold numberHead at h; repeat' split at h; all_goals simp at h)

/-- **Nothing is lost** with a gap. -/
theorem append_of_head_gap {c : Char} {tail text rest : List Char}
    (h : head c tail = .gap text rest) : text ++ rest = c :: tail := by
  obtain ⟨rfl, rfl⟩ := eq_of_head_gap h
  simp [List.takeWhile_append_dropWhile]

/-- **Nothing is lost** with a lexeme, and something is gained. -/
theorem append_of_head_lexeme {c : Char} {tail text rest : List Char} {kind : TokenKind}
    (h : head c tail = .lexeme kind text rest) : text ++ rest = c :: tail ∧ text ≠ [] := by
  unfold head at h
  split at h
  · simp at h
  split at h
  · split at h
    · next body after hcut =>
      obtain ⟨_, rfl, rfl⟩ := Head.lexeme.injEq .. ▸ h
      simp [append_of_cutString hcut]
    · simp at h
  split at h
  · next hdigit =>
    obtain ⟨_, rfl, rfl⟩ := eq_of_numberHead h
    exact ⟨by simp [append_cutNumber], by simp [cutNumber, hdigit]⟩
  split at h
  · next hminus =>
    obtain ⟨_, rfl, rfl⟩ := eq_of_numberHead h
    simp_all [append_cutNumber]
  split at h
  · obtain ⟨_, rfl, rfl⟩ := Head.lexeme.injEq .. ▸ h
    simp [List.takeWhile_append_dropWhile]
  split at h
  · next k op after hop =>
    obtain ⟨_, rfl, rfl⟩ := Head.lexeme.injEq .. ▸ h
    exact append_of_cutOperator hop
  · simp at h

/-- What follows a gap is shorter than the text. -/
theorem length_rest_of_head_gap {c : Char} {tail text rest : List Char}
    (h : head c tail = .gap text rest) : rest.length < (c :: tail).length := by
  obtain ⟨_, rfl⟩ := eq_of_head_gap h
  exact Nat.lt_succ_of_le (List.dropWhile_sublist isGap).length_le

/-- What follows a lexeme is shorter than the text. -/
theorem length_rest_of_head_lexeme {c : Char} {tail text rest : List Char} {kind : TokenKind}
    (h : head c tail = .lexeme kind text rest) : rest.length < (c :: tail).length := by
  obtain ⟨happend, hne⟩ := append_of_head_lexeme h
  rw [← happend, List.length_append]
  have := List.length_pos_iff.2 hne
  omega

end ScenarioScript.Lexeme
