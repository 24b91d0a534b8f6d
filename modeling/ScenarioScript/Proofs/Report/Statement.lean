import Mathlib.Algebra.Group.Nat.Defs
import Mathlib.Data.List.TakeWhile
import ScenarioScript.Proofs.Form.Step
import ScenarioScript.Proofs.Report.Expression
import ScenarioScript.Proofs.Report.Rows

/-!
# Proofs/Report/Statement — what the rows of a report are read to

A row is read as its keyword makes it of its argument (`classify_entry_scanned`), and the argument is
a value that was read before: an expression (`Tree.Legible.value`), a name with an expression
(`Tree.Legible.binding`), a count or a mode of warming up.  A count is written in decimal digits,
whatever digits it came in, and these spell the same number again (`countValue_digits`).
-/

namespace ScenarioScript

open Text

/-! ## Rows -/

/-- **A row** is read as its keyword makes it of its argument. -/
theorem classify_entry_scanned (depth : Nat) (k : Keyword) {argument : Option String}
    (h : ∀ text ∈ argument, Tidy text.toList) (width : Nat) (number : Int) :
    ∃ column, classify ((Row.entry depth k argument).scanned width number) =
      (k.read ⟨(argument.getD "").toList, number, column⟩).map fun command =>
        ⟨command, argument.getD "", depth, number, (width * depth : Nat) + 1⟩ := by
  cases argument with
  | none =>
    have hscanned : (Row.entry depth k none).scanned width number =
        ⟨depth, k.word, number, (width * depth : Nat) + 1⟩ := by
      simp [Row.scanned, Row.entry, Report.entry]
    rw [hscanned]
    exact ⟨_, classify_word k depth number _⟩
  | some text =>
    have hscanned : (Row.entry depth k (some text)).scanned width number =
        ⟨depth, String.ofList (k.word.toList ++ ' ' :: text.toList), number,
          (width * depth : Nat) + 1⟩ := by
      simp [Row.scanned, Row.entry, Report.entry]
    rw [hscanned, classify_entry k depth number _ (h text rfl), String.ofList_toList]
    exact ⟨_, rfl⟩

/-! ## Expressions -/

variable {t : Tree} (line column : Int)

/-- An argument that is an expression is read to its tree. -/
theorem Argument.value_of_parse {text : List Char} {allowCompare : Bool} (hne : text ≠ [])
    {line column : Int} (h : parseExpression text line column allowCompare = .ok t) (k : Keyword) :
    Argument.value ⟨text, line, column⟩ k allowCompare = .ok t := by
  have hempty : ¬text.isEmpty = true := fun hempty => hne (List.isEmpty_iff.1 hempty)
  exact (if_neg hempty).trans h

/-- **An expression that is written as an argument** is read to what says the same. -/
theorem Tree.Legible.value {allowCompare : Bool} (h : t.Legible allowCompare) (k : Keyword) :
    ∃ b, Argument.value ⟨t.text.toList, line, column⟩ k allowCompare = .ok (t.rebase b) := by
  obtain ⟨b, hread⟩ := h.reread line column
  exact ⟨b, Argument.value_of_parse h.tidy_text.ne_nil hread k⟩

theorem Text.IsName.ne_nil {name : List Char} (h : IsName name) : name ≠ [] := by
  rintro rfl
  exact h

/-- **A name** is made of characters that names go on with. -/
theorem Text.IsName.isNameChar {name : List Char} (h : IsName name) :
    ∀ c ∈ name, isNameChar c = true := by
  obtain ⟨first, rest, rfl⟩ := List.exists_cons_of_ne_nil h.ne_nil
  obtain ⟨hfirst, hrest⟩ := isName_cons_iff.1 h
  exact List.forall_mem_cons.2
    ⟨isNameChar_iff.2 (.inl (isNameStart_iff.1 hfirst)), hrest⟩

theorem Text.isBlank_of_isName {name : List Char} (h : IsName name) :
    ∀ c ∈ name, isBlank c = false := by
  intro c hc
  obtain ⟨hlow, hhigh⟩ := toNat_of_isNameChar (h.isNameChar c hc)
  exact isBlank_of_visible (Nat.le_trans (by decide) hlow) (Nat.le_trans hhigh (by decide))

/-- **A name, a space and a tidy text** are split behind the name. -/
theorem splitName?_entry {name text : List Char} (hname : IsName name) (htext : Tidy text) :
    splitName? (name ++ ' ' :: text) = some (name, text, name.length + 1) := by
  have hspace : isNameChar ' ' = false := by decide
  have hblank : isBlank ' ' = true := by decide
  have htake : (name ++ ' ' :: text).takeWhile isNameChar = name := by
    rw [List.takeWhile_append_of_pos hname.isNameChar]
    simp [hspace]
  have hdrop : (name ++ ' ' :: text).dropWhile isNameChar = ' ' :: text := by
    rw [List.dropWhile_append_of_pos hname.isNameChar]
    simp [hspace]
  have hrest : (' ' :: text).dropWhile isBlank = text := by
    rw [List.dropWhile_cons_of_pos hblank, dropWhile_isBlank_of_head htext.head]
  have hlength : (name ++ ' ' :: text).length - text.length = name.length + 1 := by
    rw [List.length_append, List.length_cons]
    omega
  obtain ⟨first, more, rfl⟩ := List.exists_cons_of_ne_nil hname.ne_nil
  have hstart : isNameStart first = true := (isName_cons_iff.1 hname).1
  rw [List.cons_append] at htake hdrop hlength ⊢
  simp only [splitName?, htake, hdrop, hrest, hlength, hstart, List.head?_cons, Option.any_some,
    hblank]
  rfl

theorem toList_binding (name text : String) :
    (Report.entry name (some text)).toList = name.toList ++ ' ' :: text.toList := by
  simp [Report.entry]

theorem Tree.Legible.tidy_binding {allowCompare : Bool} (h : t.Legible allowCompare)
    {name : String} (hname : IsName name.toList) :
    Tidy (Report.entry name (some t.text)).toList :=
  toList_binding name t.text ▸ h.tidy_text.entry hname.ne_nil (isBlank_of_isName hname)

/-- **A name and an expression** are read to the name and to what says the same. -/
theorem Tree.Legible.binding {name : String} (h : t.Legible false) (hname : IsName name.toList)
    (k : Keyword) :
    ∃ b, Argument.binding ⟨(Report.entry name (some t.text)).toList, line, column⟩ k =
      .ok (name, t.rebase b) := by
  obtain ⟨b, hread⟩ := h.reread line (column + (name.toList.length + 1 : Nat))
  have hne : ¬(name.toList ++ ' ' :: t.text.toList).isEmpty = true := by simp
  obtain ⟨c, rest, hrest⟩ := List.exists_cons_of_ne_nil h.tidy_text.ne_nil
  refine ⟨b, ?_⟩
  rw [toList_binding, Argument.binding, if_neg hne]
  simp only [splitName?_entry hname h.tidy_text]
  rw [hrest] at hread ⊢
  simp only [Argument.expression, hread, String.ofList_toList]
  rfl

/-! ## Counts and modes -/

/-- **Digits** are neither gaps nor quotes, and stand for what they are. -/
theorem digit_facts {c : Char} (h : c.isDigit = true) :
    Lexeme.isGap c = false ∧ Lexeme.isQuote c = false ∧ decimalValue? c = some (c.toNat - 48) := by
  have hlt : c.toNat < 0x80 := Nat.lt_of_le_of_lt (Char.isDigit_iff_toNat.1 h).2 (by decide)
  exact of_ascii (P := fun c => c.isDigit = true → Lexeme.isGap c = false ∧
    Lexeme.isQuote c = false ∧ decimalValue? c = some (c.toNat - 48)) (by decide +kernel) hlt h

/-- **The digits of a number** spell the number. -/
theorem Text.decimalNumber_toDigits (n : Nat) : decimalNumber (Nat.toDigits 10 n) = n := by
  refine Eq.trans (List.foldl_ext _ _ 0 fun m c hc => ?_) Nat.ofDigitChars_ten_toDigits
  rw [(digit_facts (Nat.isDigit_of_mem_toDigits (by decide) (by decide) hc)).2.2]
  rfl

/-- **A row of digits** is one number. -/
theorem head_digits {c : Char} {rest : List Char} (h : ∀ d ∈ c :: rest, d.isDigit = true) :
    Lexeme.head c rest = .lexeme .number (c :: rest) [] := by
  have hdigit : ∀ d ∈ c :: rest, isDigit d = true := fun d hd =>
    isDigit_of_isDecimal (by rw [isDecimal, (digit_facts (h d hd)).2.2, Option.isSome_some])
  obtain ⟨hgap, hquote, -⟩ := digit_facts (h c List.mem_cons_self)
  have hcut : Lexeme.cutNumber (c :: rest) = (c :: rest, []) := by
    have htake : (c :: rest).takeWhile isDigit = c :: rest := List.takeWhile_eq_self_iff.2 hdigit
    have hdrop : (c :: rest).dropWhile isDigit = [] := List.dropWhile_eq_nil_iff.2 hdigit
    rw [Lexeme.cutNumber, htake, hdrop]
    exact congrArg (·, []) (List.append_nil _)
  rw [Lexeme.head, if_neg (Bool.eq_false_iff.1 hgap), if_neg (Bool.eq_false_iff.1 hquote),
    if_pos (hdigit c List.mem_cons_self), hcut]
  rfl

/-- **A number in digits** is read to a tree of one number. -/
theorem parseExpression_digits (n : Nat) (line column : Int) (allowCompare : Bool) :
    ∃ t, parseExpression (Nat.toDigits 10 n) line column allowCompare = .ok t ∧
      t.label? = some .number ∧ t.text.toList = Nat.toDigits 10 n := by
  have hdigits : ∀ c ∈ Nat.toDigits 10 n, c.isDigit = true := fun c =>
    Nat.isDigit_of_mem_toDigits (by decide) (by decide)
  obtain ⟨c, rest, hrow⟩ := List.exists_cons_of_ne_nil (@Nat.toDigits_ne_nil n 10)
  rw [hrow] at hdigits ⊢
  let token := Token.ofLexeme line column 0 .number (c :: rest)
  have htokens : tokensOf line column (c :: rest) = .ok [token] := by
    simp [tokensOf, readTokens_of_lexeme (head_digits hdigits), token]
  let g : Grammar.Whole allowCompare := .value (.mk (.mk (.literal token .number rfl) .none) .none)
  refine ⟨_, parseExpression_tokens g htokens, rfl, ?_⟩
  simp [g, token, Grammar.Whole.tree, Grammar.Concat.tree, Grammar.Chain.tree,
    Grammar.Primary.tree, Grammar.Joined.treeOn, Tree.text, Tree.span, Source.spanOf, Source.span,
    Source.ofText, Token.ofLexeme]

/-- **A count** is the same when its digits are read again. -/
theorem countValue_digits {n : Nat} (hlimit : n < 10 ^ digitLimit) (word : String)
    (hlabel : t.label? = some .number) (htext : t.text.toList = Nat.toDigits 10 n) :
    countValue word t = .ok n := by
  have hdecimal : (Nat.toDigits 10 n).all isDecimal = true := List.all_eq_true.2 fun c hc => by
    have hdigit : c.isDigit = true := Nat.isDigit_of_mem_toDigits (by decide) (by decide) hc
    rw [isDecimal, (digit_facts hdigit).2.2, Option.isSome_some]
  have hlength : (Nat.toDigits 10 n).length ≤ digitLimit :=
    (Nat.length_toDigits_le_iff (by decide) (by decide)).2 hlimit
  simp only [countValue, htext]
  rw [if_pos ⟨hlabel, Nat.toDigits_ne_nil, hdecimal⟩, if_pos hlength, decimalNumber_toDigits]

/-- **A mode of warming up** is the same when its text is read again. -/
theorem warmupValue_again (mode : Warmup) (word : String) (line column : Int) :
    ∃ t, parseExpression mode.text.toList line column false = .ok t ∧
      warmupValue word t = .ok mode := by
  have hread : ∃ t, parseExpression mode.text.toList 1 1 false = .ok t ∧
      (t.label? = some .bool ∨ t.label? = some .auto) ∧ t.text = mode.text := by
    have hrun : (parseExpression mode.text.toList 1 1 false).toOption.any (fun t =>
        (t.label? = some .bool ∨ t.label? = some .auto) ∧ t.text = mode.text) = true := by
      cases mode <;> decide +kernel
    obtain ⟨t, ht, hlook⟩ := (Option.any_eq_true _ _).1 hrun
    exact ⟨t, Outcome.toOption_eq_some.1 ht, of_decide_eq_true hlook⟩
  obtain ⟨t, ht, hlabel, htext⟩ := hread
  have hagain := parseExpression_again ht line column
  rw [htext] at hagain
  refine ⟨_, hagain, ?_⟩
  rw [warmupValue, Tree.label?_rebase, if_pos hlabel, Tree.text_rebase, htext,
    Warmup.ofText?_text]

end ScenarioScript
