import ScenarioScript.Proofs.Expression.Lookahead
import ScenarioScript.Proofs.Expression.Munch
import ScenarioScript.Proofs.Expression.Parsing
import ScenarioScript.Proofs.Expression.Viability

/-!
# Proofs/Expression/Earliest — a failure is reported where the text goes wrong

What was read before a halt can be completed (`Viability`), and what was read with the token it
halts at cannot (`Lookahead`).  Both are about rows of tokens; here they come to be about texts: a
text can be written on behind a space, and its tokens stay what they are.

* `Decomposition.Munched.append` — what begins with a gap can stand behind any munched text;
* `finishable_of_viable` — **what is wanting can be written**;
* `parseExpression_eq_error_earliest` — **where a text has no tree**, the failure is reported at the
  first token that spoils it, at the end if nothing but more text is wanting, or at the last
  parenthesis that was left open.
-/

namespace ScenarioScript

open Grammar Descent Lexeme Outcome

/-! ## Writing on behind a gap -/

namespace Lexeme

open ScenarioScript.Text

variable {rest more : List Char}

/-- No part of a word is a gap. -/
theorem isWord_of_isGap {c : Char} (h : isGap c = true) : isWord c = false := by
  rw [← Bool.not_eq_true]
  intro hword
  rw [(plain_of_isWord hword).1] at h
  exact absurd h nofun

/-- Behind a text a gap begins nothing but a gap. -/
theorem any_head?_append {p : Char → Bool} (hp : ∀ c, isGap c = true → p c = false)
    (hmore : ∀ c ∈ more.head?, isGap c = true) (h : rest.head?.any p = false) :
    (rest ++ more).head?.any p = false := by
  cases rest with
  | cons c rest => exact h
  | nil =>
    cases more with
    | nil => rfl
    | cons c more => exact hp c (hmore c rfl)

/-- **A lexeme stays maximal** when the text goes on with a gap. -/
theorem Maximal.append {kind : TokenKind} {text : List Char}
    (hmore : ∀ c ∈ more.head?, isGap c = true) (h : Maximal kind text rest) :
    Maximal kind text (rest ++ more) := by
  have hword (c : Char) (hc : isGap c = true) : isWord c = false := isWord_of_isGap hc
  have hdigit (c : Char) (hc : isGap c = true) : isDigit c = false := by
    rw [← Bool.not_eq_true]
    exact fun hd => absurd (isWord_of_isDigit hd) (by rw [hword c hc]; nofun)
  have hstart (c : Char) (hc : isGap c = true) : isWordStart c = false := by
    rw [← Bool.not_eq_true]
    exact fun hs => absurd (isWord_of_isWordStart hs) (by rw [hword c hc]; nofun)
  have hequals (c : Char) (hc : isGap c = true) : (c == '=') = false := by
    rw [beq_eq_false_iff_ne]
    rintro rfl
    exact absurd hc (by decide)
  have hne (rest : List Char) : rest.head? ≠ some '=' ↔ rest.head?.any (· == '=') = false := by
    cases rest <;> simp
  cases kind
  case ident | trueWord | falseWord => exact any_head?_append hword hmore h
  case number =>
    obtain ⟨hd, hs, hpoint⟩ := h
    refine ⟨any_head?_append hdigit hmore hd, any_head?_append hstart hmore hs,
      hpoint.imp_right fun hpoint => ?_⟩
    -- a point at the very end may now have something behind it, but no digit
    by_cases hrest : rest.head? = some '.'
    · obtain ⟨tail, rfl⟩ := List.head?_eq_some_iff.1 hrest
      rw [startsFraction_point] at hpoint
      rw [List.cons_append, startsFraction_point]
      exact any_head?_append hdigit hmore hpoint
    · refine startsFraction_eq_false fun tail htail => ?_
      cases rest with
      | cons c rest => exact hrest (congrArg List.head? htail)
      | nil =>
        rw [List.nil_append] at htail
        exact absurd (hmore '.' (by rw [htail]; rfl)) (by decide)
  case lt | gt => exact (hne _).2 (any_head?_append hequals hmore ((hne _).1 h))
  all_goals trivial

end Lexeme

namespace Decomposition

/-- One decomposition behind the other: the gaps between them become one. -/
def append : Decomposition → Decomposition → Decomposition
  | .last gap, e => e.indent gap
  | .piece gap kind lexeme below, e => .piece gap kind lexeme (below.append e)

@[simp] theorem text_append (d e : Decomposition) : (d.append e).text = d.text ++ e.text := by
  induction d with
  | last gap => exact text_indent gap e
  | piece gap kind lexeme below ih => simp only [append, text, ih, List.append_assoc]

theorem tokens_append (line column : Int) (d e : Decomposition) (offset : Nat) :
    (d.append e).tokens line column offset =
      d.tokens line column offset ++ e.tokens line column (offset + d.text.length) := by
  induction d generalizing offset with
  | last gap => exact tokens_indent line column offset gap e
  | piece gap kind lexeme below ih =>
    simp only [append, tokens, text, ih, List.cons_append, List.length_append, Nat.add_assoc]

/-- **What begins with a gap**, or is empty, can stand behind any munched text. -/
theorem Munched.append {d e : Decomposition} (hd : d.Munched) (he : e.Munched)
    (hgap : ∀ c ∈ e.text.head?, isGap c = true) : (d.append e).Munched := by
  induction d with
  | last gap => exact he.indent hd
  | piece gap kind lexeme below ih =>
    obtain ⟨hfirst, hspelled, hmaximal, hbelow⟩ := hd
    refine ⟨hfirst, hspelled, ?_, ih hbelow⟩
    rw [text_append]
    exact hmaximal.append hgap

/-- A lexeme of a kind that is wanting. -/
def filler : TokenKind → List Char
  | .lpar => ['(']
  | .rpar => [')']
  | _ => ['x']

/-- Lexemes of the given kinds, a space before each of them. -/
def filling : List TokenKind → Decomposition
  | [] => .last []
  | kind :: kinds => .piece [' '] kind (filler kind) (filling kinds)

theorem isGap_head?_filling (kinds : List TokenKind) :
    ∀ c ∈ (filling kinds).text.head?, isGap c = true := by
  cases kinds with
  | nil => nofun
  | cons kind kinds =>
    rintro c ⟨⟩
    rfl

theorem kinds_filling (line column : Int) (offset : Nat) (kinds : List TokenKind) :
    ((filling kinds).tokens line column offset).map Token.kind = kinds := by
  induction kinds generalizing offset with
  | nil => rfl
  | cons kind kinds ih => exact congrArg (kind :: ·) (ih _)

/-- A filler is a lexeme of its kind, and maximal at the end of a text. -/
theorem spelled_filler {kind : TokenKind} (h : kind ∈ fillers) :
    Spelled kind (filler kind) ∧ Maximal kind (filler kind) [] := by
  simp only [fillers, List.mem_cons, List.not_mem_nil, or_false] at h
  obtain rfl | rfl | rfl := h
  · exact ⟨.ident (by decide) (List.forall_mem_nil _) nofun nofun, rfl⟩
  · exact ⟨.operator (by decide), trivial⟩
  · exact ⟨.operator (by decide), trivial⟩

theorem munched_filling {kinds : List TokenKind} (h : ∀ k ∈ kinds, k ∈ fillers) :
    (filling kinds).Munched := by
  induction kinds with
  | nil => exact List.forall_mem_nil _
  | cons kind kinds ih =>
    obtain ⟨hkind, hkinds⟩ := List.forall_mem_cons.1 h
    obtain ⟨hspelled, hmaximal⟩ := spelled_filler hkind
    exact ⟨List.forall_mem_singleton.2 rfl, hspelled,
      hmaximal.append (isGap_head?_filling kinds), ih hkinds⟩

end Decomposition

/-! ## What can be finished -/

variable {text : List Char} {line column : Int} {allowCompare : Bool} {row tokens : List Token}

/-- **The text can be finished**: written on, it has a tree, and its tokens stay what they are. -/
def Finishable (line column : Int) (allowCompare : Bool) (text : List Char) (row : List Token) :
    Prop :=
  ∃ rest more tree, tokensOf line column (text ++ rest) = .ok (row ++ more) ∧
    parseExpression (text ++ rest) line column allowCompare = .ok tree

/-- **The row can be completed**: with some tokens behind it, it has a derivation. -/
def Completable (allowCompare : Bool) (row : List Token) : Prop :=
  ∃ more, Endless more ∧ ∃ g : Whole allowCompare, g.tokens = row ++ more

/-- **What is wanting can be written**: names and parentheses, a space before each. -/
theorem finishable_of_viable (htokens : tokensOf line column text = .ok row)
    (h : Viable (fun g : Whole allowCompare => g.tokens) row) :
    Finishable line column allowCompare text row := by
  obtain ⟨kinds, hkinds, hcomplete⟩ := h
  obtain ⟨d, hd, rfl, rfl⟩ := Decomposition.exists_munched_of_tiled (tokensOf_eq_ok_iff.1 htokens)
  let e := Decomposition.filling kinds
  obtain ⟨g, hg⟩ := hcomplete (e.tokens line column (0 + d.text.length))
    (Decomposition.kinds_filling line column _ kinds)
  have hwhole : (d.append e).Munched := hd.append (Decomposition.munched_filling hkinds)
    (Decomposition.isGap_head?_filling kinds)
  have htiled : Tiled line column 0 _ _ := hwhole.tiled 0
  have hread := tokensOf_eq_ok_iff.2 htiled
  rw [Decomposition.text_append, Decomposition.tokens_append] at hread
  exact ⟨e.text, _, _, hread, parseExpression_tokens g (hread.trans (congrArg Except.ok hg.symm))⟩

/-! ## Where a failure is reported -/

/-- **Where a text goes wrong**, and why: at a token that spoils it, at its end, or at an opening
parenthesis.  The text before the place can be finished; with what stands there, it cannot. -/
inductive GoesWrong (line column : Int) (allowCompare : Bool) (text : List Char)
    (tokens : List Token) : Cause → Token → Prop
  | spoilt {cause : Cause} {culprit : Token} {before after : List Token} {kept dropped : List Char}
      (cause_ne : cause ≠ .unclosedOpen) (tokens_eq : tokens = before ++ culprit :: after)
      (text_eq : text = kept ++ dropped) (tokensOf_eq : tokensOf line column kept = .ok before)
      (finishable : Finishable line column allowCompare kept before)
      (spoils : ¬ Completable allowCompare (before ++ [culprit])) :
      GoesWrong line column allowCompare text tokens cause culprit
  | unfinished {cause : Cause} (cause_ne : cause ≠ .unclosedOpen)
      (finishable : Finishable line column allowCompare text tokens)
      (incomplete : ∀ g : Whole allowCompare, g.tokens ≠ tokens) :
      GoesWrong line column allowCompare text tokens cause (.endOf line column text.length)
  | unclosed {culprit : Token} (last_open : (openParens [] tokens).head? = some culprit)
      (finishable : Finishable line column allowCompare text tokens)
      (incomplete : ∀ g : Whole allowCompare, g.tokens ≠ tokens) :
      GoesWrong line column allowCompare text tokens .unclosedOpen culprit

/-- A text fails to have a tree, once it has tokens, exactly where reading them halts. -/
theorem parseExpression_eq_error {failure : Failure}
    (htokens : tokensOf line column text = .ok tokens) :
    parseExpression text line column allowCompare = .error failure ↔
      ∃ halt, whole (.ofText text line column) allowCompare ⟨tokens, 0⟩ = .error halt ∧
        halt.failure = failure := by
  simp only [parseExpression, htokens]
  cases whole (.ofText text line column) allowCompare ⟨tokens, 0⟩ with
  | error halt => simp
  | ok read => simp

/-- The token at which reading halts spoils what was read before it. -/
theorem not_completable_of_halt {src : Source} {halt : Halt} {before after : List Token}
    {culprit : Token} (hend : src.ending.kind = .eof)
    (hrow : Endless (before ++ culprit :: after))
    (h : whole src allowCompare ⟨before ++ culprit :: after, 0⟩ = .error halt)
    (hahead : halt.cursor.ahead = culprit :: after) :
    ¬ Completable allowCompare (before ++ [culprit]) := by
  rintro ⟨more, hmore, g, hg⟩
  rw [List.append_assoc, List.singleton_append] at hg
  refine tokens_ne_of_halt hend h hahead ?_ g hg
  obtain ⟨hbefore, hafter⟩ := List.forall_mem_append.1 hrow
  exact List.forall_mem_append.2
    ⟨hbefore, List.forall_mem_cons.2 ⟨(List.forall_mem_cons.1 hafter).1, hmore⟩⟩

/-- **A failure is reported where the text goes wrong**, whatever the reason and however deep in the
expression. -/
theorem parseExpression_eq_error_earliest {failure : Failure}
    (htokens : tokenize line column text = .ok (tokens ++ [.endOf line column text.length]))
    (h : parseExpression text line column allowCompare = .error failure) :
    ∃ cause culprit, failure = .atPosition cause culprit.line culprit.column ∧
      GoesWrong line column allowCompare text tokens cause culprit := by
  rw [tokenize_eq_ok_iff] at htokens
  obtain ⟨halt, hhalt, rfl⟩ := (parseExpression_eq_error htokens).1 h
  refine ⟨halt.cause, halt.culprit, rfl, ?_⟩
  have hendless := endless_tokensOf htokens
  have hincomplete (g : Whole allowCompare) : g.tokens ≠ tokens := by
    rintro rfl
    rw [whole_complete g 0 rfl hendless] at hhalt
    exact absurd hhalt.symm error_ne_ok
  obtain ⟨row, hrow, hviable, hblames⟩ := stalls_whole rfl hhalt
  obtain rfl : tokens = row ++ halt.cursor.ahead := hrow
  cases hahead : halt.cursor.ahead with
  | nil =>
    rw [hahead, List.append_nil] at htokens hincomplete
    have hfinishable := finishable_of_viable htokens hviable
    rw [List.append_nil]
    cases hblames with
    | current culprit_eq cause_ne =>
      have hculprit : halt.culprit = .endOf line column text.length := by
        rw [culprit_eq, Cursor.current, hahead]
        rfl
      exact hculprit ▸ .unfinished cause_ne hfinishable hincomplete
    | @opening before inside row_eq kind_eq closed _ cause_eq =>
      rw [List.nil_append] at row_eq
      have hopen : (openParens [] row).head? = some halt.culprit := by
        rw [row_eq, openParens_append, openParens_cons, closed, openParen, kind_eq]
        rfl
      exact cause_eq ▸ .unclosed hopen hfinishable hincomplete
  | cons t after =>
    rw [hahead] at htokens hendless hhalt
    cases hblames with
    | opening _ _ _ ahead_eq _ => exact absurd (hahead.symm.trans ahead_eq) (List.cons_ne_nil _ _)
    | current culprit_eq cause_ne =>
      obtain rfl : halt.culprit = t := by
        rw [culprit_eq, Cursor.current, hahead]
        rfl
      obtain ⟨kept, dropped, rfl, hkept, -⟩ :=
        (tokensOf_eq_ok_iff.1 htokens).cut_before (List.cons_ne_nil halt.culprit after)
      have hkept := tokensOf_eq_ok_iff.2 hkept
      exact .spoilt cause_ne rfl rfl hkept (finishable_of_viable hkept hviable)
        (not_completable_of_halt rfl hendless hhalt hahead)

/-- Two arguments with no comma between them: the second one is to blame, not the parenthesis that
has not been closed. -/
theorem earliest_second_argument :
    tokenize 1 1 "f(a b".toList =
        .ok ([⟨.ident, "f", 1, 1, 0, 1⟩, ⟨.lpar, "(", 1, 2, 1, 2⟩, ⟨.ident, "a", 1, 3, 2, 3⟩,
          ⟨.ident, "b", 1, 5, 4, 5⟩] ++ [.endOf 1 1 5]) ∧
      parseExpression "f(a b".toList 1 1 false = .error (.atPosition (.unexpectedToken "b") 1 5) ∧
      ∃ cause culprit, Failure.atPosition (.unexpectedToken "b") 1 5 =
          .atPosition cause culprit.line culprit.column ∧
        GoesWrong 1 1 false "f(a b".toList
          [⟨.ident, "f", 1, 1, 0, 1⟩, ⟨.lpar, "(", 1, 2, 1, 2⟩, ⟨.ident, "a", 1, 3, 2, 3⟩,
            ⟨.ident, "b", 1, 5, 4, 5⟩] cause culprit := by
  have htokens : tokenize 1 1 "f(a b".toList =
      .ok ([⟨.ident, "f", 1, 1, 0, 1⟩, ⟨.lpar, "(", 1, 2, 1, 2⟩, ⟨.ident, "a", 1, 3, 2, 3⟩,
        ⟨.ident, "b", 1, 5, 4, 5⟩] ++ [.endOf 1 1 5]) := by decide +kernel
  have herror : parseExpression "f(a b".toList 1 1 false =
      .error (.atPosition (.unexpectedToken "b") 1 5) := by
    decide +kernel
  exact ⟨htokens, herror, parseExpression_eq_error_earliest htokens herror⟩

end ScenarioScript
