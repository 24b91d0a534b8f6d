import ScenarioScript.Proofs.Expression.Excerpt
import ScenarioScript.Proofs.Form.Command

/-!
# Proofs/Report/Expression — expressions that are written and read again

An expression is written as its text.  This begins and ends with a lexeme, and no lexeme begins or
ends with a blank, so the text can stand on a line of its own (`Tree.Legible.tidy_text`).  Read
again, at any place, it gives the same tree with other places in it (`Tree.Legible.reread`), and the
text of a tree and the variables in it do not depend on its places (`Tree.text_rebase`,
`Tree.refs_rebase`).
-/

namespace ScenarioScript

open Text

/-! ## The ends of lexemes -/

/-- **No blank** is part of a word. -/
theorem Text.isBlank_of_isWord {c : Char} (h : isWord c = true) : isBlank c = false := by
  have hascending : blanks.Ascending := by decide
  have hall : (blanks.flatMap fun r => List.range' r.1 (r.2 + 1 - r.1)).all
      (fun n => !isWord (Char.ofNat n)) = true := by decide +kernel
  rw [isBlank, ← Bool.not_eq_true, Ranges.contains_iff hascending]
  rintro ⟨r, hr, hlo, hhi⟩
  have hmem : c.toNat ∈ blanks.flatMap fun r => List.range' r.1 (r.2 + 1 - r.1) :=
    List.mem_flatMap.2 ⟨r, hr, List.mem_range'_1.2 ⟨hlo, by omega⟩⟩
  have hword := List.all_eq_true.1 hall _ hmem
  rw [Char.ofNat_toNat, h] at hword
  exact absurd hword nofun

namespace Lexeme

variable {c : Char} {tail text rest : List Char} {kind : TokenKind}

/-- **A string ends with its quote.** -/
theorem getLast?_of_cutString {mark : Char} {body : List Char}
    (h : cutString mark text = some (body, rest)) : body.getLast? = some mark := by
  fun_induction cutString mark text generalizing body with
  | case1 => simp at h
  | case2 c tail ih | case4 c tail _ _ ih =>
    obtain ⟨⟨b, r⟩, hb, hpair⟩ := Option.map_eq_some_iff.1 h
    obtain ⟨rfl, rfl⟩ := Prod.mk.injEq .. ▸ hpair
    simp [List.getLast?_cons, ih hb]
  | case3 tail _ =>
    obtain ⟨rfl, rfl⟩ := Prod.mk.injEq .. ▸ Option.some.inj h
    rfl

theorem isBlank_of_mem_digits (text : List Char) :
    ∀ d ∈ text.takeWhile isDigit, isBlank d = false := fun _ hd =>
  isBlank_of_isWord (isWord_of_isDigit (List.all_eq_true.1 List.all_takeWhile _ hd))

theorem isBlank_of_mem_cutFraction : ∀ d ∈ (cutFraction text).1, isBlank d = false := by
  unfold cutFraction
  split
  · next tail =>
    split
    · exact List.forall_mem_nil _
    · exact List.forall_mem_cons.2 ⟨by decide, isBlank_of_mem_digits tail⟩
  · exact List.forall_mem_nil _

theorem isBlank_of_mem_cutNumber : ∀ d ∈ (cutNumber text).1, isBlank d = false :=
  List.forall_mem_append.2 ⟨isBlank_of_mem_digits text, isBlank_of_mem_cutFraction⟩

theorem isBlank_of_mem_cutOperator (h : cutOperator c tail = some (kind, text, rest)) :
    ∀ d ∈ text, isBlank d = false := by
  have hall : ['=', '!', '<', '>', '~', '(', ')', '.', ',', '@'].all (!isBlank ·) = true := by
    decide
  have hop : ∀ d ∈ text, d ∈ ['=', '!', '<', '>', '~', '(', ')', '.', ',', '@'] := by
    unfold cutOperator at h
    split at h
    all_goals
      simp only [Option.some.injEq, Prod.mk.injEq, reduceCtorEq] at h
    all_goals
      obtain ⟨-, rfl, -⟩ := h
      simp
  exact fun d hd => by simpa using List.all_eq_true.1 hall d (hop d hd)

/-- **A lexeme has no blank at its ends**: there are blanks in strings only, and these stand between
quotes. -/
theorem isBlank_ends_of_head (h : head c tail = .lexeme kind text rest) :
    isBlank c = false ∧ ∀ d ∈ text.getLast?, isBlank d = false := by
  obtain ⟨more, htext, -⟩ := exists_of_head_lexeme h
  suffices h : (∀ d ∈ text, isBlank d = false) ∨ isQuote c = true ∧ text.getLast? = some c by
    obtain hall | ⟨hquote, hlast⟩ := h
    · exact ⟨hall c (htext ▸ List.mem_cons_self), fun d hd => hall d (List.mem_of_getLast? hd)⟩
    · have hc : isBlank c = false := by
        obtain rfl | rfl : c = '"' ∨ c = '\'' := by simpa [isQuote] using hquote
        all_goals decide
      exact ⟨hc, fun d hd => Option.some.inj (hlast.symm.trans hd) ▸ hc⟩
  unfold head at h
  split at h
  · simp at h
  split at h
  · next hquote =>
    split at h
    · next body after hcut =>
      obtain ⟨-, rfl, -⟩ := Head.lexeme.injEq .. ▸ h
      exact .inr ⟨hquote, by simp [List.getLast?_cons, getLast?_of_cutString hcut]⟩
    · simp at h
  refine .inl ?_
  split at h
  · obtain ⟨-, rfl, -⟩ := eq_of_numberHead h
    exact isBlank_of_mem_cutNumber
  split at h
  · obtain ⟨-, rfl, -⟩ := eq_of_numberHead h
    exact List.forall_mem_cons.2 ⟨by decide, isBlank_of_mem_cutNumber⟩
  split at h
  · next hword =>
    obtain ⟨-, rfl, -⟩ := Head.lexeme.injEq .. ▸ h
    exact List.forall_mem_cons.2 ⟨isBlank_of_isWord (isWord_of_isWordStart hword), fun d hd =>
      isBlank_of_isWord (List.all_eq_true.1 List.all_takeWhile d hd)⟩
  split at h
  · next k op after hop =>
    obtain ⟨-, rfl, -⟩ := Head.lexeme.injEq .. ▸ h
    exact isBlank_of_mem_cutOperator hop
  · simp at h

end Lexeme

/-! ## The ends of tiled texts -/

namespace Tiled

variable {line column : Int} {offset : Nat} {text : List Char} {row : List Token}

/-- **A text that begins with its first token** does not begin with a blank. -/
theorem isBlank_head (h : Tiled line column offset text row) (hne : row ≠ [])
    (hstart : rowStart row = offset) : ∀ c ∈ text.head?, isBlank c = false := by
  cases h with
  | done => exact absurd rfl hne
  | gap _ below =>
    have := below.le_rowStart hne
    rw [List.length_cons] at this
    omega
  | lexeme head_eq below =>
    exact fun d hd => Option.some.inj hd ▸ (Lexeme.isBlank_ends_of_head head_eq).1

/-- **A text that ends with its last token** does not end with a blank. -/
theorem isBlank_last (h : Tiled line column offset text row) (hne : row ≠ [])
    (hstop : rowStop 0 row = offset + text.length) :
    ∀ c ∈ text.getLast?, isBlank c = false := by
  induction h with
  | done => exact absurd rfl hne
  | gap _ below ih =>
    rw [List.getLast?_append_of_ne_nil _ (below.text_ne_nil hne)]
    exact ih hne (by rw [hstop, List.length_append, Nat.add_assoc])
  | @lexeme offset kind c more rest row head_eq below ih =>
    by_cases hlast : row = []
    · subst hlast
      obtain rfl : rest = [] := by
        rw [rowStop_cons, rowStop_nil, List.length_append] at hstop
        exact List.length_eq_zero_iff.1 (by change offset + _ = _ at hstop; omega)
      rw [List.append_nil]
      exact (Lexeme.isBlank_ends_of_head head_eq).2
    · rw [List.getLast?_append_of_ne_nil _ (below.text_ne_nil hlast)]
      refine ih hlast ?_
      rw [rowStop_cons, rowStop_of_ne_nil hlast] at hstop
      rw [hstop, List.length_append, Nat.add_assoc]

end Tiled

/-! ## The text of an expression -/

open Grammar

variable {text : List Char} {line column : Int} {allowCompare : Bool} {t : Tree}

/-- **An expression is a piece of its text**, from its first token to its last. -/
theorem exists_piece_of_parseExpression
    (h : parseExpression text line column allowCompare = .ok t) :
    ∃ (g : Whole allowCompare) (before piece behind : List Char),
      text = before ++ piece ++ behind ∧ g.tree (.ofText text line column) = t ∧
        Tiled line column before.length piece g.tokens ∧ rowStart g.tokens = before.length ∧
        rowStop 0 g.tokens = before.length + piece.length ∧ t.text.toList = piece ∧
        t.span.start = before.length := by
  obtain ⟨g, htokens, rfl⟩ := parseExpression_eq_ok_tree.1 h
  have htiled := tokensOf_eq_ok_iff.1 htokens
  have hspan := g.readFrom_tree.span_eq htiled List.infix_rfl
  rw [← List.nil_append g.tokens, ← List.append_nil ([] ++ g.tokens)] at htiled
  obtain ⟨before, piece, behind, rfl, -, hpiece, -, hstart, hstop⟩ :=
    htiled.exists_slice g.tokens_ne_nil
  rw [Nat.zero_add] at hpiece hstart hstop
  refine ⟨g, before, piece, behind, rfl, rfl, hpiece, hstart, hstop, ?_, hspan ▸ hstart⟩
  rw [Tree.text, hspan]
  simp [Source.spanOf, Source.span, Source.ofText, hstart, hstop]

/-- **Read again**, at any place, the text of an expression gives the same tree, counted from where
it began. -/
theorem parseExpression_again (h : parseExpression text line column allowCompare = .ok t)
    (line' column' : Int) :
    parseExpression t.text.toList line' column' allowCompare =
      .ok (t.rebase ⟨t.span.start, line', column'⟩) := by
  obtain ⟨g, before, piece, behind, rfl, rfl, hpiece, -, -, htext, hstart⟩ :=
    exists_piece_of_parseExpression h
  have hmoved : Tiled line' column' 0 piece
      (g.tokens.map (Token.rebase ⟨before.length, line', column'⟩)) :=
    Tiled.rebase (b := ⟨before.length, line', column'⟩) hpiece
  obtain ⟨e, he, htree⟩ := g.exists_rebase (b := ⟨before.length, line', column'⟩)
    (fun row hne hrow => Source.spanOf_rebase line column rfl hne hrow) hpiece.bounds
  rw [htext, hstart]
  exact parseExpression_eq_ok_tree.2 ⟨e, tokensOf_eq_ok_iff.2 (he ▸ hmoved), htree⟩

namespace Tree

/-- **The text of an expression** can stand on a line of its own. -/
theorem Legible.tidy_text (h : t.Legible allowCompare) : Tidy t.text.toList := by
  obtain ⟨-, text, line, column, hunbroken, hread⟩ := h
  obtain ⟨g, before, piece, behind, rfl, -, hpiece, hstart, hstop, rfl, -⟩ :=
    exists_piece_of_parseExpression hread
  have hne := g.tokens_ne_nil
  exact ⟨hpiece.text_ne_nil hne, hpiece.isBlank_head hne hstart, hpiece.isBlank_last hne hstop,
    fun c hc => hunbroken c (List.mem_append_left _ (List.mem_append_right _ hc))⟩

/-! ## What a tree says -/

section

variable (b : Base)

@[simp] theorem text_rebase (t : Tree) : (t.rebase b).text = t.text := by cases t <;> rfl

@[simp] theorem label?_rebase (t : Tree) : (t.rebase b).label? = t.label? := by cases t <;> rfl

theorem rebaseAll_eq_map (ts : List Tree) : rebaseAll b ts = ts.map (rebase b) := by
  induction ts with
  | nil => rfl
  | cons t ts ih => rw [rebaseAll, ih, List.map_cons]

theorem children_rebase (t : Tree) : (t.rebase b).children = t.children.map (rebase b) := by
  cases t with
  | leaf => rfl
  | node label span children => exact rebaseAll_eq_map b children

theorem firstText_rebase (t : Tree) : (t.rebase b).firstText = t.firstText := by
  rw [firstText, firstText, children_rebase]
  cases t.children <;> simp

@[simp] theorem callName?_rebase (t : Tree) : (t.rebase b).callName? = t.callName? := by
  rw [callName?, callName?, label?_rebase, firstText_rebase]

theorem callArgs_rebase (t : Tree) : (t.rebase b).callArgs = t.callArgs.map (rebase b) := by
  have hsame : (fun child : Tree => child.label? == some .args) ∘ rebase b =
      fun child => child.label? == some .args :=
    funext fun child => by rw [Function.comp_apply, label?_rebase]
  rw [callArgs, callArgs, child?, child?, children_rebase, List.find?_map, hsame]
  cases t.children.find? (·.label? == some .args) with
  | none => rfl
  | some args => exact children_rebase b args

mutual

@[simp] theorem refs_rebase : (t : Tree) → (t.rebase b).refs = t.refs
  | leaf _ => rfl
  | node label span children => by
      have hfirst : ((rebaseAll b children).head?.map text).getD "" =
          (children.head?.map text).getD "" := by
        cases children <;> simp [rebaseAll]
      cases label <;> simp only [rebase, refs, refsAll_rebase children, hfirst]

theorem refsAll_rebase : (ts : List Tree) → refsAll (rebaseAll b ts) = refsAll ts
  | [] => rfl
  | t :: ts => by rw [rebaseAll, refsAll, refsAll, refs_rebase t, refsAll_rebase ts]

end

end

/-- **An expression that is written and read again** says the same. -/
theorem Legible.reread (h : t.Legible allowCompare) (line column : Int) :
    ∃ b, parseExpression t.text.toList line column allowCompare = .ok (t.rebase b) := by
  obtain ⟨-, text, line', column', -, hread⟩ := h
  exact ⟨_, parseExpression_again hread line column⟩

end Tree

end ScenarioScript
