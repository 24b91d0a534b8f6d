import ScenarioScript.Proofs.Expression.Excerpt
import ScenarioScript.Proofs.Expression.Munch

/-!
# Proofs/Expression/Atoms — atoms and the parentheses around them

A node that is an expression has its tokens in its own text, without a gap at either end
(`exists_filled_of_mem_preorder`).  If it is an atom, which is a literal or a variable, there is one
token besides parentheses, so the text is that token in as many parentheses, with gaps of spaces and
tabs inside them (`Wrapped`).

* `exists_isAtom_of_mem_preorder` — so it is with every atom in the tree of a text;
* `exists_isAtom_of_wrapped` — and every such text is read to the atom;
* `Tree.IsAtom.stringValue?_eq_iff` — the value of a string is what is between its quotes exactly
  if there are no parentheses around it.
-/

namespace ScenarioScript

open Lexeme Grammar

/-- **Truth values and operators** are spelled in one way. -/
theorem Lexeme.Spelled.unique {kind : TokenKind} {text text' : List Char} (h : Spelled kind text)
    (h' : Spelled kind text') (hkind : kind ∉ [.string, .number, .ident]) : text = text' := by
  have hall : ∀ op ∈ operators, (op.1 ≠ .trueWord ∧ op.1 ≠ .falseWord) ∧
      ∀ op' ∈ operators, op.1 = op'.1 → op.2 = op'.2 := by decide
  cases h with
  | string | number | ident => exact absurd hkind (by decide)
  | trueWord =>
    cases h' with
    | trueWord => rfl
    | operator hmem' => exact absurd rfl (hall _ hmem').1.1
  | falseWord =>
    cases h' with
    | falseWord => rfl
    | operator hmem' => exact absurd rfl (hall _ hmem').1.2
  | operator hmem =>
    cases h' with
    | string | number | ident => exact absurd hkind (by decide)
    | trueWord => exact absurd rfl (hall _ hmem).1.1
    | falseWord => exact absurd rfl (hall _ hmem).1.2
    | operator hmem' => exact (hall _ hmem).2 _ hmem' rfl

/-- **Strings** are what is between their quotes, and the quotes. -/
theorem Lexeme.Spelled.exists_quoted {text : List Char} (h : Spelled .string text) :
    ∃ mark contents, isQuote mark = true ∧ StringBody mark contents ∧
      text = mark :: (contents ++ [mark]) := by
  cases h with
  | @string mark contents hquote hcontents => exact ⟨mark, contents, hquote, hcontents, rfl⟩
  | operator hmem =>
    have hall : ∀ op ∈ operators, op.1 ≠ .string := by decide
    exact absurd rfl (hall _ hmem)

/-- **Names** are none of the words for truth values. -/
theorem Lexeme.Spelled.ident_ne {text : List Char} (h : Spelled .ident text) :
    text ≠ ['t', 'r', 'u', 'e'] ∧ text ≠ ['f', 'a', 'l', 's', 'e'] := by
  cases h with
  | ident _ _ htrue hfalse => exact ⟨htrue, hfalse⟩
  | operator hmem =>
    have hall : ∀ op ∈ operators, op.1 ≠ .ident := by decide
    exact absurd rfl (hall _ hmem)

/-! ## Rows that fill a text -/

/-- **The row fills the text**, which begins at the offset: it tiles it, and there is no gap before
the first token or behind the last. -/
structure Filled (line column : Int) (offset : Nat) (text : List Char) (row : List Token) : Prop where
  tiled : Tiled line column offset text row
  start_eq : rowStart row = offset
  stop_eq : rowStop 0 row = offset + text.length

section Filling

variable {line column : Int} {offset : Nat} {text : List Char} {row : List Token} {t : Token}

/-- **A part of the row** fills a piece of the text, behind and before the pieces that are tiled by
the rest of the row. -/
theorem Tiled.exists_filled {before part behind : List Token}
    (h : Tiled line column offset text (before ++ part ++ behind)) (hne : part ≠ []) :
    ∃ a b d, text = a ++ b ++ d ∧ Tiled line column offset a before ∧
      Filled line column (offset + a.length) b part ∧
      Tiled line column (offset + a.length + b.length) d behind := by
  obtain ⟨a, b, d, htext, ha, hb, hd, hstart, hstop⟩ := h.exists_slice hne
  exact ⟨a, b, d, htext, ha, ⟨hb, hstart, hstop⟩, hd⟩

/-- **A text with a single token** is its lexeme with a gap on either side. -/
theorem Tiled.exists_lexeme (h : Tiled line column offset text [t]) :
    ∃ before lexeme behind, text = before ++ (lexeme ++ behind) ∧
      (∀ c ∈ before, isGap c = true) ∧ (∀ c ∈ behind, isGap c = true) ∧
      t = .ofLexeme line column (offset + before.length) t.kind lexeme ∧ Spelled t.kind lexeme := by
  obtain ⟨d, hd, rfl, htokens⟩ := Decomposition.exists_munched_of_tiled h
  cases d with
  | last gap => exact absurd htokens.symm (List.cons_ne_nil _ _)
  | piece gap kind lexeme below =>
    obtain ⟨rfl, hbelow⟩ := List.cons.inj htokens
    cases below with
    | piece => exact absurd hbelow (List.cons_ne_nil _ _)
    | last behind => exact ⟨gap, lexeme, behind, rfl, hd.1, hd.2.2.2, rfl, hd.2.1⟩

/-- **A single token** that fills a text is spelled as the text. -/
theorem Filled.of_single (h : Filled line column offset text [t]) :
    t.text.toList = text ∧ Spelled t.kind text := by
  obtain ⟨before, lexeme, behind, rfl, -, -, ht, hspelled⟩ := h.tiled.exists_lexeme
  have hstart : t.start = offset := h.start_eq
  have hstop : t.stop = offset + (before ++ (lexeme ++ behind)).length := h.stop_eq
  rw [ht] at hstart hstop
  simp only [Token.ofLexeme, List.length_append] at hstart hstop
  obtain rfl : before = [] := List.length_eq_zero_iff.1 (by omega)
  obtain rfl : behind = [] := List.length_eq_zero_iff.1 (by omega)
  rw [List.nil_append, List.append_nil]
  exact ⟨by rw [ht]; exact String.toList_ofList, hspelled⟩

/-- **What fills a text in parentheses**: inside there are gaps at both ends of what the tokens
between the parentheses fill. -/
theorem Filled.of_paren (hrow : row ≠ []) (opening : Terminal .lpar) (closing : Terminal .rpar)
    (h : Filled line column offset text (opening.token :: (row ++ [closing.token]))) :
    ∃ before inner behind, text = '(' :: (before ++ (inner ++ (behind ++ [')']))) ∧
      (∀ c ∈ before, isGap c = true) ∧ (∀ c ∈ behind, isGap c = true) ∧
      ∃ offset, Filled line column offset inner row := by
  obtain ⟨htiled, hstart, hstop⟩ := h
  rw [← List.singleton_append, ← List.append_assoc] at htiled
  obtain ⟨a, inner, d, rfl, ha, hinner, hd⟩ := htiled.exists_filled hrow
  obtain ⟨gap, lexeme, before, rfl, -, hbefore, hopening, hspelled⟩ := ha.exists_lexeme
  obtain ⟨behind, lexeme', gap', rfl, hbehind, -, hclosing, hspelled'⟩ := hd.exists_lexeme
  rw [opening.kind_eq] at hspelled
  rw [closing.kind_eq] at hspelled'
  obtain rfl : lexeme = ['('] := hspelled.unique (.operator (by decide)) (by decide)
  obtain rfl : lexeme' = [')'] := hspelled'.unique (.operator (by decide)) (by decide)
  -- no gap is left outside the parentheses
  rw [rowStart_cons, hopening] at hstart
  rw [rowStop_cons, rowStop_append, rowStop_cons, rowStop_nil, hclosing] at hstop
  simp only [Token.ofLexeme, List.length_append] at hstart hstop
  obtain rfl : gap = [] := List.length_eq_zero_iff.1 (by omega)
  obtain rfl : gap' = [] := List.length_eq_zero_iff.1 (by omega)
  exact ⟨before, inner, behind, by simp, hbefore, hbehind, _, hinner⟩

/-- **A node that is an expression** has a derivation whose tokens fill its own text. -/
theorem exists_filled_of_mem_preorder {allowCompare : Bool} {tree n : Tree}
    (h : parseExpression text line column allowCompare = .ok tree) (hn : n ∈ tree.preorder)
    (hexpression : n.isExpression = true) :
    ∃ e : Whole true, e.tree (.ofText text line column) = n ∧
      Filled line column n.span.start n.text.toList e.tokens := by
  obtain ⟨g, htokens, rfl⟩ := parseExpression_eq_ok_tree.1 h
  have htiled := tokensOf_eq_ok_iff.1 htokens
  obtain ⟨e, hpart, rfl⟩ : ∃ e : Whole true, e.tokens <:+: g.tokens ∧
      e.tree (.ofText text line column) = n :=
    g.exists_of_mem_preorder hn hexpression fun _ => rfl
  refine ⟨e, rfl, ?_⟩
  have hspan := e.readFrom_tree.span_eq htiled hpart
  obtain ⟨before, behind, hrow⟩ := hpart
  rw [← hrow] at htiled
  obtain ⟨a, b, d, rfl, -, hfilled, -⟩ := htiled.exists_filled e.tokens_ne_nil
  rw [Nat.zero_add] at hfilled
  have htext : (e.tree (.ofText (a ++ b ++ d) line column)).text.toList = b := by
    rw [Tree.text, hspan]
    simp [Source.spanOf, Source.span, Source.ofText, hfilled.start_eq, hfilled.stop_eq]
  have hstart : (e.tree (.ofText (a ++ b ++ d) line column)).span.start = a.length := by
    rw [hspan]
    exact hfilled.start_eq
  rw [htext, hstart]
  exact hfilled

end Filling

/-! ## Parentheses -/

/-- **A row that is one token** in any number of parentheses. -/
inductive Enclosed (t : Token) : List Token → Prop
  | bare : Enclosed t [t]
  | paren {row : List Token} (opening : Terminal .lpar) (closing : Terminal .rpar)
      (inner : Enclosed t row) : Enclosed t (opening.token :: (row ++ [closing.token]))

/-- **A text in any number of parentheses**, with gaps of spaces and tabs inside them. -/
inductive Wrapped (core : List Char) : List Char → Prop
  | bare : Wrapped core core
  | paren {before text behind : List Char} (gap_before : ∀ c ∈ before, isGap c = true)
      (gap_behind : ∀ c ∈ behind, isGap c = true) (inner : Wrapped core text) :
      Wrapped core ('(' :: (before ++ (text ++ (behind ++ [')']))))

theorem Enclosed.ne_nil {t : Token} {row : List Token} (h : Enclosed t row) : row ≠ [] := by
  cases h <;> exact List.cons_ne_nil _ _

/-- **What a token in parentheses fills** is its text in as many parentheses. -/
theorem Enclosed.wrapped {t : Token} {row : List Token} (h : Enclosed t row) {line column : Int}
    {offset : Nat} {text : List Char} (hfilled : Filled line column offset text row) :
    Wrapped t.text.toList text ∧ Spelled t.kind t.text.toList := by
  induction h generalizing offset text with
  | bare =>
    obtain ⟨htext, hspelled⟩ := hfilled.of_single
    exact htext ▸ ⟨.bare, htext ▸ hspelled⟩
  | paren opening closing inner ih =>
    obtain ⟨before, text, behind, rfl, hbefore, hbehind, offset, hfilled⟩ :=
      hfilled.of_paren inner.ne_nil
    obtain ⟨hwrapped, hspelled⟩ := ih hfilled
    exact ⟨.paren hbefore hbehind hwrapped, hspelled⟩

/-- **Parentheses make a text longer**, by two characters at least. -/
theorem Wrapped.eq_or_length_lt {core text : List Char} (h : Wrapped core text) :
    text = core ∨ text.head? = some '(' ∧ core.length + 2 ≤ text.length := by
  induction h with
  | bare => exact .inl rfl
  | paren _ _ _ ih =>
    refine .inr ⟨rfl, ?_⟩
    simp only [List.length_cons, List.length_append, List.length_nil]
    obtain rfl | ⟨-, ih⟩ := ih <;> omega

/-! ## Atoms -/

/-- Is it the label of a literal or a variable? -/
def Label.isAtom : Label → Bool
  | string | number | bool | auto | var => true
  | _ => false

theorem Label.isExpression_of_isAtom (label : Label) :
    label.isAtom = true → label.isExpression = true := by
  cases label <;> decide

/-- **The label of a token by itself**: a name is a variable, and the others are literals. -/
def atomLabel? (t : Token) : Option Label :=
  if t.kind = .ident then some .var else literalLabel? t

theorem atomLabel?_of_literalLabel? {t : Token} {label : Label} (h : literalLabel? t = some label) :
    atomLabel? t = some label := by
  have hident : t.kind ≠ .ident := fun hkind => by simp [literalLabel?, hkind] at h
  rw [atomLabel?, if_neg hident, h]

/-- **The node is an atom**, a single token of the text in any number of parentheses. -/
structure Tree.IsAtom (n : Tree) (label : Label) (t : Token) : Prop where
  known : atomLabel? t = some label
  eq_node : ∃ span, n = .node label span [.leaf t]
  spelled : Spelled t.kind t.text.toList
  wrapped : Wrapped t.text.toList n.text.toList

/-- Parentheses leave the label as it is. -/
theorem Tree.label?_withSpan (t : Tree) (span : Span) : (t.withSpan span).label? = t.label? := by
  cases t <;> rfl

namespace Grammar

variable {src : Source} {label : Label}

/-- What has been joined is no atom. -/
theorem Joined.label?_treeOn : (j : Joined) → {row : List Token} → {left : Tree} →
    left.label? = some .concat → (j.treeOn src row left).label? = some .concat
  | .none, _, _, h => h
  | .join _ _ more, _, _, _ => more.label?_treeOn rfl

mutual

/-- **A derivation of an atom** has one token besides parentheses. -/
theorem Concat.enclosed : (c : Concat) → (c.tree src).label? = some label →
    label.isAtom = true → ∃ t, atomLabel? t = some label ∧ Enclosed t c.tokens ∧
      ∃ span, c.tree src = .node label span [.leaf t]
  | .mk first .none, h, hatom => by
      rw [Concat.tokens, Joined.tokens, List.append_nil]
      exact first.enclosed h hatom
  | .mk first (.join tilde right more), h, hatom => by
      have hconcat : ((Concat.mk first (.join tilde right more)).tree src).label? = some .concat :=
        more.label?_treeOn rfl
      obtain rfl := Option.some.inj (hconcat.symm.trans h)
      exact absurd hatom (by decide)

theorem Chain.enclosed : (c : Chain) → (c.tree src).label? = some label →
    label.isAtom = true → ∃ t, atomLabel? t = some label ∧ Enclosed t c.tokens ∧
      ∃ span, c.tree src = .node label span [.leaf t]
  | .mk base .none, h, hatom => by
      rw [Chain.tokens, Calls.tokens, List.append_nil]
      exact base.enclosed h hatom
  | .mk base (.call point name opening args more), h, hatom => by
      obtain rfl := Option.some.inj h
      exact absurd hatom (by decide)

theorem Primary.enclosed : (p : Primary) → (p.tree src).label? = some label →
    label.isAtom = true → ∃ t, atomLabel? t = some label ∧ Enclosed t p.tokens ∧
      ∃ span, p.tree src = .node label span [.leaf t]
  | .literal t label' hknown, h, _ => by
      obtain rfl := Option.some.inj h
      exact ⟨t, atomLabel?_of_literalLabel? hknown, .bare, _, rfl⟩
  | .var name, h, _ => by
      obtain rfl := Option.some.inj h
      exact ⟨name.token, if_pos name.kind_eq, .bare, _, rfl⟩
  | .call name opening adjacent args, h, hatom => by
      obtain rfl := Option.some.inj h
      exact absurd hatom (by decide)
  | .paren opening inner closing, h, hatom => by
      rw [Primary.tree, Tree.label?_withSpan] at h
      obtain ⟨t, hknown, henclosed, span, htree⟩ := inner.enclosed h hatom
      exact ⟨t, hknown, .paren opening closing henclosed, _, by rw [Primary.tree, htree]; rfl⟩

end

/-- A comparison is no atom. -/
theorem Whole.enclosed {allowCompare : Bool} : (e : Whole allowCompare) →
    (e.tree src).label? = some label → label.isAtom = true →
    ∃ t, atomLabel? t = some label ∧ Enclosed t e.tokens ∧
      ∃ span, e.tree src = .node label span [.leaf t]
  | .value c, h, hatom => c.enclosed h hatom
  | .compare left op hop right, h, hatom => by
      obtain rfl := Option.some.inj h
      exact absurd hatom (by decide)

end Grammar

/-- **Every atom** in the tree of a text is a single token in parentheses. -/
theorem exists_isAtom_of_mem_preorder {text : List Char} {line column : Int}
    {allowCompare : Bool} {tree n : Tree} {label : Label}
    (h : parseExpression text line column allowCompare = .ok tree) (hn : n ∈ tree.preorder)
    (hlabel : n.label? = some label) (hatom : label.isAtom = true) :
    ∃ t, n.IsAtom label t := by
  have hexpression : n.isExpression = true := by
    rw [Tree.isExpression, hlabel]
    exact label.isExpression_of_isAtom hatom
  obtain ⟨e, rfl, hfilled⟩ := exists_filled_of_mem_preorder h hn hexpression
  obtain ⟨t, hknown, henclosed, hnode⟩ := e.enclosed hlabel hatom
  obtain ⟨hwrapped, hspelled⟩ := henclosed.wrapped hfilled
  exact ⟨t, hknown, hnode, hspelled, hwrapped⟩

namespace Tree.IsAtom

variable {n : Tree} {label : Label} {t : Token}

/-- Strings come of string tokens, truth values of the words for them, variables of names. -/
theorem kind_eq (h : n.IsAtom label t) :
    (label = .string ∨ label = .auto ↔ t.kind = .string) ∧
      (label = .bool ↔ t.kind = .trueWord ∨ t.kind = .falseWord) ∧
      (label = .var ↔ t.kind = .ident) := by
  have hknown := h.known
  cases hkind : t.kind <;> simp only [atomLabel?, literalLabel?, hkind, Option.some.injEq,
    reduceCtorEq, if_true, if_false] at hknown
  all_goals subst hknown
  case string => split <;> decide
  all_goals decide

theorem token_of_node {label' : Label} {t' : Token} {span : Span}
    (h : (Tree.node label' span [.leaf t']).IsAtom label t) : t = t' := by
  obtain ⟨span', hnode⟩ := h.eq_node
  obtain ⟨-, -, hleaves⟩ := Tree.node.injEq .. ▸ hnode
  exact (Tree.leaf.inj (List.cons.inj hleaves).1).symm

/-- Of an atom there is one token only. -/
theorem token_eq {label' : Label} {t' : Token} (h : n.IsAtom label t) (h' : n.IsAtom label' t') :
    t = t' := by
  obtain ⟨span, rfl⟩ := h'.eq_node
  exact h.token_of_node

theorem label?_eq (h : n.IsAtom label t) : n.label? = some label := by
  obtain ⟨span, rfl⟩ := h.eq_node
  rfl

/-- **A variable** refers to itself. -/
theorem refs_eq (h : n.IsAtom .var t) : n.refs = [t.text] := by
  obtain ⟨span, rfl⟩ := h.eq_node
  rfl

/-- **A variable** is spelled as a name, which the words for truth values are not. -/
theorem text_ne (h : n.IsAtom .var t) : t.text ≠ "true" ∧ t.text ≠ "false" := by
  have hspelled := h.spelled
  rw [h.kind_eq.2.2.1 rfl] at hspelled
  exact hspelled.ident_ne.imp (fun hne htext => hne (congrArg String.toList htext)) fun hne htext =>
    hne (congrArg String.toList htext)

/-- **A truth value** is spelled as its word. -/
theorem text_eq (h : n.IsAtom .bool t) :
    t.kind = .trueWord ∧ t.text = "true" ∨ t.kind = .falseWord ∧ t.text = "false" := by
  have hspelled := h.spelled
  refine (h.kind_eq.2.1.1 rfl).imp (fun hkind => ⟨hkind, ?_⟩) fun hkind => ⟨hkind, ?_⟩
  · rw [hkind] at hspelled
    exact String.toList_inj.1 (hspelled.unique .trueWord (by decide))
  · rw [hkind] at hspelled
    exact String.toList_inj.1 (hspelled.unique .falseWord (by decide))

/-- **A string token** is what is between its quotes, and the quotes. -/
theorem exists_quoted (h : n.IsAtom label t) (hlabel : label = .string ∨ label = .auto) :
    ∃ mark contents, isQuote mark = true ∧ StringBody mark contents ∧
      t.text.toList = mark :: (contents ++ [mark]) := by
  have hspelled := h.spelled
  rw [h.kind_eq.1.1 hlabel] at hspelled
  exact hspelled.exists_quoted

/-- **The value of a string** is what is between its quotes exactly if there are no parentheses around
it: it is taken from the text of the node, and parentheses make that longer. -/
theorem stringValue?_eq_iff (h : n.IsAtom label t) (hlabel : label = .string ∨ label = .auto)
    {mark : Char} {contents : List Char} (hquoted : t.text.toList = mark :: (contents ++ [mark])) :
    n.stringValue? = some (String.ofList contents) ↔ n.text = t.text := by
  have hvalue : n.stringValue? = some (String.ofList (n.text.toList.drop 1).dropLast) := by
    obtain ⟨span, rfl⟩ := h.eq_node
    obtain rfl | rfl := hlabel <;> rfl
  rw [hvalue]
  constructor
  · intro heq
    have hlength := congrArg List.length (String.ofList_injective (Option.some.inj heq))
    rw [List.length_dropLast, List.length_drop] at hlength
    refine String.toList_inj.1 (h.wrapped.eq_or_length_lt.resolve_right fun hlong => ?_)
    have hlong := hlong.2
    rw [hquoted, List.length_cons, List.length_append, List.length_singleton] at hlong
    omega
  · intro htext
    rw [htext, hquoted, List.drop_one, List.tail_cons, List.dropLast_concat]

end Tree.IsAtom

/-! ## Reading a token in parentheses -/

/-- Is it the kind of a token that is an expression by itself? -/
def TokenKind.isAtom : TokenKind → Bool
  | string | number | ident | trueWord | falseWord => true
  | _ => false

theorem exists_atomLabel?_of_isAtom {t : Token} (h : t.kind.isAtom = true) :
    ∃ label, atomLabel? t = some label ∧ label.isAtom = true := by
  cases hkind : t.kind <;> rw [hkind] at h
  case ident => exact ⟨.var, if_pos hkind, rfl⟩
  case string =>
    refine ⟨_, atomLabel?_of_literalLabel? (by rw [literalLabel?, hkind]), ?_⟩
    split <;> rfl
  case number => exact ⟨_, atomLabel?_of_literalLabel? (by rw [literalLabel?, hkind]), rfl⟩
  case trueWord | falseWord =>
    exact ⟨.bool, atomLabel?_of_literalLabel? (by rw [literalLabel?, hkind]), rfl⟩
  all_goals exact absurd h (by decide)

/-- The text has come to an end, or a gap or a closing parenthesis is next. -/
def EndsToken (rest : List Char) : Prop := ∀ c ∈ rest.head?, isGap c = true ∨ c = ')'

theorem endsToken_nil : EndsToken [] := by simp [EndsToken]

/-- **What closes is no part of a token** that stands before it. -/
theorem EndsToken.maximal {kind : TokenKind} {text rest : List Char} (h : EndsToken rest)
    (hkind : kind.isAtom = true) : Maximal kind text rest := by
  cases rest with
  | nil =>
    match kind, hkind with
    | .string, _ => trivial
    | .number, _ => exact ⟨rfl, rfl, .inr rfl⟩
    | .ident, _ | .trueWord, _ | .falseWord, _ => rfl
  | cons c more =>
    have hplain : Text.isWord c = false ∧ Text.isDigit c = false ∧ Text.isWordStart c = false ∧
        c ≠ '.' := by
      rcases h c rfl with hgap | rfl
      · rw [isGap, Bool.or_eq_true, beq_iff_eq, beq_iff_eq] at hgap
        obtain rfl | rfl := hgap
        all_goals decide
      · decide
    obtain ⟨hword, hdigit, hstart, hpoint⟩ := hplain
    match kind, hkind with
    | .string, _ => trivial
    | .number, _ =>
      exact ⟨hdigit, hstart, .inr (startsFraction_eq_false fun tail heq => hpoint (List.cons.inj heq).1)⟩
    | .ident, _ | .trueWord, _ | .falseWord, _ => exact hword

/-- A gap before a closing parenthesis closes. -/
theorem endsToken_gap {gap rest : List Char} (hgap : ∀ c ∈ gap, isGap c = true) :
    EndsToken (gap ++ ')' :: rest) := by
  cases gap with
  | nil => exact fun c hc => .inr (Option.some.inj hc).symm
  | cons d gap => exact fun c hc => .inl (Option.some.inj hc ▸ hgap d List.mem_cons_self)

section Wrapping

variable {line column : Int} {core text rest : List Char} {kind : TokenKind} {below : List Token}

/-- A parenthesis before what is tiled. -/
theorem Tiled.exists_operator {offset : Nat} (h : Tiled line column (offset + 1) rest below)
    (kind : TokenKind) (c : Char) (hmem : (kind, [c]) ∈ operators)
    (hmaximal : Maximal kind [c] rest) :
    ∃ t : Terminal kind, Tiled line column offset (c :: rest) (t.token :: below) :=
  ⟨⟨.ofLexeme line column offset kind [c], rfl⟩,
    .lexeme (head_of_spelled (.operator hmem) hmaximal rfl) h⟩

/-- **A token in parentheses is read** to the token in parentheses, before what closes. -/
theorem Wrapped.exists_enclosed (h : Wrapped core text) (hspelled : Spelled kind core)
    (hkind : kind.isAtom = true) {offset : Nat} (hrest : EndsToken rest)
    (hbelow : Tiled line column (offset + text.length) rest below) :
    (text ++ rest).head?.any isGap = false ∧ ∃ t row, t.kind = kind ∧ t.text.toList = core ∧
      Enclosed t row ∧ Tiled line column offset (text ++ rest) (row ++ below) := by
  induction h generalizing offset rest below with
  | bare =>
    have hmaximal : Maximal kind core rest := hrest.maximal hkind
    refine ⟨head?_of_spelled hspelled hmaximal, .ofLexeme line column offset kind core, [_], rfl,
      String.toList_ofList, .bare, ?_⟩
    obtain ⟨c, more, rfl⟩ := List.exists_cons_of_ne_nil hspelled.ne_nil
    exact .lexeme (head_of_spelled hspelled hmaximal rfl) hbelow
  | @paren before inner behind hbefore hbehind _ ih =>
    -- from the closing parenthesis to the opening one, as what follows has to be tiled first
    have hoffset : offset + ('(' :: (before ++ (inner ++ (behind ++ [')'])))).length =
        offset + 1 + before.length + inner.length + behind.length + 1 := by
      simp only [List.length_cons, List.length_append, List.length_nil]
      omega
    rw [hoffset] at hbelow
    obtain ⟨closing, hclosing⟩ := hbelow.exists_operator .rpar ')' (by decide) trivial
    obtain ⟨hhead, t, row, htkind, htext, henclosed, hinner⟩ :=
      ih (endsToken_gap hbehind) (Decomposition.tiled_gap hbehind rfl hclosing)
    obtain ⟨opening, hopening⟩ :=
      (Decomposition.tiled_gap hbefore hhead hinner).exists_operator .lpar '(' (by decide) trivial
    refine ⟨rfl, t, _, htkind, htext, .paren opening closing henclosed, ?_⟩
    simpa using hopening

/-- **A row of a token in parentheses** has a derivation to its node. -/
theorem Enclosed.exists_concat {t : Token} {row : List Token} (h : Enclosed t row) {label : Label}
    (hlabel : atomLabel? t = some label) (src : Source) :
    ∃ c : Concat, c.tokens = row ∧ ∃ span, c.tree src = .node label span [.leaf t] := by
  have hprimary (p : Primary) : (Concat.mk (.mk p .none) .none).tokens = p.tokens := by
    simp only [Concat.tokens, Joined.tokens, Chain.tokens, Calls.tokens, List.append_nil]
  induction h with
  | bare =>
    by_cases hkind : t.kind = .ident
    · obtain rfl : .var = label := Option.some.inj ((if_pos hkind).symm.trans hlabel)
      exact ⟨_, hprimary (.var ⟨t, hkind⟩), _, rfl⟩
    · rw [atomLabel?, if_neg hkind] at hlabel
      exact ⟨_, hprimary (.literal t label hlabel), _, rfl⟩
  | paren opening closing _ ih =>
    obtain ⟨c, rfl, span, htree⟩ := ih
    refine ⟨_, hprimary (.paren opening c closing), ?_⟩
    exact ⟨_, congrArg (Tree.withSpan _) htree⟩

/-- **Every spelling of an atom is read to the atom**, however many parentheses there are. -/
theorem exists_isAtom_of_wrapped (h : Wrapped core text) (hspelled : Spelled kind core)
    (hkind : kind.isAtom = true) (line column : Int) (allowCompare : Bool) :
    ∃ tree label t, parseExpression text line column allowCompare = .ok tree ∧
      tree.IsAtom label t ∧ t.kind = kind ∧ t.text.toList = core := by
  have hdone : Tiled line column (0 + text.length) [] [] := .done _
  obtain ⟨-, t, row, htkind, htext, henclosed, htiled⟩ :=
    h.exists_enclosed hspelled hkind endsToken_nil hdone
  rw [List.append_nil, List.append_nil] at htiled
  obtain ⟨label, hlabel, hatom⟩ := exists_atomLabel?_of_isAtom (htkind ▸ hkind)
  obtain ⟨c, rfl, span, htree⟩ := henclosed.exists_concat hlabel (.ofText text line column)
  have hread : parseExpression text line column allowCompare =
      .ok ((Whole.value c).tree (.ofText text line column)) :=
    parseExpression_tokens (.value c) (tokensOf_eq_ok_iff.2 htiled)
  rw [Whole.tree, htree] at hread
  obtain ⟨t', ht'⟩ := exists_isAtom_of_mem_preorder hread (Tree.self_mem_preorder _) rfl hatom
  obtain rfl : t' = t := ht'.token_of_node
  exact ⟨_, label, t', hread, ht', htkind, htext⟩

end Wrapping

end ScenarioScript
