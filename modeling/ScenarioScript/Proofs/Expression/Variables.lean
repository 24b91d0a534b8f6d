import ScenarioScript.Proofs.Expression.Parsing

/-!
# Proofs/Expression/Variables — the variables of a tree among the tokens

A name in an expression is a variable, a function or a method.  Which one it is shows in the tokens
beside it: behind a point it is a method, before a parenthesis it is called, and elsewhere it is a
variable.

* `Tree.refs_eq_map_preorder` — the variables of a tree are those of the nodes that are passed when
  the tree is walked;
* `freeNames` — the names of a row of tokens with no point before them and no parenthesis behind;
* `Grammar.Whole.freeNames_tokens` — every derivation has the same variables in its tree as among
  its tokens, by induction over the productions;
* `parseExpression_refs` — so every tree of a text has.
-/

namespace ScenarioScript

/-! ## The variables of a tree -/

namespace Tree

/-- Only a node for a variable refers to a name of its own. -/
theorem refs_node (label : Label) (span : Span) (children : List Tree) :
    (node label span children).refs =
      (if label = .var then [(node label span children).firstText] else []) ++ refsAll children := by
  cases label <;> rfl

theorem refs_of_ne_var {label : Label} (h : label ≠ .var) (span : Span) (children : List Tree) :
    (node label span children).refs = refsAll children := by
  rw [refs_node, if_neg h, List.nil_append]

/-- A span has no variables. -/
@[simp] theorem refs_withSpan (t : Tree) (span : Span) : (t.withSpan span).refs = t.refs := by
  cases t with
  | leaf token => rfl
  | node label own children => rw [withSpan, refs_node, refs_node]; rfl

mutual

/-- **The variables of a tree** are the names of those nodes that are passed on a walk through it,
each node before those below it. -/
theorem refs_eq_map_preorder : (t : Tree) →
    t.refs = (t.preorder.filter (·.label? = some .var)).map firstText
  | leaf token => rfl
  | node label span children => by
      have hroot : (if label = .var then [(node label span children).firstText] else []) =
          ([node label span children].filter (·.label? = some .var)).map firstText := by
        by_cases hlabel : label = .var <;> simp [label?, hlabel]
      rw [refs_node, hroot, refsAll_eq_map_preorderAll children, preorder, ← List.map_append,
        ← List.filter_append, List.singleton_append]

theorem refsAll_eq_map_preorderAll : (ts : List Tree) →
    refsAll ts = ((preorderAll ts).filter (·.label? = some .var)).map firstText
  | [] => rfl
  | t :: ts => by
      rw [refsAll, refs_eq_map_preorder t, refsAll_eq_map_preorderAll ts, preorderAll,
        List.filter_append, List.map_append]

end

end Tree

/-! ## Names that stand free -/

/-- **The names that stand free** in a row of tokens, in its order: those with no point directly
before them and no opening parenthesis directly behind them.  Before the row itself there may be a
point. -/
def freeNames (behindPoint : Bool) : List Token → List String
  | [] => []
  | t :: rest =>
    (if t.kind = .ident ∧ behindPoint = false ∧ rest.head?.map Token.kind ≠ some .lpar then [t.text]
      else []) ++ freeNames (t.kind = .dot) rest

section Rows

variable {behindPoint : Bool} {t : Token} {rest : List Token}

/-- What is no name counts only if it is a point. -/
theorem freeNames_cons_of_ne_ident (h : t.kind ≠ .ident) :
    freeNames behindPoint (t :: rest) = freeNames (t.kind = .dot) rest := by
  rw [freeNames, if_neg fun hname => h hname.1, List.nil_append]

theorem freeNames_cons_of_ne (h : t.kind ≠ .ident) (hpoint : t.kind ≠ .dot) :
    freeNames behindPoint (t :: rest) = freeNames false rest := by
  rw [freeNames_cons_of_ne_ident h, decide_eq_false hpoint]

namespace Grammar

theorem freeNames_terminal {kind : TokenKind} (t : Terminal kind) (h : kind ≠ .ident)
    (hpoint : kind ≠ .dot) : freeNames behindPoint (t.token :: rest) = freeNames false rest :=
  freeNames_cons_of_ne (fun hident => h (t.kind_eq.symm.trans hident))
    fun hdot => hpoint (t.kind_eq.symm.trans hdot)

/-- **A variable** stands free. -/
theorem freeNames_var (name : Terminal .ident) (h : AfterPrimary rest) :
    freeNames false (name.token :: rest) = name.token.text :: freeNames false rest := by
  have hbehind : rest.head?.map Token.kind ≠ some .lpar := by
    intro hkind
    obtain ⟨t, ht, hlpar⟩ := Option.map_eq_some_iff.1 hkind
    exact h t ht (by simp [hlpar])
  rw [freeNames, if_pos ⟨name.kind_eq, rfl, hbehind⟩, name.kind_eq]
  rfl

/-- **The name of a call** does not. -/
theorem freeNames_called (name : Terminal .ident) (opening : Terminal .lpar) :
    freeNames behindPoint (name.token :: opening.token :: rest) = freeNames false rest := by
  rw [freeNames, if_neg fun hname => hname.2.2 (congrArg some opening.kind_eq), List.nil_append]
  exact freeNames_terminal opening (by decide) (by decide)

end Grammar

end Rows

/-! ## Derivations -/

namespace Grammar

open ScenarioScript.Tree

variable (src : Source)

theorem literalLabel?_ne_var {t : Token} {label : Label} (h : literalLabel? t = some label) :
    label ≠ .var := by
  unfold literalLabel? at h
  rintro rfl
  split at h <;> simp at h
  split at h <;> simp at h

/-- An argument of either sort is followed by a token that ends it. -/
theorem afterConcat_terminal {kind : TokenKind} (t : Terminal kind)
    (h : kind = .rpar ∨ kind = .comma) (row : List Token) : AfterConcat (t.token :: row) := by
  rcases h with rfl | rfl <;> exact avoids_terminal t (by decide) row

mutual

theorem Concat.freeNames_tokens : (c : Concat) → {rest : List Token} → AfterConcat rest →
    freeNames false (c.tokens ++ rest) = (c.tree src).refs ++ freeNames false rest
  | .mk first joined, rest, h => by
      rw [Concat.tokens, List.append_assoc, first.freeNames_tokens (joined.afterChain h),
        joined.freeNames_tokens h first.tokens (first.tree src), Concat.tree]

/-- What is joined is read behind what it is joined to. -/
theorem Joined.freeNames_tokens : (j : Joined) → {rest : List Token} → AfterConcat rest →
    (row : List Token) → (left : Tree) →
      left.refs ++ freeNames false (j.tokens ++ rest) =
        (j.treeOn src row left).refs ++ freeNames false rest
  | .none, rest, _, row, left => rfl
  | .join tilde right more, rest, h, row, left => by
      rw [Joined.treeOn, ← more.freeNames_tokens h, refs_of_ne_var (by decide), Joined.tokens,
        List.cons_append, List.append_assoc, freeNames_terminal tilde (by decide) (by decide),
        right.freeNames_tokens (more.afterChain h)]
      simp only [refsAll, List.append_nil, List.append_assoc]

theorem Chain.freeNames_tokens : (c : Chain) → {rest : List Token} → AfterChain rest →
    freeNames false (c.tokens ++ rest) = (c.tree src).refs ++ freeNames false rest
  | .mk base .none, rest, h => by
      rw [Chain.tokens, Calls.tokens, List.append_nil, Chain.tree,
        base.freeNames_tokens (h.mono (by simp))]
  | .mk base (.call point name opening args more), rest, h => by
      rw [Chain.tokens, List.append_assoc, Chain.tree, refs_of_ne_var (by decide), refsAll,
        base.freeNames_tokens ((Calls.call point name opening args more).afterPrimary h),
        (Calls.call point name opening args more).freeNames_tokens h, List.append_assoc]

theorem Calls.freeNames_tokens : (c : Calls) → {rest : List Token} → AfterChain rest →
    freeNames false (c.tokens ++ rest) = refsAll (c.trees src) ++ freeNames false rest
  | .none, rest, _ => rfl
  | .call point name opening args more, rest, h => by
      rw [Calls.tokens, List.cons_append, List.cons_append, List.cons_append, List.append_assoc,
        freeNames_cons_of_ne_ident (by rw [point.kind_eq]; decide), freeNames_called,
        args.freeNames_tokens opening.token, more.freeNames_tokens h, Calls.trees, refsAll,
        refs_of_ne_var (by decide)]
      simp only [refsAll, refs, List.nil_append, List.append_nil, List.append_assoc]

theorem Primary.freeNames_tokens : (p : Primary) → {rest : List Token} → AfterPrimary rest →
    freeNames false (p.tokens ++ rest) = (p.tree src).refs ++ freeNames false rest
  | .literal t label hlabel, rest, _ => by
      have hkind := mem_starters_of_literalLabel? hlabel
      rw [Primary.tokens, List.singleton_append, Primary.tree,
        refs_of_ne_var (literalLabel?_ne_var hlabel), freeNames_cons_of_ne hkind.2.1 ?_]
      · rfl
      · intro hdot
        exact absurd hkind.1 (by simp [hdot, starters])
  | .var name, rest, h => by
      rw [Primary.tokens, List.singleton_append, freeNames_var name h]
      rfl
  | .call name opening adjacent args, rest, _ => by
      rw [Primary.tokens, List.cons_append, List.cons_append, freeNames_called,
        args.freeNames_tokens opening.token, Primary.tree, refs_of_ne_var (by decide)]
      simp only [refsAll, refs, List.nil_append, List.append_nil]
  | .paren opening inner closing, rest, _ => by
      rw [Primary.tokens, List.cons_append, List.append_assoc, List.singleton_append,
        freeNames_terminal opening (by decide) (by decide),
        inner.freeNames_tokens (afterConcat_terminal closing (.inl rfl) rest),
        freeNames_terminal closing (by decide) (by decide), Primary.tree, refs_withSpan]

theorem Args.freeNames_tokens {inMethod : Bool} : (a : Args inMethod) → (opening : Token) →
    {rest : List Token} →
      freeNames false (a.tokens ++ rest) = (a.tree src opening).refs ++ freeNames false rest
  | .none closing, _, rest => freeNames_terminal closing (by decide) (by decide)
  | .some list, _, rest => by
      rw [Args.tokens, Args.tree, refs_of_ne_var (by decide), list.freeNames_tokens]

theorem ArgList.freeNames_tokens {inMethod : Bool} : (l : ArgList inMethod) →
    {rest : List Token} →
      freeNames false (l.tokens ++ rest) = refsAll (l.trees src) ++ freeNames false rest
  | .last argument closing, rest => by
      rw [ArgList.tokens, List.append_assoc, List.singleton_append,
        argument.freeNames_tokens (afterConcat_terminal closing (.inl rfl) rest),
        freeNames_terminal closing (by decide) (by decide), ArgList.trees, refsAll, refsAll,
        List.append_nil]
  | .more argument comma list, rest => by
      rw [ArgList.tokens, List.append_assoc, List.cons_append,
        argument.freeNames_tokens (afterConcat_terminal comma (.inr rfl) _),
        freeNames_terminal comma (by decide) (by decide), list.freeNames_tokens, ArgList.trees,
        refsAll, List.append_assoc]

theorem Argument.freeNames_tokens {inMethod : Bool} : (a : Argument inMethod) →
    {rest : List Token} → AfterConcat rest →
      freeNames false (a.tokens ++ rest) = (a.tree src).refs ++ freeNames false rest
  | .value c, rest, h => c.freeNames_tokens h
  | .current t, rest, _ => freeNames_terminal t (by decide) (by decide)

end

/-- **A derivation has the same variables in its tree as among its tokens.** -/
theorem Whole.freeNames_tokens {allowCompare : Bool} (g : Whole allowCompare) {rest : List Token}
    (h : AfterConcat rest) :
    freeNames false (g.tokens ++ rest) = (g.tree src).refs ++ freeNames false rest := by
  cases g with
  | value c => exact c.freeNames_tokens src h
  | compare left op hop right =>
    have hident : op.kind ≠ .ident := fun hkind => absurd hop (by rw [hkind]; decide)
    have hdot : op.kind ≠ .dot := fun hkind => absurd hop (by rw [hkind]; decide)
    rw [Whole.tokens, List.append_assoc, List.cons_append,
      left.freeNames_tokens src (afterConcat_of_isComparison hop _),
      freeNames_cons_of_ne hident hdot, right.freeNames_tokens src h, Whole.tree,
      refs_of_ne_var (by decide)]
    simp only [refsAll, refs, List.nil_append, List.append_nil, List.append_assoc]

end Grammar

/-! ## The variables of a text -/

/-- **The variables of an expression** are the names among its tokens that have no point directly
before them and no opening parenthesis directly behind them, in the order of the text; and on a walk
through its tree they are passed in that order. -/
theorem parseExpression_refs {text : List Char} {line column : Int} {allowCompare : Bool}
    {tree : Tree} (h : parseExpression text line column allowCompare = .ok tree) :
    (∃ tokens, tokenize line column text = .ok tokens ∧ tree.refs = freeNames false tokens) ∧
      tree.refs = (tree.preorder.filter (·.label? = some .var)).map Tree.firstText := by
  obtain ⟨g, htokens, rfl⟩ := parseExpression_eq_ok_tree.1 h
  refine ⟨⟨_, tokenize_eq_ok_iff.2 htokens, ?_⟩, Tree.refs_eq_map_preorder _⟩
  have hend : Grammar.AfterConcat [Token.endOf line column text.length] :=
    Grammar.avoids_cons_iff.2 (by simp)
  rw [g.freeNames_tokens _ hend, freeNames_cons_of_ne (by simp) (by simp), freeNames,
    List.append_nil]

/-- Variables, functions and methods at several depths; `f` is a variable once, and `a` is one
twice. -/
theorem parseExpression_refs_chain :
    ∃ tree, parseExpression "f(a, (f ~ g(b).f(@, c))).a() ~ a < d".toList 1 1 true = .ok tree ∧
      tree.refs = ["a", "f", "b", "c", "a", "d"] ∧
      (∃ tokens, tokenize 1 1 "f(a, (f ~ g(b).f(@, c))).a() ~ a < d".toList = .ok tokens ∧
        tree.refs = freeNames false tokens) ∧
      tree.refs = (tree.preorder.filter (·.label? = some .var)).map Tree.firstText := by
  have hrun : (parseExpression "f(a, (f ~ g(b).f(@, c))).a() ~ a < d".toList 1 1 true).toOption.map
      Tree.refs = some ["a", "f", "b", "c", "a", "d"] := by decide +kernel
  obtain ⟨tree, htree, hrefs⟩ := Option.map_eq_some_iff.1 hrun
  have h := Outcome.toOption_eq_some.1 htree
  exact ⟨tree, h, hrefs, parseExpression_refs h⟩

end ScenarioScript
