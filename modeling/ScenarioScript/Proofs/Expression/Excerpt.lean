import ScenarioScript.Proofs.Expression.Nesting
import ScenarioScript.Proofs.Expression.Rebasing

/-!
# Proofs/Expression/Excerpt — the text of a part of an expression

A part of an expression is handed on as its text, word for word.  `parseExpression_text` says that
nothing is lost with that: the text of a node, read by itself, gives the tree of the node again.

* `Whole.exists_of_mem_preorder` — a node that is an expression has a derivation of its own, from
  tokens that stand together in the row;
* these tokens are read from one piece of the text, and the piece by itself has the same tokens and
  the same derivation (`Proofs/Expression/Rebasing`).
-/

namespace ScenarioScript

/-- **Is the node an expression by itself?**  All are but arguments, methods and current values,
which are parts of calls and chains. -/
def Label.isExpression : Label → Bool
  | args | method | current => false
  | _ => true

/-- Is the tree a node that is an expression by itself? -/
def Tree.isExpression (t : Tree) : Bool := t.label?.any Label.isExpression

namespace Grammar

/-! ## Derivations from the left -/

/-- What is joined, with one more chain behind it. -/
def Joined.extend (tilde : Terminal .tilde) (right : Chain) : Joined → Joined
  | .none => .join tilde right .none
  | .join tilde' right' more => .join tilde' right' (more.extend tilde right)

/-- **A concatenation and one more chain**, joined to it. -/
def Concat.extend : Concat → Terminal .tilde → Chain → Concat
  | .mk first joined, tilde, right => .mk first (joined.extend tilde right)

variable {src : Source}

theorem Joined.tokens_extend (tilde : Terminal .tilde) (right : Chain) (j : Joined) :
    (j.extend tilde right).tokens = j.tokens ++ tilde.token :: right.tokens := by
  cases j with
  | none => simp [Joined.extend, Joined.tokens]
  | join tilde' right' more =>
    rw [Joined.extend, Joined.tokens, more.tokens_extend tilde right, Joined.tokens,
      List.cons_append, List.append_assoc]

theorem Joined.treeOn_extend (tilde : Terminal .tilde) (right : Chain) : (j : Joined) →
    (row : List Token) → (left : Tree) →
    (j.extend tilde right).treeOn src row left =
      .node .concat (src.spanOf (row ++ j.tokens ++ tilde.token :: right.tokens))
        [j.treeOn src row left, right.tree src]
  | .none, row, left => by
      rw [Joined.tokens, List.append_nil]
      rfl
  | .join tilde' right' more, row, left => by
      rw [Joined.extend, Joined.treeOn, more.treeOn_extend tilde right, Joined.treeOn,
        Joined.tokens, List.append_assoc row, List.cons_append]

theorem Concat.tokens_extend (tilde : Terminal .tilde) (right : Chain) (c : Concat) :
    (c.extend tilde right).tokens = c.tokens ++ tilde.token :: right.tokens := by
  obtain ⟨first, joined⟩ := c
  rw [Concat.extend, Concat.tokens, joined.tokens_extend, Concat.tokens, List.append_assoc]

/-- **A concatenation is a node of what stands left of its last chain**, and that chain. -/
theorem Concat.tree_extend (tilde : Terminal .tilde) (right : Chain) (c : Concat) :
    (c.extend tilde right).tree src =
      .node .concat (src.spanOf (c.tokens ++ tilde.token :: right.tokens))
        [c.tree src, right.tree src] := by
  obtain ⟨first, joined⟩ := c
  exact joined.treeOn_extend tilde right first.tokens (first.tree src)

/-! ## Nodes with derivations of their own -/

/-- The node has a derivation from tokens that stand together in the row, if it is an expression. -/
def Derived (src : Source) (row : List Token) (n : Tree) : Prop :=
  n.isExpression = true → ∃ c : Concat, c.tokens <:+: row ∧ c.tree src = n

/-- And so have all nodes below. -/
def DerivedThroughout (src : Source) (row : List Token) (t : Tree) : Prop :=
  ∀ n ∈ t.preorder, Derived src row n

theorem DerivedThroughout.mono {row more : List Token} {t : Tree}
    (h : DerivedThroughout src row t) (hrow : row <:+: more) : DerivedThroughout src more t := by
  intro n hn hexpression
  obtain ⟨c, hc, htree⟩ := h n hn hexpression
  exact ⟨c, hc.trans hrow, htree⟩

theorem derivedThroughout_leaf (row : List Token) (t : Token) :
    DerivedThroughout src row (.leaf t) :=
  Tree.forall_mem_preorder_leaf nofun

theorem derivedThroughout_node {row : List Token} {label : Label} {span : Span}
    {children : List Tree} (hroot : Derived src row (.node label span children))
    (hchildren : ∀ m ∈ children, DerivedThroughout src row m) :
    DerivedThroughout src row (.node label span children) :=
  Tree.forall_mem_preorder_node hroot hchildren

/-- Parentheses change nothing below the node that they are put around. -/
theorem derivedThroughout_withSpan {row : List Token} {t : Tree} {span : Span}
    (h : DerivedThroughout src row t) (hroot : Derived src row (t.withSpan span)) :
    DerivedThroughout src row (t.withSpan span) :=
  Tree.forall_mem_preorder_withSpan h hroot

theorem Concat.derived_tree (c : Concat) : Derived src c.tokens (c.tree src) := fun _ =>
  ⟨c, List.infix_rfl, rfl⟩

theorem Chain.derived_tree (c : Chain) : Derived src c.tokens (c.tree src) := fun _ =>
  ⟨.mk c .none, by simp [Concat.tokens, Joined.tokens], rfl⟩

theorem Primary.derived_tree (p : Primary) : Derived src p.tokens (p.tree src) := fun _ =>
  ⟨.mk (.mk p .none) .none, by simp [Concat.tokens, Joined.tokens, Chain.tokens, Calls.tokens], rfl⟩

/-- A node over a name and arguments behind it. -/
theorem derivedThroughout_applied {row : List Token} {label : Label} {span : Span} {name : Token}
    {args : Tree} (hroot : Derived src row (.node label span [.leaf name, args]))
    (hargs : DerivedThroughout src row args) :
    DerivedThroughout src row (.node label span [.leaf name, args]) :=
  derivedThroughout_node hroot (forall_mem_pair (derivedThroughout_leaf row name) hargs)

mutual

theorem Concat.derived : (c : Concat) → DerivedThroughout src c.tokens (c.tree src)
  | .mk first joined => by
      have hfirst : DerivedThroughout src (Concat.mk first .none).tokens (first.tree src) := by
        rw [Concat.tokens, Joined.tokens, List.append_nil]
        exact first.derived
      have hjoined := joined.derived hfirst
      rwa [Concat.tokens, Joined.tokens, List.append_nil] at hjoined

/-- Everything to the left of a chain is a concatenation, so what is joined to one is again. -/
theorem Joined.derived : (j : Joined) → {c : Concat} →
    DerivedThroughout src c.tokens (c.tree src) →
    DerivedThroughout src (c.tokens ++ j.tokens) (j.treeOn src c.tokens (c.tree src))
  | .none, c, hc => by
      rw [Joined.tokens, List.append_nil]
      exact hc
  | .join tilde right more, c, hc => by
      have hleft := hc.mono (List.prefix_append c.tokens (tilde.token :: right.tokens)).isInfix
      have hright : DerivedThroughout src (c.tokens ++ tilde.token :: right.tokens)
          (right.tree src) := right.derived.mono ⟨c.tokens ++ [tilde.token], [], by simp⟩
      have hroot : Derived src _ _ := (c.extend tilde right).derived_tree
      have hextended : DerivedThroughout src (c.extend tilde right).tokens
          ((c.extend tilde right).tree src) := by
        rw [c.tokens_extend, c.tree_extend] at hroot ⊢
        exact derivedThroughout_node hroot (forall_mem_pair hleft hright)
      have hmore := more.derived hextended
      rwa [c.tokens_extend, c.tree_extend, List.append_assoc, List.cons_append] at hmore

theorem Chain.derived : (c : Chain) → DerivedThroughout src c.tokens (c.tree src)
  | .mk base .none => by
      rw [Chain.tokens, Calls.tokens, List.append_nil]
      exact base.derived
  | .mk base (.call point name opening args more) => by
      refine derivedThroughout_node (Chain.derived_tree _) fun m hm => ?_
      rcases List.mem_cons.1 hm with rfl | hm
      · exact base.derived.mono (List.prefix_append _ _).isInfix
      · exact ((Calls.call point name opening args more).derived m hm).mono
          (List.suffix_append _ _).isInfix

theorem Calls.derived : (c : Calls) → ∀ m ∈ c.trees src, DerivedThroughout src c.tokens m
  | .none => List.forall_mem_nil _
  | .call point name opening args more => by
      have hargs := args.derived opening.token
      refine List.forall_mem_cons.2 ⟨derivedThroughout_applied nofun (hargs.mono ?_), fun m hm =>
        (more.derived m hm).mono ?_⟩
      · exact ⟨[point.token, name.token, opening.token], more.tokens, by simp [Calls.tokens]⟩
      · exact ⟨point.token :: name.token :: opening.token :: args.tokens, [], by
          simp [Calls.tokens]⟩

theorem Primary.derived : (p : Primary) → DerivedThroughout src p.tokens (p.tree src)
  | .literal t label hl => by
      refine derivedThroughout_node (Primary.derived_tree _) fun m hm => ?_
      exact List.mem_singleton.1 hm ▸ derivedThroughout_leaf _ t
  | .var name => by
      refine derivedThroughout_node (Primary.derived_tree _) fun m hm => ?_
      exact List.mem_singleton.1 hm ▸ derivedThroughout_leaf _ name.token
  | .call name opening adjacent args =>
    derivedThroughout_applied (Primary.derived_tree (.call name opening adjacent args))
      ((args.derived opening.token).mono ⟨[name.token, opening.token], [], by
        simp [Primary.tokens]⟩)
  | .paren opening inner closing =>
    derivedThroughout_withSpan
      (inner.derived.mono ⟨[opening.token], [closing.token], rfl⟩)
      (Primary.derived_tree (.paren opening inner closing))

theorem Args.derived {inMethod : Bool} : (a : Args inMethod) → (opening : Token) →
    DerivedThroughout src a.tokens (a.tree src opening)
  | .none _, _ => derivedThroughout_node nofun (List.forall_mem_nil _)
  | .some list, _ => derivedThroughout_node nofun list.derived

theorem ArgList.derived {inMethod : Bool} : (l : ArgList inMethod) →
    ∀ m ∈ l.trees src, DerivedThroughout src l.tokens m
  | .last argument closing => by
      intro m hm
      obtain rfl := List.mem_singleton.1 hm
      exact argument.derived.mono (List.prefix_append _ _).isInfix
  | .more argument comma list =>
    List.forall_mem_cons.2 ⟨argument.derived.mono (List.prefix_append _ _).isInfix, fun m hm =>
      (list.derived m hm).mono ⟨argument.tokens ++ [comma.token], [], by simp [ArgList.tokens]⟩⟩

theorem Argument.derived {inMethod : Bool} : (a : Argument inMethod) →
    DerivedThroughout src a.tokens (a.tree src)
  | .value c => c.derived
  | .current t => derivedThroughout_node nofun fun _ hm =>
    List.mem_singleton.1 hm ▸ derivedThroughout_leaf _ t.token

end

/-- **A node that is an expression has a derivation of its own**, from tokens that stand together
in the row.  A comparison is one only where comparisons are allowed. -/
theorem Whole.exists_of_mem_preorder {allowCompare allow : Bool} : (g : Whole allowCompare) →
    {n : Tree} → n ∈ (g.tree src).preorder → n.isExpression = true →
    (n.label? = some .compare → allow = true) →
    ∃ e : Whole allow, e.tokens <:+: g.tokens ∧ e.tree src = n
  | .value c, n, hn, hexpression, _ =>
    let ⟨e, he, htree⟩ := c.derived n hn hexpression
    ⟨.value e, he, htree⟩
  | .compare left op hop right, n, hn, hexpression, hallow => by
      rcases List.mem_cons.1 hn with rfl | hn
      · obtain rfl := hallow rfl
        exact ⟨.compare left op hop right, List.infix_rfl, rfl⟩
      · have hleft : DerivedThroughout src (left.tokens ++ op :: right.tokens) (left.tree src) :=
          left.derived.mono (List.prefix_append _ _).isInfix
        have hright : DerivedThroughout src (left.tokens ++ op :: right.tokens) (right.tree src) :=
          right.derived.mono ⟨left.tokens ++ [op], [], by simp⟩
        rw [Tree.preorderAll_eq_flatMap] at hn
        obtain ⟨m, hm, hn⟩ := List.mem_flatMap.1 hn
        have hchildren := List.forall_mem_cons.2
          ⟨hleft, forall_mem_pair (derivedThroughout_leaf _ op) hright⟩
        obtain ⟨e, he, htree⟩ := hchildren m hm n hn hexpression
        exact ⟨.value e, he, htree⟩

end Grammar

/-! ## Reading the text of a node -/

open Grammar

/-- **The text of a node gives the node again.**  Of the tree of a text, the text of any node that
is an expression can be read by itself, at any place; only for a comparison must comparisons be
allowed.  The tree it gives is the node, counted from where the node began: it has the same labels,
the same kinds and texts of tokens and the same texts of nodes. -/
theorem parseExpression_text {text : List Char} {line column : Int} {allowCompare : Bool}
    {tree : Tree} (h : parseExpression text line column allowCompare = .ok tree) {n : Tree}
    (hn : n ∈ tree.preorder) (hexpression : n.isExpression = true) (line' column' : Int)
    (allow : Bool) (hallow : n.label? = some .compare → allow = true) :
    parseExpression n.text.toList line' column' allow =
      .ok (n.rebase ⟨n.span.start, line', column'⟩) := by
  obtain ⟨g, htokens, rfl⟩ := parseExpression_eq_ok_tree.1 h
  have htiled := tokensOf_eq_ok_iff.1 htokens
  obtain ⟨w, hpart, rfl⟩ := g.exists_of_mem_preorder hn hexpression hallow
  have hspan := w.readFrom_tree.span_eq htiled hpart
  obtain ⟨before, behind, hrow⟩ := hpart
  rw [← hrow] at htiled
  obtain ⟨a, piece, d, rfl, -, hpiece, -, hstart, hstop⟩ := htiled.exists_slice w.tokens_ne_nil
  rw [Nat.zero_add] at hpiece hstart hstop
  have htext : (w.tree (.ofText (a ++ piece ++ d) line column)).text.toList = piece := by
    rw [Tree.text, hspan]
    simp [Source.spanOf, Source.span, Source.ofText, hstart, hstop]
  have hstart' : (w.tree (.ofText (a ++ piece ++ d) line column)).span.start = a.length := by
    rw [hspan]
    exact hstart
  have hmoved : Tiled line' column' 0 piece
      (w.tokens.map (Token.rebase ⟨a.length, line', column'⟩)) :=
    Tiled.rebase (b := ⟨a.length, line', column'⟩) hpiece
  have hspans : Rebases ⟨a.length, line', column'⟩ (.ofText (a ++ piece ++ d) line column)
      (.ofText piece line' column') (Token.InPiece ⟨a.length, line', column'⟩ piece.length) :=
    fun row hne hrow => Source.spanOf_rebase line column rfl hne hrow
  obtain ⟨e, he, htree⟩ := w.exists_rebase hspans hpiece.bounds
  rw [htext, hstart']
  exact parseExpression_eq_ok_tree.2 ⟨e, tokensOf_eq_ok_iff.2 (he ▸ hmoved), htree⟩

/-- The operand in parentheses of a comparison. -/
theorem exists_excerpt_operand :
    ∃ tree n, parseExpression "a ~ (b ~ 1.5) == c".toList 1 1 true = .ok tree ∧
      n ∈ tree.preorder ∧ n.isExpression = true ∧ n.text = "(b ~ 1.5)" ∧
      parseExpression "(b ~ 1.5)".toList 7 3 false = .ok (n.rebase ⟨n.span.start, 7, 3⟩) := by
  have hrun : ((parseExpression "a ~ (b ~ 1.5) == c".toList 1 1 true).toOption.bind fun tree =>
      tree.preorder[4]?.map fun n => (n.label?, n.text)) =
        some (some .concat, "(b ~ 1.5)") := by decide +kernel
  obtain ⟨tree, htree, hnode⟩ := Option.bind_eq_some_iff.1 hrun
  obtain ⟨n, hn, hlook⟩ := Option.map_eq_some_iff.1 hnode
  obtain ⟨hlabel, htext⟩ := Prod.mk.injEq .. ▸ hlook
  have h := Outcome.toOption_eq_some.1 htree
  have hmem : n ∈ tree.preorder := List.mem_of_getElem? hn
  have hexpression : n.isExpression = true := by rw [Tree.isExpression, hlabel]; rfl
  refine ⟨tree, n, h, hmem, hexpression, htext, ?_⟩
  rw [← htext]
  exact parseExpression_text h hmem hexpression 7 3 false (by rw [hlabel]; decide)

end ScenarioScript
