import ScenarioScript.Proofs.Expression.Parsing
import ScenarioScript.Proofs.Expression.Tiling

/-!
# Proofs/Expression/Nesting — the spans of a tree are exact and lie in each other

Every part of a tree was read from a row of tokens (`Tree.ReadFrom`): the row of a node holds the
rows of its children one behind the other, with tokens between them that belong to none, such as
commas and parentheses.  The rows themselves lie in the text as its tiling has them, so what is true
of rows is true of spans:

* `Whole.readFrom_tree` — the tree of a derivation was read from the tokens of the derivation;
* `parseExpression_laid` — **the layout of a tree**: each span is exact, the spans of children lie
  in the span of their node and do not overlap, and outside the span of the root there is nothing
  but spaces and tabs.
-/

namespace ScenarioScript

namespace Tree

variable (src : Source)

mutual

/-- **The tree was read from the row**: a leaf is the only token of its row, and the span of a node
is the span of its row, which holds the rows of the children. -/
def ReadFrom (row : List Token) : Tree → Prop
  | leaf t => row = [t]
  | node _ span children => row ≠ [] ∧ span = src.spanOf row ∧ ReadFromAll row children

/-- The trees were read from the row, one behind the other. -/
def ReadFromAll (row : List Token) : List Tree → Prop
  | [] => True
  | t :: ts =>
    ∃ skipped own rest, row = skipped ++ (own ++ rest) ∧ ReadFrom own t ∧ ReadFromAll rest ts

end

/-- A node that was read from the row: what can have parentheses around it. -/
def IsNodeOf (row : List Token) (t : Tree) : Prop :=
  ∃ label children, t = .node label (src.spanOf row) children ∧ ReadFromAll src row children

variable {src : Source} {row : List Token}

theorem IsNodeOf.readFrom {t : Tree} (h : t.IsNodeOf src row) (hne : row ≠ []) :
    t.ReadFrom src row := by
  obtain ⟨label, children, rfl, hchildren⟩ := h
  exact ⟨hne, rfl, hchildren⟩

theorem ReadFrom.ne_nil {t : Tree} (h : t.ReadFrom src row) : row ≠ [] := by
  cases t with
  | leaf t => exact h ▸ List.cons_ne_nil t []
  | node label span children => exact h.1

/-- A child and behind it the others. -/
theorem ReadFromAll.cons {own rest : List Token} {t : Tree} {ts : List Tree}
    (h : t.ReadFrom src own) (hrest : ReadFromAll src rest ts) :
    ReadFromAll src (own ++ rest) (t :: ts) :=
  ⟨[], own, rest, rfl, h, hrest⟩

/-- An only child. -/
theorem ReadFromAll.single {t : Tree} (h : t.ReadFrom src row) : ReadFromAll src row [t] :=
  ⟨[], row, [], (List.append_nil row).symm, h, trivial⟩

/-- Before the children there may be tokens that belong to none. -/
theorem ReadFromAll.append_left {ts : List Tree} (h : ReadFromAll src row ts)
    (before : List Token) : ReadFromAll src (before ++ row) ts := by
  cases ts with
  | nil => trivial
  | cons t ts =>
    obtain ⟨skipped, own, rest, rfl, hown, hrest⟩ := h
    exact ⟨before ++ skipped, own, rest, (List.append_assoc ..).symm, hown, hrest⟩

/-- And so behind them. -/
theorem ReadFromAll.append_right {ts : List Tree} (h : ReadFromAll src row ts)
    (behind : List Token) : ReadFromAll src (row ++ behind) ts := by
  induction ts generalizing row with
  | nil => trivial
  | cons t ts ih =>
    obtain ⟨skipped, own, rest, rfl, hown, hrest⟩ := h
    exact ⟨skipped, own, rest ++ behind, by simp only [List.append_assoc], hown, ih hrest⟩

/-- **Parentheses** around a node, or whatever else widens its span. -/
theorem IsNodeOf.withSpan {t : Tree} (h : t.IsNodeOf src row) (before behind : List Token) :
    (t.withSpan (src.spanOf (before ++ (row ++ behind)))).IsNodeOf src
      (before ++ (row ++ behind)) := by
  obtain ⟨label, children, rfl, hchildren⟩ := h
  exact ⟨label, children, rfl, (hchildren.append_right behind).append_left before⟩

end Tree

/-! ## The trees of derivations -/

namespace Grammar

open ScenarioScript.Tree

variable {src : Source}

theorem readFrom_leaf (t : Token) : (Tree.leaf t).ReadFrom src [t] := rfl

theorem isNodeOf_atom (label : Label) (t : Token) :
    (Tree.node label (src.spanOf [t]) [.leaf t]).IsNodeOf src [t] :=
  ⟨label, [.leaf t], rfl, .single (readFrom_leaf t)⟩

/-- A name and the arguments behind it, which begin with their parenthesis. -/
theorem isNodeOf_applied (label : Label) (name : Token) {row : List Token} {args : Tree}
    (hargs : args.ReadFrom src row) :
    (Tree.node label (src.spanOf (name :: row)) [.leaf name, args]).IsNodeOf src (name :: row) :=
  ⟨label, _, rfl, .cons (readFrom_leaf name) (.single hargs)⟩

mutual

theorem Concat.isNodeOf : (c : Concat) → (c.tree src).IsNodeOf src c.tokens
  | .mk first joined => joined.isNodeOf first.begins.ne_nil first.isNodeOf

theorem Joined.isNodeOf : (j : Joined) → {row : List Token} → row ≠ [] → {left : Tree} →
    left.IsNodeOf src row → (j.treeOn src row left).IsNodeOf src (row ++ j.tokens)
  | .none, row, _, left, hleft => by
      rw [Joined.tokens, List.append_nil]
      exact hleft
  | .join tilde right more, row, hrow, left, hleft => by
      have hright := ReadFromAll.single (right.isNodeOf.readFrom right.begins.ne_nil)
      have hmore := more.isNodeOf (List.append_ne_nil_of_left_ne_nil hrow _)
        ⟨.concat, _, rfl, .cons (hleft.readFrom hrow) (hright.append_left [tilde.token])⟩
      rwa [List.append_assoc] at hmore

theorem Chain.isNodeOf : (c : Chain) → (c.tree src).IsNodeOf src c.tokens
  | .mk base .none => by
      rw [Chain.tokens, Calls.tokens, List.append_nil]
      exact base.isNodeOf
  | .mk base (.call point name opening args more) =>
    ⟨.chain, _, rfl, .cons (base.isNodeOf.readFrom base.begins.ne_nil)
      (Calls.call point name opening args more).readFromAll⟩

theorem Calls.readFromAll : (c : Calls) → ReadFromAll src c.tokens (c.trees src)
  | .none => trivial
  | .call point name opening args more =>
    have hcall := isNodeOf_applied .method name.token (args.readFrom opening.token)
    (ReadFromAll.cons (hcall.readFrom (List.cons_ne_nil _ _)) more.readFromAll).append_left
      [point.token]

theorem Primary.isNodeOf : (p : Primary) → (p.tree src).IsNodeOf src p.tokens
  | .literal t label _ => isNodeOf_atom label t
  | .var name => isNodeOf_atom .var name.token
  | .call name opening _ args => isNodeOf_applied .call name.token (args.readFrom opening.token)
  | .paren opening inner closing => inner.isNodeOf.withSpan [opening.token] [closing.token]

theorem Args.readFrom {inMethod : Bool} : (a : Args inMethod) → (opening : Token) →
    (a.tree src opening).ReadFrom src (opening :: a.tokens)
  | .none _, _ => ⟨List.cons_ne_nil _ _, rfl, trivial⟩
  | .some list, opening => ⟨List.cons_ne_nil _ _, rfl, list.readFromAll.append_left [opening]⟩

theorem ArgList.readFromAll {inMethod : Bool} : (l : ArgList inMethod) →
    ReadFromAll src l.tokens (l.trees src)
  | .last argument closing => (ReadFromAll.single argument.readFrom).append_right [closing.token]
  | .more argument comma list =>
    .cons argument.readFrom (list.readFromAll.append_left [comma.token])

theorem Argument.readFrom {inMethod : Bool} : (a : Argument inMethod) →
    (a.tree src).ReadFrom src a.tokens
  | .value c => c.isNodeOf.readFrom c.begins.ne_nil
  | .current t => (isNodeOf_atom .current t.token).readFrom (List.cons_ne_nil _ _)

end

/-- **The tree of a derivation was read from its tokens.** -/
theorem Whole.readFrom_tree {allowCompare : Bool} : (g : Whole allowCompare) →
    (g.tree src).ReadFrom src g.tokens
  | .value c => c.isNodeOf.readFrom c.begins.ne_nil
  | .compare left op h right =>
    have hright := ReadFromAll.single (right.isNodeOf.readFrom right.begins.ne_nil)
    ⟨Whole.tokens_ne_nil (.compare left op h right), rfl,
      .cons (left.isNodeOf.readFrom left.begins.ne_nil) (.cons (readFrom_leaf op) hright)⟩

end Grammar

/-! ## The layout of a tree -/

/-- **The span is exact** in a text that begins at the given place: it is not empty, it has the text
between its offsets, and its places are those of its offsets, the end in the line of the start. -/
structure Span.Exact (s : Span) (text : List Char) (line column : Int) : Prop where
  text_eq : s.text = String.ofList ((text.drop s.start).take (s.stop - s.start))
  start_lt_stop : s.start < s.stop
  stop_le : s.stop ≤ text.length
  line_eq : s.line = line
  endLine_eq : s.endLine = s.line
  column_eq : s.column = column + s.start
  endColumn_eq : s.endColumn = s.column + (s.stop - s.start)

/-- **A tree laid out in a text** that begins at the given place. -/
structure Tree.Laid (t : Tree) (text : List Char) (line column : Int) : Prop where
  /-- Nodes and tokens have exact spans. -/
  exact : ∀ n ∈ t.preorder, n.span.Exact text line column
  /-- Children lie in the span of their node. -/
  within : ∀ n ∈ t.preorder, ∀ m ∈ n.children,
    n.span.start ≤ m.span.start ∧ m.span.stop ≤ n.span.stop
  /-- Each child ends before the next one begins. -/
  apart : ∀ n ∈ t.preorder, n.children.Pairwise fun m m' => m.span.stop ≤ m'.span.start
  /-- There is nothing else in the text but spaces and tabs. -/
  outside : ∀ c ∈ text.take t.span.start ++ text.drop t.span.stop, c = ' ' ∨ c = '\t'

variable {text : List Char} {line column : Int} {offset : Nat} {row : List Token}

theorem Tiled.exact_spanOf (h : Tiled line column 0 text row) {part : List Token} (hne : part ≠ [])
    (hpart : part <:+: row) :
    ((Source.ofText text line column).spanOf part).Exact text line column := by
  obtain ⟨before, behind, rfl⟩ := hpart
  obtain ⟨a, b, d, rfl, -, hb, -, hstart, hstop⟩ := h.exists_slice hne
  refine ⟨rfl, hb.rowStart_lt_rowStop hne, ?_, rfl, rfl, rfl, rfl⟩
  simp [Source.spanOf, Source.span, hstop]

namespace Tree

theorem ReadFrom.start_eq {src : Source} {t : Tree} (h : t.ReadFrom src row) :
    t.span.start = rowStart row := by
  cases t with
  | leaf t => exact h ▸ rfl
  | node label span children => exact h.2.1 ▸ rfl

theorem ReadFrom.stop_eq {src : Source} {t : Tree} (h : t.ReadFrom src row) :
    t.span.stop = rowStop 0 row := by
  cases t with
  | leaf t => exact h ▸ rfl
  | node label span children => exact h.2.1 ▸ rfl

/-- The span of a tree is that of its row, and so is the span of a token. -/
theorem ReadFrom.span_eq {part : List Token} {t : Tree} (htiled : Tiled line column 0 text row)
    (h : t.ReadFrom (.ofText text line column) part) (hpart : part <:+: row) :
    t.span = (Source.ofText text line column).spanOf part := by
  cases t with
  | leaf t =>
    obtain rfl : part = [t] := h
    exact (htiled.spanOf_singleton (hpart.subset (List.mem_singleton_self t))).symm
  | node label span children => exact h.2.1

mutual

/-- **All that is below a tree** was read from parts of its row. -/
theorem ReadFrom.exists_of_mem {src : Source} : {t : Tree} → {row : List Token} → {n : Tree} →
    t.ReadFrom src row → n ∈ t.preorder → ∃ own, own <:+: row ∧ n.ReadFrom src own
  | leaf t, row, n, h, hn => ⟨row, List.infix_rfl, List.mem_singleton.1 hn ▸ h⟩
  | node label span children, row, n, h, hn => by
      rcases List.mem_cons.1 hn with rfl | hn
      · exact ⟨row, List.infix_rfl, h⟩
      · exact ReadFromAll.exists_of_mem h.2.2 hn

theorem ReadFromAll.exists_of_mem {src : Source} : {ts : List Tree} → {row : List Token} →
    {n : Tree} → ReadFromAll src row ts → n ∈ preorderAll ts →
    ∃ own, own <:+: row ∧ n.ReadFrom src own
  | [], row, n, _, hn => absurd hn List.not_mem_nil
  | t :: ts, row, n, h, hn => by
      obtain ⟨skipped, own, rest, rfl, hown, hrest⟩ := h
      rcases List.mem_append.1 hn with hn | hn
      · obtain ⟨part, hpart, hread⟩ := ReadFrom.exists_of_mem hown hn
        exact ⟨part, hpart.trans ⟨skipped, rest, List.append_assoc ..⟩, hread⟩
      · obtain ⟨part, hpart, hread⟩ := ReadFromAll.exists_of_mem hrest hn
        exact ⟨part, hpart.trans ⟨skipped ++ own, [], by simp⟩, hread⟩

end

/-- **Children lie in the text of their row**, one behind the other. -/
theorem ReadFromAll.within_and_apart {src : Source} {ts : List Tree} (h : ReadFromAll src row ts)
    (htiled : Tiled line column offset text row) :
    (∀ m ∈ ts, offset ≤ m.span.start ∧ m.span.stop ≤ offset + text.length) ∧
      ts.Pairwise fun m m' => m.span.stop ≤ m'.span.start := by
  induction ts generalizing row offset text with
  | nil => exact ⟨List.forall_mem_nil _, .nil⟩
  | cons t ts ih =>
    obtain ⟨skipped, own, rest, rfl, hown, hrest⟩ := h
    rw [← List.append_assoc] at htiled
    obtain ⟨a, b, d, rfl, -, -, hd, hstart, hstop⟩ := htiled.exists_slice hown.ne_nil
    obtain ⟨hwithin, hapart⟩ := ih hrest hd
    rw [← hown.start_eq] at hstart
    rw [← hown.stop_eq] at hstop
    simp only [List.length_append]
    refine ⟨List.forall_mem_cons.2 ⟨by omega, fun m hm => ?_⟩,
      List.pairwise_cons.2 ⟨fun m hm => ?_, hapart⟩⟩
    · have := hwithin m hm
      omega
    · have := hwithin m hm
      omega

/-- **A tree that was read from all tokens of a text** is laid out in the text. -/
theorem ReadFrom.laid {t : Tree} (h : t.ReadFrom (.ofText text line column) row)
    (htiled : Tiled line column 0 text row) : t.Laid text line column := by
  have hchildren : ∀ n ∈ t.preorder,
      (∀ m ∈ n.children, n.span.start ≤ m.span.start ∧ m.span.stop ≤ n.span.stop) ∧
        n.children.Pairwise fun m m' => m.span.stop ≤ m'.span.start := by
    intro n hn
    obtain ⟨own, ⟨before, behind, rfl⟩, hown⟩ := h.exists_of_mem hn
    obtain ⟨a, b, d, -, -, hb, -, hstart, hstop⟩ := htiled.exists_slice hown.ne_nil
    rw [hown.start_eq, hown.stop_eq, hstop, hstart]
    cases n with
    | leaf t => exact ⟨List.forall_mem_nil _, .nil⟩
    | node label span children => exact hown.2.2.within_and_apart hb
  refine ⟨fun n hn => ?_, fun n hn => (hchildren n hn).1, fun n hn => (hchildren n hn).2, ?_⟩
  · obtain ⟨own, hpart, hown⟩ := h.exists_of_mem hn
    exact hown.span_eq htiled hpart ▸ htiled.exact_spanOf hown.ne_nil hpart
  · rw [← List.nil_append row, ← List.append_nil ([] ++ row)] at htiled
    obtain ⟨a, b, d, rfl, ha, -, hd, hstart, hstop⟩ := htiled.exists_slice h.ne_nil
    rw [Nat.zero_add] at hstart hstop
    rw [h.start_eq, h.stop_eq, hstart, hstop, ← List.length_append, List.drop_left,
      List.append_assoc, List.take_left]
    intro c hc
    have hgap : Lexeme.isGap c = true := by
      rcases List.mem_append.1 hc with hc | hc
      · exact ha.isGap_of_mem c hc
      · exact hd.isGap_of_mem c hc
    simpa [Lexeme.isGap] using hgap

end Tree

/-- **The layout of the tree of a text.**  The tokens of the text have exact spans, and so has the
tree throughout; the spans of children lie in the span of their node without overlap; and outside
the span of the root there is nothing but spaces and tabs. -/
theorem parseExpression_laid {allowCompare : Bool} {tree : Tree}
    (h : parseExpression text line column allowCompare = .ok tree) :
    (∃ tokens, tokensOf line column text = .ok tokens ∧
      ∀ t ∈ tokens, t.span.Exact text line column) ∧ tree.Laid text line column := by
  obtain ⟨g, htokens, rfl⟩ := parseExpression_eq_ok_tree.1 h
  have htiled := tokensOf_eq_ok_iff.1 htokens
  refine ⟨⟨g.tokens, htokens, fun t ht => ?_⟩, g.readFrom_tree.laid htiled⟩
  rw [← htiled.spanOf_singleton ht]
  obtain ⟨before, behind, happend⟩ := List.append_of_mem ht
  exact htiled.exact_spanOf (List.cons_ne_nil t [])
    ⟨before, behind, by rw [happend, List.append_assoc, List.singleton_append]⟩

/-- A call behind a space, with parentheses around its first argument. -/
theorem exists_laid_call :
    ∃ tree, parseExpression " f((a), 1)".toList 2 5 false = .ok tree ∧ tree.text = "f((a), 1)" ∧
      (∃ tokens, tokensOf 2 5 " f((a), 1)".toList = .ok tokens ∧
        ∀ t ∈ tokens, t.span.Exact " f((a), 1)".toList 2 5) ∧
      tree.Laid " f((a), 1)".toList 2 5 := by
  have hrun : (parseExpression " f((a), 1)".toList 2 5 false).toOption.map Tree.text =
      some "f((a), 1)" := by decide +kernel
  obtain ⟨tree, htree, htext⟩ := Option.map_eq_some_iff.1 hrun
  have h := Outcome.toOption_eq_some.1 htree
  exact ⟨tree, h, htext, parseExpression_laid h⟩

end ScenarioScript
