import ScenarioScript.Proofs.Expression.Tiling

/-!
# Proofs/Expression/Rebasing — a piece taken out of its text

When a piece of a text is taken out and put somewhere else, the tokens and spans in it keep what
they are and get a new place: their offsets are counted from where the piece began, and line and
column are those of the new place.

* `Tiled.rebase` — the piece is tiled by the rebased tokens;
* `Source.spanOf_rebase` — the span of rebased tokens is the rebased span;
* `Whole.exists_rebase` — a derivation of tokens in the piece is one of the rebased tokens too, and
  its tree is the rebased tree.
-/

namespace ScenarioScript

/-! ## Rebased tokens, spans and trees -/

/-- Where a piece of a text begins, and the place at which it is put. -/
structure Base where
  /-- The offset at which the piece begins. -/
  start : Nat
  line : Int
  column : Int

variable (b : Base)

/-- **A token counted from a base**: of the same kind and with the same text. -/
def Token.rebase (t : Token) : Token :=
  ⟨t.kind, t.text, b.line, b.column + (t.start - b.start : Nat), t.start - b.start,
    t.stop - b.start⟩

/-- **A span counted from a base**, with the same text. -/
def Span.rebase (s : Span) : Span :=
  .inLine s.text b.line (b.column + (s.start - b.start : Nat)) (s.start - b.start)
    (s.stop - b.start)

namespace Tree

mutual

/-- **A tree counted from a base**: with the same labels, and of tokens and spans only the places
are others. -/
def rebase : Tree → Tree
  | leaf t => leaf (t.rebase b)
  | node label span children => node label (span.rebase b) (rebaseAll children)

/-- A row of trees counted from a base. -/
def rebaseAll : List Tree → List Tree
  | [] => []
  | t :: ts => rebase t :: rebaseAll ts

end

theorem rebaseAll_pair (s t : Tree) : rebaseAll b [s, t] = [s.rebase b, t.rebase b] := rfl

theorem rebase_withSpan (t : Tree) (span : Span) :
    (t.withSpan span).rebase b = (t.rebase b).withSpan (span.rebase b) := by
  cases t <;> rfl

end Tree

/-! ## The tiling of a piece -/

variable {b}

/-- **The tokens of a piece** tile it wherever it is put. -/
theorem Tiled.rebase {line column : Int} {offset : Nat} {text : List Char} {row : List Token}
    (h : Tiled line column (b.start + offset) text row) :
    Tiled b.line b.column offset text (row.map (Token.rebase b)) := by
  generalize hreached : b.start + offset = reached at h
  induction h generalizing offset with
  | done => exact .done offset
  | gap head_eq below ih => exact .gap head_eq (ih (by rw [← hreached, Nat.add_assoc]))
  | @lexeme reached kind c more rest row head_eq below ih =>
    subst hreached
    have htoken : (Token.ofLexeme line column (b.start + offset) kind (c :: more)).rebase b =
        .ofLexeme b.line b.column offset kind (c :: more) := by
      simp only [Token.rebase, Token.ofLexeme, Nat.add_sub_cancel_left, Nat.add_assoc]
    rw [List.map_cons, htoken]
    exact .lexeme head_eq (ih (Nat.add_assoc ..).symm)

/-! ## Spans in a piece -/

/-- The token lies in the piece that begins at the base and has the given length. -/
def Token.InPiece (b : Base) (length : Nat) (t : Token) : Prop :=
  b.start ≤ t.start ∧ t.stop ≤ b.start + length

theorem rowStart_map_rebase {row : List Token} (h : row ≠ []) :
    rowStart (row.map (Token.rebase b)) = rowStart row - b.start := by
  cases row with
  | nil => exact absurd rfl h
  | cons t row => rfl

theorem rowStop_map_rebase (row : List Token) (before : Nat) :
    rowStop (before - b.start) (row.map (Token.rebase b)) = rowStop before row - b.start := by
  induction row generalizing before with
  | nil => rfl
  | cons t row ih => exact ih t.stop

theorem rowStop_le_of_forall {bound before : Nat} {row : List Token} (hbefore : before ≤ bound)
    (h : ∀ t ∈ row, t.stop ≤ bound) : rowStop before row ≤ bound := by
  induction row generalizing before with
  | nil => exact hbefore
  | cons t row ih =>
    obtain ⟨ht, hrow⟩ := List.forall_mem_cons.1 h
    exact ih ht hrow

/-- A slice of a text that lies in a piece is a slice of the piece. -/
theorem take_drop_piece {before piece behind : List Char} {start stop : Nat}
    (hstart : before.length ≤ start) (hstop : stop ≤ before.length + piece.length) :
    ((before ++ piece ++ behind).drop start).take (stop - start) =
      (piece.drop (start - before.length)).take
        (stop - before.length - (start - before.length)) := by
  have hcount : stop - before.length - (start - before.length) = stop - start := by omega
  have hbehind : stop - start - (piece.length - (start - before.length)) = 0 := by omega
  rw [hcount, List.append_assoc, List.drop_append, List.drop_eq_nil_of_le hstart, List.nil_append,
    List.drop_append, List.take_append, List.length_drop, hbehind, List.take_zero,
    List.append_nil]

/-- **The span of tokens in a piece** is that of the rebased tokens in the piece alone. -/
theorem Source.spanOf_rebase (line column : Int) {before piece behind : List Char}
    (hstart : b.start = before.length) {row : List Token} (hne : row ≠ [])
    (h : ∀ t ∈ row, t.InPiece b piece.length) :
    (Source.ofText piece b.line b.column).spanOf (row.map (Token.rebase b)) =
      ((Source.ofText (before ++ piece ++ behind) line column).spanOf row).rebase b := by
  have hfrom : b.start ≤ rowStart row := by
    obtain ⟨t, row, rfl⟩ := List.exists_cons_of_ne_nil hne
    exact (h t List.mem_cons_self).1
  have hto : rowStop 0 row ≤ b.start + piece.length :=
    rowStop_le_of_forall (Nat.zero_le _) fun t ht => (h t ht).2
  have hstop := rowStop_map_rebase (b := b) row 0
  rw [Nat.zero_sub] at hstop
  rw [hstart] at hfrom hto
  simp only [Source.spanOf, Source.span, Source.ofText, Span.rebase, Span.text_inLine,
    Span.start_inLine, Span.stop_inLine, rowStart_map_rebase hne, hstop, hstart,
    take_drop_piece hfrom hto]

/-! ## Derivations of rebased tokens -/

namespace Grammar

/-- A terminal counted from a base. -/
def Terminal.rebase {kind : TokenKind} (b : Base) (t : Terminal kind) : Terminal kind :=
  ⟨t.token.rebase b, t.kind_eq⟩

/-- **What tokens of some property span in the source**, the rebased tokens span in the piece. -/
def Rebases (b : Base) (src piece : Source) (P : Token → Prop) : Prop :=
  ∀ row ≠ [], (∀ t ∈ row, P t) →
    piece.spanOf (row.map (Token.rebase b)) = (src.spanOf row).rebase b

variable {src piece : Source} {P : Token → Prop}

/-- **A node of rebased tokens** is the rebased node. -/
theorem rebase_node (hspan : Rebases b src piece P) (label : Label) {row row' : List Token}
    {children children' : List Tree} (hne : row ≠ []) (h : ∀ t ∈ row, P t)
    (hrow : row' = row.map (Token.rebase b)) (hchildren : children' = Tree.rebaseAll b children) :
    Tree.node label (piece.spanOf row') children' =
      (Tree.node label (src.spanOf row) children).rebase b := by
  rw [hrow, hspan row hne h, hchildren, Tree.rebase]

mutual

theorem Concat.exists_rebase (hspan : Rebases b src piece P) :
    (c : Concat) → (∀ t ∈ c.tokens, P t) →
    ∃ e : Concat, e.tokens = c.tokens.map (Token.rebase b) ∧ e.tree piece = (c.tree src).rebase b
  | .mk first joined, h => by
      obtain ⟨hfirst, hjoined⟩ := List.forall_mem_append.1 h
      obtain ⟨f, hf, hftree⟩ := first.exists_rebase hspan hfirst
      obtain ⟨j, hj, hjtree⟩ := joined.exists_rebase hspan hjoined
      refine ⟨.mk f j, by rw [Concat.tokens, hf, hj, ← List.map_append, Concat.tokens], ?_⟩
      rw [Concat.tree, hf, hftree, hjtree first.begins.ne_nil hfirst, Concat.tree]

theorem Joined.exists_rebase (hspan : Rebases b src piece P) :
    (j : Joined) → (∀ t ∈ j.tokens, P t) →
    ∃ e : Joined, e.tokens = j.tokens.map (Token.rebase b) ∧
      ∀ {row : List Token} {left : Tree}, row ≠ [] → (∀ t ∈ row, P t) →
        e.treeOn piece (row.map (Token.rebase b)) (left.rebase b) =
          (j.treeOn src row left).rebase b
  | .none, _ => ⟨.none, rfl, fun _ _ => rfl⟩
  | .join tilde right more, h => by
      obtain ⟨htilde, h⟩ := List.forall_mem_cons.1 h
      obtain ⟨hright, hmore⟩ := List.forall_mem_append.1 h
      obtain ⟨r, hr, hrtree⟩ := right.exists_rebase hspan hright
      obtain ⟨m, hm, hmtree⟩ := more.exists_rebase hspan hmore
      refine ⟨.join (tilde.rebase b) r m, ?_, fun {row left} hne hrow => ?_⟩
      · rw [Joined.tokens, hr, hm, ← List.map_append]
        rfl
      · have hlonger : ∀ t ∈ row ++ tilde.token :: right.tokens, P t :=
          List.forall_mem_append.2 ⟨hrow, List.forall_mem_cons.2 ⟨htilde, hright⟩⟩
        have hlonger_ne : row ++ tilde.token :: right.tokens ≠ [] :=
          List.append_ne_nil_of_left_ne_nil hne _
        have hmap : row.map (Token.rebase b) ++ (tilde.rebase b).token :: r.tokens =
            (row ++ tilde.token :: right.tokens).map (Token.rebase b) := by
          rw [hr, List.map_append]
          rfl
        have hnode : Tree.node .concat (piece.spanOf (row.map (Token.rebase b) ++
            (tilde.rebase b).token :: r.tokens)) [left.rebase b, (right.tree src).rebase b] = _ :=
          rebase_node hspan .concat hlonger_ne hlonger hmap (Tree.rebaseAll_pair b left _).symm
        rw [Joined.treeOn, hrtree, hnode, hmap, hmtree hlonger_ne hlonger, Joined.treeOn]

theorem Chain.exists_rebase (hspan : Rebases b src piece P) :
    (c : Chain) → (∀ t ∈ c.tokens, P t) →
    ∃ e : Chain, e.tokens = c.tokens.map (Token.rebase b) ∧ e.tree piece = (c.tree src).rebase b
  | .mk base calls, h => by
      obtain ⟨hbase, hcalls⟩ := List.forall_mem_append.1 h
      obtain ⟨p, hp, hptree⟩ := base.exists_rebase hspan hbase
      obtain ⟨m, hm, hmtrees⟩ := calls.exists_rebase hspan hcalls
      have htokens : p.tokens ++ m.tokens = (base.tokens ++ calls.tokens).map (Token.rebase b) := by
        rw [hp, hm, List.map_append]
      refine ⟨.mk p m, htokens, ?_⟩
      cases calls with
      | none =>
        cases m with
        | none => exact hptree
        | call => exact absurd hm (List.cons_ne_nil _ _)
      | call =>
        cases m with
        | none => exact absurd hm.symm (List.cons_ne_nil _ _)
        | call =>
          exact rebase_node hspan .chain (List.append_ne_nil_of_left_ne_nil base.begins.ne_nil _) h
            htokens (by rw [hptree, hmtrees]; rfl)

theorem Calls.exists_rebase (hspan : Rebases b src piece P) :
    (c : Calls) → (∀ t ∈ c.tokens, P t) →
    ∃ e : Calls, e.tokens = c.tokens.map (Token.rebase b) ∧
      e.trees piece = Tree.rebaseAll b (c.trees src)
  | .none, _ => ⟨.none, rfl, rfl⟩
  | .call point name opening args more, h => by
      obtain ⟨-, h⟩ := List.forall_mem_cons.1 h
      obtain ⟨hname, h⟩ := List.forall_mem_cons.1 h
      obtain ⟨hopening, h⟩ := List.forall_mem_cons.1 h
      obtain ⟨hargs, hmore⟩ := List.forall_mem_append.1 h
      obtain ⟨a, ha, hatree⟩ := args.exists_rebase hspan hargs
      obtain ⟨m, hm, hmtrees⟩ := more.exists_rebase hspan hmore
      refine ⟨.call (point.rebase b) (name.rebase b) (opening.rebase b) a m, ?_, ?_⟩
      · rw [Calls.tokens, ha, hm, ← List.map_append]
        rfl
      · have hown : ∀ t ∈ name.token :: opening.token :: args.tokens, P t :=
          List.forall_mem_cons.2 ⟨hname, List.forall_mem_cons.2 ⟨hopening, hargs⟩⟩
        have htokens : (name.rebase b).token :: (opening.rebase b).token :: a.tokens =
            (name.token :: opening.token :: args.tokens).map (Token.rebase b) := by
          rw [ha]
          rfl
        have hchildren : [.leaf (name.rebase b).token, a.tree piece (opening.rebase b).token] =
            Tree.rebaseAll b [.leaf name.token, args.tree src opening.token] := by
          rw [Tree.rebaseAll_pair, ← hatree hopening]
          rfl
        rw [Calls.trees, rebase_node hspan .method (List.cons_ne_nil _ _) hown htokens hchildren,
          hmtrees, Calls.trees, Tree.rebaseAll]

theorem Primary.exists_rebase (hspan : Rebases b src piece P) :
    (p : Primary) → (∀ t ∈ p.tokens, P t) →
    ∃ e : Primary, e.tokens = p.tokens.map (Token.rebase b) ∧ e.tree piece = (p.tree src).rebase b
  | .literal t label hl, h =>
    ⟨.literal (t.rebase b) label hl, rfl, rebase_node hspan label (List.cons_ne_nil _ _) h rfl rfl⟩
  | .var name, h =>
    ⟨.var (name.rebase b), rfl, rebase_node hspan .var (List.cons_ne_nil _ _) h rfl rfl⟩
  | .call name opening adjacent args, h => by
      obtain ⟨hname, hrest⟩ := List.forall_mem_cons.1 h
      obtain ⟨hopening, hargs⟩ := List.forall_mem_cons.1 hrest
      obtain ⟨a, ha, hatree⟩ := args.exists_rebase hspan hargs
      have htokens : (name.rebase b).token :: (opening.rebase b).token :: a.tokens =
          (name.token :: opening.token :: args.tokens).map (Token.rebase b) := by
        rw [ha]
        rfl
      exact ⟨.call (name.rebase b) (opening.rebase b) (congrArg (· - b.start) adjacent) a, htokens,
        rebase_node hspan .call (List.cons_ne_nil _ _) h htokens
          (by rw [Tree.rebaseAll_pair, ← hatree hopening]; rfl)⟩
  | .paren opening inner closing, h => by
      obtain ⟨hopening, hrest⟩ := List.forall_mem_cons.1 h
      obtain ⟨hinner, hclosing⟩ := List.forall_mem_append.1 hrest
      obtain ⟨c, hc, hctree⟩ := inner.exists_rebase hspan hinner
      have htokens : (opening.rebase b).token :: (c.tokens ++ [(closing.rebase b).token]) =
          (opening.token :: (inner.tokens ++ [closing.token])).map (Token.rebase b) := by
        rw [hc, List.map_cons, List.map_append]
        rfl
      refine ⟨.paren (opening.rebase b) c (closing.rebase b), htokens, ?_⟩
      rw [Primary.tree, htokens, hctree, hspan _ (List.cons_ne_nil _ _) h, Primary.tree,
        Tree.rebase_withSpan]

theorem Args.exists_rebase {inMethod : Bool} (hspan : Rebases b src piece P) :
    (a : Args inMethod) → (∀ t ∈ a.tokens, P t) →
    ∃ e : Args inMethod, e.tokens = a.tokens.map (Token.rebase b) ∧
      ∀ {opening : Token}, P opening →
        e.tree piece (opening.rebase b) = (a.tree src opening).rebase b
  | .none closing, h =>
    ⟨.none (closing.rebase b), rfl, fun hopening =>
      rebase_node hspan .args (List.cons_ne_nil _ _) (List.forall_mem_cons.2 ⟨hopening, h⟩) rfl rfl⟩
  | .some list, h => by
      obtain ⟨l, hl, hltrees⟩ := list.exists_rebase hspan h
      exact ⟨.some l, hl, fun hopening =>
        rebase_node hspan .args (List.cons_ne_nil _ _) (List.forall_mem_cons.2 ⟨hopening, h⟩)
          (by rw [hl]; rfl) hltrees⟩

theorem ArgList.exists_rebase {inMethod : Bool} (hspan : Rebases b src piece P) :
    (l : ArgList inMethod) → (∀ t ∈ l.tokens, P t) →
    ∃ e : ArgList inMethod, e.tokens = l.tokens.map (Token.rebase b) ∧
      e.trees piece = Tree.rebaseAll b (l.trees src)
  | .last argument closing, h => by
      obtain ⟨hargument, -⟩ := List.forall_mem_append.1 h
      obtain ⟨a, ha, hatree⟩ := argument.exists_rebase hspan hargument
      refine ⟨.last a (closing.rebase b), ?_, ?_⟩
      · rw [ArgList.tokens, ha, ArgList.tokens, List.map_append]
        rfl
      · rw [ArgList.trees, hatree]
        rfl
  | .more argument comma list, h => by
      obtain ⟨hargument, h⟩ := List.forall_mem_append.1 h
      obtain ⟨-, hlist⟩ := List.forall_mem_cons.1 h
      obtain ⟨a, ha, hatree⟩ := argument.exists_rebase hspan hargument
      obtain ⟨l, hl, hltrees⟩ := list.exists_rebase hspan hlist
      refine ⟨.more a (comma.rebase b) l, ?_, ?_⟩
      · rw [ArgList.tokens, ha, hl, ArgList.tokens, List.map_append]
        rfl
      · rw [ArgList.trees, hatree, hltrees]
        rfl

theorem Argument.exists_rebase {inMethod : Bool} (hspan : Rebases b src piece P) :
    (a : Argument inMethod) → (∀ t ∈ a.tokens, P t) →
    ∃ e : Argument inMethod, e.tokens = a.tokens.map (Token.rebase b) ∧
      e.tree piece = (a.tree src).rebase b
  | .value c, h => by
      obtain ⟨e, he, hetree⟩ := c.exists_rebase hspan h
      exact ⟨.value e, he, hetree⟩
  | .current t, h =>
    ⟨.current (t.rebase b), rfl, rebase_node hspan .current (List.cons_ne_nil _ _) h rfl rfl⟩

end

/-- **A derivation of tokens in a piece** is one of the rebased tokens too, and its tree is the
rebased tree. -/
theorem Whole.exists_rebase {allowCompare : Bool} (hspan : Rebases b src piece P) :
    (g : Whole allowCompare) → (∀ t ∈ g.tokens, P t) →
    ∃ e : Whole allowCompare, e.tokens = g.tokens.map (Token.rebase b) ∧
      e.tree piece = (g.tree src).rebase b
  | .value c, h => by
      obtain ⟨e, he, hetree⟩ := c.exists_rebase hspan h
      exact ⟨.value e, he, hetree⟩
  | .compare left op hop right, h => by
      obtain ⟨hleft, hrest⟩ := List.forall_mem_append.1 h
      obtain ⟨-, hright⟩ := List.forall_mem_cons.1 hrest
      obtain ⟨l, hl, hltree⟩ := left.exists_rebase hspan hleft
      obtain ⟨r, hr, hrtree⟩ := right.exists_rebase hspan hright
      have htokens : l.tokens ++ op.rebase b :: r.tokens =
          (left.tokens ++ op :: right.tokens).map (Token.rebase b) := by
        rw [hl, hr, List.map_append, List.map_cons]
      exact ⟨.compare l (op.rebase b) hop r, htokens,
        rebase_node hspan .compare (List.append_ne_nil_of_left_ne_nil left.begins.ne_nil _) h
          htokens (by rw [hltree, hrtree]; rfl)⟩

end Grammar

end ScenarioScript
