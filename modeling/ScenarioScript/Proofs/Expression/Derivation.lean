import ScenarioScript.Expression
import ScenarioScript.Proofs.Expression.Spelling
import ScenarioScript.Proofs.Expression.Unfolding
import ScenarioScript.Proofs.Outcome

/-!
# Proofs/Expression/Derivation — the descent reads what the grammar derives

* `exists_concat_of_ok` and its like — **soundness**: what the descent reads has a derivation, and
  the tree is the derivation's;
* `concat_complete` and its like — **completeness**: the descent reads every derivation to its end,
  as long as no token follows with which it could go on, and what it makes of it is the derivation's
  tree, spans included;
* `exists_whole_of_ok`, `whole_complete` — the same of whole expressions, behind which there is
  nothing.
-/

namespace ScenarioScript

namespace Descent

open Grammar Outcome

variable {src : Source}

/-! ## Soundness -/

theorem chained_shape (start : Nat) (base : Tree) (calls : List Tree) (c : Cursor) (p : Primary)
    (g : Calls) (hbase : base.shape = p.shape) (hcalls : Tree.shapes calls = g.shapes) :
    (chained src start base calls c).shape = (Chain.mk p g).shape := by
  cases g with
  | none =>
    cases calls with
    | nil => exact hbase
    | cons call calls => simp [Tree.shapes, Calls.shapes] at hcalls
  | call point name opening args more =>
    cases calls with
    | nil => simp [Tree.shapes, Calls.shapes] at hcalls
    | cons call calls =>
      rw [Chain.shape, ← hbase, ← hcalls]
      rfl

theorem pairs_primary_of_literal {c : Cursor} {t : Token} {ahead : List Token} {label : Label}
    (h : c.ahead = t :: ahead) (hl : literalLabel? t = some label) :
    pairs (primary src c) = .ok (atom src label t ahead, .past t ahead) := by
  rw [pairs_primary_cons src h]
  unfold literalLabel? at hl
  cases hk : t.kind <;> simp only [hk, Option.some.injEq, reduceCtorEq] at hl <;> subst hl <;> rfl

/-- A token that is a primary by itself. -/
theorem exists_primary_of_atom {label : Label} {u : Token} {ahead : List Token} {t : Tree}
    {d : Cursor} (g : Primary) (htokens : g.tokens = [u]) (hshape : g.shape = .node label [.leaf u])
    (h : (Except.ok (atom src label u ahead, .past u ahead) : Except Halt _) = .ok (t, d)) :
    ∃ g : Primary, u :: ahead = g.tokens ++ d.ahead ∧ t.shape = g.shape := by
  obtain ⟨rfl, rfl⟩ : atom src label u ahead = t ∧ Cursor.past u ahead = d := by simpa using h
  exact ⟨g, by rw [htokens]; rfl, by rw [hshape]; rfl⟩

mutual

theorem exists_concat_of_ok {c d : Cursor} {t : Tree} (h : pairs (concat src c) = .ok (t, d)) :
    ∃ g : Concat, c.ahead = g.tokens ++ d.ahead ∧ t.shape = g.shape := by
  rw [pairs_concat, bind_eq_ok] at h
  obtain ⟨⟨first, c₁⟩, hfirst, hrest⟩ := h
  have := length_of_pairs hfirst
  obtain ⟨g, hg, hshape⟩ := exists_chain_of_ok hfirst
  obtain ⟨j, hj, hfold⟩ := exists_joined_of_ok hrest
  exact ⟨.mk g j, by rw [hg, hj, Concat.tokens, List.append_assoc], by rw [hfold, hshape]; rfl⟩
termination_by 6 * c.ahead.length + 2

theorem exists_joined_of_ok {start : Nat} {left : Tree} {c d : Cursor} {t : Tree}
    (h : pairs (concatRest src start left c) = .ok (t, d)) :
    ∃ j : Joined, c.ahead = j.tokens ++ d.ahead ∧ t.shape = j.fold left.shape := by
  rw [pairs_concatRest] at h
  cases htilde : c.accept? .tilde with
  | none =>
    obtain ⟨rfl, rfl⟩ : left = t ∧ c = d := by simpa [htilde] using h
    exact ⟨.none, rfl, rfl⟩
  | some taken =>
    obtain ⟨tilde, c₁⟩ := taken
    obtain ⟨hkind, hahead, -⟩ := Cursor.of_accept? htilde
    have := Cursor.length_of_accept? htilde
    simp only [htilde, bind_eq_ok] at h
    obtain ⟨⟨right, c₂⟩, hright, hrest⟩ := h
    have := length_of_pairs hright
    obtain ⟨g, hg, hshape⟩ := exists_chain_of_ok hright
    obtain ⟨j, hj, hfold⟩ := exists_joined_of_ok hrest
    refine ⟨.join ⟨tilde, hkind⟩ g j, ?_, ?_⟩
    · rw [hahead, hg, hj, Joined.tokens, List.cons_append, List.append_assoc]
    · rw [hfold, Joined.fold, ← hshape]
      rfl
termination_by 6 * c.ahead.length + 2

theorem exists_chain_of_ok {c d : Cursor} {t : Tree} (h : pairs (chain src c) = .ok (t, d)) :
    ∃ g : Chain, c.ahead = g.tokens ++ d.ahead ∧ t.shape = g.shape := by
  simp only [pairs_chain, bind_eq_ok, map_eq_ok, Prod.mk.injEq] at h
  obtain ⟨⟨base, c₁⟩, hbase, ⟨calls, c₂⟩, hcalls, rfl, rfl⟩ := h
  have := length_of_pairs hbase
  obtain ⟨p, hp, hshape⟩ := exists_primary_of_ok hbase
  obtain ⟨g, hg, hshapes⟩ := exists_calls_of_ok hcalls
  exact ⟨.mk p g, by rw [hp, hg, Chain.tokens, List.append_assoc],
    chained_shape _ base calls c₂ p g hshape hshapes⟩
termination_by 6 * c.ahead.length + 1

theorem exists_calls_of_ok {c d : Cursor} {ts : List Tree}
    (h : pairs (methods src c) = .ok (ts, d)) :
    ∃ g : Calls, c.ahead = g.tokens ++ d.ahead ∧ Tree.shapes ts = g.shapes := by
  rw [pairs_methods] at h
  cases hdot : c.accept? .dot with
  | none =>
    obtain ⟨rfl, rfl⟩ : [] = ts ∧ c = d := by simpa [hdot] using h
    exact ⟨.none, rfl, rfl⟩
  | some taken =>
    obtain ⟨point, c₁⟩ := taken
    obtain ⟨hpoint, hahead, -⟩ := Cursor.of_accept? hdot
    cases hident : c₁.accept? .ident with
    | none => simp [hdot, hident] at h
    | some taken =>
      obtain ⟨name, c₂⟩ := taken
      obtain ⟨hname, hahead₁, -⟩ := Cursor.of_accept? hident
      cases hlpar : c₂.accept? .lpar with
      | none => simp [hdot, hident, hlpar] at h
      | some taken =>
        obtain ⟨opening, c₃⟩ := taken
        obtain ⟨hopening, hahead₂, -⟩ := Cursor.of_accept? hlpar
        have := Cursor.length_of_accept? hdot
        have := Cursor.length_of_accept? hident
        have := Cursor.length_of_accept? hlpar
        simp only [hdot, hident, hlpar, bind_eq_ok, map_eq_ok, Prod.mk.injEq] at h
        obtain ⟨⟨list, c₄⟩, hargs, ⟨more, c₅⟩, hmore, rfl, rfl⟩ := h
        have := length_of_pairs hargs
        obtain ⟨a, ha, hshape⟩ := exists_args_of_ok hargs
        obtain ⟨g, hg, hshapes⟩ := exists_calls_of_ok hmore
        refine ⟨.call ⟨point, hpoint⟩ ⟨name, hname⟩ ⟨opening, hopening⟩ a g, ?_, ?_⟩
        · rw [hahead, hahead₁, hahead₂, ha, Calls.tokens, List.cons_append, List.cons_append,
            List.cons_append, List.append_assoc, ← hg]
        · rw [Tree.shapes, hshapes, Calls.shapes, ← hshape]
          rfl
termination_by 6 * c.ahead.length + 1

theorem exists_primary_of_ok {c d : Cursor} {t : Tree} (h : pairs (primary src c) = .ok (t, d)) :
    ∃ g : Primary, c.ahead = g.tokens ++ d.ahead ∧ t.shape = g.shape := by
  cases hc : c.ahead with
  | nil => simp [pairs_primary_nil src hc] at h
  | cons u ahead =>
    cases hl : literalLabel? u with
    | some label =>
      rw [pairs_primary_of_literal hc hl] at h
      exact exists_primary_of_atom (.literal u label hl) rfl rfl h
    | none =>
      rw [pairs_primary_cons src hc] at h
      cases hk : u.kind
      case ident =>
        simp only [hk] at h
        cases hopen : (Cursor.past u ahead).accept? .lpar with
        | none =>
          rw [hopen] at h
          exact exists_primary_of_atom (.var ⟨u, hk⟩) rfl rfl h
        | some taken =>
          obtain ⟨opening, c₁⟩ := taken
          obtain ⟨hopening, hahead, -⟩ := Cursor.of_accept? hopen
          have := Cursor.length_of_accept? hopen
          by_cases hadj : opening.start = u.stop
          · simp only [hopen, if_pos hadj, map_eq_ok, Prod.mk.injEq] at h
            obtain ⟨⟨list, c₂⟩, hargs, rfl, rfl⟩ := h
            obtain ⟨a, ha, hshape⟩ := exists_args_of_ok hargs
            refine ⟨.call ⟨u, hk⟩ ⟨opening, hopening⟩ hadj a, ?_, ?_⟩
            · rw [Primary.tokens, List.cons_append, List.cons_append, ← ha, ← hahead]
              rfl
            · rw [Primary.shape, ← hshape]
              rfl
          · simp only [hopen, if_neg hadj] at h
            exact exists_primary_of_atom (.var ⟨u, hk⟩) rfl rfl h
      case lpar =>
        simp only [hk, bind_eq_ok] at h
        obtain ⟨⟨inner, c₁⟩, hinner, h⟩ := h
        obtain ⟨g, hg, hshape⟩ := exists_concat_of_ok hinner
        cases hclose : c₁.accept? .rpar with
        | none => simp [hclose] at h
        | some taken =>
          obtain ⟨closing, c₂⟩ := taken
          obtain ⟨hclosing, hahead, -⟩ := Cursor.of_accept? hclose
          obtain ⟨rfl, rfl⟩ : inner.withSpan (src.span u.start closing.stop) = t ∧ c₂ = d := by
            simpa [hclose] using h
          refine ⟨.paren ⟨u, hk⟩ g ⟨closing, hclosing⟩, ?_, ?_⟩
          · rw [Primary.tokens, List.cons_append, List.append_assoc, List.singleton_append,
              ← hahead, ← hg]
            rfl
          · rw [Tree.shape_withSpan, hshape, Primary.shape]
      all_goals simp [hk, literalLabel?] at h hl
termination_by 6 * c.ahead.length
decreasing_by all_goals (simp only [hc, List.length_cons, Cursor.ahead_past] at *; omega)

theorem exists_args_of_ok {inMethod : Bool} {opening : Token} {c d : Cursor} {t : Tree}
    (h : pairs (args src inMethod opening c) = .ok (t, d)) :
    ∃ g : Args inMethod, c.ahead = g.tokens ++ d.ahead ∧ t.shape = g.shape := by
  rw [pairs_args] at h
  cases hclose : c.accept? .rpar with
  | some taken =>
    obtain ⟨closing, c₁⟩ := taken
    obtain ⟨hclosing, hahead, -⟩ := Cursor.of_accept? hclose
    obtain ⟨rfl, rfl⟩ : c₁.node src .args [] opening.start = t ∧ c₁ = d := by
      simpa [hclose] using h
    exact ⟨.none ⟨closing, hclosing⟩, hahead, rfl⟩
  | none =>
    simp only [hclose, map_eq_ok, Prod.mk.injEq] at h
    obtain ⟨⟨list, c₁⟩, hlist, rfl, rfl⟩ := h
    obtain ⟨g, hg, hshapes⟩ := exists_argList_of_ok hlist
    exact ⟨.some g, hg, by rw [Args.shape, ← hshapes]; rfl⟩
termination_by 6 * c.ahead.length + 5

theorem exists_argList_of_ok {inMethod : Bool} {opening : Token} {c d : Cursor} {ts : List Tree}
    (h : pairs (argsRest src inMethod opening c) = .ok (ts, d)) :
    ∃ g : ArgList inMethod, c.ahead = g.tokens ++ d.ahead ∧ Tree.shapes ts = g.shapes := by
  rw [pairs_argsRest, bind_eq_ok] at h
  obtain ⟨⟨first, c₁⟩, hfirst, h⟩ := h
  have := length_of_pairs hfirst
  obtain ⟨a, ha, hshape⟩ := exists_argument_of_ok hfirst
  cases hcomma : c₁.accept? .comma with
  | some taken =>
    obtain ⟨comma, c₂⟩ := taken
    obtain ⟨hkind, hahead, -⟩ := Cursor.of_accept? hcomma
    have := Cursor.length_of_accept? hcomma
    simp only [hcomma, map_eq_ok, Prod.mk.injEq] at h
    obtain ⟨⟨more, c₃⟩, hmore, rfl, rfl⟩ := h
    obtain ⟨g, hg, hshapes⟩ := exists_argList_of_ok hmore
    refine ⟨.more a ⟨comma, hkind⟩ g, ?_, ?_⟩
    · rw [ha, hahead, hg, ArgList.tokens, List.append_assoc, List.cons_append]
    · rw [Tree.shapes, hshape, hshapes, ArgList.shapes]
  | none =>
    cases hclose : c₁.accept? .rpar with
    | none => simp [hcomma, hclose] at h
    | some taken =>
      obtain ⟨closing, c₂⟩ := taken
      obtain ⟨hkind, hahead, -⟩ := Cursor.of_accept? hclose
      obtain ⟨rfl, rfl⟩ : [first] = ts ∧ c₂ = d := by simpa [hcomma, hclose] using h
      refine ⟨.last a ⟨closing, hkind⟩, ?_, ?_⟩
      · rw [ha, hahead, ArgList.tokens, List.append_assoc]
        rfl
      · rw [Tree.shapes, hshape, ArgList.shapes]
        rfl
termination_by 6 * c.ahead.length + 4

theorem exists_argument_of_ok {inMethod : Bool} {c d : Cursor} {t : Tree}
    (h : pairs (argument src inMethod c) = .ok (t, d)) :
    ∃ g : Argument inMethod, c.ahead = g.tokens ++ d.ahead ∧ t.shape = g.shape := by
  rw [pairs_argument] at h
  cases hat : (if inMethod then c.accept? .atSign else none) with
  | none =>
    rw [hat] at h
    obtain ⟨g, hg, hshape⟩ := exists_concat_of_ok h
    exact ⟨.value g, hg, hshape⟩
  | some taken =>
    obtain ⟨current, c₁⟩ := taken
    cases inMethod with
    | false => simp at hat
    | true =>
      obtain ⟨hkind, hahead, -⟩ := Cursor.of_accept? hat
      obtain ⟨rfl, rfl⟩ : c₁.node src .current [.leaf current] current.start = t ∧ c₁ = d := by
        rw [hat] at h
        simpa using h
      exact ⟨.current ⟨current, hkind⟩, hahead, rfl⟩
termination_by 6 * c.ahead.length + 3

end

/-! ## Completeness

What is read of a row that begins with the tokens of a derivation is the tree of the derivation, and
the cursor is then behind these tokens. -/

theorem accept?_of_avoids {c : Cursor} {kind : TokenKind} {kinds : List TokenKind}
    (h : Avoids kinds c.ahead) (hmem : kind ∈ kinds) : c.accept? kind = none := by
  obtain ⟨ahead, lastStop⟩ := c
  cases ahead with
  | nil => rfl
  | cons t ahead =>
    refine if_neg fun hk => ?_
    exact avoids_cons_iff.1 h (hk ▸ hmem)

theorem accept?_of_begins {c : Cursor} {kind : TokenKind} {kinds : List TokenKind}
    (h : Begins kinds c.ahead) (hmem : kind ∉ kinds) : c.accept? kind = none := by
  obtain ⟨t, rest, hrow, ht⟩ := h
  have havoids : Avoids [kind] c.ahead := by
    rw [hrow, avoids_cons_iff, List.mem_singleton]
    exact fun hk => hmem (hk ▸ ht)
  exact accept?_of_avoids havoids (List.mem_singleton_self kind)

theorem accept?_terminal {kind : TokenKind} (t : Terminal kind) (row : List Token) (before : Nat) :
    Cursor.accept? ⟨t.token :: row, before⟩ kind = some (t.token, ⟨row, t.token.stop⟩) :=
  if_pos t.kind_eq

mutual

theorem concat_complete (g : Concat) {rest : List Token} (hrest : AfterConcat rest) (before : Nat) :
    pairs (concat src ⟨g.tokens ++ rest, before⟩) =
      .ok (g.tree src, ⟨rest, rowStop before g.tokens⟩) := by
  match g with
  | .mk first joined =>
    have hne : first.tokens ≠ [] := first.begins.ne_nil
    have hjoined := joined_complete joined hne (first.tree src) hrest
    rw [Concat.tokens, List.append_assoc, pairs_concat, Cursor.start_current_append hne,
      chain_complete first (joined.afterChain hrest)]
    simp only [Except.bind]
    rw [rowStop_append, rowStop_of_ne_nil hne before, ← rowStop_append, hjoined, Concat.tree]
termination_by structural g

theorem joined_complete (g : Joined) {row : List Token} (hrow : row ≠ []) (left : Tree)
    {rest : List Token} (hrest : AfterConcat rest) :
    pairs (concatRest src (rowStart row) left ⟨g.tokens ++ rest, rowStop 0 row⟩) =
      .ok (g.treeOn src row left, ⟨rest, rowStop 0 (row ++ g.tokens)⟩) := by
  rw [pairs_concatRest]
  match g with
  | .none =>
    have htilde : Cursor.accept? ⟨Joined.none.tokens ++ rest, rowStop 0 row⟩ .tilde = none :=
      accept?_of_avoids hrest (by simp)
    rw [htilde, Joined.tokens, List.append_nil]
    rfl
  | .join tilde right more =>
    have hright : right.tokens ≠ [] := right.begins.ne_nil
    have hnext : row ++ tilde.token :: right.tokens ≠ [] := List.append_ne_nil_of_left_ne_nil hrow _
    have hstop : rowStop tilde.token.stop right.tokens =
        rowStop 0 (row ++ tilde.token :: right.tokens) := by
      rw [rowStop_append, rowStop_cons]
    have hmore := joined_complete more hnext
      (.node .concat (src.spanOf (row ++ tilde.token :: right.tokens)) [left, right.tree src]) hrest
    rw [rowStart_append hrow] at hmore
    simp only [Joined.tokens, List.cons_append, List.append_assoc, accept?_terminal,
      chain_complete right (more.afterChain hrest), Except.bind, hstop]
    rw [← rowStart_append hrow (tilde.token :: right.tokens), Cursor.node_passed hnext,
      rowStart_append hrow, hmore, Joined.treeOn, List.append_assoc, List.cons_append]
termination_by structural g

theorem chain_complete (g : Chain) {rest : List Token} (hrest : AfterChain rest) (before : Nat) :
    pairs (chain src ⟨g.tokens ++ rest, before⟩) =
      .ok (g.tree src, ⟨rest, rowStop before g.tokens⟩) := by
  match g with
  | .mk base calls =>
    have hne : base.tokens ≠ [] := base.begins.ne_nil
    rw [Chain.tokens, List.append_assoc, pairs_chain, Cursor.start_current_append hne,
      primary_complete base (calls.afterPrimary hrest)]
    simp only [Except.bind, calls_complete calls hrest, Except.map, ← rowStop_append]
    match calls with
    | .none => simp [Calls.tokens, Calls.trees, chained, Chain.tree]
    | .call point name opening a more =>
      rw [chained, if_neg (by simp [Calls.trees]),
        ← rowStart_append hne (Calls.call point name opening a more).tokens,
        Cursor.node_passed (List.append_ne_nil_of_left_ne_nil hne _), Chain.tree]
termination_by structural g

theorem calls_complete (g : Calls) {rest : List Token} (hrest : AfterChain rest) (before : Nat) :
    pairs (methods src ⟨g.tokens ++ rest, before⟩) =
      .ok (g.trees src, ⟨rest, rowStop before g.tokens⟩) := by
  rw [pairs_methods]
  match g with
  | .none =>
    have hdot : Cursor.accept? ⟨Calls.none.tokens ++ rest, before⟩ .dot = none :=
      accept?_of_avoids hrest (by simp)
    rw [hdot]
    rfl
  | .call point name opening a more =>
    have hspan := Cursor.node_passed (List.cons_ne_nil name.token (opening.token :: a.tokens))
      src .method [.leaf name.token, a.tree src opening.token]
      (more.tokens ++ rest) 0
    simp only [Calls.tokens, List.cons_append, List.append_assoc, accept?_terminal,
      args_complete a, calls_complete more hrest, Except.bind, Except.map, rowStop_cons,
      rowStop_append]
    rw [Calls.trees, ← hspan]
    rfl
termination_by structural g

theorem primary_complete (g : Primary) {rest : List Token} (hrest : AfterPrimary rest)
    (before : Nat) :
    pairs (primary src ⟨g.tokens ++ rest, before⟩) =
      .ok (g.tree src, ⟨rest, rowStop before g.tokens⟩) := by
  match g with
  | .literal u label hl => exact pairs_primary_of_literal rfl hl
  | .var name =>
    have hcall : (Cursor.past name.token rest).accept? .lpar = none :=
      accept?_of_avoids hrest (List.mem_singleton_self _)
    rw [Primary.tokens, List.singleton_append,
      pairs_primary_cons src (rfl : Cursor.ahead ⟨_, before⟩ = name.token :: rest)]
    simp only [name.kind_eq, hcall]
    rfl
  | .call name opening adjacent a =>
    have hspan := Cursor.node_passed (List.cons_ne_nil name.token (opening.token :: a.tokens))
      src .call [.leaf name.token, a.tree src opening.token] rest 0
    rw [Primary.tokens, List.cons_append, List.cons_append, pairs_primary_cons src
      (rfl : Cursor.ahead ⟨_, before⟩ = name.token :: opening.token :: (a.tokens ++ rest))]
    simp only [name.kind_eq, Cursor.past, accept?_terminal, if_pos adjacent, args_complete a,
      Except.map]
    rw [Primary.tree, ← hspan]
    rfl
  | .paren opening inner closing =>
    have hafter : AfterConcat (closing.token :: rest) := avoids_terminal closing (by decide) rest
    have hinner := concat_complete inner hafter opening.token.stop
    rw [Primary.tokens, List.cons_append, List.append_assoc, List.singleton_append,
      pairs_primary_cons src (rfl : Cursor.ahead ⟨_, before⟩ = opening.token :: _)]
    simp only [opening.kind_eq, Cursor.past, hinner, Except.bind, accept?_terminal, rowStop_cons,
      rowStop_append, rowStop_nil]
    rw [Primary.tree, Source.spanOf, rowStop_cons, rowStop_append]
    rfl
termination_by structural g

theorem args_complete {inMethod : Bool} (g : Args inMethod) (opening : Token) (rest : List Token) :
    pairs (args src inMethod opening ⟨g.tokens ++ rest, opening.stop⟩) =
      .ok (g.tree src opening, ⟨rest, rowStop opening.stop g.tokens⟩) := by
  rw [pairs_args]
  match g with
  | .none closing =>
    rw [Args.tokens, List.singleton_append, accept?_terminal]
    rfl
  | .some list =>
    have hbegins : Begins (.atSign :: starters) (list.tokens ++ rest) := list.begins.append rest
    have hclose : Cursor.accept? ⟨list.tokens ++ rest, opening.stop⟩ .rpar = none :=
      accept?_of_begins hbegins (by decide)
    have hspan := Cursor.node_passed (List.cons_ne_nil opening list.tokens) src .args
      (list.trees src) rest 0
    rw [Args.tokens, hclose]
    simp only [argList_complete list opening rest, Except.map]
    rw [Args.tree, ← hspan]
    rfl
termination_by structural g

theorem argList_complete {inMethod : Bool} (g : ArgList inMethod) (opening : Token)
    (rest : List Token) (before : Nat) :
    pairs (argsRest src inMethod opening ⟨g.tokens ++ rest, before⟩) =
      .ok (g.trees src, ⟨rest, rowStop before g.tokens⟩) := by
  rw [pairs_argsRest]
  match g with
  | .last a closing =>
    have hafter : AfterConcat (closing.token :: rest) := avoids_terminal closing (by decide) rest
    have hcomma : Cursor.accept? ⟨closing.token :: rest, rowStop before a.tokens⟩ .comma = none :=
      accept?_of_avoids (avoids_terminal closing (by decide) rest) (List.mem_singleton_self _)
    rw [ArgList.tokens, List.append_assoc, List.singleton_append, argument_complete a hafter]
    simp only [Except.bind, hcomma, accept?_terminal, rowStop_append, rowStop_cons, rowStop_nil]
    rfl
  | .more a comma list =>
    have hafter : AfterConcat (comma.token :: (list.tokens ++ rest)) :=
      avoids_terminal comma (by decide) _
    rw [ArgList.tokens, List.append_assoc, List.cons_append, argument_complete a hafter]
    simp only [Except.bind, accept?_terminal, argList_complete list opening rest, Except.map,
      rowStop_append, rowStop_cons]
    rfl
termination_by structural g

theorem argument_complete {inMethod : Bool} (g : Argument inMethod) {rest : List Token}
    (hrest : AfterConcat rest) (before : Nat) :
    pairs (argument src inMethod ⟨g.tokens ++ rest, before⟩) =
      .ok (g.tree src, ⟨rest, rowStop before g.tokens⟩) := by
  rw [pairs_argument]
  match g with
  | .value value =>
    have hbegins : Begins starters (value.tokens ++ rest) := value.begins.append rest
    have hat : Cursor.accept? ⟨value.tokens ++ rest, before⟩ .atSign = none :=
      accept?_of_begins hbegins (by decide)
    rw [Argument.tokens, hat, ite_self]
    exact concat_complete value hrest before
  | .current t =>
    rw [Argument.tokens, List.singleton_append, if_pos rfl, accept?_terminal]
    rfl
termination_by structural g

end

/-! ## Whole expressions -/

/-- A row of tokens as it comes from a text: none of them is the end of the text. -/
def Endless (row : List Token) : Prop := ∀ t ∈ row, t.kind ≠ .eof

/-- **The end is reached** exactly where nothing is ahead. -/
theorem kind_eq_eof_iff {c : Cursor} (hend : src.ending.kind = .eof) (hrow : Endless c.ahead) :
    c.kind src = .eof ↔ c.ahead = [] := by
  obtain ⟨ahead, lastStop⟩ := c
  cases ahead with
  | nil => exact iff_of_true hend rfl
  | cons t ahead => exact iff_of_false (hrow t List.mem_cons_self) (List.cons_ne_nil _ _)

theorem exists_cons_of_isComparison {c : Cursor} (hend : src.ending.kind = .eof)
    (h : (c.kind src).isComparison = true) :
    ∃ row, c.ahead = c.current src :: row ∧ c.next src = .past (c.current src) row := by
  obtain ⟨ahead, lastStop⟩ := c
  cases ahead with
  | nil =>
    have hkind : Cursor.kind ⟨[], lastStop⟩ src = .eof := hend
    rw [hkind] at h
    exact absurd h (by decide)
  | cons t row => exact ⟨row, rfl, rfl⟩

theorem exists_whole_of_compare {c d : Cursor} {t : Tree} (hend : src.ending.kind = .eof)
    (h : compare src c = .ok (t, d)) :
    ∃ g : Whole true, c.ahead = g.tokens ++ d.ahead ∧ t.shape = g.shape := by
  rw [compare_eq, bind_eq_ok] at h
  obtain ⟨⟨left, c₁⟩, hleft, h⟩ := h
  obtain ⟨l, hl, hshape⟩ := exists_concat_of_ok hleft
  by_cases hop : (c₁.kind src).isComparison = true
  · obtain ⟨row, hrow, hnext⟩ := exists_cons_of_isComparison hend hop
    simp only [hop, if_true, bind_eq_ok] at h
    obtain ⟨⟨right, c₂⟩, hright, h⟩ := h
    obtain ⟨r, hr, hshape'⟩ := exists_concat_of_ok hright
    by_cases hchain : (c₂.kind src).isComparison = true
    · simp [hchain] at h
    · simp only [hchain, Bool.false_eq_true, if_false, Except.ok.injEq, Prod.mk.injEq] at h
      obtain ⟨rfl, rfl⟩ := h
      refine ⟨.compare l (c₁.current src) hop r, ?_, ?_⟩
      · have hr : row = r.tokens ++ c₂.ahead := by rw [← hr, hnext, Cursor.ahead_past]
        simp only [hl, hrow, hr, Whole.tokens, List.append_assoc, List.cons_append]
      · show Shape.node .compare [left.shape, .leaf (c₁.current src), right.shape] = _
        rw [hshape, hshape']
        rfl
  · simp only [hop, Bool.false_eq_true, if_false, Except.ok.injEq, Prod.mk.injEq] at h
    obtain ⟨rfl, rfl⟩ := h
    exact ⟨.value l, hl, hshape⟩

/-- What is read in front of the end has a derivation, whether comparisons are allowed or not. -/
theorem exists_whole_of_read {allowCompare : Bool} {c d : Cursor} {t : Tree}
    (hend : src.ending.kind = .eof)
    (h : (if allowCompare then compare src c else pairs (concat src c)) = .ok (t, d)) :
    ∃ g : Whole allowCompare, c.ahead = g.tokens ++ d.ahead ∧ t.shape = g.shape := by
  cases allowCompare with
  | true => exact exists_whole_of_compare hend h
  | false =>
    obtain ⟨g, hg, hshape⟩ := exists_concat_of_ok h
    exact ⟨.value g, hg, hshape⟩

/-- **Soundness**: a whole expression that is read has a derivation. -/
theorem exists_whole_of_ok {allowCompare : Bool} {c d : Cursor} {t : Tree}
    (hend : src.ending.kind = .eof) (hrow : Endless c.ahead)
    (h : whole src allowCompare c = .ok (t, d)) :
    ∃ g : Whole allowCompare, c.ahead = g.tokens ∧ t.shape = g.shape := by
  rw [whole_eq] at h
  by_cases hstart : c.kind src = .eof
  · simp [hstart] at h
  rw [if_neg hstart, bind_eq_ok] at h
  obtain ⟨⟨u, c₁⟩, hread, h⟩ := h
  obtain ⟨g, hg, hshape⟩ := exists_whole_of_read hend hread
  by_cases hstop : c₁.kind src = .eof
  · obtain ⟨rfl, rfl⟩ : u = t ∧ c₁ = d := by simpa [hstop] using h
    have hrest : Endless c₁.ahead := fun t ht => hrow t (hg ▸ List.mem_append_right _ ht)
    have hnil : c₁.ahead = [] := (kind_eq_eof_iff hend hrest).1 hstop
    exact ⟨g, by rw [hg, hnil, List.append_nil], hshape⟩
  · simp [hstop] at h

/-- **Completeness**: a derivation of a whole expression is read, and what comes of it is the tree
of the derivation. -/
theorem whole_complete {allowCompare : Bool} (g : Whole allowCompare) (before : Nat)
    (hend : src.ending.kind = .eof) (hrow : Endless g.tokens) :
    whole src allowCompare ⟨g.tokens, before⟩ =
      .ok (g.tree src, ⟨[], rowStop before g.tokens⟩) := by
  have hstart : Cursor.kind ⟨g.tokens, before⟩ src ≠ .eof := fun hk =>
    g.tokens_ne_nil ((kind_eq_eof_iff hend hrow).1 hk)
  have hstop : ∀ k : Nat, Cursor.kind ⟨[], k⟩ src = .eof := fun _ => hend
  have hnone : ∀ k : Nat, ¬ (Cursor.kind ⟨[], k⟩ src).isComparison = true := fun k => by
    rw [hstop k]
    decide
  rw [whole_eq, if_neg hstart]
  match g with
  | .value value =>
    have hvalue : pairs (concat src ⟨value.tokens, before⟩) =
        .ok (value.tree src, ⟨[], rowStop before value.tokens⟩) := by
      rw [← concat_complete value (avoids_nil _) before, List.append_nil]
    have hread : (if allowCompare then compare src ⟨value.tokens, before⟩
        else pairs (concat src ⟨value.tokens, before⟩)) =
          .ok (value.tree src, ⟨[], rowStop before value.tokens⟩) := by
      cases allowCompare with
      | true => rw [if_pos rfl, compare_eq, hvalue, Except.bind, if_neg (hnone _)]
      | false => exact hvalue
    rw [Whole.tokens, hread, Except.bind, if_pos (hstop _)]
    rfl
  | .compare left op hop right =>
    have hleft : pairs (concat src ⟨left.tokens ++ op :: right.tokens, before⟩) =
        .ok (left.tree src, ⟨op :: right.tokens, rowStop before left.tokens⟩) :=
      concat_complete left (afterConcat_of_isComparison hop right.tokens) before
    have hright : pairs (concat src ⟨right.tokens, op.stop⟩) =
        .ok (right.tree src, ⟨[], rowStop op.stop right.tokens⟩) := by
      rw [← concat_complete right (avoids_nil _) op.stop, List.append_nil]
    have hne : left.tokens ≠ [] := left.begins.ne_nil
    have hspan := Cursor.node_passed
      (List.append_ne_nil_of_left_ne_nil hne (op :: right.tokens)) src .compare
      [left.tree src, .leaf op, right.tree src] [] before
    rw [rowStop_append, rowStop_cons, rowStart_append hne] at hspan
    have hop' : (Cursor.kind ⟨op :: right.tokens, rowStop before left.tokens⟩ src).isComparison =
        true := hop
    have hnext : pairs (concat src
        (Cursor.next ⟨op :: right.tokens, rowStop before left.tokens⟩ src)) =
          .ok (right.tree src, ⟨[], rowStop op.stop right.tokens⟩) := hright
    have hread : compare src ⟨left.tokens ++ op :: right.tokens, before⟩ =
        .ok (Whole.tree src (.compare left op hop right), ⟨[], rowStop op.stop right.tokens⟩) := by
      rw [compare_eq, hleft, Cursor.start_current_append hne]
      simp only [Except.bind, if_pos hop', hnext, if_neg (hnone _)]
      rw [Whole.tree, ← hspan]
      rfl
    rw [Whole.tokens, if_pos rfl, hread, Except.bind, if_pos (hstop _), rowStop_append,
      rowStop_cons]

end Descent

end ScenarioScript
