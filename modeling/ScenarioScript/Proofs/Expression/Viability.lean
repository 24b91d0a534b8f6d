import ScenarioScript.Proofs.Expression.Derivation

/-!
# Proofs/Expression/Viability — what was read before a halt can be completed

Where the descent halts it has passed a row of tokens that is the beginning of a derivation: names
and parentheses are all that is wanting (`Viable`).  The halt is blamed on the token at which
reading stopped or, if that is the end of the text and a parenthesis should close there, on the
opening parenthesis; what follows that one is closed in itself (`Blames`).

* `openParens` — the parentheses that have been opened in a row of tokens and not been closed;
  **derivations leave them as they were** (`Concat.openParens_tokens` and its like);
* `stalls_concat` and its like — one lemma to each function of the descent: what has been passed is
  viable, and the halt is blamed as said;
* `stalls_whole` — the same of whole expressions.
-/

namespace ScenarioScript

namespace Grammar

/-! ## Open parentheses -/

/-- What a token does to the row of open parentheses, the last one opened first. -/
def openParen (opened : List Token) (t : Token) : List Token :=
  match t.kind with
  | .lpar => t :: opened
  | .rpar => opened.tail
  | _ => opened

/-- **The parentheses that are open** behind a row of tokens, the last one opened first, given those
that were open before: a closing one closes the last one opened. -/
def openParens (opened : List Token) (row : List Token) : List Token := row.foldl openParen opened

@[simp] theorem openParens_nil (opened : List Token) : openParens opened [] = opened := rfl

@[simp] theorem openParens_cons (opened : List Token) (t : Token) (row : List Token) :
    openParens opened (t :: row) = openParens (openParen opened t) row := rfl

@[simp] theorem openParens_append (opened : List Token) (row more : List Token) :
    openParens opened (row ++ more) = openParens (openParens opened row) more :=
  List.foldl_append

theorem openParen_of_ne {t : Token} (hopen : t.kind ≠ .lpar) (hclose : t.kind ≠ .rpar)
    (opened : List Token) : openParen opened t = opened := by
  unfold openParen
  split <;> simp_all

@[simp] theorem openParen_lpar (t : Terminal .lpar) (opened : List Token) :
    openParen opened t.token = t.token :: opened := by
  rw [openParen, t.kind_eq]

@[simp] theorem openParen_rpar (t : Terminal .rpar) (opened : List Token) :
    openParen opened t.token = opened.tail := by
  rw [openParen, t.kind_eq]

theorem openParen_terminal {kind : TokenKind} (t : Terminal kind) (hopen : kind ≠ .lpar)
    (hclose : kind ≠ .rpar) (opened : List Token) : openParen opened t.token = opened :=
  openParen_of_ne (fun h => hopen (t.kind_eq.symm.trans h))
    (fun h => hclose (t.kind_eq.symm.trans h)) opened

theorem openParen_literal {t : Token} {label : Label} (h : literalLabel? t = some label)
    (opened : List Token) : openParen opened t = opened := by
  refine openParen_of_ne (mem_starters_of_literalLabel? h).2.2 (fun hk => ?_) opened
  simp [literalLabel?, hk] at h

mutual

/-- **A derivation closes what it opens.** -/
theorem Concat.openParens_tokens (g : Concat) (opened : List Token) :
    openParens opened g.tokens = opened := by
  match g with
  | .mk first joined =>
    rw [Concat.tokens, openParens_append, first.openParens_tokens, joined.openParens_tokens]
termination_by structural g

theorem Joined.openParens_tokens (g : Joined) (opened : List Token) :
    openParens opened g.tokens = opened := by
  match g with
  | .none => rfl
  | .join tilde right more =>
    rw [Joined.tokens, openParens_cons, openParen_terminal tilde (by decide) (by decide),
      openParens_append, right.openParens_tokens, more.openParens_tokens]
termination_by structural g

theorem Chain.openParens_tokens (g : Chain) (opened : List Token) :
    openParens opened g.tokens = opened := by
  match g with
  | .mk base calls =>
    rw [Chain.tokens, openParens_append, base.openParens_tokens, calls.openParens_tokens]
termination_by structural g

theorem Calls.openParens_tokens (g : Calls) (opened : List Token) :
    openParens opened g.tokens = opened := by
  match g with
  | .none => rfl
  | .call point name opening args more =>
    rw [Calls.tokens, openParens_cons, openParen_terminal point (by decide) (by decide),
      openParens_cons, openParen_terminal name (by decide) (by decide), openParens_cons,
      openParen_lpar, openParens_append, args.openParens_tokens, more.openParens_tokens]
termination_by structural g

theorem Primary.openParens_tokens (g : Primary) (opened : List Token) :
    openParens opened g.tokens = opened := by
  match g with
  | .literal t label h => exact openParen_literal h opened
  | .var name => exact openParen_terminal name (by decide) (by decide) opened
  | .call name opening adjacent args =>
    rw [Primary.tokens, openParens_cons, openParen_terminal name (by decide) (by decide),
      openParens_cons, openParen_lpar, args.openParens_tokens]
  | .paren opening inner closing =>
    rw [Primary.tokens, openParens_cons, openParen_lpar, openParens_append,
      inner.openParens_tokens, openParens_cons, openParen_rpar]
    rfl
termination_by structural g

/-- **Arguments close the parenthesis** in front of them. -/
theorem Args.openParens_tokens {inMethod : Bool} (g : Args inMethod) (t : Token)
    (opened : List Token) : openParens (t :: opened) g.tokens = opened := by
  match g with
  | .none closing =>
    rw [Args.tokens, openParens_cons, openParen_rpar]
    rfl
  | .some list => exact list.openParens_tokens t opened
termination_by structural g

theorem ArgList.openParens_tokens {inMethod : Bool} (g : ArgList inMethod) (t : Token)
    (opened : List Token) : openParens (t :: opened) g.tokens = opened := by
  match g with
  | .last argument closing =>
    rw [ArgList.tokens, openParens_append, argument.openParens_tokens, openParens_cons,
      openParen_rpar]
    rfl
  | .more argument comma list =>
    rw [ArgList.tokens, openParens_append, argument.openParens_tokens, openParens_cons,
      openParen_terminal comma (by decide) (by decide), list.openParens_tokens]
termination_by structural g

theorem Argument.openParens_tokens {inMethod : Bool} (g : Argument inMethod)
    (opened : List Token) : openParens opened g.tokens = opened := by
  match g with
  | .value c => exact c.openParens_tokens opened
  | .current t => exact openParen_terminal t (by decide) (by decide) opened
termination_by structural g

end

/-! ## Viable rows -/

/-- The kinds of token with which every row that has been passed can be completed. -/
def fillers : List TokenKind := [.ident, .lpar, .rpar]

/-- **The row can be completed** to the tokens of a derivation, by any tokens of certain kinds. -/
def Viable {γ : Type} (tokens : γ → List Token) (row : List Token) : Prop :=
  ∃ kinds, (∀ k ∈ kinds, k ∈ fillers) ∧
    ∀ more, more.map Token.kind = kinds → ∃ g, tokens g = row ++ more

variable {γ δ : Type} {tokens : γ → List Token} {tokens' : δ → List Token} {row : List Token}

/-- What a derivation reads is complete. -/
theorem viable_tokens (g : γ) : Viable tokens (tokens g) := by
  refine ⟨[], List.forall_mem_nil _, fun more hmore => ⟨g, ?_⟩⟩
  rw [List.map_eq_nil_iff.1 hmore, List.append_nil]

/-- **A viable part makes a viable whole**, with what stands before it and the kinds that are
wanting behind it. -/
theorem Viable.wrap (h : Viable tokens row) (before : List Token) (kinds : List TokenKind)
    (hkinds : ∀ k ∈ kinds, k ∈ fillers)
    (hwhole : ∀ g more, more.map Token.kind = kinds →
      ∃ g', tokens' g' = before ++ (tokens g ++ more)) : Viable tokens' (before ++ row) := by
  obtain ⟨kinds', hkinds', hcomplete⟩ := h
  refine ⟨kinds' ++ kinds, List.forall_mem_append.2 ⟨hkinds', hkinds⟩, fun more hmore => ?_⟩
  obtain ⟨part, rest, rfl, hpart, hrest⟩ := List.map_eq_append_iff.1 hmore
  obtain ⟨g, hg⟩ := hcomplete part hpart
  obtain ⟨g', hg'⟩ := hwhole g rest hrest
  exact ⟨g', by rw [hg', hg, List.append_assoc, List.append_assoc]⟩

/-- …where nothing is wanting behind the part. -/
theorem Viable.behind (h : Viable tokens row) (before : List Token)
    (hwhole : ∀ g, ∃ g', tokens' g' = before ++ tokens g) : Viable tokens' (before ++ row) := by
  refine h.wrap before [] (List.forall_mem_nil _) fun g more hmore => ?_
  rw [List.map_eq_nil_iff.1 hmore, List.append_nil]
  exact hwhole g

/-- …where a closing parenthesis is wanting behind the part. -/
theorem Viable.closed (h : Viable tokens row) (before : List Token)
    (hwhole : ∀ g (closing : Terminal .rpar),
      ∃ g', tokens' g' = before ++ (tokens g ++ [closing.token])) :
    Viable tokens' (before ++ row) := by
  refine h.wrap before [.rpar] (by decide) fun g more hmore => ?_
  obtain ⟨closing, rfl, hclosing⟩ := List.map_eq_singleton_iff.1 hmore
  exact hwhole g ⟨closing, hclosing⟩

end Grammar

namespace Descent

open Grammar Outcome

variable {src : Source} {c d : Cursor} {halt : Halt} {row opened : List Token}

/-! ## Whom a halt is blamed on -/

/-- **A halt is blamed** on the token at which reading stopped or, at the end, on a parenthesis that
was opened and behind which everything is closed. -/
inductive Blames (src : Source) (row : List Token) (halt : Halt) : Prop
  | current (culprit_eq : halt.culprit = halt.cursor.current src)
      (cause_ne : halt.cause ≠ .unclosedOpen)
  | opening {before inside : List Token} (row_eq : row = before ++ halt.culprit :: inside)
      (kind_eq : halt.culprit.kind = .lpar)
      (closed : ∀ opened, openParens opened inside = opened) (ahead_eq : halt.cursor.ahead = [])
      (cause_eq : halt.cause = .unclosedOpen)

theorem Blames.prepend (h : Blames src row halt) (before : List Token) :
    Blames src (before ++ row) halt := by
  cases h with
  | current culprit_eq cause_ne => exact .current culprit_eq cause_ne
  | @opening before' inside row_eq kind_eq closed ahead_eq cause_eq =>
    have hrow : before ++ row = before ++ before' ++ halt.culprit :: inside := by
      rw [row_eq, List.append_assoc]
    exact .opening hrow kind_eq closed ahead_eq cause_eq

/-- What is closed in itself may stand behind the first parenthesis. -/
theorem Blames.insert {opening : Token} (h : Blames src (opening :: row) halt)
    {inserted : List Token} (hinserted : ∀ opened, openParens opened inserted = opened) :
    Blames src (opening :: (inserted ++ row)) halt := by
  cases h with
  | current culprit_eq cause_ne => exact .current culprit_eq cause_ne
  | @opening before inside row_eq kind_eq closed ahead_eq cause_eq =>
    cases before with
    | nil =>
      obtain ⟨hculprit, rfl⟩ := List.cons.inj row_eq
      have hrow : opening :: (inserted ++ row) = [] ++ halt.culprit :: (inserted ++ row) := by
        rw [hculprit]
        rfl
      exact .opening hrow kind_eq (fun opened => by rw [openParens_append, hinserted, closed])
        ahead_eq cause_eq
    | cons t before =>
      obtain ⟨rfl, hrow⟩ := List.cons.inj row_eq
      have hinside : Blames src row halt := .opening hrow kind_eq closed ahead_eq cause_eq
      exact hinside.prepend (opening :: inserted)

/-- **Reading halts behind a viable row.**  The parentheses `opened` have been passed before. -/
def Stalls {γ : Type} (tokens : γ → List Token) (src : Source) (opened : List Token) (c : Cursor)
    (halt : Halt) : Prop :=
  ∃ row, c.ahead = row ++ halt.cursor.ahead ∧ Viable tokens row ∧ Blames src (opened ++ row) halt

section Stalls

variable {γ δ : Type} {tokens : γ → List Token} {tokens' : δ → List Token} {opened' : List Token}

/-- **A halt behind a part** is a halt behind the whole up to there. -/
theorem Stalls.wrap (h : Stalls tokens src opened d halt) (before : List Token)
    (hahead : c.ahead = before ++ d.ahead)
    (hblames : ∀ row, Blames src (opened ++ row) halt →
      Blames src (opened' ++ (before ++ row)) halt)
    (hviable : ∀ row, Viable tokens row → Viable tokens' (before ++ row)) :
    Stalls tokens' src opened' c halt := by
  obtain ⟨row, hrow, hpart, hrow'⟩ := h
  exact ⟨before ++ row, by rw [hahead, hrow, List.append_assoc], hviable row hpart,
    hblames row hrow'⟩

theorem Blames.behind {before : List Token} (hopened : ∃ more, opened' ++ before = more ++ opened)
    (row : List Token) (h : Blames src (opened ++ row) halt) :
    Blames src (opened' ++ (before ++ row)) halt := by
  obtain ⟨more, hmore⟩ := hopened
  rw [← List.append_assoc, hmore, List.append_assoc]
  exact h.prepend more

/-- Where nothing is wanting behind the part. -/
theorem Stalls.behind (h : Stalls tokens src opened d halt) (before : List Token)
    (hahead : c.ahead = before ++ d.ahead)
    (hopened : ∃ more, opened' ++ before = more ++ opened)
    (hwhole : ∀ g, ∃ g', tokens' g' = before ++ tokens g) : Stalls tokens' src opened' c halt :=
  h.wrap before hahead (Blames.behind hopened) fun _ hpart => hpart.behind before hwhole

/-- Where a closing parenthesis is wanting behind the part. -/
theorem Stalls.closed (h : Stalls tokens src opened d halt) (before : List Token)
    (hahead : c.ahead = before ++ d.ahead)
    (hopened : ∃ more, opened' ++ before = more ++ opened)
    (hwhole : ∀ g (closing : Terminal .rpar),
      ∃ g', tokens' g' = before ++ (tokens g ++ [closing.token])) :
    Stalls tokens' src opened' c halt :=
  h.wrap before hahead (Blames.behind hopened) fun _ hpart => hpart.closed before hwhole

theorem stalls_haltFor (row : List Token) {cause : Cause} (hahead : c.ahead = row ++ d.ahead)
    (hviable : Viable tokens row) (hcause : cause ≠ .unclosedOpen) :
    Stalls tokens src opened c (d.haltFor src cause) :=
  ⟨row, hahead, hviable, .current rfl hcause⟩

theorem stalls_unexpected (row : List Token) (hahead : c.ahead = row ++ d.ahead)
    (hviable : Viable tokens row) :
    Stalls tokens src opened c (d.unexpected src) := by
  refine stalls_haltFor row hahead hviable ?_
  unfold Cursor.whyUnexpected
  repeat' split
  all_goals nofun

/-- At the end the opening parenthesis is to blame, as everything behind it is closed. -/
theorem stalls_unclosed (before : List Token) {inside : List Token} {opening : Token}
    (hahead : c.ahead = row ++ d.ahead) (hviable : Viable tokens row)
    (hrow : opened ++ row = before ++ opening :: inside) (hkind : opening.kind = .lpar)
    (hclosed : ∀ opened, openParens opened inside = opened) :
    Stalls tokens src opened c (d.unclosed src opening) := by
  unfold Cursor.unclosed
  split
  · next hend => exact ⟨row, hahead, hviable,
      .opening hrow hkind hclosed (List.isEmpty_iff.1 hend) rfl⟩
  · exact stalls_unexpected row hahead hviable

/-- An expression can begin with a name. -/
theorem viable_nil : Viable Primary.tokens [] := by
  refine ⟨[.ident], by decide, fun more hmore => ?_⟩
  obtain ⟨name, rfl, hname⟩ := List.map_eq_singleton_iff.1 hmore
  exact ⟨.var ⟨name, hname⟩, rfl⟩

/-- A method call goes on with a name, if there is none yet, and can go on with empty
parentheses. -/
theorem viable_point (point : Terminal .dot) : Viable Calls.tokens [point.token] := by
  refine ⟨[.ident, .lpar, .rpar], by decide, fun more hmore => ?_⟩
  obtain ⟨name, more, rfl, hname, hmore⟩ := List.map_eq_cons_iff.1 hmore
  obtain ⟨opening, more, rfl, hopening, hmore⟩ := List.map_eq_cons_iff.1 hmore
  obtain ⟨closing, rfl, hclosing⟩ := List.map_eq_singleton_iff.1 hmore
  exact ⟨.call point ⟨name, hname⟩ ⟨opening, hopening⟩ (.none ⟨closing, hclosing⟩) .none, rfl⟩

theorem viable_point_name (point : Terminal .dot) (name : Terminal .ident) :
    Viable Calls.tokens [point.token, name.token] := by
  refine ⟨[.lpar, .rpar], by decide, fun more hmore => ?_⟩
  obtain ⟨opening, more, rfl, hopening, hmore⟩ := List.map_eq_cons_iff.1 hmore
  obtain ⟨closing, rfl, hclosing⟩ := List.map_eq_singleton_iff.1 hmore
  exact ⟨.call point name ⟨opening, hopening⟩ (.none ⟨closing, hclosing⟩) .none, rfl⟩

end Stalls

/-! ## The functions of the descent -/

mutual

theorem stalls_concat {c : Cursor} {halt : Halt} (h : pairs (concat src c) = .error halt) :
    Stalls Concat.tokens src [] c halt := by
  rw [pairs_concat, bind_eq_error] at h
  obtain hfirst | ⟨⟨first, c₁⟩, hfirst, hrest⟩ := h
  · exact (stalls_chain hfirst).behind [] rfl ⟨[], rfl⟩ fun g =>
      ⟨.mk g .none, List.append_nil _⟩
  · have := length_of_pairs hfirst
    obtain ⟨g, hg, -⟩ := exists_chain_of_ok hfirst
    exact (stalls_joined hrest).behind g.tokens hg ⟨g.tokens, (List.append_nil _).symm⟩ fun j =>
      ⟨.mk g j, rfl⟩
termination_by 6 * c.ahead.length + 2

theorem stalls_joined {start : Nat} {left : Tree} {c : Cursor} {halt : Halt}
    (h : pairs (concatRest src start left c) = .error halt) :
    Stalls Joined.tokens src [] c halt := by
  rw [pairs_concatRest] at h
  cases htilde : c.accept? .tilde with
  | none =>
    rw [htilde] at h
    exact absurd h.symm error_ne_ok
  | some taken =>
    obtain ⟨tilde, c₁⟩ := taken
    obtain ⟨hkind, hahead, -⟩ := Cursor.of_accept? htilde
    have := Cursor.length_of_accept? htilde
    simp only [htilde, bind_eq_error] at h
    obtain hright | ⟨⟨right, c₂⟩, hright, hrest⟩ := h
    · exact (stalls_chain hright).behind [tilde] hahead ⟨[tilde], rfl⟩ fun g =>
        ⟨.join ⟨tilde, hkind⟩ g .none, by simp [Joined.tokens]⟩
    · have := length_of_pairs hright
      obtain ⟨g, hg, -⟩ := exists_chain_of_ok hright
      exact (stalls_joined hrest).behind (tilde :: g.tokens) (by rw [hahead, hg]; rfl)
        ⟨tilde :: g.tokens, (List.append_nil _).symm⟩ fun j => ⟨.join ⟨tilde, hkind⟩ g j, rfl⟩
termination_by 6 * c.ahead.length + 2

theorem stalls_chain {c : Cursor} {halt : Halt} (h : pairs (chain src c) = .error halt) :
    Stalls Chain.tokens src [] c halt := by
  simp only [pairs_chain, bind_eq_error, map_eq_error] at h
  obtain hbase | ⟨⟨base, c₁⟩, hbase, hcalls⟩ := h
  · exact (stalls_primary hbase).behind [] rfl ⟨[], rfl⟩ fun g =>
      ⟨.mk g .none, List.append_nil _⟩
  · have := length_of_pairs hbase
    obtain ⟨g, hg, -⟩ := exists_primary_of_ok hbase
    exact (stalls_calls hcalls).behind g.tokens hg ⟨g.tokens, (List.append_nil _).symm⟩ fun j =>
      ⟨.mk g j, rfl⟩
termination_by 6 * c.ahead.length + 1

theorem stalls_calls {c : Cursor} {halt : Halt} (h : pairs (methods src c) = .error halt) :
    Stalls Calls.tokens src [] c halt := by
  rw [pairs_methods] at h
  cases hdot : c.accept? .dot with
  | none =>
    rw [hdot] at h
    exact absurd h.symm error_ne_ok
  | some taken =>
    obtain ⟨point, c₁⟩ := taken
    obtain ⟨hpoint, hahead, -⟩ := Cursor.of_accept? hdot
    have := Cursor.length_of_accept? hdot
    cases hident : c₁.accept? .ident with
    | none =>
      obtain rfl : c₁.haltFor src .methodNameExpected = halt := by simpa [hdot, hident] using h
      exact stalls_haltFor [point] hahead (viable_point ⟨point, hpoint⟩) nofun
    | some taken =>
      obtain ⟨name, c₂⟩ := taken
      obtain ⟨hname, hahead₁, -⟩ := Cursor.of_accept? hident
      have := Cursor.length_of_accept? hident
      cases hlpar : c₂.accept? .lpar with
      | none =>
        obtain rfl : c₂.haltFor src (.argumentsExpected name.text) = halt := by
          simpa [hdot, hident, hlpar] using h
        exact stalls_haltFor [point, name] (by rw [hahead, hahead₁]; rfl)
          (viable_point_name ⟨point, hpoint⟩ ⟨name, hname⟩) nofun
      | some taken =>
        obtain ⟨opening, c₃⟩ := taken
        obtain ⟨hopening, hahead₂, -⟩ := Cursor.of_accept? hlpar
        have := Cursor.length_of_accept? hlpar
        simp only [hdot, hident, hlpar, bind_eq_error, map_eq_error] at h
        have hahead₃ : c.ahead = [point, name, opening] ++ c₃.ahead := by
          rw [hahead, hahead₁, hahead₂]
          rfl
        obtain hargs | ⟨⟨list, c₄⟩, hargs, hmore⟩ := h
        · exact (stalls_args hopening hargs).behind [point, name, opening] hahead₃
            ⟨[point, name], rfl⟩ fun g => ⟨.call ⟨point, hpoint⟩ ⟨name, hname⟩ ⟨opening, hopening⟩ g
              .none, by simp [Calls.tokens]⟩
        · have := length_of_pairs hargs
          obtain ⟨g, hg, -⟩ := exists_args_of_ok hargs
          exact (stalls_calls hmore).behind (point :: name :: opening :: g.tokens)
            (by rw [hahead₃, hg]; rfl) ⟨_, (List.append_nil _).symm⟩ fun more =>
              ⟨.call ⟨point, hpoint⟩ ⟨name, hname⟩ ⟨opening, hopening⟩ g more, rfl⟩
termination_by 6 * c.ahead.length + 1

theorem stalls_primary {c : Cursor} {halt : Halt} (h : pairs (primary src c) = .error halt) :
    Stalls Primary.tokens src [] c halt := by
  cases hc : c.ahead with
  | nil =>
    rw [pairs_primary_nil src hc] at h
    exact Except.error.inj h ▸ stalls_unexpected [] rfl viable_nil
  | cons t ahead =>
    cases hl : literalLabel? t with
    | some label =>
      rw [pairs_primary_of_literal hc hl] at h
      exact absurd h.symm error_ne_ok
    | none =>
      rw [pairs_primary_cons src hc] at h
      cases hk : t.kind
      case ident =>
        simp only [hk] at h
        cases hopen : (Cursor.past t ahead).accept? .lpar with
        | none =>
          rw [hopen] at h
          exact absurd h.symm error_ne_ok
        | some taken =>
          obtain ⟨opening, c₁⟩ := taken
          obtain ⟨hopening, hahead, -⟩ := Cursor.of_accept? hopen
          have := Cursor.length_of_accept? hopen
          by_cases hadjacent : opening.start = t.stop
          · simp only [hopen, if_pos hadjacent, map_eq_error] at h
            refine (stalls_args hopening h).behind [t, opening] ?_ ⟨[t], rfl⟩ fun g =>
              ⟨.call ⟨t, hk⟩ ⟨opening, hopening⟩ hadjacent g, rfl⟩
            rw [hc]
            exact congrArg (t :: ·) hahead
          · simp only [hopen, if_neg hadjacent] at h
            exact absurd h.symm error_ne_ok
      case lpar =>
        simp only [hk, bind_eq_error] at h
        obtain hinner | ⟨⟨inner, c₁⟩, hinner, h⟩ := h
        · exact (stalls_concat hinner).closed [t] hc ⟨[t], rfl⟩ fun g closing =>
            ⟨.paren ⟨t, hk⟩ g closing, rfl⟩
        · obtain ⟨g, hg, -⟩ := exists_concat_of_ok hinner
          cases hclose : c₁.accept? .rpar with
          | none =>
            simp only [hclose, Except.error.injEq] at h
            subst h
            have hviable : Viable Primary.tokens ([t] ++ g.tokens) :=
              (viable_tokens g).closed [t] fun g closing => ⟨.paren ⟨t, hk⟩ g closing, rfl⟩
            refine stalls_unclosed [] ?_ hviable rfl hk fun opened =>
              g.openParens_tokens opened
            rw [hc]
            exact congrArg (t :: ·) hg
          | some taken =>
            rw [hclose] at h
            exact absurd h.symm error_ne_ok
      case number | string | trueWord | falseWord => simp [literalLabel?, hk] at hl
      case atSign =>
        simp only [hk, Except.error.injEq] at h
        subst h
        exact stalls_haltFor [] rfl viable_nil nofun
      all_goals
        simp only [hk, Except.error.injEq] at h
        subst h
        exact stalls_unexpected [] rfl viable_nil
termination_by 6 * c.ahead.length
decreasing_by all_goals (simp only [hc, List.length_cons, Cursor.ahead_past] at *; omega)

theorem stalls_args {inMethod : Bool} {opening : Token} (hopening : opening.kind = .lpar)
    {c : Cursor} {halt : Halt} (h : pairs (args src inMethod opening c) = .error halt) :
    Stalls (fun g : Args inMethod => g.tokens) src [opening] c halt := by
  rw [pairs_args] at h
  cases hclose : c.accept? .rpar with
  | some taken =>
    rw [hclose] at h
    exact absurd h.symm error_ne_ok
  | none =>
    simp only [hclose, map_eq_error] at h
    exact (stalls_argList hopening h).behind [] rfl ⟨[], rfl⟩ fun list => ⟨.some list, rfl⟩
termination_by 6 * c.ahead.length + 5

theorem stalls_argList {inMethod : Bool} {opening : Token} (hopening : opening.kind = .lpar)
    {c : Cursor} {halt : Halt} (h : pairs (argsRest src inMethod opening c) = .error halt) :
    Stalls (fun g : ArgList inMethod => g.tokens) src [opening] c halt := by
  rw [pairs_argsRest, bind_eq_error] at h
  obtain hfirst | ⟨⟨first, c₁⟩, hfirst, h⟩ := h
  · exact (stalls_argument hfirst).closed [] rfl ⟨[opening], rfl⟩ fun g closing =>
      ⟨.last g closing, rfl⟩
  · have := length_of_pairs hfirst
    obtain ⟨g, hg, -⟩ := exists_argument_of_ok hfirst
    cases hcomma : c₁.accept? .comma with
    | some taken =>
      obtain ⟨comma, c₂⟩ := taken
      obtain ⟨hkind, hahead, -⟩ := Cursor.of_accept? hcomma
      have := Cursor.length_of_accept? hcomma
      simp only [hcomma, map_eq_error] at h
      have hinserted (opened : List Token) : openParens opened (g.tokens ++ [comma]) = opened := by
        rw [openParens_append, g.openParens_tokens]
        exact openParen_terminal ⟨comma, hkind⟩ (by decide) (by decide) opened
      refine (stalls_argList hopening h).wrap (g.tokens ++ [comma]) ?_
        (fun row hrow => hrow.insert hinserted)
        fun row hrow => hrow.behind _ fun list => ⟨.more g ⟨comma, hkind⟩ list, ?_⟩
      · rw [hg, hahead, List.append_assoc, List.singleton_append]
      · simp [ArgList.tokens]
    | none =>
      cases hclose : c₁.accept? .rpar with
      | some taken =>
        simp only [hcomma, hclose] at h
        exact absurd h.symm error_ne_ok
      | none =>
        simp only [hcomma, hclose, Except.error.injEq] at h
        subst h
        have hviable : Viable (fun g : ArgList inMethod => g.tokens) ([] ++ g.tokens) :=
          (viable_tokens g).closed [] fun g closing => ⟨.last g closing, rfl⟩
        exact stalls_unclosed [] hg hviable rfl hopening fun opened => g.openParens_tokens opened
termination_by 6 * c.ahead.length + 4

theorem stalls_argument {inMethod : Bool} {c : Cursor} {halt : Halt}
    (h : pairs (argument src inMethod c) = .error halt) :
    Stalls (fun g : Argument inMethod => g.tokens) src [] c halt := by
  rw [pairs_argument] at h
  cases hat : (if inMethod then c.accept? .atSign else none) with
  | some taken =>
    rw [hat] at h
    exact absurd h.symm error_ne_ok
  | none =>
    rw [hat] at h
    exact (stalls_concat h).behind [] rfl ⟨[], rfl⟩ fun g => ⟨.value g, rfl⟩
termination_by 6 * c.ahead.length + 3

end

/-! ## Whole expressions -/

theorem stalls_compare (hend : src.ending.kind = .eof) (h : compare src c = .error halt) :
    Stalls (fun g : Whole true => g.tokens) src [] c halt := by
  rw [compare_eq, bind_eq_error] at h
  obtain hleft | ⟨⟨left, c₁⟩, hleft, h⟩ := h
  · exact (stalls_concat hleft).behind [] rfl ⟨[], rfl⟩ fun g => ⟨.value g, rfl⟩
  obtain ⟨l, hl, -⟩ := exists_concat_of_ok hleft
  by_cases hop : (c₁.kind src).isComparison = true
  · obtain ⟨row, hrow, hnext⟩ := exists_cons_of_isComparison hend hop
    simp only [hop, if_true, bind_eq_error] at h
    have hahead : c.ahead = (l.tokens ++ [c₁.current src]) ++ (c₁.next src).ahead := by
      simp only [hl, hrow, hnext, Cursor.ahead_past, List.append_assoc, List.singleton_append]
    obtain hright | ⟨⟨right, c₂⟩, hright, h⟩ := h
    · refine (stalls_concat hright).behind _ hahead ⟨_, (List.append_nil _).symm⟩ fun g =>
        ⟨.compare l _ hop g, ?_⟩
      simp only [Whole.tokens, List.append_assoc, List.singleton_append]
    · obtain ⟨r, hr, -⟩ := exists_concat_of_ok hright
      by_cases hchained : (c₂.kind src).isComparison = true
      · simp only [hchained, if_true, Except.error.injEq] at h
        subst h
        refine stalls_haltFor (Whole.compare l _ hop r).tokens ?_ (viable_tokens _) (by decide)
        rw [hahead, hr]
        simp only [Whole.tokens, List.append_assoc, List.cons_append, List.nil_append]
      · simp [hchained] at h
  · simp [hop] at h

/-- **Whole expressions** stall behind a viable row, and what they stall at is blamed. -/
theorem stalls_whole {allowCompare : Bool} (hend : src.ending.kind = .eof)
    (h : whole src allowCompare c = .error halt) :
    Stalls (fun g : Whole allowCompare => g.tokens) src [] c halt := by
  rw [whole_eq] at h
  by_cases hstart : c.kind src = .eof
  · rw [if_pos hstart, Except.error.injEq] at h
    subst h
    refine stalls_haltFor [] rfl (viable_nil.behind [] fun g =>
      ⟨.value (.mk (.mk g .none) .none), ?_⟩) nofun
    simp [Whole.tokens, Concat.tokens, Joined.tokens, Chain.tokens, Calls.tokens]
  rw [if_neg hstart, bind_eq_error] at h
  obtain hread | ⟨⟨u, c₁⟩, hread, h⟩ := h
  · cases allowCompare with
    | true => exact stalls_compare hend hread
    | false => exact (stalls_concat hread).behind [] rfl ⟨[], rfl⟩ fun g => ⟨.value g, rfl⟩
  · obtain ⟨g, hg, -⟩ := exists_whole_of_read hend hread
    by_cases hstop : c₁.kind src = .eof
    · simp [hstop] at h
    · rw [if_neg hstop, Except.error.injEq] at h
      exact h ▸ stalls_unexpected g.tokens hg (viable_tokens g)

end Descent

end ScenarioScript
