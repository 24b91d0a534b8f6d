import ScenarioScript.Proofs.Expression.Derivation

/-!
# Proofs/Expression/Lookahead — the descent looks one token ahead

Where the descent stops, with an answer or with a halt, it has seen the tokens it passed and the
token it stopped at, and nothing behind that one: with other tokens there it would have stopped in
the same place (`LooksAhead`).

`LooksAhead` is closed under the ways in which the functions of the descent are put together
(`behind`, `bind`), so there is one short lemma to each function, in the shape of its
definition.

* `looksAhead_whole` — **whole expressions are read with one token of lookahead**;
* `tokens_ne_of_halt` — so a row of tokens at which reading halts has no continuation behind the
  token it halts at.
-/

namespace ScenarioScript

namespace Descent

open Grammar Outcome

variable {α β : Type} {src : Source} {f g : Cursor → Except Halt (α × Cursor)} {c d : Cursor}

/-! ## Functions of a cursor -/

/-- The cursor at which reading stops, with an answer or with a halt. -/
def stop : Except Halt (α × Cursor) → Cursor
  | .ok (_, d) => d
  | .error halt => halt.cursor

/-- The same outcome at another cursor. -/
def stopAt (d : Cursor) : Except Halt (α × Cursor) → Except Halt (α × Cursor)
  | .ok (a, _) => .ok (a, d)
  | .error halt => .error { halt with cursor := d }

/-- **The function looks one token ahead** at the cursor: it passes tokens, and if there is a token
at which it stops, what is behind that one makes no difference. -/
def LooksAhead (f : Cursor → Except Halt (α × Cursor)) (c : Cursor) : Prop :=
  ∃ passed, c.ahead = passed ++ (stop (f c)).ahead ∧ ∀ t behind other,
    (stop (f c)).ahead = t :: behind →
      f ⟨passed ++ t :: other, c.lastStop⟩ = stopAt ⟨t :: other, (stop (f c)).lastStop⟩ (f c)

/-- What passes no token and looks at none but the current one. -/
theorem LooksAhead.stay (hstop : stop (f c) = c)
    (h : ∀ t behind other, c.ahead = t :: behind →
      f ⟨t :: other, c.lastStop⟩ = stopAt ⟨t :: other, c.lastStop⟩ (f c)) : LooksAhead f c := by
  refine ⟨[], by rw [hstop]; rfl, fun t behind other hahead => ?_⟩
  rw [hstop] at hahead ⊢
  exact h t behind other hahead

theorem looksAhead_ok (a : α) (c : Cursor) : LooksAhead (fun d => .ok (a, d)) c :=
  .stay rfl fun _ _ _ _ => rfl

theorem looksAhead_haltFor (src : Source) (cause : Cause) (c : Cursor) :
    LooksAhead (fun d => (.error (d.haltFor src cause) : Except Halt (α × Cursor))) c := by
  refine .stay rfl fun t behind other hahead => ?_
  simp only [stopAt, Cursor.haltFor, Cursor.current, hahead]
  rfl

theorem looksAhead_unexpected (src : Source) (c : Cursor) :
    LooksAhead (fun d => (.error (d.unexpected src) : Except Halt (α × Cursor))) c := by
  refine .stay rfl fun t behind other hahead => ?_
  simp only [stopAt, Cursor.unexpected, Cursor.haltFor, Cursor.current, hahead]
  rfl

/-- At the end an opening parenthesis is blamed, but then there is nothing ahead. -/
theorem looksAhead_unclosed (src : Source) (opening : Token) (c : Cursor) :
    LooksAhead (fun d => (.error (d.unclosed src opening) : Except Halt (α × Cursor))) c := by
  refine .stay ?_ fun t behind other hahead => ?_
  · simp only [stop, Cursor.unclosed]
    split <;> rfl
  · simp only [stopAt, Cursor.unclosed, Cursor.atEnd, Cursor.unexpected, Cursor.haltFor,
      Cursor.current, hahead]
    rfl

/-- **What passes tokens and goes on as another function** looks ahead if that one does.  Which
function it is may depend on the token behind the passed ones. -/
theorem LooksAhead.behind (hg : LooksAhead g d) (passed : List Token)
    (hahead : c.ahead = passed ++ d.ahead)
    (h : ∀ row, row.head? = d.ahead.head? → f ⟨passed ++ row, c.lastStop⟩ = g ⟨row, d.lastStop⟩) :
    LooksAhead f c := by
  obtain ⟨row, before⟩ := c
  obtain rfl : row = passed ++ d.ahead := hahead
  obtain ⟨passed', happend, hsame⟩ := hg
  rw [LooksAhead, h d.ahead rfl]
  refine ⟨passed ++ passed', ?_, fun t behind other hstop => ?_⟩
  · rw [List.append_assoc]
    exact congrArg (passed ++ ·) happend
  · have hhead : (passed' ++ t :: other).head? = d.ahead.head? := by
      rw [happend, hstop]
      cases passed' <;> rfl
    rw [List.append_assoc, h _ hhead]
    exact hsame t behind other hstop

/-- **What goes on as another function** at once. -/
theorem LooksAhead.congr (hg : LooksAhead g c)
    (h : ∀ row, row.head? = c.ahead.head? → f ⟨row, c.lastStop⟩ = g ⟨row, c.lastStop⟩) :
    LooksAhead f c :=
  hg.behind [] rfl h

/-- **One after the other** they look ahead: where the first stops at the end, so does the second,
and otherwise the token at which the first stops has been looked at by the second. -/
theorem LooksAhead.bind {g : Cursor → Except Halt (β × Cursor)}
    {k : β × Cursor → Except Halt (α × Cursor)} (hg : LooksAhead g c)
    (hk : ∀ b d, g c = .ok (b, d) → LooksAhead (fun d => k (b, d)) d) :
    LooksAhead (fun d => (g d).bind k) c := by
  obtain ⟨passed, happend, hsame⟩ := hg
  cases hgc : g c with
  | error halt =>
    simp only [hgc, stop] at happend hsame
    simp only [LooksAhead, hgc, Except.bind, stop]
    refine ⟨passed, happend, fun t behind other hahead => ?_⟩
    rw [hsame t behind other hahead]
    rfl
  | ok read =>
    obtain ⟨b, d⟩ := read
    simp only [hgc, stop] at happend hsame
    obtain ⟨passed', happend', hsame'⟩ := hk b d hgc
    simp only [LooksAhead, hgc, Except.bind]
    refine ⟨passed ++ passed', by rw [happend, happend', List.append_assoc], ?_⟩
    intro t behind other hahead
    obtain ⟨u, more, more', hmore, hmore'⟩ : ∃ u more more',
        passed' ++ t :: behind = u :: more ∧ passed' ++ t :: other = u :: more' := by
      cases passed' with
      | nil => exact ⟨t, behind, other, rfl, rfl⟩
      | cons u passed' => exact ⟨u, _, _, rfl, rfl⟩
    have hfirst := hsame u more more' (by rw [happend', hahead, hmore])
    rw [List.append_assoc, hmore', hfirst]
    simp only [stopAt]
    rw [← hmore']
    exact hsame' t behind other hahead

/-- A value that is made of what was read and the place reached. -/
theorem looksAhead_value {h : Cursor → α} (hh : ∀ row, h ⟨row, c.lastStop⟩ = h c) :
    LooksAhead (fun d => .ok (h d, d)) c :=
  (looksAhead_ok (h c) c).congr fun row _ => by rw [hh row]

theorem LooksAhead.map {g : Cursor → Except Halt (β × Cursor)} {h : β → Cursor → α}
    (hg : LooksAhead g c) (hh : ∀ b row row' before, h b ⟨row, before⟩ = h b ⟨row', before⟩) :
    LooksAhead (fun d => (g d).map fun r => (h r.1 r.2, r.2)) c := by
  have hbind : LooksAhead (fun d => (g d).bind fun r => .ok (h r.1 r.2, r.2)) c :=
    hg.bind fun b d _ => looksAhead_value fun row => hh b row d.ahead d.lastStop
  refine hbind.congr fun row _ => ?_
  cases g ⟨row, c.lastStop⟩ <;> rfl

/-! ## Looking at the current token -/

theorem accept?_eq_none_of_head? {kind : TokenKind} {row : List Token}
    (h : row.head? = c.ahead.head?) (before : Nat) (hc : c.accept? kind = none) :
    Cursor.accept? ⟨row, before⟩ kind = none := by
  obtain ⟨ahead, lastStop⟩ := c
  cases row <;> cases ahead <;> simp_all [Cursor.accept?]

theorem exists_past_of_accept? {kind : TokenKind} {t : Token} (h : c.accept? kind = some (t, d)) :
    t.kind = kind ∧ ∃ ahead, c.ahead = t :: ahead ∧ d = .past t ahead := by
  obtain ⟨hkind, hahead, hstop⟩ := Cursor.of_accept? h
  exact ⟨hkind, d.ahead, hahead, by rw [Cursor.past, ← hstop]⟩

theorem accept?_cons {kind : TokenKind} {t : Token} (h : t.kind = kind) (row : List Token)
    (before : Nat) : Cursor.accept? ⟨t :: row, before⟩ kind = some (t, .past t row) :=
  if_pos h

theorem current_of_head? {row : List Token} (h : row.head? = c.ahead.head?) (before : Nat)
    (src : Source) : Cursor.current ⟨row, before⟩ src = c.current src := by
  rw [Cursor.current, Cursor.current, h]

theorem length_lt_of_cons {t : Token} {ahead : List Token} (h : c.ahead = t :: ahead) :
    ahead.length < c.ahead.length := by
  rw [h]
  exact Nat.lt_succ_self _

/-! ## The functions of the descent -/

mutual

theorem looksAhead_concat (c : Cursor) : LooksAhead (fun d => pairs (concat src d)) c := by
  refine ((looksAhead_chain c).bind fun first d hfirst => ?_).congr fun row hrow => by
    rw [pairs_concat, current_of_head? hrow]
  have := length_of_pairs hfirst
  exact looksAhead_concatRest _ first d
termination_by 6 * c.ahead.length + 2

theorem looksAhead_concatRest (start : Nat) (left : Tree) (c : Cursor) :
    LooksAhead (fun d => pairs (concatRest src start left d)) c := by
  cases htilde : c.accept? .tilde with
  | none =>
    refine (looksAhead_ok left c).congr fun row hrow => ?_
    rw [pairs_concatRest, accept?_eq_none_of_head? hrow _ htilde]
  | some taken =>
    obtain ⟨tilde, c₁⟩ := taken
    obtain ⟨hkind, ahead, hahead, rfl⟩ := exists_past_of_accept? htilde
    have := length_lt_of_cons hahead
    refine ((looksAhead_chain (.past tilde ahead)).bind (k := fun right => pairs
      (concatRest src start (right.2.node src .concat [left, right.1] start) right.2))
      fun right d hright => ?_).behind [tilde] hahead fun row _ => ?_
    · have : d.ahead.length < ahead.length := length_of_pairs hright
      exact (looksAhead_concatRest start (d.node src .concat [left, right] start) d).congr
        fun _ _ => rfl
    · rw [pairs_concatRest, List.singleton_append, accept?_cons hkind]
      rfl
termination_by 6 * c.ahead.length + 2

theorem looksAhead_chain (c : Cursor) : LooksAhead (fun d => pairs (chain src d)) c := by
  refine ((looksAhead_primary c).bind fun base d hbase => ?_).congr fun row hrow => by
    rw [pairs_chain, current_of_head? hrow]
  have := length_of_pairs hbase
  exact (looksAhead_methods d).map
    (h := fun calls e => chained src (c.current src).start base calls e) fun _ _ _ _ => rfl
termination_by 6 * c.ahead.length + 1

theorem looksAhead_methods (c : Cursor) : LooksAhead (fun d => pairs (methods src d)) c := by
  cases hdot : c.accept? .dot with
  | none =>
    refine (looksAhead_ok [] c).congr fun row hrow => ?_
    rw [pairs_methods, accept?_eq_none_of_head? hrow _ hdot]
  | some taken =>
    obtain ⟨point, c₁⟩ := taken
    obtain ⟨hpoint, ahead, hahead, rfl⟩ := exists_past_of_accept? hdot
    have := length_lt_of_cons hahead
    cases hident : (Cursor.past point ahead).accept? .ident with
    | none =>
      refine (looksAhead_haltFor src .methodNameExpected (.past point ahead)).behind [point] hahead
        fun row hrow => ?_
      rw [pairs_methods, List.singleton_append, accept?_cons hpoint]
      simp only [Cursor.past, accept?_eq_none_of_head? hrow _ hident]
    | some taken =>
      obtain ⟨name, c₂⟩ := taken
      obtain ⟨hname, ahead, rfl, rfl⟩ := exists_past_of_accept? hident
      cases hlpar : (Cursor.past name ahead).accept? .lpar with
      | none =>
        refine (looksAhead_haltFor src (.argumentsExpected name.text) (.past name ahead)).behind
          [point, name] hahead fun row hrow => ?_
        rw [pairs_methods]
        simp only [List.cons_append, List.nil_append, accept?_cons hpoint, Cursor.past,
          accept?_cons hname, accept?_eq_none_of_head? hrow _ hlpar]
      | some taken =>
        obtain ⟨opening, c₃⟩ := taken
        obtain ⟨hopening, ahead, rfl, rfl⟩ := exists_past_of_accept? hlpar
        have : ahead.length + 2 < c.ahead.length := this
        refine ((looksAhead_args true opening (.past opening ahead)).bind (k := fun list =>
          (pairs (methods src list.2)).map fun more =>
            (list.2.node src .method [.leaf name, list.1] name.start :: more.1, more.2))
          fun list d hlist => ?_).behind [point, name, opening] hahead fun row _ => ?_
        · have : d.ahead.length < ahead.length := length_of_pairs hlist
          exact ((looksAhead_methods d).map
            (h := fun more _ => d.node src .method [.leaf name, list] name.start :: more)
            fun _ _ _ _ => rfl).congr fun _ _ => rfl
        · rw [pairs_methods]
          simp only [List.cons_append, List.nil_append, accept?_cons hpoint, Cursor.past,
            accept?_cons hname, accept?_cons hopening]
termination_by 6 * c.ahead.length + 1

theorem looksAhead_primary (c : Cursor) : LooksAhead (fun d => pairs (primary src d)) c := by
  cases hahead : c.ahead with
  | nil =>
    refine (looksAhead_unexpected src c).congr fun row hrow => ?_
    obtain rfl : row = [] := by simpa [hahead] using hrow
    exact pairs_primary_nil src rfl
  | cons t ahead =>
    have := length_lt_of_cons hahead
    have hcons : ∀ row before, Cursor.ahead ⟨t :: row, before⟩ = t :: row := fun _ _ => rfl
    have hhead {row : List Token} (h : row.head? = c.ahead.head?) : ∃ more, row = t :: more :=
      List.head?_eq_some_iff.1 (h.trans (congrArg List.head? hahead))
    have hatom (label : Label) : LooksAhead
        (fun d => .ok (d.node src label [.leaf t] t.start, d)) (.past t ahead) :=
      looksAhead_value fun _ => rfl
    cases hl : literalLabel? t with
    | some label =>
      exact (hatom label).behind [t] hahead fun row _ => pairs_primary_of_literal (hcons row _) hl
    | none =>
      cases hk : t.kind
      case ident =>
        cases hopen : (Cursor.past t ahead).accept? .lpar with
        | none =>
          refine (hatom .var).behind [t] hahead fun row hrow => ?_
          rw [List.singleton_append, pairs_primary_cons src (hcons row _)]
          simp only [hk, Cursor.past, accept?_eq_none_of_head? hrow _ hopen]
          rfl
        | some taken =>
          obtain ⟨opening, c₁⟩ := taken
          obtain ⟨hopening, ahead, rfl, rfl⟩ := exists_past_of_accept? hopen
          have : ahead.length + 1 < c.ahead.length := this
          by_cases hadjacent : opening.start = t.stop
          · refine ((looksAhead_args false opening (.past opening ahead)).map (h := fun list e =>
              e.node src .call [.leaf t, list] t.start) fun _ _ _ _ => rfl).behind [t, opening]
              hahead fun row _ => ?_
            rw [List.cons_append, List.singleton_append,
              pairs_primary_cons src (hcons (opening :: row) _)]
            simp only [hk, Cursor.past, accept?_cons hopening, if_pos hadjacent]
          · refine (hatom .var).behind [t] hahead fun row hrow => ?_
            obtain ⟨more, rfl⟩ : ∃ more, row = opening :: more := List.head?_eq_some_iff.1 hrow
            rw [List.singleton_append, pairs_primary_cons src (hcons (opening :: more) _)]
            simp only [hk, Cursor.past, accept?_cons hopening, if_neg hadjacent]
            rfl
      case lpar =>
        refine ((looksAhead_concat (.past t ahead)).bind (k := fun inner =>
          match inner.2.accept? .rpar with
          | none => .error (inner.2.unclosed src t)
          | some (closing, c) => .ok (inner.1.withSpan (src.span t.start closing.stop), c))
          fun inner d _ => ?_).behind [t] hahead fun row _ => ?_
        · cases hclose : d.accept? .rpar with
          | none =>
            refine (looksAhead_unclosed src t d).congr fun row hrow => ?_
            simp only [accept?_eq_none_of_head? hrow _ hclose]
          | some taken =>
            obtain ⟨closing, d₁⟩ := taken
            obtain ⟨hclosing, ahead, hahead, rfl⟩ := exists_past_of_accept? hclose
            refine (looksAhead_ok (inner.withSpan (src.span t.start closing.stop))
              (.past closing ahead)).behind [closing] hahead fun row _ => ?_
            simp only [List.singleton_append, accept?_cons hclosing]
            rfl
        · rw [List.singleton_append, pairs_primary_cons src (hcons row _)]
          simp only [hk]
          rfl
      case atSign =>
        refine (looksAhead_haltFor src .strayCurrent c).congr fun row hrow => ?_
        obtain ⟨more, rfl⟩ := hhead hrow
        rw [pairs_primary_cons src (hcons more _)]
        simp only [hk]
      case number | string | trueWord | falseWord => simp [literalLabel?, hk] at hl
      all_goals
        refine (looksAhead_unexpected src c).congr fun row hrow => ?_
        obtain ⟨more, rfl⟩ := hhead hrow
        rw [pairs_primary_cons src (hcons more _)]
        simp only [hk]
termination_by 6 * c.ahead.length

theorem looksAhead_args (inMethod : Bool) (opening : Token) (c : Cursor) :
    LooksAhead (fun d => pairs (args src inMethod opening d)) c := by
  cases hclose : c.accept? .rpar with
  | some taken =>
    obtain ⟨closing, c₁⟩ := taken
    obtain ⟨hclosing, ahead, hahead, rfl⟩ := exists_past_of_accept? hclose
    have hnone : LooksAhead (fun d => .ok (d.node src .args [] opening.start, d))
        (.past closing ahead) := looksAhead_value fun _ => rfl
    refine hnone.behind [closing] hahead fun row _ => ?_
    rw [pairs_args, List.singleton_append, accept?_cons hclosing]
    rfl
  | none =>
    refine ((looksAhead_argsRest inMethod opening c).map (h := fun list e =>
      e.node src .args list opening.start) fun _ _ _ _ => rfl).congr fun row hrow => ?_
    rw [pairs_args, accept?_eq_none_of_head? hrow _ hclose]
termination_by 6 * c.ahead.length + 5

theorem looksAhead_argsRest (inMethod : Bool) (opening : Token) (c : Cursor) :
    LooksAhead (fun d => pairs (argsRest src inMethod opening d)) c := by
  refine ((looksAhead_argument inMethod c).bind fun first d hfirst => ?_).congr fun row _ => by
    rw [pairs_argsRest]
  have := length_of_pairs hfirst
  cases hcomma : d.accept? .comma with
  | some taken =>
    obtain ⟨comma, d₁⟩ := taken
    obtain ⟨hkind, ahead, hahead, rfl⟩ := exists_past_of_accept? hcomma
    have := length_lt_of_cons hahead
    refine ((looksAhead_argsRest inMethod opening (.past comma ahead)).map (h := fun more _ =>
      first :: more) fun _ _ _ _ => rfl).behind [comma] hahead fun row _ => ?_
    simp only [List.singleton_append, accept?_cons hkind]
    rfl
  | none =>
    cases hclose : d.accept? .rpar with
    | some taken =>
      obtain ⟨closing, d₁⟩ := taken
      obtain ⟨hkind, ahead, hahead, rfl⟩ := exists_past_of_accept? hclose
      refine (looksAhead_ok [first] (.past closing ahead)).behind [closing] hahead fun row _ => ?_
      have hcomma' : Cursor.accept? ⟨closing :: row, d.lastStop⟩ .comma = none :=
        accept?_eq_none_of_head? (by rw [hahead]; rfl) _ hcomma
      simp only [List.singleton_append, hcomma', accept?_cons hkind]
      rfl
    | none =>
      refine (looksAhead_unclosed src opening d).congr fun row hrow => ?_
      simp only [accept?_eq_none_of_head? hrow _ hcomma, accept?_eq_none_of_head? hrow _ hclose]
termination_by 6 * c.ahead.length + 4

theorem looksAhead_argument (inMethod : Bool) (c : Cursor) :
    LooksAhead (fun d => pairs (argument src inMethod d)) c := by
  cases hat : (if inMethod then c.accept? .atSign else none) with
  | none =>
    refine (looksAhead_concat c).congr fun row hrow => ?_
    rw [pairs_argument]
    cases inMethod with
    | false => rfl
    | true => simp only [if_true, accept?_eq_none_of_head? hrow _ hat]
  | some taken =>
    obtain ⟨current, c₁⟩ := taken
    cases inMethod with
    | false => simp at hat
    | true =>
      obtain ⟨hkind, ahead, hahead, rfl⟩ := exists_past_of_accept? hat
      have hcurrent : LooksAhead
          (fun d => .ok (d.node src .current [.leaf current] current.start, d))
          (.past current ahead) := looksAhead_value fun _ => rfl
      refine hcurrent.behind [current] hahead fun row _ => ?_
      rw [pairs_argument, List.singleton_append, accept?_cons hkind]
      rfl
termination_by 6 * c.ahead.length + 3

end

theorem kind_of_head? {row : List Token} (h : row.head? = c.ahead.head?) (before : Nat)
    (src : Source) : Cursor.kind ⟨row, before⟩ src = c.kind src :=
  congrArg Token.kind (current_of_head? h before src)

theorem looksAhead_compare (hend : src.ending.kind = .eof) (c : Cursor) :
    LooksAhead (fun d => compare src d) c := by
  refine ((looksAhead_concat c).bind fun left d _ => ?_).congr fun row hrow => by
    rw [compare_eq, current_of_head? hrow]
  by_cases hop : (d.kind src).isComparison = true
  · obtain ⟨row, hahead, hnext⟩ := exists_cons_of_isComparison hend hop
    have hright : LooksAhead (fun d => pairs (concat src d)) (d.next src) := looksAhead_concat _
    refine (hright.bind (k := fun right =>
      if (right.2.kind src).isComparison then .error (right.2.haltFor src .chainedComparison)
      else .ok (right.2.node src .compare [left, .leaf (d.current src), right.1]
        (c.current src).start, right.2)) fun right e _ => ?_).behind [d.current src]
      (by rw [hahead, hnext]; rfl) fun row' _ => ?_
    · by_cases hchained : (e.kind src).isComparison = true
      · refine (looksAhead_haltFor src .chainedComparison e).congr fun row hrow => ?_
        rw [kind_of_head? hrow, if_pos hchained]
      · refine (looksAhead_value (h := fun e => e.node src .compare
          [left, .leaf (d.current src), right] (c.current src).start) fun _ => rfl).congr
          fun row hrow => ?_
        rw [kind_of_head? hrow, if_neg hchained]
    · have hhead : (d.current src :: row').head? = d.ahead.head? := by rw [hahead]; rfl
      simp only [List.singleton_append, kind_of_head? hhead, if_pos hop, current_of_head? hhead]
      rw [hnext]
      rfl
  · refine (looksAhead_ok left d).congr fun row hrow => ?_
    simp only [kind_of_head? hrow, if_neg hop]

/-- **A whole expression** is read with one token of lookahead. -/
theorem looksAhead_whole (allowCompare : Bool) (hend : src.ending.kind = .eof) (c : Cursor) :
    LooksAhead (fun d => whole src allowCompare d) c := by
  by_cases hempty : c.kind src = .eof
  · refine (looksAhead_haltFor src .missingExpression c).congr fun row hrow => ?_
    rw [whole_eq, kind_of_head? hrow, if_pos hempty]
  · have hread : LooksAhead (fun d => if allowCompare then compare src d else pairs (concat src d))
        c := by
      cases allowCompare with
      | true => exact looksAhead_compare hend c
      | false => exact looksAhead_concat c
    refine (hread.bind fun tree d _ => ?_).congr fun row hrow => by
      rw [whole_eq, kind_of_head? hrow, if_neg hempty]
    by_cases hstop : d.kind src = .eof
    · refine (looksAhead_ok tree d).congr fun row hrow => ?_
      simp only [kind_of_head? hrow, if_pos hstop]
    · refine (looksAhead_unexpected src d).congr fun row hrow => ?_
      simp only [kind_of_head? hrow, if_neg hstop]

/-- **A row at which reading halts has no continuation** behind the token it halts at: reading the
continued row would halt there too, and a derivation is read to its end. -/
theorem tokens_ne_of_halt {allowCompare : Bool} {halt : Halt} {passed behind : List Token}
    {t : Token} {before : Nat} (hend : src.ending.kind = .eof)
    (h : whole src allowCompare ⟨passed ++ t :: behind, before⟩ = .error halt)
    (hhalt : halt.cursor.ahead = t :: behind) {other : List Token}
    (hother : Endless (passed ++ t :: other)) (g : Whole allowCompare) :
    g.tokens ≠ passed ++ t :: other := by
  intro hg
  obtain ⟨passed', happend, hsame⟩ :=
    looksAhead_whole allowCompare hend ⟨passed ++ t :: behind, before⟩
  simp only [h, stop] at happend hsame
  obtain rfl : passed = passed' := by
    rw [hhalt] at happend
    exact List.append_cancel_right happend
  have hread := whole_complete g before hend (hg ▸ hother)
  rw [hg, hsame t behind other hhalt] at hread
  exact absurd hread error_ne_ok

end Descent

end ScenarioScript
