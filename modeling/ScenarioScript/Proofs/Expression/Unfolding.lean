import ScenarioScript.Expression.Descent

/-!
# Proofs/Expression/Unfolding — the descent, one function at a time

The functions of `Expression/Descent` answer with a bound on what is ahead, by which their recursion
ends.  Here each of them is unfolded once with the bound left out (`Descent.pairs`), as an equation
between plain results.  Nothing behind this module looks into their definitions again.
-/

namespace ScenarioScript

namespace Cursor

/-- The current token and the cursor behind it, if the token is of the given kind. -/
def accept? (c : Cursor) (kind : TokenKind) : Option (Token × Cursor) :=
  match c.ahead with
  | [] => none
  | t :: ahead => if t.kind = kind then some (t, past t ahead) else none

/-- **Taking a token**, without the bound. -/
theorem map_take? (c : Cursor) (kind : TokenKind) :
    (c.take? kind).map (fun taken => (taken.token, taken.cursor)) = c.accept? kind := by
  obtain ⟨ahead, lastStop⟩ := c
  cases ahead with
  | nil => rfl
  | cons t ahead => by_cases h : t.kind = kind <;> simp [take?, accept?, h]

theorem accept?_of_take?_none {c : Cursor} {kind : TokenKind} (h : c.take? kind = none) :
    c.accept? kind = none := by
  rw [← map_take?, h]
  rfl

theorem accept?_of_take?_some {c : Cursor} {kind : TokenKind} {taken : Taken c.ahead.length}
    (h : c.take? kind = some taken) : c.accept? kind = some (taken.token, taken.cursor) := by
  rw [← map_take?, h]
  rfl

/-- A token that was accepted is the first one ahead, and of the kind that was asked for. -/
theorem of_accept? {c d : Cursor} {kind : TokenKind} {t : Token}
    (h : c.accept? kind = some (t, d)) :
    t.kind = kind ∧ c.ahead = t :: d.ahead ∧ d.lastStop = t.stop := by
  obtain ⟨ahead, lastStop⟩ := c
  cases ahead with
  | nil => simp [accept?] at h
  | cons u ahead =>
    by_cases hk : u.kind = kind
    · obtain ⟨rfl, rfl⟩ : u = t ∧ past u ahead = d := by simpa [accept?, hk] using h
      exact ⟨hk, rfl, rfl⟩
    · simp [accept?, hk] at h

theorem length_of_accept? {c d : Cursor} {kind : TokenKind} {t : Token}
    (h : c.accept? kind = some (t, d)) : d.ahead.length < c.ahead.length := by
  rw [(of_accept? h).2.1]
  exact Nat.lt_succ_self _

end Cursor

namespace Descent

variable {α : Type} {bound : Nat}

@[simp] theorem pairs_error (halt : Halt) :
    pairs (.error halt : Except Halt (Read α bound)) = .error halt := rfl

@[simp] theorem pairs_ok (r : Read α bound) : pairs (.ok r) = .ok (r.value, r.cursor) := rfl

/-- **What was read leaves less ahead** than the bound. -/
theorem length_of_pairs {r : Except Halt (Read α bound)} {a : α} {c : Cursor}
    (h : pairs r = .ok (a, c)) : c.ahead.length < bound := by
  cases r with
  | error halt => simp at h
  | ok read =>
    obtain ⟨rfl, rfl⟩ : read.value = a ∧ read.cursor = c := by simpa using h
    exact read.shorter

/-! ## Concatenations -/

theorem pairs_concat (src : Source) (c : Cursor) :
    pairs (concat src c) = (pairs (chain src c)).bind fun first =>
      pairs (concatRest src (c.current src).start first.1 first.2) := by
  rw [concat]
  cases chain src c with
  | error halt => rfl
  | ok first =>
    simp only [pairs_ok, Except.bind]
    cases concatRest src (c.current src).start first.value first.cursor <;> rfl

theorem pairs_concatRest (src : Source) (start : Nat) (left : Tree) (c : Cursor) :
    pairs (concatRest src start left c) =
      match c.accept? .tilde with
      | none => .ok (left, c)
      | some (_, c) => (pairs (chain src c)).bind fun right =>
        pairs (concatRest src start (right.2.node src .concat [left, right.1] start) right.2) := by
  rw [concatRest]
  cases htake : c.take? .tilde with
  | none => rw [Cursor.accept?_of_take?_none htake]; rfl
  | some tilde =>
    simp only [Cursor.accept?_of_take?_some htake]
    cases chain src tilde.cursor with
    | error halt => rfl
    | ok right =>
      simp only [pairs_ok, Except.bind]
      cases concatRest src start _ right.cursor <;> rfl

/-! ## Chains -/

/-- The tree of a primary with the methods called on it. -/
def chained (src : Source) (start : Nat) (base : Tree) (calls : List Tree) (c : Cursor) : Tree :=
  if calls.isEmpty then base else c.node src .chain (base :: calls) start

theorem pairs_chain (src : Source) (c : Cursor) :
    pairs (chain src c) = (pairs (primary src c)).bind fun base =>
      (pairs (methods src base.2)).map fun calls =>
        (chained src (c.current src).start base.1 calls.1 calls.2, calls.2) := by
  rw [chain]
  cases primary src c with
  | error halt => rfl
  | ok base =>
    simp only [pairs_ok, Except.bind]
    cases methods src base.cursor <;> rfl

theorem pairs_methods (src : Source) (c : Cursor) :
    pairs (methods src c) =
      match c.accept? .dot with
      | none => .ok ([], c)
      | some (_, c) =>
        match c.accept? .ident with
        | none => .error (c.haltFor src .methodNameExpected)
        | some (name, c) =>
          match c.accept? .lpar with
          | none => .error (c.haltFor src (.argumentsExpected name.text))
          | some (opening, c) => (pairs (args src true opening c)).bind fun list =>
            (pairs (methods src list.2)).map fun more =>
              (list.2.node src .method [.leaf name, list.1] name.start :: more.1, more.2) := by
  rw [methods]
  cases hdot : c.take? .dot with
  | none => rw [Cursor.accept?_of_take?_none hdot]; rfl
  | some point =>
    simp only [Cursor.accept?_of_take?_some hdot]
    cases hname : point.cursor.take? .ident with
    | none => simp only [Cursor.accept?_of_take?_none hname, pairs_error]
    | some name =>
      simp only [Cursor.accept?_of_take?_some hname]
      cases hopen : name.cursor.take? .lpar with
      | none => simp only [Cursor.accept?_of_take?_none hopen, pairs_error]
      | some opening =>
        simp only [Cursor.accept?_of_take?_some hopen]
        cases args src true opening.token opening.cursor with
        | error halt => rfl
        | ok list =>
          simp only [pairs_ok, Except.bind]
          cases methods src list.cursor <;> rfl

/-! ## Primaries -/

theorem pairs_primary_nil (src : Source) {c : Cursor} (h : c.ahead = []) :
    pairs (primary src c) = .error (c.unexpected src) := by
  obtain ⟨row, lastStop⟩ := c
  subst h
  rw [primary]
  rfl

theorem pairs_primary_cons (src : Source) {c : Cursor} {t : Token} {ahead : List Token}
    (h : c.ahead = t :: ahead) :
    pairs (primary src c) =
      match t.kind with
      | .number => .ok (atom src .number t ahead, .past t ahead)
      | .string => .ok (atom src (stringLabel t) t ahead, .past t ahead)
      | .trueWord | .falseWord => .ok (atom src .bool t ahead, .past t ahead)
      | .ident =>
        match (Cursor.past t ahead).accept? .lpar with
        | none => .ok (atom src .var t ahead, .past t ahead)
        | some (opening, c) =>
          if opening.start = t.stop then
            (pairs (args src false opening c)).map fun list =>
              (list.2.node src .call [.leaf t, list.1] t.start, list.2)
          else .ok (atom src .var t ahead, .past t ahead)
      | .lpar => (pairs (concat src (.past t ahead))).bind fun inner =>
        match inner.2.accept? .rpar with
        | none => .error (inner.2.unclosed src t)
        | some (closing, c) => .ok (inner.1.withSpan (src.span t.start closing.stop), c)
      | .atSign => .error (c.haltFor src .strayCurrent)
      | _ => .error (c.unexpected src) := by
  obtain ⟨row, lastStop⟩ := c
  obtain rfl : row = t :: ahead := h
  rw [primary]
  dsimp only
  cases hk : t.kind
  case ident =>
    cases hopen : (Cursor.past t ahead).take? .lpar with
    | none => simp only [Cursor.accept?_of_take?_none hopen, pairs_ok]
    | some opening =>
      simp only [Cursor.accept?_of_take?_some hopen]
      by_cases hadj : opening.token.start = t.stop
      · simp only [if_pos hadj]
        cases args src false opening.token opening.cursor <;> rfl
      · simp only [if_neg hadj, pairs_ok]
  case lpar =>
    cases concat src (.past t ahead) with
    | error halt => rfl
    | ok inner =>
      simp only [pairs_ok, Except.bind]
      cases hclose : inner.cursor.take? .rpar with
      | none => simp only [Cursor.accept?_of_take?_none hclose, pairs_error]
      | some closing => simp only [Cursor.accept?_of_take?_some hclose, pairs_ok]
  all_goals rfl

/-! ## Arguments -/

theorem pairs_args (src : Source) (inMethod : Bool) (opening : Token) (c : Cursor) :
    pairs (args src inMethod opening c) =
      match c.accept? .rpar with
      | some (_, c) => .ok (c.node src .args [] opening.start, c)
      | none => (pairs (argsRest src inMethod opening c)).map fun list =>
        (list.2.node src .args list.1 opening.start, list.2) := by
  rw [args]
  cases hclose : c.take? .rpar with
  | some closing => simp only [Cursor.accept?_of_take?_some hclose, pairs_ok]
  | none =>
    simp only [Cursor.accept?_of_take?_none hclose]
    cases argsRest src inMethod opening c <;> rfl

theorem pairs_argsRest (src : Source) (inMethod : Bool) (opening : Token) (c : Cursor) :
    pairs (argsRest src inMethod opening c) = (pairs (argument src inMethod c)).bind fun first =>
      match first.2.accept? .comma with
      | some (_, c) => (pairs (argsRest src inMethod opening c)).map fun more =>
        (first.1 :: more.1, more.2)
      | none =>
        match first.2.accept? .rpar with
        | some (_, c) => .ok ([first.1], c)
        | none => .error (first.2.unclosed src opening) := by
  rw [argsRest]
  cases argument src inMethod c with
  | error halt => rfl
  | ok first =>
    simp only [pairs_ok, Except.bind]
    cases hcomma : first.cursor.take? .comma with
    | some comma =>
      simp only [Cursor.accept?_of_take?_some hcomma]
      cases argsRest src inMethod opening comma.cursor <;> rfl
    | none =>
      simp only [Cursor.accept?_of_take?_none hcomma]
      cases hclose : first.cursor.take? .rpar with
      | some closing => simp only [Cursor.accept?_of_take?_some hclose, pairs_ok]
      | none => simp only [Cursor.accept?_of_take?_none hclose, pairs_error]

theorem pairs_argument (src : Source) (inMethod : Bool) (c : Cursor) :
    pairs (argument src inMethod c) =
      match if inMethod then c.accept? .atSign else none with
      | some (t, c) => .ok (c.node src .current [.leaf t] t.start, c)
      | none => pairs (concat src c) := by
  rw [argument]
  cases inMethod with
  | false => rfl
  | true =>
    simp only [if_true]
    cases hat : c.take? .atSign with
    | some t => simp only [Cursor.accept?_of_take?_some hat, pairs_ok]
    | none => simp only [Cursor.accept?_of_take?_none hat]

/-! ## Whole expressions -/

theorem compare_eq (src : Source) (c : Cursor) :
    compare src c = (pairs (concat src c)).bind fun left =>
      if (left.2.kind src).isComparison then
        (pairs (concat src (left.2.next src))).bind fun right =>
          if (right.2.kind src).isComparison then
            .error (right.2.haltFor src .chainedComparison)
          else
            .ok (right.2.node src .compare [left.1, .leaf (left.2.current src), right.1]
              (c.current src).start, right.2)
      else .ok left := by
  rw [compare]
  cases concat src c with
  | error halt => rfl
  | ok left =>
    simp only [pairs_ok, Except.bind, bind]
    split
    · cases concat src (left.cursor.next src) <;> rfl
    · rfl

theorem whole_eq (src : Source) (allowCompare : Bool) (c : Cursor) :
    whole src allowCompare c =
      if c.kind src = .eof then .error (c.haltFor src .missingExpression)
      else (if allowCompare then compare src c else pairs (concat src c)).bind fun r =>
        if r.2.kind src = .eof then .ok r else .error (r.2.unexpected src) := by
  rw [whole]
  split
  · rfl
  · cases allowCompare <;> rfl

end Descent

end ScenarioScript
