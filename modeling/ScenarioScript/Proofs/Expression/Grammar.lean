import ScenarioScript.Expression.Tree

/-!
# Proofs/Expression/Grammar — the grammar of expressions

A **derivation** is one way to read a row of tokens as an expression.  It is kept as a tree of its
own: one type for each syntactic category, one constructor for each production, and at the leaves
the tokens, each with the proof that it is of the kind the production asks for.

* `tokens` — the row of tokens that a derivation reads;
* `shape` — the syntax tree it stands for, without the spans;
* `Whole.eq_of_tokens` — **no row of tokens has two derivations**.

Nothing here mentions how an expression is read; that is `Proofs/Expression/Derivation`.
-/

namespace ScenarioScript

/-! ## Trees without spans -/

/-- A syntax tree without the spans that its nodes were read from. -/
inductive Shape where
  | leaf (token : Token)
  | node (label : Label) (children : List Shape)

namespace Tree

mutual

/-- **The shape of a tree**: its labels and tokens. -/
def shape : Tree → Shape
  | leaf token => .leaf token
  | node label _ children => .node label (shapes children)

/-- The shapes of a row of trees. -/
def shapes : List Tree → List Shape
  | [] => []
  | t :: ts => shape t :: shapes ts

end

theorem shapes_eq_map (ts : List Tree) : shapes ts = ts.map shape := by
  induction ts with
  | nil => rfl
  | cons t ts ih => rw [shapes, ih, List.map_cons]

/-- A span is no part of the shape, so parentheses leave it as it is. -/
@[simp] theorem shape_withSpan (t : Tree) (span : Span) : (t.withSpan span).shape = t.shape := by
  cases t <;> rfl

end Tree

namespace Grammar

/-! ## Productions -/

/-- A token of a given kind. -/
structure Terminal (kind : TokenKind) where
  token : Token
  /-- **The token is of the kind.** -/
  kind_eq : token.kind = kind

@[ext] theorem Terminal.ext {kind : TokenKind} {s t : Terminal kind} (h : s.token = t.token) :
    s = t := by
  cases s
  cases t
  exact (Terminal.mk.injEq ..).mpr h

/-- **The literals**: tokens that are expressions by themselves, and the label each is given.  A
string is the mode `'auto'` exactly if it is spelled so. -/
def literalLabel? (t : Token) : Option Label :=
  match t.kind with
  | .number => some .number
  | .string => some (if t.text = "'auto'" then .auto else .string)
  | .trueWord | .falseWord => some .bool
  | _ => none

mutual

/-- `concat ::= chain ('~' chain)*` -/
inductive Concat where
  | mk (first : Chain) (joined : Joined)

/-- `('~' chain)*` -/
inductive Joined where
  | none
  | join (tilde : Terminal .tilde) (right : Chain) (more : Joined)

/-- `chain ::= primary calls` -/
inductive Chain where
  | mk (base : Primary) (calls : Calls)

/-- `calls ::= ('.' IDENT '(' args)*`, with the current value among the arguments. -/
inductive Calls where
  | none
  | call (point : Terminal .dot) (name : Terminal .ident) (opening : Terminal .lpar)
      (args : Args true) (more : Calls)

/-- `primary ::= literal | IDENT | IDENT '(' args | '(' concat ')'`, where the parenthesis of a
call starts at the offset at which the name stops. -/
inductive Primary where
  | literal (t : Token) (label : Label) (h : literalLabel? t = some label)
  | var (name : Terminal .ident)
  | call (name : Terminal .ident) (opening : Terminal .lpar)
      (adjacent : opening.token.start = name.token.stop) (args : Args false)
  | paren (opening : Terminal .lpar) (inner : Concat) (closing : Terminal .rpar)

/-- `args ::= ')' | list` -/
inductive Args : Bool → Type where
  | none {inMethod : Bool} (closing : Terminal .rpar) : Args inMethod
  | some {inMethod : Bool} (list : ArgList inMethod) : Args inMethod

/-- `list ::= argument ')' | argument ',' list` -/
inductive ArgList : Bool → Type where
  | last {inMethod : Bool} (argument : Argument inMethod) (closing : Terminal .rpar) :
      ArgList inMethod
  | more {inMethod : Bool} (argument : Argument inMethod) (comma : Terminal .comma)
      (list : ArgList inMethod) : ArgList inMethod

/-- `argument ::= concat`, and in a method also `'@'`. -/
inductive Argument : Bool → Type where
  | value {inMethod : Bool} (c : Concat) : Argument inMethod
  | current (t : Terminal .atSign) : Argument true

end

/-- `whole ::= concat`, and where it is allowed also `concat OP concat` with a comparison. -/
inductive Whole : Bool → Type where
  | value {allowCompare : Bool} (c : Concat) : Whole allowCompare
  | compare (left : Concat) (op : Token) (h : op.kind.isComparison = true) (right : Concat) :
      Whole true

/-! ## What a derivation reads -/

mutual

/-- The tokens of a concatenation. -/
def Concat.tokens : Concat → List Token
  | .mk first joined => first.tokens ++ joined.tokens

/-- The tokens of what is joined to a chain. -/
def Joined.tokens : Joined → List Token
  | .none => []
  | .join tilde right more => tilde.token :: (right.tokens ++ more.tokens)

/-- The tokens of a chain. -/
def Chain.tokens : Chain → List Token
  | .mk base calls => base.tokens ++ calls.tokens

/-- The tokens of method calls. -/
def Calls.tokens : Calls → List Token
  | .none => []
  | .call point name opening args more =>
    point.token :: name.token :: opening.token :: (args.tokens ++ more.tokens)

/-- The tokens of a primary. -/
def Primary.tokens : Primary → List Token
  | .literal t _ _ => [t]
  | .var name => [name.token]
  | .call name opening _ args => name.token :: opening.token :: args.tokens
  | .paren opening inner closing => opening.token :: (inner.tokens ++ [closing.token])

/-- The tokens of arguments, with the closing parenthesis. -/
def Args.tokens {inMethod : Bool} : Args inMethod → List Token
  | .none closing => [closing.token]
  | .some list => list.tokens

/-- The tokens of one argument or more, with the closing parenthesis. -/
def ArgList.tokens {inMethod : Bool} : ArgList inMethod → List Token
  | .last argument closing => argument.tokens ++ [closing.token]
  | .more argument comma list => argument.tokens ++ comma.token :: list.tokens

/-- The tokens of an argument. -/
def Argument.tokens {inMethod : Bool} : Argument inMethod → List Token
  | .value c => c.tokens
  | .current t => [t.token]

end

/-- **The tokens of an expression.** -/
def Whole.tokens {allowCompare : Bool} : Whole allowCompare → List Token
  | .value c => c.tokens
  | .compare left op _ right => left.tokens ++ op :: right.tokens

/-! ## What a derivation stands for -/

mutual

/-- The tree of a concatenation. -/
def Concat.shape : Concat → Shape
  | .mk first joined => joined.fold first.shape

/-- **Concatenations are folded to the left**: the tree of `left` with everything joined to it. -/
def Joined.fold : Joined → Shape → Shape
  | .none, left => left
  | .join _ right more, left => more.fold (.node .concat [left, right.shape])

/-- The tree of a chain: the primary itself if no method is called on it. -/
def Chain.shape : Chain → Shape
  | .mk base .none => base.shape
  | .mk base (.call point name opening args more) =>
    .node .chain (base.shape :: (Calls.call point name opening args more).shapes)

/-- The trees of method calls. -/
def Calls.shapes : Calls → List Shape
  | .none => []
  | .call _ name _ args more => .node .method [.leaf name.token, args.shape] :: more.shapes

/-- The tree of a primary: parentheses leave no trace in it. -/
def Primary.shape : Primary → Shape
  | .literal t label _ => .node label [.leaf t]
  | .var name => .node .var [.leaf name.token]
  | .call name _ _ args => .node .call [.leaf name.token, args.shape]
  | .paren _ inner _ => inner.shape

/-- The tree of arguments. -/
def Args.shape {inMethod : Bool} : Args inMethod → Shape
  | .none _ => .node .args []
  | .some list => .node .args list.shapes

/-- The trees of one argument or more. -/
def ArgList.shapes {inMethod : Bool} : ArgList inMethod → List Shape
  | .last argument _ => [argument.shape]
  | .more argument _ list => argument.shape :: list.shapes

/-- The tree of an argument. -/
def Argument.shape {inMethod : Bool} : Argument inMethod → Shape
  | .value c => c.shape
  | .current t => .node .current [.leaf t.token]

end

/-- **The tree of an expression.** -/
def Whole.shape {allowCompare : Bool} : Whole allowCompare → Shape
  | .value c => c.shape
  | .compare left op _ right => .node .compare [left.shape, .leaf op, right.shape]

/-! ## No row of tokens has two derivations

Which production to use is decided by the next token.  So two derivations whose tokens begin one
row are the same, as long as neither is followed by a token with which it could have gone on. -/

/-- The row does not begin with a token of one of the kinds. -/
def Avoids (kinds : List TokenKind) (row : List Token) : Prop :=
  ∀ t ∈ row.head?, t.kind ∉ kinds

/-- A primary could go on with the parenthesis of a call. -/
abbrev AfterPrimary : List Token → Prop := Avoids [.lpar]

/-- A chain could go on with a method call too. -/
abbrev AfterChain : List Token → Prop := Avoids [.lpar, .dot]

/-- A concatenation could go on with a further chain too. -/
abbrev AfterConcat : List Token → Prop := Avoids [.lpar, .dot, .tilde]

theorem avoids_nil (kinds : List TokenKind) : Avoids kinds [] := nofun

theorem avoids_cons_iff {kinds : List TokenKind} {t : Token} {row : List Token} :
    Avoids kinds (t :: row) ↔ t.kind ∉ kinds := by
  simp [Avoids]

theorem Avoids.mono {kinds fewer : List TokenKind} {row : List Token} (h : Avoids kinds row)
    (hsub : fewer ⊆ kinds) : Avoids fewer row :=
  fun t ht hmem => h t ht (hsub hmem)

/-- A token of another kind is none that could go on. -/
theorem avoids_terminal {kinds : List TokenKind} {kind : TokenKind} (t : Terminal kind)
    (h : kind ∉ kinds) (row : List Token) : Avoids kinds (t.token :: row) := by
  rw [avoids_cons_iff, t.kind_eq]
  exact h

/-- **What follows a chain** in a concatenation is no method call. -/
theorem Joined.afterChain (joined : Joined) {row : List Token} (h : AfterConcat row) :
    AfterChain (joined.tokens ++ row) := by
  cases joined with
  | none => exact h.mono (by simp)
  | join tilde right more => exact avoids_terminal tilde (by decide) _

/-- **What follows a primary** in a chain is no parenthesis. -/
theorem Calls.afterPrimary (calls : Calls) {row : List Token} (h : AfterChain row) :
    AfterPrimary (calls.tokens ++ row) := by
  cases calls with
  | none => exact h.mono (by simp)
  | call point name opening args more => exact avoids_terminal point (by decide) _

/-- Two tokens of different kinds are not the same. -/
theorem Terminal.token_ne {k l : TokenKind} (s : Terminal k) (t : Terminal l) (h : k ≠ l) :
    s.token ≠ t.token := fun e =>
  h (s.kind_eq.symm.trans ((congrArg Token.kind e).trans t.kind_eq))

/-! ### The tokens with which an expression begins -/

/-- The kinds of token with which an expression can begin. -/
def starters : List TokenKind := [.number, .string, .trueWord, .falseWord, .ident, .lpar]

/-- The row begins with a token of one of the kinds. -/
def Begins (kinds : List TokenKind) (row : List Token) : Prop :=
  ∃ t rest, row = t :: rest ∧ t.kind ∈ kinds

theorem Begins.append {kinds : List TokenKind} {row : List Token} (h : Begins kinds row)
    (more : List Token) : Begins kinds (row ++ more) := by
  obtain ⟨t, rest, rfl, ht⟩ := h
  exact ⟨t, rest ++ more, rfl, ht⟩

theorem mem_starters_of_literalLabel? {t : Token} {label : Label}
    (h : literalLabel? t = some label) : t.kind ∈ starters ∧ t.kind ≠ .ident ∧ t.kind ≠ .lpar := by
  unfold literalLabel? at h
  cases hk : t.kind <;> simp [hk, starters] at h ⊢

theorem Primary.begins (p : Primary) : Begins starters p.tokens := by
  cases p with
  | literal t label h => exact ⟨t, [], rfl, (mem_starters_of_literalLabel? h).1⟩
  | var name => exact ⟨name.token, [], rfl, by simp [name.kind_eq, starters]⟩
  | call name opening adjacent args => exact ⟨name.token, _, rfl, by simp [name.kind_eq, starters]⟩
  | paren opening inner closing => exact ⟨opening.token, _, rfl, by simp [opening.kind_eq, starters]⟩

theorem Chain.begins : (c : Chain) → Begins starters c.tokens
  | .mk base calls => base.begins.append calls.tokens

theorem Concat.begins : (c : Concat) → Begins starters c.tokens
  | .mk first joined => first.begins.append joined.tokens

theorem Begins.ne_nil {kinds : List TokenKind} {row : List Token} (h : Begins kinds row) :
    row ≠ [] := by
  obtain ⟨t, rest, rfl, -⟩ := h
  exact List.cons_ne_nil t rest

theorem Whole.tokens_ne_nil {allowCompare : Bool} : (g : Whole allowCompare) → g.tokens ≠ []
  | .value c => c.begins.ne_nil
  | .compare _ op _ right => List.append_ne_nil_of_right_ne_nil _ (List.cons_ne_nil op right.tokens)

/-- An argument can also begin with the current value. -/
theorem Argument.begins {inMethod : Bool} (a : Argument inMethod) :
    Begins (.atSign :: starters) a.tokens := by
  cases a with
  | value c =>
    obtain ⟨t, rest, h, ht⟩ := c.begins
    exact ⟨t, rest, h, List.mem_cons_of_mem _ ht⟩
  | current t => exact ⟨t.token, [], rfl, by simp [t.kind_eq]⟩

theorem ArgList.begins {inMethod : Bool} (list : ArgList inMethod) :
    Begins (.atSign :: starters) list.tokens := by
  cases list with
  | last argument closing => exact argument.begins.append _
  | more argument comma list => exact argument.begins.append _

/-! ### One derivation at most -/

mutual

theorem Concat.eq_of_append : ∀ (c d : Concat) {r s : List Token},
    c.tokens ++ r = d.tokens ++ s → AfterConcat r → AfterConcat s → c = d ∧ r = s
  | .mk first joined, .mk first' joined', r, s, h, hr, hs => by
      rw [Concat.tokens, Concat.tokens, List.append_assoc, List.append_assoc] at h
      obtain ⟨rfl, hrest⟩ := Chain.eq_of_append first first' h (joined.afterChain hr)
        (joined'.afterChain hs)
      obtain ⟨rfl, rfl⟩ := Joined.eq_of_append joined joined' hrest hr hs
      exact ⟨rfl, rfl⟩
termination_by structural c => c

theorem Joined.eq_of_append : ∀ (c d : Joined) {r s : List Token},
    c.tokens ++ r = d.tokens ++ s → AfterConcat r → AfterConcat s → c = d ∧ r = s
  | .none, .none, r, s, h, _, _ => ⟨rfl, h⟩
  | .none, .join tilde right more, r, s, h, hr, _ => by
      obtain rfl : r = tilde.token :: (right.tokens ++ more.tokens ++ s) := h
      exact absurd (avoids_cons_iff.1 hr) (by simp [tilde.kind_eq])
  | .join tilde right more, .none, r, s, h, _, hs => by
      obtain rfl : tilde.token :: (right.tokens ++ more.tokens ++ r) = s := h
      exact absurd (avoids_cons_iff.1 hs) (by simp [tilde.kind_eq])
  | .join tilde right more, .join tilde' right' more', r, s, h, hr, hs => by
      simp only [Joined.tokens, List.cons_append, List.append_assoc, List.cons.injEq] at h
      obtain rfl := Terminal.ext h.1
      obtain ⟨rfl, hrest⟩ := Chain.eq_of_append right right' h.2 (more.afterChain hr)
        (more'.afterChain hs)
      obtain ⟨rfl, rfl⟩ := Joined.eq_of_append more more' hrest hr hs
      exact ⟨rfl, rfl⟩
termination_by structural c => c

theorem Chain.eq_of_append : ∀ (c d : Chain) {r s : List Token},
    c.tokens ++ r = d.tokens ++ s → AfterChain r → AfterChain s → c = d ∧ r = s
  | .mk base calls, .mk base' calls', r, s, h, hr, hs => by
      rw [Chain.tokens, Chain.tokens, List.append_assoc, List.append_assoc] at h
      obtain ⟨rfl, hrest⟩ := Primary.eq_of_append base base' h (calls.afterPrimary hr)
        (calls'.afterPrimary hs)
      obtain ⟨rfl, rfl⟩ := Calls.eq_of_append calls calls' hrest hr hs
      exact ⟨rfl, rfl⟩
termination_by structural c => c

theorem Calls.eq_of_append : ∀ (c d : Calls) {r s : List Token},
    c.tokens ++ r = d.tokens ++ s → AfterChain r → AfterChain s → c = d ∧ r = s
  | .none, .none, r, s, h, _, _ => ⟨rfl, h⟩
  | .none, .call point name opening args more, r, s, h, hr, _ => by
      simp only [Calls.tokens, List.nil_append, List.cons_append] at h
      rw [h] at hr
      exact absurd (avoids_cons_iff.1 hr) (by simp [point.kind_eq])
  | .call point name opening args more, .none, r, s, h, _, hs => by
      simp only [Calls.tokens, List.nil_append, List.cons_append] at h
      rw [← h] at hs
      exact absurd (avoids_cons_iff.1 hs) (by simp [point.kind_eq])
  | .call point name opening args more, .call point' name' opening' args' more', r, s, h, hr, hs =>
    by
      simp only [Calls.tokens, List.cons_append, List.append_assoc, List.cons.injEq] at h
      obtain ⟨hpoint, hname, hopening, h⟩ := h
      obtain rfl := Terminal.ext hpoint
      obtain rfl := Terminal.ext hname
      obtain rfl := Terminal.ext hopening
      obtain ⟨rfl, hrest⟩ := Args.eq_of_append args args' h
      obtain ⟨rfl, rfl⟩ := Calls.eq_of_append more more' hrest hr hs
      exact ⟨rfl, rfl⟩
termination_by structural c => c

theorem Primary.eq_of_append : ∀ (c d : Primary) {r s : List Token},
    c.tokens ++ r = d.tokens ++ s → AfterPrimary r → AfterPrimary s → c = d ∧ r = s
  | .literal t label hl, .literal t' label' hl', r, s, h, _, _ => by
      obtain ⟨rfl, rfl⟩ := List.cons.inj h
      obtain rfl := Option.some.inj (hl.symm.trans hl')
      exact ⟨rfl, rfl⟩
  | .literal t label hl, .var name, r, s, h, _, _ =>
    absurd ((List.cons.inj h).1 ▸ name.kind_eq) (mem_starters_of_literalLabel? hl).2.1
  | .literal t label hl, .call name opening adj args, r, s, h, _, _ =>
    absurd ((List.cons.inj h).1 ▸ name.kind_eq) (mem_starters_of_literalLabel? hl).2.1
  | .literal t label hl, .paren opening inner closing, r, s, h, _, _ =>
    absurd ((List.cons.inj h).1 ▸ opening.kind_eq) (mem_starters_of_literalLabel? hl).2.2
  | .var name, .literal t label hl, r, s, h, _, _ =>
    absurd ((List.cons.inj h).1 ▸ name.kind_eq) (mem_starters_of_literalLabel? hl).2.1
  | .call name opening adj args, .literal t label hl, r, s, h, _, _ =>
    absurd ((List.cons.inj h).1 ▸ name.kind_eq) (mem_starters_of_literalLabel? hl).2.1
  | .paren opening inner closing, .literal t label hl, r, s, h, _, _ =>
    absurd ((List.cons.inj h).1 ▸ opening.kind_eq) (mem_starters_of_literalLabel? hl).2.2
  | .var name, .var name', r, s, h, _, _ => by
      obtain ⟨hname, rfl⟩ := List.cons.inj h
      obtain rfl := Terminal.ext hname
      exact ⟨rfl, rfl⟩
  | .var name, .call name' opening adj args, r, s, h, hr, _ => by
      obtain ⟨_, rfl⟩ := List.cons.inj h
      exact absurd (avoids_cons_iff.1 hr) (by simp [opening.kind_eq])
  | .call name' opening adj args, .var name, r, s, h, _, hs => by
      obtain ⟨_, rfl⟩ := List.cons.inj h
      exact absurd (avoids_cons_iff.1 hs) (by simp [opening.kind_eq])
  | .var name, .paren opening inner closing, r, s, h, _, _ =>
    absurd (List.cons.inj h).1 (name.token_ne opening (by decide))
  | .paren opening inner closing, .var name, r, s, h, _, _ =>
    absurd (List.cons.inj h).1 (opening.token_ne name (by decide))
  | .call name opening adj args, .paren opening' inner closing, r, s, h, _, _ =>
    absurd (List.cons.inj h).1 (name.token_ne opening' (by decide))
  | .paren opening inner closing, .call name opening' adj args, r, s, h, _, _ =>
    absurd (List.cons.inj h).1 (opening.token_ne name (by decide))
  | .call name opening adj args, .call name' opening' adj' args', r, s, h, _, _ => by
      simp only [Primary.tokens, List.cons_append, List.cons.injEq] at h
      obtain ⟨hname, hopening, h⟩ := h
      obtain rfl := Terminal.ext hname
      obtain rfl := Terminal.ext hopening
      obtain ⟨rfl, rfl⟩ := Args.eq_of_append args args' h
      exact ⟨rfl, rfl⟩
  | .paren opening inner closing, .paren opening' inner' closing', r, s, h, _, _ => by
      simp only [Primary.tokens, List.cons_append, List.append_assoc, List.cons.injEq,
        List.nil_append] at h
      obtain rfl := Terminal.ext h.1
      obtain ⟨rfl, hrest⟩ := Concat.eq_of_append inner inner' h.2
        (avoids_terminal closing (by decide) r) (avoids_terminal closing' (by decide) s)
      obtain ⟨hclosing, rfl⟩ := List.cons.inj hrest
      obtain rfl := Terminal.ext hclosing
      exact ⟨rfl, rfl⟩
termination_by structural c => c

theorem Args.eq_of_append {inMethod : Bool} : ∀ (c d : Args inMethod) {r s : List Token},
    c.tokens ++ r = d.tokens ++ s → c = d ∧ r = s
  | .none closing, .none closing', r, s, h => by
      obtain ⟨hclosing, rfl⟩ := List.cons.inj h
      obtain rfl := Terminal.ext hclosing
      exact ⟨rfl, rfl⟩
  | .none closing, .some list, r, s, h => by
      obtain ⟨t, row, hlist, ht⟩ := list.begins
      rw [Args.tokens, Args.tokens, hlist] at h
      have hk : t.kind = .rpar := (List.cons.inj h).1 ▸ closing.kind_eq
      exact absurd ht (by simp [hk, starters])
  | .some list, .none closing, r, s, h => by
      obtain ⟨t, row, hlist, ht⟩ := list.begins
      rw [Args.tokens, Args.tokens, hlist] at h
      have hk : t.kind = .rpar := (List.cons.inj h).1 ▸ closing.kind_eq
      exact absurd ht (by simp [hk, starters])
  | .some list, .some list', r, s, h => by
      obtain ⟨rfl, rfl⟩ := ArgList.eq_of_append list list' h
      exact ⟨rfl, rfl⟩
termination_by structural c => c

theorem ArgList.eq_of_append {inMethod : Bool} : ∀ (c d : ArgList inMethod) {r s : List Token},
    c.tokens ++ r = d.tokens ++ s → c = d ∧ r = s
  | .last a closing, .last a' closing', r, s, h => by
      simp only [ArgList.tokens, List.append_assoc, List.cons_append, List.nil_append] at h
      obtain ⟨rfl, hrest⟩ := Argument.eq_of_append a a' h (avoids_terminal closing (by decide) r)
        (avoids_terminal closing' (by decide) s)
      obtain ⟨hclosing, rfl⟩ := List.cons.inj hrest
      obtain rfl := Terminal.ext hclosing
      exact ⟨rfl, rfl⟩
  | .last a closing, .more a' comma list, r, s, h => by
      simp only [ArgList.tokens, List.append_assoc, List.cons_append, List.nil_append] at h
      have hrest := (Argument.eq_of_append a a' h (avoids_terminal closing (by decide) _)
        (avoids_terminal comma (by decide) _)).2
      exact absurd (List.cons.inj hrest).1 (closing.token_ne comma (by decide))
  | .more a comma list, .last a' closing, r, s, h => by
      simp only [ArgList.tokens, List.append_assoc, List.cons_append, List.nil_append] at h
      have hrest := (Argument.eq_of_append a a' h (avoids_terminal comma (by decide) _)
        (avoids_terminal closing (by decide) _)).2
      exact absurd (List.cons.inj hrest).1 (comma.token_ne closing (by decide))
  | .more a comma list, .more a' comma' list', r, s, h => by
      simp only [ArgList.tokens, List.append_assoc, List.cons_append] at h
      obtain ⟨rfl, hrest⟩ := Argument.eq_of_append a a' h (avoids_terminal comma (by decide) _)
        (avoids_terminal comma' (by decide) _)
      obtain ⟨hcomma, hlist⟩ := List.cons.inj hrest
      obtain rfl := Terminal.ext hcomma
      obtain ⟨rfl, rfl⟩ := ArgList.eq_of_append list list' hlist
      exact ⟨rfl, rfl⟩
termination_by structural c => c

theorem Argument.eq_of_append {inMethod : Bool} : ∀ (c d : Argument inMethod) {r s : List Token},
    c.tokens ++ r = d.tokens ++ s → AfterConcat r → AfterConcat s → c = d ∧ r = s
  | .value c, .value d, r, s, h, hr, hs => by
      obtain ⟨rfl, rfl⟩ := Concat.eq_of_append c d h hr hs
      exact ⟨rfl, rfl⟩
  | .value c, .current t, r, s, h, _, _ => by
      obtain ⟨u, row, hc, hu⟩ := c.begins
      rw [Argument.tokens, Argument.tokens, hc] at h
      have hk : u.kind = .atSign := (List.cons.inj h).1 ▸ t.kind_eq
      exact absurd hu (by simp [hk, starters])
  | .current t, .value c, r, s, h, _, _ => by
      obtain ⟨u, row, hc, hu⟩ := c.begins
      rw [Argument.tokens, Argument.tokens, hc] at h
      have hk : u.kind = .atSign := (List.cons.inj h).1 ▸ t.kind_eq
      exact absurd hu (by simp [hk, starters])
  | .current t, .current t', r, s, h, _, _ => by
      obtain ⟨ht, rfl⟩ := List.cons.inj h
      obtain rfl := Terminal.ext ht
      exact ⟨rfl, rfl⟩
termination_by structural c => c

end

/-- A comparison does not go on with a concatenation. -/
theorem afterConcat_of_isComparison {op : Token} (h : op.kind.isComparison = true)
    (row : List Token) : AfterConcat (op :: row) := by
  refine avoids_cons_iff.2 fun hmem => ?_
  simp only [List.mem_cons, List.not_mem_nil, or_false] at hmem
  rcases hmem with hk | hk | hk <;> simp [hk, TokenKind.isComparison] at h

/-- A concatenation is not the beginning of a comparison that has the same tokens. -/
theorem Concat.tokens_ne (c left right : Concat) {op : Token} (h : op.kind.isComparison = true) :
    c.tokens ≠ left.tokens ++ op :: right.tokens := by
  intro e
  have hnil : [] = op :: right.tokens :=
    (Concat.eq_of_append c left ((List.append_nil _).trans e) (avoids_nil _)
      (afterConcat_of_isComparison h _)).2
  exact absurd hnil (List.cons_ne_nil _ _).symm

/-- **No row of tokens has two derivations.** -/
theorem Whole.eq_of_tokens {allowCompare : Bool} :
    ∀ {d e : Whole allowCompare}, d.tokens = e.tokens → d = e
  | .value c, .value c', h => by
      have hc := (Concat.eq_of_append c c' (congrArg (· ++ []) h) (avoids_nil _) (avoids_nil _)).1
      exact congrArg Whole.value hc
  | .value c, .compare left op hop right, h => absurd h (c.tokens_ne left right hop)
  | .compare left op hop right, .value c, h => absurd h.symm (c.tokens_ne left right hop)
  | .compare left op hop right, .compare left' op' hop' right', h => by
      obtain ⟨rfl, hrest⟩ := Concat.eq_of_append left left' h
        (afterConcat_of_isComparison hop _) (afterConcat_of_isComparison hop' _)
      obtain ⟨rfl, hright⟩ := List.cons.inj hrest
      obtain ⟨rfl, -⟩ := Concat.eq_of_append right right' (congrArg (· ++ []) hright)
        (avoids_nil _) (avoids_nil _)
      rfl

end Grammar

end ScenarioScript
