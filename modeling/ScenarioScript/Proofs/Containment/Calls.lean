import ScenarioScript.Proofs.Expression.Atoms
import ScenarioScript.Proofs.Report.Statement
import ScenarioScript.Proofs.Trace.Raising
import ScenarioScript.Script

/-!
# Proofs/Containment/Calls — machines with room for so many calls

What reads an expression calls itself for what stands in parentheses, so calls pile up.  How many are
open at once is plain from the derivation (`Grammar.Whole.calls`): three for each parenthesis, and no
more than three for each token.

A machine has room for so many open calls.  A script is read on it as everywhere else, or the calls
are too many and reading breaks off (`Machine.parse`), which happens on every machine to scripts that
have nothing wrong with them (`Machine.parse_nestedText`).
-/

namespace ScenarioScript

open Lexeme Outcome Text

namespace Grammar

/-! ## The calls of a derivation -/

mutual

/-- **The calls that are open at once**, at most, while a concatenation is read: one for itself, and
those for its parts, which are read one after the other. -/
def Concat.calls : Concat → Nat
  | .mk first joined => 1 + max first.calls joined.calls

def Joined.calls : Joined → Nat
  | .none => 0
  | .join _ right more => max right.calls more.calls

def Chain.calls : Chain → Nat
  | .mk base methods => 1 + max base.calls methods.calls

def Calls.calls : Calls → Nat
  | .none => 0
  | .call _ _ _ args more => max args.calls more.calls

def Primary.calls : Primary → Nat
  | .literal .. | .var _ => 1
  | .call _ _ _ args => 1 + args.calls
  | .paren _ inner _ => 1 + inner.calls

def Args.calls {inMethod : Bool} : Args inMethod → Nat
  | .none _ => 1
  | .some list => 1 + list.calls

def ArgList.calls {inMethod : Bool} : ArgList inMethod → Nat
  | .last argument _ => argument.calls
  | .more argument _ list => max argument.calls list.calls

def Argument.calls {inMethod : Bool} : Argument inMethod → Nat
  | .value c => c.calls
  | .current _ => 0

end

/-- **The calls that are open at once**, at most, while an expression is read. -/
def Whole.calls {allowCompare : Bool} : Whole allowCompare → Nat
  | .value c => c.calls
  | .compare left _ _ right => max left.calls right.calls

mutual

theorem Concat.calls_le : (c : Concat) → c.calls ≤ 3 * c.tokens.length
  | .mk first joined => by
      have hfirst := first.calls_le
      have hjoined := joined.calls_le
      simp only [Concat.calls, Concat.tokens, List.length_append]
      omega

theorem Joined.calls_le : (j : Joined) → j.calls ≤ 3 * j.tokens.length
  | .none => Nat.zero_le _
  | .join _ right more => by
      have hright := right.calls_le
      have hmore := more.calls_le
      simp only [Joined.calls, Joined.tokens, List.length_cons, List.length_append]
      omega

theorem Chain.calls_le : (c : Chain) → c.calls + 1 ≤ 3 * c.tokens.length
  | .mk base methods => by
      have hbase := base.calls_le
      have hmethods := methods.calls_le
      simp only [Chain.calls, Chain.tokens, List.length_append]
      omega

theorem Calls.calls_le : (c : Calls) → c.calls ≤ 3 * c.tokens.length
  | .none => Nat.zero_le _
  | .call _ _ _ args more => by
      have hargs := args.calls_le
      have hmore := more.calls_le
      simp only [Calls.calls, Calls.tokens, List.length_cons, List.length_append]
      omega

theorem Primary.calls_le : (p : Primary) → p.calls + 2 ≤ 3 * p.tokens.length
  | .literal .. | .var _ => Nat.le_refl 3
  | .call _ _ _ args => by
      have hargs := args.calls_le
      simp only [Primary.calls, Primary.tokens, List.length_cons]
      omega
  | .paren _ inner _ => by
      have hinner := inner.calls_le
      simp only [Primary.calls, Primary.tokens, List.length_cons, List.length_append]
      omega

theorem Args.calls_le {inMethod : Bool} : (a : Args inMethod) → a.calls ≤ 3 * a.tokens.length
  | .none _ => by simp [Args.calls, Args.tokens]
  | .some list => by
      have hlist := list.calls_le
      simp only [Args.calls, Args.tokens]
      omega

theorem ArgList.calls_le {inMethod : Bool} : (l : ArgList inMethod) →
    l.calls + 1 ≤ 3 * l.tokens.length
  | .last argument _ => by
      have hargument := argument.calls_le
      simp only [ArgList.calls, ArgList.tokens, List.length_append, List.length_singleton]
      omega
  | .more argument _ list => by
      have hargument := argument.calls_le
      have hlist := list.calls_le
      simp only [ArgList.calls, ArgList.tokens, List.length_append, List.length_cons]
      omega

theorem Argument.calls_le {inMethod : Bool} : (a : Argument inMethod) →
    a.calls ≤ 3 * a.tokens.length
  | .value c => c.calls_le
  | .current _ => Nat.zero_le _

end

/-- **No more than three calls for each token** are open at once. -/
theorem Whole.calls_le {allowCompare : Bool} : (g : Whole allowCompare) →
    g.calls ≤ 3 * g.tokens.length
  | .value c => c.calls_le
  | .compare left _ _ right => by
      have hleft := left.calls_le
      have hright := right.calls_le
      simp only [Whole.calls, Whole.tokens, List.length_append, List.length_cons]
      omega

end Grammar

/-- **There are no more tokens** than characters. -/
theorem Tiled.length_le {line column : Int} {offset : Nat} {text : List Char} {row : List Token}
    (h : Tiled line column offset text row) : row.length ≤ text.length := by
  induction h with
  | done => exact Nat.le_refl _
  | gap _ _ ih =>
    rw [List.length_append]
    omega
  | lexeme _ _ ih =>
    rw [List.length_append, List.length_cons, List.length_cons]
    omega

/-! ## Expressions in many parentheses -/

/-- The number one in so many parentheses. -/
def nested : Nat → List Char
  | 0 => ['1']
  | n + 1 => '(' :: (nested n ++ [')'])

theorem tidy_nested (n : Nat) : Tidy (nested n) := by
  induction n with
  | zero => exact .of_word (List.cons_ne_nil _ _) (List.forall_mem_singleton.2 (by decide))
  | succ n ih => exact tidy_enclosed (by decide) (by decide) ih.unbroken

/-- **An expression in many parentheses** is read, before what closes, with three calls open for each
of them. -/
theorem exists_concat_nested (n : Nat) {line column : Int} {offset : Nat} {rest : List Char}
    {below : List Token} (hrest : EndsToken rest)
    (hbelow : Tiled line column (offset + (nested n).length) rest below) :
    ∃ c : Grammar.Concat, Tiled line column offset (nested n ++ rest) (c.tokens ++ below) ∧
      3 * n ≤ c.calls := by
  induction n generalizing offset rest below with
  | zero =>
    have hone : Spelled .number ['1'] := @Spelled.number [] ['1'] [] (.inl rfl)
      ⟨List.cons_ne_nil _ _, List.forall_mem_singleton.2 (by decide)⟩ (.inl rfl)
    have hhead : head '1' rest = .lexeme .number ['1'] rest :=
      head_of_spelled hone (hrest.maximal rfl) rfl
    refine ⟨.mk (.mk (.literal (.ofLexeme line column offset .number ['1']) .number rfl) .none)
      .none, ?_, Nat.zero_le _⟩
    exact .lexeme hhead hbelow
  | succ n ih =>
    have hoffset : offset + (nested (n + 1)).length = offset + 1 + (nested n).length + 1 := by
      rw [nested, List.length_cons, List.length_append, List.length_singleton]
      omega
    rw [hoffset] at hbelow
    obtain ⟨closing, hclosing⟩ := hbelow.exists_operator .rpar ')' (by decide) trivial
    obtain ⟨c, hinner, hcalls⟩ := ih (endsToken_gap (List.forall_mem_nil _)) hclosing
    obtain ⟨opening, hopening⟩ := hinner.exists_operator .lpar '(' (by decide) trivial
    refine ⟨.mk (.mk (.paren opening c closing) .none) .none, ?_, ?_⟩
    · simpa [nested, Grammar.Concat.tokens, Grammar.Joined.tokens, Grammar.Chain.tokens,
        Grammar.Calls.tokens, Grammar.Primary.tokens] using hopening
    · simp only [Grammar.Concat.calls, Grammar.Joined.calls, Grammar.Chain.calls,
        Grammar.Calls.calls, Grammar.Primary.calls]
      omega

/-- A script that waits for the number one in so many parentheses. -/
def nestedText (n : Nat) : String :=
  String.ofList ((Keyword.setting .wait).word.toList ++ ' ' :: nested n)

theorem toList_nestedText (n : Nat) : (nestedText n).toList = "wait ".toList ++ nested n :=
  String.toList_ofList

theorem scan_nestedText (n : Nat) (unit : Option Int) :
    Layout.scan unit (nestedText n) = .ok [⟨0, nestedText n, 1, 1⟩] := by
  obtain ⟨hne, hword⟩ := (Keyword.setting .wait).isWord_word
  exact Layout.scan_row ⟨(tidy_nested n).entry hne hword, nofun⟩ unit

/-- **A script of many parentheses** waits for an expression with as many calls open. -/
theorem classify_nestedText (n : Nat) :
    ∃ g : Grammar.Whole false, 3 * n ≤ g.calls ∧ tokensOf 1 6 (nested n) = .ok g.tokens ∧
      classify ⟨0, nestedText n, 1, 1⟩ = .ok ⟨.setting (.wait (g.tree (.ofText (nested n) 1 6))),
        String.ofList (nested n), 0, 1, 1⟩ := by
  have hdone : Tiled 1 6 (0 + (nested n).length) [] [] := .done _
  obtain ⟨c, htiled, hcalls⟩ := exists_concat_nested n endsToken_nil hdone
  rw [List.append_nil, List.append_nil] at htiled
  have htokens : tokensOf 1 6 (nested n) = .ok c.tokens := tokensOf_eq_ok_iff.2 htiled
  refine ⟨.value c, hcalls, htokens, ?_⟩
  generalize htree : (Grammar.Whole.value c).tree (.ofText (nested n) 1 6) = tree
  have hvalue : Argument.value ⟨nested n, 1, 6⟩ (.setting .wait) false = .ok tree :=
    htree ▸ Argument.value_of_parse (tidy_nested n).ne_nil
      (parseExpression_tokens (.value c) htokens) (.setting .wait)
  have hread : (Keyword.setting .wait).read ⟨nested n, 1, 6⟩ = .ok (.setting (.wait tree)) := by
    rw [Keyword.read, SettingKey.read, hvalue]
    rfl
  rw [nestedText, classify_entry (.setting .wait) 0 1 1 (tidy_nested n)]
  exact congrArg (Except.map _) hread

/-! ## Machines -/

/-- **A script has an expression read**: it comes to a line with a statement whose value is read, as
the derivation says, from an end of the line. -/
def Script.ReadsAs (env : Environment) (s : Script) {allowCompare : Bool}
    (g : Grammar.Whole allowCompare) : Prop :=
  ∃ d line below statement rest column,
    Draft.ComesTo (env.site s.loading s.path) env.unit s.text d (line :: below) ∧
      classify line = .ok statement ∧ rest <:+ line.text.toList ∧
        tokensOf line.line column rest = .ok g.tokens ∧
          statement.command.expr? = some (g.tree (.ofText rest line.line column))

/-- **A machine** has room for so many calls that are open at once.  How many calls it opens for a
script is its own affair, as expressions are copied, scripts loaded and groups included by calls as
well; but it opens those for reading the expressions. -/
structure Machine where
  room : Nat
  calls : Environment → Option String → String → Nat
  calls_le : ∀ env path text {allowCompare : Bool} (g : Grammar.Whole allowCompare),
    path.any Path.holdsNull = false → (env.main path text).ReadsAs env g →
      g.calls ≤ calls env path text

namespace Machine

/-- Why reading breaks off on a machine. -/
inductive Break where
  | failed (failure : Failure)
  /-- There is no room for one more call. -/
  | outOfCalls
  deriving DecidableEq, Repr

/-- **Reading a script on a machine.** -/
def parse (m : Machine) (env : Environment) (path : Option String) (text : String) :
    Except Break ScenarioSet :=
  if m.calls env path text ≤ m.room then
    (ScenarioScript.parse env path text).outcome.mapError .failed
  else .error .outOfCalls

section Parse

variable (m : Machine) {env : Environment} {path : Option String} {text : String}

/-- A machine **runs out of calls** exactly if it has no room for those that the script takes. -/
theorem parse_eq_outOfCalls :
    m.parse env path text = .error .outOfCalls ↔ m.room < m.calls env path text := by
  unfold parse
  split
  · next hroom =>
    refine iff_of_false (fun h => ?_) (Nat.not_lt.2 hroom)
    obtain ⟨_, -, h⟩ := Outcome.mapError_eq_error.1 h
    cases h
  · next hroom => exact iff_of_true rfl (Nat.not_le.1 hroom)

/-- **With room for the calls**, what breaks reading off is a failure of it. -/
theorem exists_failure_of_parse {broken : Break} (hroom : m.calls env path text ≤ m.room)
    (h : m.parse env path text = .error broken) :
    ∃ failure, (ScenarioScript.parse env path text).outcome = .error failure ∧
      broken = .failed failure := by
  rw [parse, if_pos hroom] at h
  obtain ⟨failure, hfails, rfl⟩ := Outcome.mapError_eq_error.1 h
  exact ⟨failure, hfails, rfl⟩

end Parse

/-- **Room for as many calls as one likes**: three for each character are always enough. -/
def ofRoom (room : Nat) : Machine where
  room
  calls env _ text :=
    3 * (((Layout.scan env.unit text).toOption.getD []).map (·.text.toList)).flatten.length
  calls_le env path text _ g _ hreads := by
    obtain ⟨d, line, below, statement, rest, column, ⟨above, hlines, -⟩, -, hrest, htokens, -⟩ :=
      hreads
    have hmem : line ∈ above ++ line :: below := List.mem_append_right above List.mem_cons_self
    have hline := List.infix_of_mem_flatten (List.mem_map_of_mem (f := (·.text.toList)) hmem)
    rw [show Layout.scan env.unit text = _ from hlines]
    calc g.calls ≤ 3 * g.tokens.length := g.calls_le
      _ ≤ 3 * rest.length := Nat.mul_le_mul_left 3 (tokensOf_eq_ok_iff.1 htokens).length_le
      _ ≤ 3 * ((above ++ line :: below).map (·.text.toList)).flatten.length :=
        Nat.mul_le_mul_left 3 (hrest.length_le.trans hline.length_le)

/-- **Every machine runs out of calls** on scripts that have nothing wrong with them: those with more
parentheses than it has room for. -/
theorem parse_nestedText (m : Machine) {n : Nat} (hroom : m.room < 3 * n) (env : Environment) :
    (∃ set, (ScenarioScript.parse env none (nestedText n)).outcome = .ok set) ∧
      m.parse env none (nestedText n) = .error .outOfCalls := by
  obtain ⟨g, hcalls, htokens, hline⟩ := classify_nestedText n
  have hreads : (env.main none (nestedText n)).ReadsAs env g :=
    ⟨{}, _, [], _, nested n, 6, ⟨[], scan_nestedText n env.unit, rfl⟩, hline,
      ⟨_, (toList_nestedText n).symm⟩, htokens, rfl⟩
  have hexceeds := m.calls_le env none _ g rfl hreads
  have hread : ∃ set, (readScript env [] none (nestedText n)).outcome = .ok set := by
    have hlift {α : Type} (a : α) : (liftM (.ok a : Except Failure α) : Traced α) = pure a := rfl
    rw [readScript_eq, Traced.outcome_mapFault, Draft.build, scan_nestedText, hlift, pure_bind,
      List.foldlM_cons, Draft.addLine, hline, hlift, pure_bind]
    exact ⟨_, rfl⟩
  obtain ⟨set, hset⟩ := hread
  exact ⟨⟨_, outcome_parse_eq_ok.2 ⟨rfl, set, hset, rfl⟩⟩, if_neg (by omega)⟩

end Machine

end ScenarioScript
