import ScenarioScript.Proofs.Blocks.Progress
import ScenarioScript.Proofs.Expression.Atoms
import ScenarioScript.Proofs.Form.Command
import ScenarioScript.Proofs.Loading.Acyclic
import ScenarioScript.Proofs.Scope.Scoping

/-!
# Proofs/Settings/Flags — truth values and strings as they are read

A statement that sets a **flag** has a truth value, or none, and then the flag holds.  The value is
read off its text, and so is the value of a string; but a literal may stand in parentheses, and these
belong to its text.

* `Draft.exists_flag_of_add` — what a statement that sets a flag puts into the open block;
* `flagAgrees_iff` — the flag is what the token says, unless the token is `true` and in parentheses;
* `parse_literals` — so it is with every statement of every script that is read, and with the values
  of all strings.
-/

namespace ScenarioScript

open Outcome Relation

/-! ## Statements that set a flag -/

/-- **The value of a flag**, if the command sets one. -/
def Command.flag? : Command → Option (Option Tree)
  | .json value | .setting (.followRedirects value) => some value
  | _ => none

namespace Draft

variable {site : Site} {d d' : Draft} {s : Statement} {value : Option Tree}

/-- The step that is open. -/
def step? (d : Draft) : Option Step :=
  match d.block with
  | .scenarioStep _ step | .groupStep _ step => some step
  | _ => none

/-- The settings of the open block, or those at top level. -/
def config? (d : Draft) : Option Config :=
  match d.block with
  | .root => some d.finished.config
  | .scenario s => some s.config
  | .group _ => none
  | .scenarioStep _ step | .groupStep _ step => some step.config

/-- **The flag that is stored** where such a command stores one. -/
def flag? (d : Draft) : Command → Option Bool
  | .json _ => d.step?.bind Step.json
  | .setting (.followRedirects _) => d.config?.bind Config.followRedirects
  | _ => none

/-- `json` stands in a step, and is stored there. -/
theorem exists_flag_of_json (hcommand : s.command = .json value)
    (h : (d.takeIn site s).outcome = .ok d') :
    ∃ flag, flagValue s.word value = .ok flag ∧ d'.flag? s.command = some flag := by
  obtain ⟨command, argument, depth, line, column⟩ := s
  obtain rfl : command = .json value := hcommand
  obtain ⟨finished, block⟩ := d
  cases block with
  | root => exact absurd h error_ne_ok
  | scenario | group =>
    rw [takeIn, Traced.outcome_bind_pure, map_eq_ok] at h
    obtain ⟨_, hblock, -⟩ := h
    exact absurd hblock error_ne_ok
  | scenarioStep | groupStep =>
    rw [takeIn, Traced.outcome_bind_pure, map_eq_ok] at h
    obtain ⟨step, hstep, rfl⟩ := h
    obtain ⟨flag, hflag, rfl⟩ := map_eq_ok.1 hstep
    exact ⟨flag, hflag, rfl⟩

/-- `follow_redirects` stands anywhere but directly in a group. -/
theorem exists_flag_of_followRedirects (hcommand : s.command = .setting (.followRedirects value))
    (h : (d.takeIn site s).outcome = .ok d') :
    ∃ flag, flagValue s.word value = .ok flag ∧ d'.flag? s.command = some flag := by
  have happly : ∀ {c c' : Config}, c.apply (.followRedirects value) = .ok c' →
      ∃ flag, flagValue SettingKey.followRedirects.word value = .ok flag ∧
        c'.followRedirects = some flag := by
    intro c c' h
    obtain ⟨flag, hflag, rfl⟩ := map_eq_ok.1 h
    exact ⟨flag, hflag, rfl⟩
  obtain ⟨command, argument, depth, line, column⟩ := s
  obtain rfl : command = .setting (.followRedirects value) := hcommand
  obtain ⟨finished, block⟩ := d
  cases block with
  | root =>
    simp only [takeIn, addToRoot, Traced.outcome_bind_pure, map_eq_ok] at h
    obtain ⟨config, hconfig, rfl⟩ := h
    exact happly hconfig
  | group =>
    rw [takeIn, Traced.outcome_bind_pure, map_eq_ok] at h
    obtain ⟨_, hblock, -⟩ := h
    exact absurd hblock error_ne_ok
  | scenario | scenarioStep | groupStep =>
    rw [takeIn, Traced.outcome_bind_pure, map_eq_ok] at h
    obtain ⟨_, hblock, rfl⟩ := h
    obtain ⟨config, hconfig, rfl⟩ := map_eq_ok.1 hblock
    exact happly hconfig

/-- **A flag is stored** as its value is read. -/
theorem exists_flag_of_add (hvalue : s.command.flag? = some value)
    (h : (d.add site s).outcome = .ok d') :
    ∃ flag, flagValue s.word value = .ok flag ∧ d'.flag? s.command = some flag := by
  obtain ⟨c, -, -, htake⟩ := add_eq_ok.1 h
  cases hcommand : s.command with
  | json =>
    rw [hcommand] at hvalue
    obtain rfl := Option.some.inj hvalue
    exact hcommand ▸ exists_flag_of_json hcommand htake
  | setting choice =>
    rw [hcommand] at hvalue
    cases choice with
    | followRedirects =>
      obtain rfl := Option.some.inj hvalue
      exact hcommand ▸ exists_flag_of_followRedirects hcommand htake
    | _ => exact absurd hvalue nofun
  | _ =>
    rw [hcommand] at hvalue
    exact absurd hvalue nofun

end Draft

/-! ## Flags and their tokens -/

variable {word : String} {value : Option Tree} {flag : Bool} {t : Tree} {token : Token}

/-- **The flag says what is written**: it holds if there is no value or the token is `true`, and does
not hold if the token is `false`. -/
structure FlagAgrees (value : Option Tree) (flag : Bool) : Prop where
  holds : flag = true ↔
    value = none ∨ ∃ t token, value = some t ∧ t.IsAtom .bool token ∧ token.kind = .trueWord
  fails : flag = false ↔
    ∃ t token, value = some t ∧ t.IsAtom .bool token ∧ token.kind = .falseWord

/-- **A flag is read** off the text of its value, if there is one. -/
theorem flagValue_eq_ok : flagValue word value = .ok flag ↔
    value = none ∧ flag = true ∨
      ∃ t, value = some t ∧ t.label? = some .bool ∧ flag = (t.text == "true") := by
  cases value with
  | none => simp [flagValue, eq_comm]
  | some t =>
    by_cases hlabel : t.label? = some .bool
    · simp [flagValue, hlabel, eq_comm]
    · simp [flagValue, hlabel, refuseValue]

/-- **To agree with a literal** is to hold exactly if its token is `true`. -/
theorem flagAgrees_some_iff (h : t.IsAtom .bool token) :
    FlagAgrees (some t) flag ↔ (flag = true ↔ token.kind = .trueWord) := by
  have hkind : ∀ kind, (∃ u token', some t = some u ∧ u.IsAtom .bool token' ∧ token'.kind = kind) ↔
      token.kind = kind := by
    refine fun kind => ⟨?_, fun hkind => ⟨t, token, rfl, h, hkind⟩⟩
    rintro ⟨u, token', hu, hatom, hkind⟩
    obtain rfl := Option.some.inj hu
    exact h.token_eq hatom ▸ hkind
  have hnone : ¬some t = none := Option.some_ne_none t
  constructor
  · intro hagrees
    rw [hagrees.holds, hkind, or_iff_right hnone]
  · intro hiff
    refine ⟨by rw [hkind, or_iff_right hnone, hiff], ?_⟩
    rw [hkind, ← Bool.not_eq_true, hiff]
    obtain ⟨htrue, -⟩ | ⟨hfalse, -⟩ := h.text_eq
    · simp [htrue]
    · simp [hfalse]

/-- **A text that is `true`** has the token `true`. -/
theorem Tree.IsAtom.kind_of_text (h : t.IsAtom .bool token) (htext : t.text = "true") :
    token.kind = .trueWord := by
  obtain ⟨hkind, -⟩ | ⟨-, hfalse⟩ := h.text_eq
  · exact hkind
  · have hwrapped := h.wrapped.eq_or_length_lt
    rw [hfalse, htext] at hwrapped
    exact absurd hwrapped (by decide)

theorem Tree.IsAtom.text_of_kind (h : t.IsAtom .bool token) (hkind : token.kind = .trueWord) :
    token.text = "true" := by
  obtain ⟨-, htext⟩ | ⟨hfalse, -⟩ := h.text_eq
  · exact htext
  · exact absurd (hkind.symm.trans hfalse) (by decide)

/-- **A flag agrees with its value**, unless this is the token `true` in parentheses. -/
theorem flagAgrees_iff (h : flagValue word value = .ok flag) (hlegible : ∀ t ∈ value, t.Legible false) :
    (∀ t ∈ value, ∃ token, t.IsAtom .bool token) ∧ (flag = true ↔ ∀ t ∈ value, t.text = "true") ∧
      (FlagAgrees value flag ↔ ∀ t ∈ value, ∀ token, t.IsAtom .bool token →
        token.kind = .trueWord → t.text = token.text) := by
  obtain ⟨rfl, rfl⟩ | ⟨t, rfl, hlabel, rfl⟩ := flagValue_eq_ok.1 h
  · exact ⟨nofun, iff_of_true rfl nofun,
      iff_of_true ⟨iff_of_true rfl (.inl rfl), iff_of_false nofun nofun⟩ nofun⟩
  obtain ⟨text, line, column, -, hread⟩ := (hlegible t rfl).read
  obtain ⟨token, htoken⟩ := exists_isAtom_of_mem_preorder hread t.self_mem_preorder hlabel rfl
  simp only [Option.mem_some_iff, forall_eq', beq_iff_eq, true_and, flagAgrees_some_iff htoken]
  refine ⟨⟨token, htoken⟩, fun hiff token' htoken' hkind => ?_, fun hbare => ⟨htoken.kind_of_text, ?_⟩⟩
  · obtain rfl := htoken.token_eq htoken'
    exact (hiff.2 hkind).trans (htoken.text_of_kind hkind).symm
  · exact fun hkind => (hbare token htoken hkind).trans (htoken.text_of_kind hkind)

/-! ## Scripts that are read -/

variable {env : Environment} {path : Option String} {text : String} {set : ScenarioSet} {s : Script}

/-- **Every script that is reached** from a script that is parsed succeeds. -/
theorem succeeds_of_reached (h : (parse env path text).outcome = .ok set)
    (hs : ReflTransGen (Enters env) (env.main path text) s) : s.Succeeds env := by
  obtain ⟨-, unnamed, hread, -⟩ := outcome_parse_eq_ok.1 h
  induction hs with
  | refl => exact ⟨unnamed, hread⟩
  | tail _ henters ih => exact ih.enters henters

/-- **Every statement of a script that succeeds** is taken in, when the script has come to it. -/
theorem Script.Succeeds.exists_add (hs : s.Succeeds env) {lines : List ScriptLine} {line : ScriptLine}
    {statement : Statement} (hlines : Layout.scan env.unit s.text = .ok lines) (hline : line ∈ lines)
    (hstatement : classify line = .ok statement) :
    ∃ below d d', Draft.ComesTo (env.site s.loading s.path) env.unit s.text d (line :: below) ∧
      (d.add (env.site s.loading s.path) statement).outcome = .ok d' := by
  obtain ⟨set, hread⟩ := hs
  rw [readScript_eq, Traced.outcome_mapFault, mapError_eq_ok, Draft.build,
    Traced.outcome_bind_eq_ok] at hread
  obtain ⟨scanned, hscan, hread⟩ := hread
  obtain rfl := Except.ok.inj (hlines.symm.trans hscan)
  obtain ⟨above, below, rfl⟩ := List.append_of_mem hline
  obtain ⟨last, hlast, -⟩ := Traced.outcome_bind_eq_ok.1 hread
  rw [List.foldlM_append, Traced.outcome_bind_eq_ok] at hlast
  obtain ⟨d, habove, hbelow⟩ := hlast
  rw [List.foldlM_cons, Traced.outcome_bind_eq_ok] at hbelow
  obtain ⟨d', hadd, -⟩ := hbelow
  obtain ⟨statement', hstatement', hadd⟩ := Traced.outcome_bind_eq_ok.1 hadd
  obtain rfl := Except.ok.inj (hstatement.symm.trans hstatement')
  exact ⟨below, d, d', ⟨above, hlines, habove⟩, hadd⟩

/-- The values of the statements that set flags are what pieces of lines were read to. -/
theorem Says.legible_flag {unit : Option Int} {statement : Statement} {value : Option Tree}
    (h : Says unit text statement) (hvalue : statement.command.flag? = some value) :
    ∀ t ∈ value, t.Legible false := by
  have hcommand := h.wellFormed.command
  cases hname : statement.command with
  | json =>
    rw [hname] at hvalue hcommand
    obtain rfl := Option.some.inj hvalue
    exact hcommand
  | setting choice =>
    rw [hname] at hvalue hcommand
    cases choice with
    | followRedirects =>
      obtain rfl := Option.some.inj hvalue
      exact hcommand
    | _ => exact absurd hvalue nofun
  | _ =>
    rw [hname] at hvalue
    exact absurd hvalue nofun

/-- **Literals are read off their texts.**  A statement that sets a flag, in any script that a parsed
one comes to, stores whether its value is left out or has the text `true`; this is what the token of
the value says, unless it is `true` and in parentheses.  The value of a string is what is between the
quotes of its token, unless it is in parentheses. -/
theorem parse_literals (env : Environment) (path : Option String) (text : String)
    (written : List Char) (line column : Int) (allowCompare : Bool) :
    (∀ set, (parse env path text).outcome = .ok set →
      ∀ s, ReflTransGen (Enters env) (env.main path text) s →
      ∀ lines, Layout.scan env.unit s.text = .ok lines → ∀ scanned ∈ lines,
      ∀ statement value, classify scanned = .ok statement → statement.command.flag? = some value →
        ∃ below d d' flag,
          Draft.ComesTo (env.site s.loading s.path) env.unit s.text d (scanned :: below) ∧
          (d.add (env.site s.loading s.path) statement).outcome = .ok d' ∧
          d'.flag? statement.command = some flag ∧
          (∀ t ∈ value, ∃ token, t.IsAtom .bool token) ∧
          (flag = true ↔ ∀ t ∈ value, t.text = "true") ∧
          (FlagAgrees value flag ↔ ∀ t ∈ value, ∀ token, t.IsAtom .bool token →
            token.kind = .trueWord → t.text = token.text)) ∧
    ∀ tree, parseExpression written line column allowCompare = .ok tree →
      ∀ n ∈ tree.preorder, ∀ label, n.label? = some label → label = .string ∨ label = .auto →
        ∃ token mark contents, n.IsAtom label token ∧ Lexeme.isQuote mark = true ∧
          token.text.toList = mark :: (contents ++ [mark]) ∧
          (n.stringValue? = some (String.ofList contents) ↔ n.text = token.text) := by
  constructor
  · intro set h s hs lines hlines scanned hscanned statement value hstatement hvalue
    obtain ⟨below, d, d', hcomes, hadd⟩ :=
      (succeeds_of_reached h hs).exists_add hlines hscanned hstatement
    obtain ⟨flag, hflag, hstored⟩ := Draft.exists_flag_of_add hvalue hadd
    have hlegible := Says.legible_flag ⟨lines, hlines, scanned, hscanned, hstatement⟩ hvalue
    exact ⟨below, d, d', flag, hcomes, hadd, hstored, flagAgrees_iff hflag hlegible⟩
  · intro tree h n hn label hlabel hstring
    have hatom : label.isAtom = true := by obtain rfl | rfl := hstring <;> rfl
    obtain ⟨token, htoken⟩ := exists_isAtom_of_mem_preorder h hn hlabel hatom
    obtain ⟨mark, contents, hquote, -, hquoted⟩ := htoken.exists_quoted hstring
    exact ⟨token, mark, contents, htoken, hquote, hquoted, htoken.stringValue?_eq_iff hstring hquoted⟩

/-! ### A truth value in parentheses -/

/-- A step that sets a flag to `true`, in parentheses. -/
def wrappedFlag : String := "scenario s\n    reload\n        json (true)\n"

/-- The value of the flag. -/
def wrappedTrue : Tree :=
  .node .bool (.inLine "(true)" 3 14 0 6) [.leaf ⟨.trueWord, "true", 3, 15, 1, 5⟩]

theorem parse_wrappedFlag : ∃ set, (parse {} none wrappedFlag).outcome = .ok set := by
  have hrun : (parse {} none wrappedFlag).outcome.toOption.isSome = true := by decide +kernel
  obtain ⟨set, hset⟩ := Option.isSome_iff_exists.1 hrun
  exact ⟨set, toOption_eq_some.1 hset⟩

theorem scan_wrappedFlag : Layout.scan none wrappedFlag =
    .ok [⟨0, "scenario s", 1, 1⟩, ⟨1, "reload", 2, 5⟩, ⟨2, "json (true)", 3, 9⟩] := by
  decide +kernel

theorem classify_wrappedFlag : classify ⟨2, "json (true)", 3, 9⟩ =
    .ok ⟨.json (some wrappedTrue), "(true)", 2, 3, 9⟩ := by
  decide +kernel

theorem not_flagAgrees_wrappedTrue : ¬FlagAgrees (some wrappedTrue) false := by
  intro hagrees
  obtain ⟨t, token, ht, hatom, hkind⟩ := hagrees.fails.1 rfl
  obtain rfl := Option.some.inj ht
  obtain rfl := Tree.IsAtom.token_of_node hatom
  exact absurd hkind (by decide)

theorem parseExpression_wrappedString : ∃ tree, parseExpression "('a')".toList 1 1 false = .ok tree ∧
    tree.label? = some .string ∧ tree.firstText = "'a'" ∧ tree.stringValue? = some "'a'" := by
  have hrun : (parseExpression "('a')".toList 1 1 false).toOption.map (fun tree =>
      (tree.label?, tree.firstText, tree.stringValue?)) = some (some .string, "'a'", some "'a'") := by
    decide +kernel
  obtain ⟨tree, htree, hlook⟩ := Option.map_eq_some_iff.1 hrun
  simp only [Prod.mk.injEq] at hlook
  exact ⟨tree, toOption_eq_some.1 htree, hlook⟩

/-- Here neither is read as its token says. -/
theorem parse_literals_wrapped :
    (∃ below d d', Draft.ComesTo (Environment.site {} [] none) none wrappedFlag d
        (⟨2, "json (true)", 3, 9⟩ :: below) ∧
      (d.add (Environment.site {} [] none) ⟨.json (some wrappedTrue), "(true)", 2, 3, 9⟩).outcome =
        .ok d' ∧ d'.flag? (.json (some wrappedTrue)) = some false) ∧
    ∃ tree token, parseExpression "('a')".toList 1 1 false = .ok tree ∧
      tree.IsAtom .string token ∧ token.text = "'a'" ∧ tree.stringValue? ≠ some "a" := by
  constructor
  · obtain ⟨set, hset⟩ := parse_wrappedFlag
    obtain ⟨below, d, d', flag, hcomes, hadd, hstored, -, hflag, -⟩ :=
      (parse_literals {} none wrappedFlag [] 1 1 false).1 set hset _ .refl _ scan_wrappedFlag _
        (by simp) _ _ classify_wrappedFlag rfl
    obtain rfl : flag = false := eq_false_of_ne_true fun htrue =>
      absurd (hflag.1 htrue wrappedTrue rfl) (by decide)
    exact ⟨below, d, d', hcomes, hadd, hstored⟩
  · obtain ⟨tree, htree, hlabel, hfirst, hvalue⟩ := parseExpression_wrappedString
    obtain ⟨token, mark, contents, htoken, -, -, -⟩ :=
      (parse_literals {} none "" "('a')".toList 1 1 false).2 tree htree tree tree.self_mem_preorder
        .string hlabel (.inl rfl)
    refine ⟨tree, token, htree, htoken, ?_, by rw [hvalue]; decide⟩
    obtain ⟨span, rfl⟩ := htoken.eq_node
    exact hfirst

/-- **Not every literal** is read as its token says: a flag that is set to `true` in parentheses does
not hold, and the value of a string in parentheses has its quotes. -/
theorem not_parse_literals :
    (¬ ∀ (env : Environment) (path : Option String) (text : String) (set : ScenarioSet),
      (parse env path text).outcome = .ok set →
      ∀ s, ReflTransGen (Enters env) (env.main path text) s →
      ∀ lines, Layout.scan env.unit s.text = .ok lines → ∀ line ∈ lines,
      ∀ statement value, classify line = .ok statement → statement.command.flag? = some value →
        ∃ below d d' flag,
          Draft.ComesTo (env.site s.loading s.path) env.unit s.text d (line :: below) ∧
          (d.add (env.site s.loading s.path) statement).outcome = .ok d' ∧
          d'.flag? statement.command = some flag ∧ FlagAgrees value flag) ∧
    ¬ ∀ (text : List Char) (line column : Int) (allowCompare : Bool) (tree : Tree),
      parseExpression text line column allowCompare = .ok tree →
      ∀ n ∈ tree.preorder, n.label? = some .string ∨ n.label? = some .auto →
        n.stringValue? = some (String.ofList (n.firstText.toList.drop 1).dropLast) := by
  constructor
  · intro hall
    obtain ⟨set, hset⟩ := parse_wrappedFlag
    obtain ⟨below, d, d', flag, -, hadd, hstored, hagrees⟩ :=
      hall {} none wrappedFlag set hset _ .refl _ scan_wrappedFlag _ (by simp) _ _
        classify_wrappedFlag rfl
    obtain ⟨flag', hflag, hstored'⟩ := Draft.exists_flag_of_add rfl hadd
    obtain rfl := Option.some.inj (hstored.symm.trans hstored')
    obtain rfl : false = flag := Except.ok.inj hflag
    exact not_flagAgrees_wrappedTrue hagrees
  · intro hall
    obtain ⟨tree, htree, hlabel, hfirst, hvalue⟩ := parseExpression_wrappedString
    have hclaimed := hall _ _ _ _ _ htree tree tree.self_mem_preorder (.inl hlabel)
    rw [hvalue, hfirst] at hclaimed
    exact absurd hclaimed (by decide)

end ScenarioScript
