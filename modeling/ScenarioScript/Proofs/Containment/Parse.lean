import ScenarioScript.Proofs.Containment.Answers
import ScenarioScript.Proofs.Containment.Calls
import ScenarioScript.Proofs.Containment.Failing
import ScenarioScript.Proofs.Containment.Paths

/-!
# Proofs/Containment/Parse — reading a script is contained

Every stage of reading a script takes something from what an earlier stage has left: words from a
line, tokens from a row, an expression from a statement, arguments from an expression.
`parse_contained` says that what is taken is there, so a script gives a set or has a failure that is
accounted for; and what is asked of the set afterwards is there as well
(`Proofs/Containment/Answers`).

There are two ways out that should not be.  A load whose path holds a null character fails with what
the system says (`not_parse_declared`).  And a machine may not have room for the calls that a script
takes (`Proofs/Containment/Calls`).
-/

namespace ScenarioScript

open Relation Outcome

variable {P : Tree → Prop} {env : Environment} {path : Option String} {text : String}

/-! ## What a set is made of -/

/-- **A text is built** from what it says and what it loads. -/
theorem Draft.holds_build {site : Site} {unit : Option Int}
    (hload : ∀ load, IsLoadOf site unit text load → Yields (ScenarioSet.Holds P) load.outcome)
    (hvalues : ∀ s, Says unit text s → ∀ t ∈ s.command.expr?, P t) :
    Yields (ScenarioSet.Holds P) (build site unit {} text).outcome := by
  intro set hset
  obtain ⟨lines, hlines, hset⟩ := Traced.outcome_bind_eq_ok.1 hset
  obtain ⟨d, hd, hclose⟩ := Traced.outcome_bind_eq_ok.1 hset
  have hstep : ∀ line ∈ lines, ∀ d : Draft, d.Holds P →
      Yields (Draft.Holds P) (addLine site d line).outcome := by
    intro line hline d hd d' hadd
    obtain ⟨s, hs, hadd⟩ := Traced.outcome_bind_eq_ok.1 hadd
    have hsaid : Says unit text s := ⟨lines, hlines, line, hline, hs⟩
    exact hd.add (hvalues s hsaid)
      (fun target hcommand => hload _ ⟨s, target, hsaid, hcommand, rfl⟩) d' hadd
  have hempty : Draft.Holds P {} := ⟨ScenarioSet.holds_empty, trivial⟩
  have hholds : d.Holds P := Traced.yields_foldlM hstep hempty d hd
  exact hholds.closeAll.mapError set hclose

/-- **What a script defines** is made of expressions that answer.  The induction is on entering,
which ends. -/
theorem holds_readScript (env : Environment) (s : Script) :
    Yields (ScenarioSet.Holds Tree.Answers)
      (readScript env s.loading s.path s.text).outcome := by
  induction s using (wellFounded_enters env).induction with
  | _ s ih =>
    rw [readScript_eq, Traced.outcome_mapFault]
    refine Yields.mapError (Draft.holds_build (fun load hload => ?_) fun _ => Says.answers)
    obtain ⟨_, _, _, _, _, houtcome⟩ | ⟨d, houtcome, _⟩ | ⟨inner, _, henters, houtcome⟩ :=
      hload.outcome_cases
    · rw [houtcome]
      exact .error _
    · rw [houtcome]
      exact .error _
    · rw [houtcome]
      exact (ih inner henters).mapError

/-! ## What is taken on the way -/

/-- **Behind every token but the end** there is another. -/
theorem exists_next_of_tokenize {line column : Int} {text : List Char} {row : List Token}
    (h : tokenize line column text = .ok row) :
    row ≠ [] ∧ ∀ i t, row[i]? = some t → t.kind ≠ .eof → ∃ next, row[i + 1]? = some next := by
  obtain ⟨tokens, -, rfl⟩ := map_eq_ok.1 h
  refine ⟨List.append_ne_nil_of_right_ne_nil tokens (List.cons_ne_nil _ _), fun i t ht hkind => ?_⟩
  have hi : i < tokens.length := by
    by_contra hge
    rw [List.getElem?_append_right (Nat.le_of_not_lt hge)] at ht
    obtain rfl := List.mem_singleton.1 (List.mem_of_getElem? ht)
    exact hkind rfl
  exact ⟨_, List.getElem?_eq_getElem (by simpa using hi)⟩

/-- **Nothing is missing** of what is taken from a text, from its lines to its statements. -/
structure NothingMissing (unit : Option Int) (text : String) : Prop where
  /-- Indentation that is not faulty is measured in a unit of some width. -/
  laidOut : FailsOnly Failure.InText (Layout.scan unit text)
  /-- A line has a first word, and so has its argument, if there is one. -/
  words : ∀ lines, Layout.scan unit text = .ok lines → ∀ line ∈ lines,
    ∃ word argument offset, splitStatement? line.text.toList = some (word, argument, offset) ∧
      word ≠ [] ∧ (argument ≠ [] → (Text.cutWord argument).word ≠ [])
  /-- A line is a statement, or it is faulty. -/
  classified : ∀ lines, Layout.scan unit text = .ok lines → ∀ line ∈ lines,
    FailsOnly Failure.InText (classify line)
  /-- A statement has what its keyword asks for. -/
  supplied : ∀ s, Says unit text s → ∃ k, s.command.Supplied k
  /-- A step that needs a target has one. -/
  targeted : ∀ s, Says unit text s → ∀ kind target, s.command = .step kind target →
    ∀ path, ∃ step, Draft.newStep path s kind target = .ok step

theorem nothingMissing {unit : Option Int} (hunit : ∀ width ∈ unit, 0 < width) (text : String) :
    NothingMissing unit text where
  laidOut := Layout.inText_scan hunit text
  words _ hlines line hline := (Layout.clean_of_mem_scan hlines line hline).exists_splitStatement
  classified _ hlines line hline := inText_classify (Layout.clean_of_mem_scan hlines line hline)
  supplied _ h := by
    obtain ⟨_, _, _, _, hs⟩ := h
    exact supplied_of_classify hs
  targeted s h kind target hcommand path := by
    obtain ⟨_, _, _, _, hs⟩ := h
    exact Draft.exists_newStep (complete_of_classify hs) hcommand path

/-! ## Reading a script -/

/-- **Reading a script is contained.**  The text is a row of characters, and half of a surrogate pair
is none.  What a set answers takes calls as well, for copies of settings; `answers` is about a machine
that has room for these. -/
structure Contained (env : Environment) (path : Option String) (text : String) : Prop where
  /-- A failure is accounted for by what is written in the scripts that are reached, unless it is
  for a null character in the path that is given. -/
  fails : ∀ failure, (parse env path text).outcome = .error failure →
    (path.any Path.holdsNull = true ∧ failure = .nullInPath) ∨
      failure.Accounted env (env.main path text)
  /-- On a machine with room for the calls that the script takes, and where no path has a null
  character, a failure is a fault or for a count that is too long. -/
  declared : ∀ m : Machine, m.calls env path text ≤ m.room →
    env.workspace.directory.Plain → env.options.baseDirectory.any Path.holdsNull = false →
    path.any Path.holdsNull = false →
    (∀ s, ReflTransGen (Enters env) (env.main path text) s →
      ∀ statement, Says env.unit s.text statement →
        ∀ written, statement.command = .load written → Path.holdsNull written = false) →
    ∀ broken, m.parse env path text = .error broken →
      (∃ d, broken = .failed (.fault d) ∧ d.cause.isOfScript = true) ∨
        broken = .failed .numeralTooLong
  /-- A machine without room for them runs out of calls, and no other does. -/
  outOfCalls : ∀ m : Machine,
    m.parse env path text = .error .outOfCalls ↔ m.room < m.calls env path text
  /-- In every script that is reached, nothing is missing. -/
  texts : ∀ s, ReflTransGen (Enters env) (env.main path text) s → NothingMissing env.unit s.text
  /-- Rows of tokens do not end early. -/
  tokens : ∀ line column text row, tokenize line column text = .ok row →
    row ≠ [] ∧ ∀ i t, row[i]? = some t → t.kind ≠ .eof → ∃ next, row[i + 1]? = some next
  /-- A set that comes of it answers what it is asked. -/
  answers : ∀ set, (parse env path text).outcome = .ok set → set.Answers

/-- A failure of reading a script is accounted for, unless it is for the path that is given. -/
theorem accounted_parse {failure : Failure}
    (h : (parse env path text).outcome = .error failure) :
    (path.any Path.holdsNull = true ∧ failure = .nullInPath) ∨
      failure.Accounted env (env.main path text) := by
  obtain hnull | ⟨-, hread⟩ := outcome_parse_eq_error.1 h
  · exact .inl hnull
  · exact .inr (accounted_readScript env (env.main path text) failure hread)

/-- **A path without a null character** stands for one without. -/
theorem Environment.plain_main (hdirectory : env.workspace.directory.Plain)
    (hbase : env.options.baseDirectory.any Path.holdsNull = false)
    (hpath : path.any Path.holdsNull = false) : env.Plain (env.main path text).path where
  directory := hdirectory
  base := hbase
  path p hp := by
    obtain ⟨written, hwritten, rfl⟩ := Option.map_eq_some_iff.1 hp
    rw [hwritten] at hpath
    exact hdirectory.resolve hpath

/-- **Every script is read** to a set, or to a failure that is accounted for, with nothing missing on
the way or in the end. -/
theorem parse_contained (env : Environment) (path : Option String) (text : String) :
    Contained env path text where
  fails failure := accounted_parse
  declared m hroom hdirectory hbase hpath hloads broken h := by
    obtain ⟨failure, hfails, rfl⟩ := m.exists_failure_of_parse hroom h
    obtain ⟨hnull, -⟩ | haccounted := accounted_parse hfails
    · exact absurd (hpath.symm.trans hnull) nofun
    cases haccounted with
    | fault hcause => exact .inl ⟨_, rfl, hcause⟩
    | tooLong _ _ _ _ => exact .inr rfl
    | nullInPath hreached hsaid hcommand hnull =>
      have hplain := (Environment.plain_main hdirectory hbase hpath).of_reached hreached
      have hreaches := hplain.reaches (hloads _ hreached _ hsaid _ hcommand)
      exact absurd (hnull.symm.trans hreaches) nofun
  outOfCalls m := m.parse_eq_outOfCalls
  texts s _ := nothingMissing env.unit_pos s.text
  tokens _ _ _ _ := exists_next_of_tokenize
  answers set h := by
    obtain ⟨-, before, hread, rfl⟩ := outcome_parse_eq_ok.1 h
    exact (holds_readScript env (env.main path text) before hread).nameAnonymous.answers

/-- **A failure that should not be**: a script that loads a path with a null character in it neither
has a fault nor a count that is too long. -/
theorem not_parse_declared : ¬ ∀ env path text failure,
    (parse env path text).outcome = .error failure →
      (∃ d, failure = .fault d) ∨ failure = .numeralTooLong := by
  intro h
  have hfails : (parse {} none "load \"a\x00b\"\n").outcome = .error .nullInPath := by decide +kernel
  obtain ⟨d, hd⟩ | hlong := h _ _ _ _ hfails
  · cases hd
  · cases hlong

end ScenarioScript
