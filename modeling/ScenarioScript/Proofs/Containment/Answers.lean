import ScenarioScript.Proofs.Containment.Holdings
import ScenarioScript.Proofs.Containment.Supply
import ScenarioScript.Proofs.Expression.Nesting
import ScenarioScript.Proofs.Loading.Gathering
import ScenarioScript.Proofs.Report.Rows

/-!
# Proofs/Containment/Answers — a set answers what it is asked

A set is asked for the texts of its bindings and headers, for what its steps evaluate, for the
settings in force, for the files that parameters send, and for a report.  `ScenarioSet.Answers` says
what it answers: each text is that of an expression and is not empty, of each expression every node
has what is taken from it, and a parameter that sends a file has the path of the file.

All of it comes of the expressions: a set answers if they do (`ScenarioSet.Holds.answers`), and an
expression that was read does (`Tree.answers_of_parseExpression`).
-/

namespace ScenarioScript

/-! ## Expressions -/

/-- **An expression answers what it is asked**: no text in it is empty, and every node has what is
taken from it. -/
structure Tree.Answers (t : Tree) : Prop where
  text : ∀ n ∈ t.preorder, n.text ≠ ""
  usable : t.UsableThroughout

/-- A span of a piece of text is not empty. -/
theorem Span.Exact.text_ne {s : Span} {text : List Char} {line column : Int}
    (h : s.Exact text line column) : s.text ≠ "" := by
  intro hempty
  have hpiece := congrArg String.toList h.text_eq
  rw [String.toList_ofList, hempty] at hpiece
  have hlength : 0 = ((text.drop s.start).take (s.stop - s.start)).length :=
    congrArg List.length hpiece
  have hlt := h.start_lt_stop
  have hle := h.stop_le
  rw [List.length_take, List.length_drop] at hlength
  omega

namespace Tree

variable {t : Tree}

/-- **An expression that was read** answers. -/
theorem answers_of_parseExpression {text : List Char} {line column : Int} {allowCompare : Bool}
    (h : parseExpression text line column allowCompare = .ok t) : t.Answers where
  text n hn := ((parseExpression_laid h).2.exact n hn).text_ne
  usable := usable_of_parseExpression h

theorem Answers.text_ne (h : t.Answers) : t.text ≠ "" := h.text t t.self_mem_preorder

theorem Answers.child (h : t.Answers) {m : Tree} (hm : m ∈ t.children) : m.Answers where
  text n hn := h.text n (mem_preorder_of_mem_children hm hn)
  usable n hn := h.usable n (mem_preorder_of_mem_children hm hn)

/-- **The arguments of a call** answer if the call does. -/
theorem Answers.callArgs (h : t.Answers) : ∀ a ∈ t.callArgs, a.Answers := by
  intro a ha
  rw [Tree.callArgs] at ha
  cases hchild : t.child? .args with
  | none =>
    rw [hchild] at ha
    exact absurd ha List.not_mem_nil
  | some args =>
    rw [hchild] at ha
    exact (h.child (List.mem_of_find?_eq_some hchild)).child ha

end Tree

/-- **What is said answers**: the expression in a statement was read from its line. -/
theorem Says.answers {unit : Option Int} {text : String} {s : Statement} (h : Says unit text s) :
    ∀ t ∈ s.command.expr?, t.Answers := by
  obtain ⟨_, _, _, _, hs⟩ := h
  obtain ⟨_, _, _, -, hreads⟩ := reads_of_classify hs
  intro t ht
  obtain ⟨_, _, _, -, hparse⟩ := hreads t ht
  exact Tree.answers_of_parseExpression hparse

/-! ## Texts -/

/-- **The texts of expressions**: one for each, its own, and not empty. -/
def TextsOf (values : List Tree) (texts : List String) : Prop :=
  List.Forall₂ (fun t text => text = t.text ∧ text ≠ "") values texts

/-- **The texts of bindings**: the same, each under its name. -/
def BindingTextsOf (bindings : OrderedMap String Tree) (texts : List (String × String)) : Prop :=
  List.Forall₂ (fun e row => row.1 = e.1 ∧ row.2 = e.2.text ∧ row.2 ≠ "") bindings.entries texts

theorem textsOf_map {values : List Tree} (h : ∀ t ∈ values, t.Answers) :
    TextsOf values (values.map (·.text)) :=
  List.forall₂_map_right_iff.2 (List.forall₂_same.2 fun t ht => ⟨rfl, (h t ht).text_ne⟩)

theorem TextsOf.text_ne {values : List Tree} {texts : List String} (h : TextsOf values texts) :
    ∀ text ∈ texts, text ≠ "" := by
  induction h with
  | nil => exact List.forall_mem_nil _
  | cons htext _ ih => exact List.forall_mem_cons.2 ⟨htext.2, ih⟩

theorem bindingTextsOf_map {bindings : OrderedMap String Tree} (h : bindings.All Tree.Answers) :
    BindingTextsOf bindings (bindings.entries.map fun e => (e.1, e.2.text)) :=
  List.forall₂_map_right_iff.2
    (List.forall₂_same.2 fun e he => ⟨rfl, rfl, (h e he).text_ne⟩)

/-! ## The parts of a set -/

/-- **Settings answer.** -/
structure Config.Answers (c : Config) : Prop where
  values : c.Holds Tree.Answers
  headerTexts : TextsOf c.headers c.headerTexts

/-- **A parameter answers**: if it sends a file, the first argument is the path and the second, if
there is one, the name. -/
structure Param.Answers (p : Param) : Prop where
  value : p.value.Answers
  file : p.isFile = true → ∃ path names, p.value.callArgs = path :: names ∧ names.length ≤ 1 ∧
    p.filePath? = some path ∧ p.fileName? = names.head? ∧ ∀ a ∈ path :: names, a.Answers
  noFile : p.isFile = false → p.filePath? = none ∧ p.fileName? = none

/-- **A step answers.** -/
structure Step.Answers (s : Step) : Prop where
  expressions : ∀ t ∈ s.expressions, t.Answers
  targetText : TextsOf s.target.toList s.targetText?.toList
  config : s.config.Answers
  params : ∀ p ∈ s.params, p.Answers

/-- **A scenario answers**, and so do the settings that are in force for its steps. -/
structure Scenario.Answers (s : Scenario) : Prop where
  bindingTexts : BindingTextsOf s.bindings s.bindingTexts
  config : s.config.Answers
  steps : ∀ step ∈ s.steps, step.Answers
  stepConfig : ∀ step ∈ s.steps, (s.stepConfig step).Answers

/-! ### What a report tells -/

/-- The texts of expressions that a report tells of a parameter. -/
def Param.Summary.texts (x : Param.Summary) : List String :=
  x.text :: (x.filePath.toList ++ x.fileName.toList)

/-- The texts of expressions that a report tells of a step. -/
def Step.Summary.texts (x : Step.Summary) : List String :=
  x.target.toList ++ x.headers ++ x.params.flatMap Param.Summary.texts ++ x.expects ++
    x.sets.map (·.2)

/-- The texts of expressions that a report tells of a scenario. -/
def Scenario.Summary.texts (x : Scenario.Summary) : List String :=
  x.bindings.map (·.2) ++ x.steps.flatMap Step.Summary.texts

/-- **A set answers what it is asked.** -/
structure ScenarioSet.Answers (set : ScenarioSet) : Prop where
  bindingTexts : BindingTextsOf set.bindings set.bindingTexts
  config : set.config.Answers
  scenarios : ∀ scenario ∈ set.scenarios, scenario.Answers
  groups : ∀ entry ∈ set.groups.entries, ∀ step, GroupItem.step step ∈ entry.2.items → step.Answers
  /-- The report has a line for each group, and each scenario in rows. -/
  report : Report.lines set =
    set.groups.entries.map (fun entry => Report.groupLine entry.1 entry.2) ++
      (set.scenarios.flatMap (·.summary.rows)).map Row.shown
  /-- No text that it tells is empty. -/
  reported : ∀ scenario ∈ set.scenarios, ∀ text ∈ scenario.summary.texts, text ≠ ""

/-! ## A set answers if its expressions do -/

theorem Config.Holds.answers {c : Config} (h : c.Holds Tree.Answers) : c.Answers where
  values := h
  headerTexts := textsOf_map h.headers

theorem Param.answers {p : Param} (h : p.value.Answers) (hformed : p.wellFormed = true) :
    p.Answers where
  value := h
  file hfile := by
    rw [wellFormed, hfile, Bool.not_true, Bool.false_or, Bool.and_eq_true, decide_eq_true_iff,
      decide_eq_true_iff] at hformed
    have hargs := h.callArgs
    obtain ⟨hfirst, hsecond⟩ := hformed
    rw [filePath?, fileName?, if_pos hfile, if_pos hfile]
    cases hrow : p.value.callArgs with
    | nil => exact absurd (hrow ▸ hfirst) (by decide)
    | cons path names =>
      rw [hrow] at hargs hsecond
      exact ⟨path, names, rfl, Nat.le_of_succ_le_succ hsecond, rfl, by cases names <;> rfl, hargs⟩
  noFile hfile := by
    have hno : ¬p.isFile = true := Bool.not_eq_true _ ▸ hfile
    exact ⟨if_neg hno, if_neg hno⟩

theorem Step.Holds.answers {s : Step} (h : s.Holds Tree.Answers) : s.Answers where
  expressions := h.expressions
  targetText := by
    rw [targetText?, Option.toList_map]
    exact textsOf_map fun t ht => h.target t (Option.mem_toList.1 ht)
  config := h.config.answers
  params p hp := Param.answers (h.params p hp).1 (h.params p hp).2

theorem Scenario.Holds.answers {s : Scenario} (h : s.Holds Tree.Answers) : s.Answers where
  bindingTexts := bindingTextsOf_map h.bindings
  config := h.config.answers
  steps step hstep := (h.steps step hstep).answers
  stepConfig step hstep := (h.stepConfig (h.steps step hstep)).answers

theorem Param.Answers.summary {p : Param} (h : p.Answers) : ∀ text ∈ p.summary.texts, text ≠ "" := by
  refine List.forall_mem_cons.2 ⟨h.value.text_ne, ?_⟩
  by_cases hfile : p.isFile = true
  · obtain ⟨path, names, -, -, hpath, hname, hanswers⟩ := h.file hfile
    rw [Param.summary, hpath, hname]
    refine List.forall_mem_append.2 ⟨fun text htext => ?_, fun text htext => ?_⟩
    · obtain rfl := List.mem_singleton.1 htext
      exact (hanswers path List.mem_cons_self).text_ne
    · obtain ⟨name, hmem, rfl⟩ := Option.map_eq_some_iff.1 (Option.mem_toList.1 htext)
      exact (hanswers name (List.mem_cons_of_mem _ (List.mem_of_head? hmem))).text_ne
  · obtain ⟨hpath, hname⟩ := h.noFile (Bool.not_eq_true _ ▸ hfile)
    rw [Param.summary, hpath, hname]
    exact List.forall_mem_nil _

/-- **What a report tells of a step** are texts that are not empty. -/
theorem Step.Holds.summary {s : Step} (h : s.Holds Tree.Answers) :
    ∀ text ∈ s.summary.texts, text ≠ "" := by
  have hparams : ∀ text ∈ s.summary.params.flatMap Param.Summary.texts, text ≠ "" := by
    intro text htext
    obtain ⟨_, hx, htext⟩ := List.mem_flatMap.1 htext
    obtain ⟨p, hp, rfl⟩ := List.mem_map.1 hx
    exact (h.answers.params p hp).summary text htext
  have hsets : ∀ text ∈ s.summary.sets.map (·.2), text ≠ "" := by
    intro text htext
    obtain ⟨_, hx, rfl⟩ := List.mem_map.1 htext
    obtain ⟨b, hb, rfl⟩ := List.mem_map.1 hx
    exact (h.sets b hb).text_ne
  have htexts : ∀ text ∈ s.summary.target.toList ++ s.summary.headers, text ≠ "" :=
    List.forall_mem_append.2 ⟨h.answers.targetText.text_ne, h.config.answers.headerTexts.text_ne⟩
  exact List.forall_mem_append.2 ⟨List.forall_mem_append.2
    ⟨List.forall_mem_append.2 ⟨htexts, hparams⟩, (textsOf_map h.expects).text_ne⟩, hsets⟩

theorem Scenario.Holds.summary {s : Scenario} (h : s.Holds Tree.Answers) :
    ∀ text ∈ s.summary.texts, text ≠ "" := by
  refine List.forall_mem_append.2 ⟨fun text htext => ?_, fun text htext => ?_⟩
  · obtain ⟨_, hx, rfl⟩ := List.mem_map.1 htext
    obtain ⟨e, he, rfl⟩ := List.mem_map.1 hx
    exact (h.bindings e he).text_ne
  · obtain ⟨_, hx, htext⟩ := List.mem_flatMap.1 htext
    obtain ⟨step, hstep, rfl⟩ := List.mem_map.1 hx
    exact (h.steps step hstep).summary text htext

/-- **A set answers** if the expressions in it do. -/
theorem ScenarioSet.Holds.answers {set : ScenarioSet} (h : set.Holds Tree.Answers) :
    set.Answers where
  bindingTexts := bindingTextsOf_map h.bindings
  config := h.config.answers
  scenarios scenario hscenario := (h.scenarios scenario hscenario).answers
  groups entry hentry step hstep := (h.groups entry hentry step hstep).answers
  report := by
    rw [Report.lines, List.map_flatMap]
    exact congrArg _ (List.flatMap_congr fun s _ => s.shown_rows.symm)
  reported scenario hscenario := (h.scenarios scenario hscenario).summary

end ScenarioScript
