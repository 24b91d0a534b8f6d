import ScenarioScript.Proofs.Writing.Entries
import ScenarioScript.Report

/-!
# Proofs/Report/Rows — a report as rows of statements

What a report tells of a scenario is its summary: the key, the bindings, and what is told of the
steps.  The report of a set without groups is written in rows, each of them a keyword and its
argument, and which rows these are depends on the summaries alone (`describe_eq`).  The rows go in by
single steps (`stepwise_scenarios`), so they can be told apart again by their depth.
-/

namespace ScenarioScript

open Text

/-! ## What a report tells -/

/-- **What a report tells of a parameter**: its name and its text, and with that what file it
sends. -/
structure Param.Summary where
  name : String
  text : String
  isFile : Bool
  filePath : Option String
  fileName : Option String
  deriving DecidableEq, Repr

/-- What a report tells of the parameter. -/
def Param.summary (p : Param) : Param.Summary where
  name := p.name
  text := p.value.text
  isFile := p.isFile
  filePath := p.filePath?.map (·.text)
  fileName := p.fileName?.map (·.text)

/-- **What a report tells of a step**: names, and the texts of values. -/
structure Step.Summary where
  kind : StepKind
  target : Option String
  headers : List String := []
  samples : Option Nat := none
  warmup : Option Warmup := none
  params : List Param.Summary := []
  expects : List String := []
  sets : List (String × String) := []
  deriving DecidableEq, Repr

/-- What a report tells of the step. -/
def Step.summary (s : Step) : Step.Summary where
  kind := s.kind
  target := s.targetText?
  headers := s.config.headerTexts
  samples := s.config.samples
  warmup := s.config.warmup
  params := s.params.map Param.summary
  expects := s.expects.map (·.text)
  sets := s.sets.map fun binding => (binding.name, binding.value.text)

/-- **What a report tells of a scenario.** -/
structure Scenario.Summary where
  key : String
  bindings : List (String × String)
  steps : List Step.Summary
  deriving DecidableEq, Repr

/-- What a report tells of the scenario. -/
def Scenario.summary (s : Scenario) : Scenario.Summary where
  key := s.key
  bindings := s.bindingTexts
  steps := s.steps.map Step.summary

/-! ## The rows of a report -/

/-- **A keyword and its argument**, if there is one, as a row. -/
def Row.entry (depth : Nat) (k : Keyword) (argument : Option String) : Row :=
  ⟨depth, (Report.entry k.word argument).toList⟩

/-- A keyword with a name and a value, as a row. -/
def Row.binding (depth : Nat) (k : Keyword) (bound : String × String) : Row :=
  .entry depth k (some (Report.entry bound.1 (some bound.2)))

/-- The rows below the head of a step. -/
def Step.Summary.settingRows (x : Step.Summary) : List Row :=
  x.headers.map (fun text => .entry 2 (.setting .header) (some text)) ++
    (x.samples.map fun count => .entry 2 (.setting .samples) (some (toString count))).toList ++
    (x.warmup.map fun mode => .entry 2 (.setting .warmup) (some mode.text)).toList ++
    x.params.map (fun param => .binding 2 .param (param.name, param.text)) ++
    x.expects.map (fun text => .entry 2 .expect (some text)) ++
    x.sets.map (.binding 2 .bind)

/-- The rows of a step. -/
def Step.Summary.rows (x : Step.Summary) : List Row :=
  .entry 1 (.step x.kind) x.target :: x.settingRows

/-- The rows of a scenario. -/
def Scenario.Summary.rows (x : Scenario.Summary) : List Row :=
  .entry 0 .scenario (some x.key) ::
    (x.bindings.map (.binding 1 .bind) ++ x.steps.flatMap Step.Summary.rows)

/-- A row as a line of a report. -/
def Row.shown (r : Row) : String := String.ofList (r.line 4)

variable (k : Keyword) (argument : Option String)

theorem Row.shown_entry_zero : (Row.entry 0 k argument).shown = Report.entry k.word argument := by
  rw [Row.shown, Row.line, Row.entry]
  exact String.ofList_toList

/-- **One level further in.** -/
theorem Row.shown_entry_succ (depth : Nat) :
    (Row.entry (depth + 1) k argument).shown =
      Report.indent ++ (Row.entry depth k argument).shown := by
  rw [← String.toList_inj]
  simp [Row.shown, Row.line, Row.entry, Report.indent, Nat.mul_add, Nat.add_comm _ 4,
    List.replicate_add]

theorem Step.shown_settingRows (s : Step) : s.summary.settingRows.map Row.shown =
    (Report.settingLines s).map (Report.indent ++ Report.indent ++ ·) := by
  simp [Step.Summary.settingRows, Report.settingLines, Step.summary, Param.summary, Row.binding,
    Row.shown_entry_succ, Row.shown_entry_zero, Config.headerTexts, Function.comp_def,
    Keyword.word, SettingKey.word, String.append_assoc, Option.toList_map]

theorem Step.shown_rows (s : Step) :
    s.summary.rows.map Row.shown = (Report.stepLines s).map (Report.indent ++ ·) := by
  have hhead : (Row.entry 1 (.step s.kind) s.targetText?).shown =
      Report.indent ++ Report.entry s.kind.word s.targetText? := by
    rw [Row.shown_entry_succ, Row.shown_entry_zero]
    rfl
  rw [Step.Summary.rows, List.map_cons, Step.shown_settingRows, Report.stepLines, List.map_cons,
    List.map_map]
  exact congrArg₂ List.cons hhead (List.map_congr_left fun _ _ => String.append_assoc ..)

theorem Scenario.shown_rows (s : Scenario) :
    s.summary.rows.map Row.shown = Report.scenarioLines s := by
  simp [Scenario.Summary.rows, Report.scenarioLines, Scenario.summary, Row.binding,
    Row.shown_entry_succ, Row.shown_entry_zero, Function.comp_def, Keyword.word,
    List.map_flatMap, List.flatMap_map, Step.shown_rows]

/-- **The report of a set without groups** is its rows, each on a line. -/
theorem describe_eq {set : ScenarioSet} (h : set.groups.entries = []) :
    describe set = String.ofList
      (['\n'].intercalate ((set.scenarios.flatMap (·.summary.rows)).map (·.line 4))) := by
  have hlines : Report.lines set = (set.scenarios.flatMap (·.summary.rows)).map Row.shown := by
    simp [Report.lines, h, List.map_flatMap, Scenario.shown_rows]
  rw [← String.toList_inj, describe, String.toList_intercalate, hlines, List.map_map]
  simp [Row.shown, Function.comp_def]

/-! ## The rows go in by single steps -/

namespace Row

variable {above depth : Nat} {rows more : List Row}

theorem stepwise_of_forall (h : ∀ r ∈ rows, r.depth = depth) (habove : depth ≤ above + 1) :
    Stepwise above rows := by
  induction rows generalizing above with
  | nil => exact List.isChain_singleton _
  | cons r rows ih =>
    obtain ⟨rfl, hrows⟩ := List.forall_mem_cons.1 h
    exact List.isChain_cons_cons.2 ⟨habove, ih hrows (Nat.le_succ _)⟩

theorem Stepwise.append (h : Stepwise above rows) (hmore : ∀ depth, Stepwise depth more) :
    Stepwise above (rows ++ more) := by
  induction rows generalizing above with
  | nil => exact hmore above
  | cons r rows ih =>
    obtain ⟨hr, hrows⟩ := List.isChain_cons_cons.1 h
    exact List.isChain_cons_cons.2 ⟨hr, ih hrows⟩

theorem stepwise_flatMap {α : Type} {f : α → List Row} (xs : List α)
    (h : ∀ x depth, Stepwise depth (f x)) (above : Nat) : Stepwise above (xs.flatMap f) := by
  induction xs generalizing above with
  | nil => exact List.isChain_singleton _
  | cons x xs ih => exact (h x above).append ih

end Row

theorem Step.Summary.depth_of_mem_settingRows (x : Step.Summary) :
    ∀ r ∈ x.settingRows, r.depth = 2 := by
  intro r hr
  simp only [settingRows, List.mem_append, List.mem_map, Option.mem_toList, Option.map_eq_some_iff]
    at hr
  obtain ((((⟨_, -, rfl⟩ | ⟨_, -, rfl⟩) | ⟨_, -, rfl⟩) | ⟨_, -, rfl⟩) | ⟨_, -, rfl⟩) |
    ⟨_, -, rfl⟩ := hr
  all_goals rfl

theorem Step.Summary.stepwise_rows (x : Step.Summary) (above : Nat) :
    Row.Stepwise above x.rows :=
  List.isChain_cons_cons.2
    ⟨Nat.le_add_left 1 above, Row.stepwise_of_forall x.depth_of_mem_settingRows (Nat.le_refl 2)⟩

theorem Scenario.Summary.stepwise_rows (x : Scenario.Summary) (above : Nat) :
    Row.Stepwise above x.rows := by
  have hbindings : Row.Stepwise 0 (x.bindings.map (.binding 1 .bind)) :=
    Row.stepwise_of_forall (List.forall_mem_map.2 fun _ _ => rfl) (Nat.le_refl 1)
  exact List.isChain_cons_cons.2
    ⟨Nat.zero_le _, hbindings.append (Row.stepwise_flatMap _ Step.Summary.stepwise_rows)⟩

/-- **The rows of scenarios** go in by single steps. -/
theorem stepwise_scenarios (scenarios : List Scenario) :
    Row.Stepwise 0 (scenarios.flatMap (·.summary.rows)) :=
  Row.stepwise_flatMap _ (fun s => s.summary.stepwise_rows) 0

/-! ## Rows can be written -/

theorem Keyword.head?_word_ne (k : Keyword) : k.word.toList.head? ≠ some '#' := by
  have hall : ∀ k ∈ Keyword.all, k.word.toList.head? ≠ some '#' := by decide
  exact hall k (Keyword.mem_all k)

/-- **A keyword with an argument** can be written if the argument is tidy. -/
theorem Row.writable_entry (depth : Nat) {k : Keyword} {argument : Option String}
    (h : ∀ text ∈ argument, Tidy text.toList) : (Row.entry depth k argument).Writable := by
  obtain ⟨hne, hword⟩ := k.isWord_word
  cases argument with
  | none => exact ⟨.of_word hne hword, k.head?_word_ne⟩
  | some text =>
    have htext : (Row.entry depth k (some text)).text = k.word.toList ++ ' ' :: text.toList := by
      simp [Row.entry, Report.entry]
    refine ⟨htext ▸ (h text rfl).entry hne hword, ?_⟩
    rw [htext, List.head?_append_of_ne_nil _ hne]
    exact k.head?_word_ne

end ScenarioScript
