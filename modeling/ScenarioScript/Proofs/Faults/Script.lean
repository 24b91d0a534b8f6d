import ScenarioScript.Proofs.Blocks.Progress
import ScenarioScript.Proofs.Containment.Holdings
import ScenarioScript.Proofs.Containment.Supply
import ScenarioScript.Proofs.Expression.Nesting

/-!
# Proofs/Faults/Script — the faults of a text lie in it

All that a text says stands in it (`Says.standsAt`), and so does what is open of a step when building
has come to a line (`ComesTo.stepHolds`).  So the faults that a statement can meet lie in the text,
unless they come of what the statement brings in: `fails_add` tells these cases apart.
-/

namespace ScenarioScript

open Outcome

variable {P : Int → Int → Prop} {Q : Tree → Prop} {unit : Option Int} {text : String}
  {s : Statement}

/-! ## What a text says stands in it -/

/-- **An expression** begins where its text does, in the argument that it is read from. -/
theorem Argument.Reads.standsAt {a : Argument} {t : Tree} (h : a.Reads t) : t.StandsAt a.Place := by
  obtain ⟨before, rest, allowCompare, htext, hparse⟩ := h
  obtain ⟨g, htokens, rfl⟩ := parseExpression_eq_ok_tree.1 hparse
  have hlaid := g.readFrom_tree.laid (tokensOf_eq_ok_iff.1 htokens)
  have hexact := hlaid.exact _ (Tree.self_mem_preorder _)
  have hlast : (g.tree _).span.start < rest.length :=
    Nat.lt_of_lt_of_le hexact.start_lt_stop hexact.stop_le
  refine a.place_of_behind htext ⟨hexact.line_eq, ?_, ?_⟩
  · rw [hexact.column_eq]
    dsimp only
    omega
  · rw [hexact.column_eq]
    dsimp only
    omega

/-- **A statement** stands in the text that says it, and so does the expression in it. -/
theorem Says.standsAt (h : Says unit text s) : s.StandsAt (PlaceOf text) := by
  obtain ⟨lines, hlines, line, hline, hclassify⟩ := h
  have hplace := Layout.placeIn_of_mem_scan hlines line hline
  constructor
  · obtain ⟨hsline, hscolumn⟩ := position_of_classify hclassify
    rw [hsline, hscolumn]
    exact hplace _ _ line.place_start
  · obtain ⟨word, argument, offset, hsplit, hreads⟩ := reads_of_classify hclassify
    exact fun t ht => hplace _ _ (place_of_splitStatement? hsplit (hreads t ht).standsAt)

/-! ## The open step -/

/-- The expressions of the open step, if there is one, are of the sort. -/
def Block.StepHolds (Q : Tree → Prop) : Block → Prop
  | scenarioStep _ step | groupStep _ step => step.Holds Q
  | _ => True

theorem Block.StepHolds.stepExpressions {b : Block} (h : b.StepHolds Q) :
    ∀ t ∈ b.stepExpressions, Q t := by
  cases b with
  | scenarioStep _ step | groupStep _ step => exact Step.Holds.expressions h
  | _ => exact List.forall_mem_nil _

namespace Draft

variable {site : Site} {d c : Draft}

theorem stepHolds_closeTo (h : d.block.StepHolds Q) {depth : Int} (hclose : d.closeTo depth = .ok c) :
    c.block.StepHolds Q := by
  obtain ⟨finished, block⟩ := d
  unfold closeTo at hclose
  split at hclose
  · obtain ⟨set, -, rfl⟩ := map_eq_ok.1 hclose
    trivial
  · split at hclose
    · cases block with
      | scenarioStep scenario step =>
        obtain ⟨_, -, rfl⟩ := map_eq_ok.1 hclose
        trivial
      | _ =>
        obtain rfl := Except.ok.inj hclose
        trivial
    · obtain rfl := Except.ok.inj hclose
      exact h

theorem stepHolds_addToRoot (set : ScenarioSet) :
    Yields (fun e : Draft => e.block.StepHolds Q) (addToRoot site set s).outcome := by
  unfold addToRoot
  split
  · exact .ok trivial
  · exact .ok trivial
  · rw [Traced.outcome_bind_pure]
    exact fun e he => (map_eq_ok.1 he).elim fun _ h => h.2 ▸ trivial
  · rw [Traced.outcome_bind_pure]
    exact fun e he => (map_eq_ok.1 he).elim fun _ h => h.2 ▸ trivial
  · exact .ok trivial
  · exact .ok trivial
  · exact .error _

theorem stepHolds_addToScenario (path : Option String) (groups : OrderedMap String Group)
    (scenario : Scenario) (hs : ∀ t ∈ s.command.expr?, Q t) :
    Yields (Block.StepHolds Q) (addToScenario path groups scenario s) := by
  unfold addToScenario
  split
  · next kind target hcommand =>
    rw [hcommand] at hs
    exact (holds_newStep hs).map fun step hstep => hstep
  · exact .ok trivial
  · exact .ok trivial
  · exact .ok trivial
  · exact fun block hblock => (map_eq_ok.1 hblock).elim fun _ h => h.2 ▸ trivial
  · exact fun block hblock => (map_eq_ok.1 hblock).elim fun _ h => h.2 ▸ trivial
  · exact .error _

theorem stepHolds_addToGroup (path : Option String) (group : Group)
    (hs : ∀ t ∈ s.command.expr?, Q t) :
    Yields (Block.StepHolds Q) (addToGroup path group s) := by
  unfold addToGroup
  split
  · next kind target hcommand =>
    rw [hcommand] at hs
    exact (holds_newStep hs).map fun step hstep => hstep
  · exact .ok trivial
  · exact .error _

/-- **The open step** has its expressions from the statements that are taken in. -/
theorem stepHolds_add (h : d.block.StepHolds Q) (hs : ∀ t ∈ s.command.expr?, Q t) :
    Yields (fun e : Draft => e.block.StepHolds Q) (d.add site s).outcome := by
  intro e hadd
  obtain ⟨c, hclose, -, htake⟩ := add_eq_ok.1 hadd
  have hc := stepHolds_closeTo h hclose
  obtain ⟨finished, block⟩ := c
  cases block with
  | root => exact stepHolds_addToRoot finished e htake
  | scenario scenario =>
    rw [takeIn, Traced.outcome_bind_pure, map_eq_ok] at htake
    obtain ⟨block, hblock, rfl⟩ := htake
    exact stepHolds_addToScenario _ _ scenario hs block hblock
  | group group =>
    rw [takeIn, Traced.outcome_bind_pure, map_eq_ok] at htake
    obtain ⟨block, hblock, rfl⟩ := htake
    exact stepHolds_addToGroup _ group hs block hblock
  | scenarioStep scenario step =>
    rw [takeIn, Traced.outcome_bind_pure, map_eq_ok] at htake
    obtain ⟨step', hstep', rfl⟩ := htake
    exact holds_addToStep hc hs step' hstep'
  | groupStep group step =>
    rw [takeIn, Traced.outcome_bind_pure, map_eq_ok] at htake
    obtain ⟨step', hstep', rfl⟩ := htake
    exact holds_addToStep hc hs step' hstep'

/-- **When building has come to a line**, what is open of a step stands in the text. -/
theorem ComesTo.stepHolds {below : List ScriptLine} (h : ComesTo site unit text d below) :
    d.block.StepHolds (Tree.StandsAt (PlaceOf text)) := by
  obtain ⟨statements, hsaid, hfold⟩ := h.exists_statements
  have hstep : ∀ s ∈ statements, ∀ d : Draft, d.block.StepHolds (Tree.StandsAt (PlaceOf text)) →
      Yields (fun e : Draft => e.block.StepHolds (Tree.StandsAt (PlaceOf text)))
        (d.add site s).outcome :=
    fun s hs d hd => stepHolds_add hd (hsaid s hs).standsAt.value
  have hempty : Block.StepHolds (Tree.StandsAt (PlaceOf text)) .root := trivial
  exact Traced.yields_foldlM hstep hempty d hfold

/-! ## Statements that are not taken in -/

end Draft

/-- **Why a statement is not taken in**: it fails by itself, at a position of the given sort, or what
it loads does, or the group that it includes. -/
inductive Failure.OfAdding (P : Int → Int → Prop) (site : Site) (d : Draft) (s : Statement) :
    Failure → Prop where
  | statement {failure : Failure} (h : failure.OfStatement P s) : OfAdding P site d s failure
  | load {set : ScenarioSet} {written : String} {failure : Failure}
      (hclose : d.closeTo s.depth = .ok ⟨set, .root⟩) (hdepth : s.depth = 0)
      (hcommand : s.command = .load written)
      (h : (site.load written (.loadedFrom site.path s.position)).outcome = .error failure) :
      OfAdding P site d s failure
  | inclusion {set : ScenarioSet} {scenario : Scenario} {failure : Failure}
      (hclose : d.closeTo s.depth = .ok ⟨set, .scenario scenario⟩) (hdepth : s.depth = 1)
      (h : failure.OfInclusion site.path set.groups s) : OfAdding P site d s failure

namespace Draft

variable {site : Site} {d c : Draft}

theorem fails_addToRoot (set : ScenarioSet) (hs : s.StandsAt P) :
    FailsOnly (fun failure => failure.OfStatement P s ∨ ∃ written, s.command = .load written ∧
      (site.load written (.loadedFrom site.path s.position)).outcome = .error failure)
      (addToRoot site set s).outcome := by
  unfold addToRoot
  split
  · exact .ok _
  · exact .ok _
  · next setting hcommand =>
    rw [Traced.outcome_bind_pure]
    exact ((set.config.fails_apply_of_command hcommand hs).map).mono fun _ => .inl
  · next written hcommand =>
    rw [Traced.outcome_bind_pure]
    exact FailsOnly.map fun failure hfailure => .inr ⟨written, hcommand, hfailure⟩
  · exact .ok _
  · exact .ok _
  · exact (at_notAllowed hs .topLevel).mono fun _ h => .inl (.here h)

/-- **A statement that is not taken in** fails for one of these reasons. -/
theorem fails_add (hstep : ∀ t ∈ d.block.stepExpressions, t.StandsAt P) (hcomplete : s.Complete)
    (hs : s.StandsAt P) : FailsOnly (Failure.OfAdding P site d s) (d.add site s).outcome := by
  intro failure h
  obtain hclose | ⟨c, hclose, ⟨-, rfl⟩ | ⟨hdepth, htake⟩⟩ := add_eq_error.1 h
  · exact .statement (.here (at_closeTo hstep s.depth failure hclose))
  · exact .statement (.here (.fault rfl hs.start))
  obtain ⟨finished, block⟩ := c
  cases block with
  | root =>
    obtain hown | ⟨written, hcommand, hload⟩ := fails_addToRoot finished hs failure htake
    · exact .statement hown
    · exact .load hclose hdepth hcommand hload
  | scenario scenario =>
    rw [takeIn, Traced.outcome_bind_pure, map_eq_error] at htake
    obtain hown | hinclusion := fails_addToScenario _ _ scenario hcomplete hs failure htake
    · exact .statement hown
    · exact .inclusion hclose hdepth hinclusion
  | group group =>
    rw [takeIn, Traced.outcome_bind_pure, map_eq_error] at htake
    exact .statement (.here (at_addToGroup _ group hcomplete hs failure htake))
  | scenarioStep scenario step =>
    rw [takeIn, Traced.outcome_bind_pure, map_eq_error] at htake
    exact .statement (fails_addToStep step hs failure htake)
  | groupStep group step =>
    rw [takeIn, Traced.outcome_bind_pure, map_eq_error] at htake
    exact .statement (fails_addToStep step hs failure htake)

end Draft

end ScenarioScript
