import ScenarioScript.Draft
import ScenarioScript.Proofs.Outcome

/-!
# Proofs/Blocks/Run — a draft taking in statement after statement

`Draft.run` lets a draft take in a row of statements and closes what is then open; `Draft.build` is
the same behind the reading of the lines (`outcome_build_eq_ok`).

Which blocks a statement closes is told by its depth alone.  So where the next statement does not
stand in the open block, or where there is none, the block may be closed ahead of it and the run
goes on as before (`run_of_closeStep`, `run_of_closeAll`).
-/

namespace ScenarioScript

/-! ## Statements as lines give them -/

/-- Does the statement, if it begins a step that acts on a target, come with the target? -/
def Statement.Complete (s : Statement) : Prop :=
  ∀ kind target, s.command = .step kind target → kind.hasTarget = true → target.isSome = true

theorem isSome_target_of_read {k : Keyword} {a : Argument} {kind : StepKind} {target : Option Tree}
    (h : k.read a = .ok (.step kind target)) (htarget : kind.hasTarget = true) :
    target.isSome = true := by
  cases k with
  | step k =>
    by_cases hk : k.hasTarget = true
    · simp only [Keyword.read, if_pos hk, Outcome.map_eq_ok] at h
      obtain ⟨value, -, hstep⟩ := h
      obtain ⟨-, rfl⟩ := Command.step.injEq .. ▸ hstep
      rfl
    · simp only [Keyword.read, if_neg hk, Outcome.map_eq_ok] at h
      obtain ⟨-, -, hstep⟩ := h
      obtain ⟨rfl, -⟩ := Command.step.injEq .. ▸ hstep
      exact absurd htarget hk
  | _ => simp [Keyword.read, Outcome.map_eq_ok] at h

/-- **A statement that a line holds** is complete. -/
theorem complete_of_classify {line : ScriptLine} {s : Statement} (h : classify line = .ok s) :
    s.Complete := by
  obtain ⟨_, _, _, _, command, -, -, hread, rfl⟩ := exists_read_of_classify h
  rintro kind target (rfl : command = .step kind target) htarget
  exact isSome_target_of_read hread htarget

namespace Draft

open Outcome

variable {site : Site} {d e : Draft} {s : Statement} {statements : List Statement}
  {set : ScenarioSet}

/-- **Take in statements**, one after another, and close every block. -/
def run (site : Site) (d : Draft) (statements : List Statement) : Traced ScenarioSet := do
  let d ← statements.foldlM (add site) d
  d.closeAll.mapError Failure.fault

theorem run_nil_eq_ok : (d.run site []).outcome = .ok set ↔ d.closeAll = .ok set :=
  mapError_eq_ok

theorem run_cons_eq_ok :
    (d.run site (s :: statements)).outcome = .ok set ↔
      ∃ e, (d.add site s).outcome = .ok e ∧ (e.run site statements).outcome = .ok set := by
  simp only [run, List.foldlM_cons, bind_assoc]
  exact Traced.outcome_bind_eq_ok

/-- **Reading lines** is understanding all of them, and taking in the statements. -/
theorem foldlM_addLine_eq_ok {lines : List ScriptLine} :
    (lines.foldlM (addLine site) d).outcome = .ok e ↔
      ∃ statements, lines.mapM classify = .ok statements ∧
        (statements.foldlM (add site) d).outcome = .ok e := by
  induction lines generalizing d with
  | nil => simp [pure, Except.pure]
  | cons line lines ih =>
    simp only [List.foldlM_cons, addLine, Traced.outcome_bind_eq_ok, Traced.outcome_liftM, ih,
      mapM_cons_eq_ok]
    constructor
    · rintro ⟨c, ⟨s, hs, hadd⟩, row, hrow, hfold⟩
      refine ⟨s :: row, ⟨s, row, hs, hrow, rfl⟩, ?_⟩
      rw [List.foldlM_cons, Traced.outcome_bind_eq_ok]
      exact ⟨c, hadd, hfold⟩
    · rintro ⟨_, ⟨s, row, hs, hrow, rfl⟩, hfold⟩
      rw [List.foldlM_cons, Traced.outcome_bind_eq_ok] at hfold
      obtain ⟨c, hadd, hfold⟩ := hfold
      exact ⟨c, ⟨s, hs, hadd⟩, row, hrow, hfold⟩

/-- The statements of a text. -/
def statementsOf (unit : Option Int) (text : String) : Except Failure (List Statement) :=
  (Layout.scan unit text).bind fun lines => lines.mapM classify

/-- **Building from a text** is a run of its statements. -/
theorem outcome_build_eq_ok {unit : Option Int} {text : String} :
    (d.build site unit text).outcome = .ok set ↔
      ∃ statements, statementsOf unit text = .ok statements ∧
        (d.run site statements).outcome = .ok set := by
  simp only [build, run, statementsOf, Traced.outcome_bind_eq_ok, Traced.outcome_liftM, bind_eq_ok,
    foldlM_addLine_eq_ok]
  constructor
  · rintro ⟨lines, hlines, e, ⟨row, hrow, hfold⟩, hclose⟩
    exact ⟨row, ⟨lines, hlines, hrow⟩, e, hfold, hclose⟩
  · rintro ⟨row, ⟨lines, hlines, hrow⟩, e, hfold, hclose⟩
    exact ⟨lines, hlines, e, ⟨row, hrow, hfold⟩, hclose⟩

/-! ## A single statement -/

/-- Let a statement take effect in the block that is open. -/
def takeIn (site : Site) (d : Draft) (s : Statement) : Traced Draft :=
  match d.block with
  | .root => addToRoot site d.finished s
  | .scenario scenario => do
    let block ← addToScenario site.path d.finished.groups scenario s
    pure { d with block }
  | .group group => do
    let block ← addToGroup site.path group s
    pure { d with block }
  | .scenarioStep scenario step => do
    let step ← addToStep step s
    pure { d with block := .scenarioStep scenario step }
  | .groupStep group step => do
    let step ← addToStep step s
    pure { d with block := .groupStep group step }

/-- Let a statement take effect behind the blocks that it closes, if it stands directly in the one
that is left. -/
def place (site : Site) (s : Statement) (d : Draft) : Traced Draft :=
  if s.depth ≠ d.block.depth then
    Traced.ofExcept (.error (.fault (s.fault (.unexpectedIndent s.word))))
  else d.takeIn site s

theorem add_eq (site : Site) (d : Draft) (s : Statement) :
    d.add site s = liftM ((d.closeTo s.depth).mapError Failure.fault) >>= place site s :=
  rfl

theorem add_of_closeTo (h : d.closeTo s.depth = .ok e) : d.add site s = place site s e := by
  rw [add_eq, h]
  exact pure_bind e (place site s)

/-- A statement to load takes effect at top level. -/
theorem add_load {written : String} (hclose : d.closeTo s.depth = .ok ⟨set, .root⟩)
    (hdepth : s.depth = 0) (hcommand : s.command = .load written) :
    d.add site s = (site.load written (.loadedFrom site.path s.position) >>= fun loaded =>
      pure { finished := set.merge loaded }) := by
  rw [add_of_closeTo hclose]
  refine (if_neg fun hne => hne hdepth).trans ?_
  simp only [takeIn, addToRoot, hcommand]

/-- **A statement is taken in** if the blocks it is not in can be closed, it then stands directly in
the one that is left, and it may take effect there. -/
theorem add_eq_ok :
    (d.add site s).outcome = .ok e ↔
      ∃ c, d.closeTo s.depth = .ok c ∧ s.depth = c.block.depth ∧
        (c.takeIn site s).outcome = .ok e := by
  rw [add_eq, Traced.outcome_bind_eq_ok]
  simp only [Traced.outcome_liftM, mapError_eq_ok]
  refine exists_congr fun c => and_congr_right fun _ => ?_
  by_cases h : s.depth = c.block.depth
  · simp [place, h]
  · simp [place, h]

theorem depth_nonneg (b : Block) : 0 ≤ b.depth := by
  cases b <;> simp [Block.depth]

theorem depth_closeStep (h : d.closeStep = .ok e) : e.block.depth ≤ d.block.depth := by
  obtain ⟨finished, block⟩ := d
  cases block with
  | scenarioStep scenario step =>
    obtain ⟨_, -, rfl⟩ := map_eq_ok.1 h
    exact (by decide : (1 : Int) ≤ 2)
  | groupStep group step =>
    obtain rfl := Except.ok.inj h
    exact (by decide : (1 : Int) ≤ 2)
  | _ =>
    obtain rfl := Except.ok.inj h
    exact Int.le_refl _

theorem depth_closeTo {depth : Int} (h : d.closeTo depth = .ok e) :
    e.block.depth ≤ d.block.depth := by
  unfold closeTo at h
  split at h
  · obtain ⟨set, -, rfl⟩ := map_eq_ok.1 h
    exact depth_nonneg d.block
  · split at h
    · exact depth_closeStep h
    · obtain rfl := Except.ok.inj h
      exact Int.le_refl _

/-- **No statement stands deeper** than directly in the open block. -/
theorem depth_of_add (h : (d.add site s).outcome = .ok e) :
    0 ≤ s.depth ∧ s.depth ≤ d.block.depth := by
  obtain ⟨c, hclose, hdepth, -⟩ := add_eq_ok.1 h
  rw [hdepth]
  exact ⟨depth_nonneg c.block, depth_closeTo hclose⟩

/-! ## Closing ahead of a statement -/

/-- What comes next, if anything does, stands at most so deep. -/
def Within (depth : Int) (statements : List Statement) : Prop :=
  ∀ s ∈ statements.head?, s.depth ≤ depth

theorem within_nil (depth : Int) : Within depth [] := nofun

theorem within_cons {depth : Int} : Within depth (s :: statements) ↔ s.depth ≤ depth := by
  simp [Within]

theorem Within.mono {depth deeper : Int} (h : Within depth statements) (hle : depth ≤ deeper) :
    Within deeper statements :=
  fun s hs => Int.le_trans (h s hs) hle

/-- Behind a step that is closed none is open. -/
theorem closeStep_of_closeStep (h : d.closeStep = .ok e) : e.closeStep = .ok e := by
  unfold closeStep at h
  split at h
  · obtain ⟨_, _, rfl⟩ := map_eq_ok.1 h
    rfl
  · obtain rfl := Except.ok.inj h
    rfl
  · next hblock =>
    obtain rfl := Except.ok.inj h
    unfold closeStep
    split <;> simp_all

theorem closeTo_iff_of_closeStep {depth : Int} (hdepth : depth ≤ 1) :
    d.closeTo depth = .ok e ↔ ∃ c, d.closeStep = .ok c ∧ c.closeTo depth = .ok e := by
  simp only [closeTo, closeAll]
  by_cases h : depth ≤ 0
  · simp only [if_pos h, map_eq_ok]
    constructor
    · rintro ⟨set, ⟨c, hc, rfl⟩, rfl⟩
      exact ⟨c, hc, c.result, ⟨c, closeStep_of_closeStep hc, rfl⟩, rfl⟩
    · rintro ⟨c, hc, set, ⟨c', hc', rfl⟩, rfl⟩
      obtain rfl : c = c' := Except.ok.inj ((closeStep_of_closeStep hc).symm.trans hc')
      exact ⟨c.result, ⟨c, hc, rfl⟩, rfl⟩
  · simp only [if_neg h, if_pos hdepth]
    constructor
    · exact fun hd => ⟨e, hd, closeStep_of_closeStep hd⟩
    · rintro ⟨c, hc, hd⟩
      obtain rfl : c = e := Except.ok.inj ((closeStep_of_closeStep hc).symm.trans hd)
      exact hc

/-- **The open step may be closed ahead** of a statement that does not stand in it. -/
theorem run_of_closeStep (h : Within 1 statements) :
    (d.run site statements).outcome = .ok set ↔
      ∃ c, d.closeStep = .ok c ∧ (c.run site statements).outcome = .ok set := by
  cases statements with
  | nil =>
    simp only [run_nil_eq_ok, closeAll, map_eq_ok]
    constructor
    · rintro ⟨c, hc, rfl⟩
      exact ⟨c, hc, c, closeStep_of_closeStep hc, rfl⟩
    · rintro ⟨c, hc, c', hc', rfl⟩
      obtain rfl : c = c' := Except.ok.inj ((closeStep_of_closeStep hc).symm.trans hc')
      exact ⟨c, hc, rfl⟩
  | cons s statements =>
    simp only [run_cons_eq_ok, add_eq_ok]
    have hclose : ∀ {c}, d.closeTo s.depth = .ok c ↔ _ :=
      closeTo_iff_of_closeStep (within_cons.1 h)
    constructor
    · rintro ⟨e, ⟨c, hc, hadd⟩, hrun⟩
      obtain ⟨b, hb, hc⟩ := hclose.1 hc
      exact ⟨b, hb, e, ⟨c, hc, hadd⟩, hrun⟩
    · rintro ⟨b, hb, e, ⟨c, hc, hadd⟩, hrun⟩
      exact ⟨e, ⟨c, hclose.2 ⟨b, hb, hc⟩, hadd⟩, hrun⟩

/-- **Every open block may be closed ahead** of a statement at top level. -/
theorem run_of_closeAll (h : Within 0 statements) :
    (d.run site statements).outcome = .ok set ↔
      ∃ before, d.closeAll = .ok before ∧ (run site ⟨before, .root⟩ statements).outcome = .ok set := by
  have hroot : ∀ before : ScenarioSet, closeAll ⟨before, .root⟩ = .ok before := fun _ => rfl
  cases statements with
  | nil =>
    rw [run_nil_eq_ok]
    constructor
    · exact fun h => ⟨set, h, run_nil_eq_ok.2 (hroot set)⟩
    · rintro ⟨before, hbefore, hrun⟩
      obtain rfl : before = set := Except.ok.inj ((hroot before).symm.trans (run_nil_eq_ok.1 hrun))
      exact hbefore
  | cons s statements =>
    have hclose : ∀ d : Draft, d.closeTo s.depth = d.closeAll.map fun set => ⟨set, .root⟩ :=
      fun d => if_pos (within_cons.1 h)
    simp only [run_cons_eq_ok, add_eq_ok, hclose, map_eq_ok]
    constructor
    · rintro ⟨e, ⟨_, ⟨before, hbefore, rfl⟩, hadd⟩, hrun⟩
      exact ⟨before, hbefore, e, ⟨_, ⟨before, hroot before, rfl⟩, hadd⟩, hrun⟩
    · rintro ⟨before, hbefore, e, ⟨_, ⟨set, hset, rfl⟩, hadd⟩, hrun⟩
      obtain rfl : before = set := Except.ok.inj ((hroot before).symm.trans hset)
      exact ⟨e, ⟨_, ⟨before, hbefore, rfl⟩, hadd⟩, hrun⟩

end Draft

end ScenarioScript
