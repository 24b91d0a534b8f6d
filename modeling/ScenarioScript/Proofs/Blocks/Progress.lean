import Mathlib.Data.List.Induction
import ScenarioScript.Proofs.Blocks.Meaning
import ScenarioScript.Proofs.Loading.Gathering

/-!
# Proofs/Blocks/Progress — how far a text has been taken in

A text is taken in line by line.  `Draft.ComesTo` says how far: which draft the lines have made so
far, and which lines are left.

* `outcome_build_eq_error` — building fails for the layout, at a line it has come to, or at the end;
* `add_eq_error`, `attempts_add` — what can fail at a line, and what has to do with files there;
* `mem_attempts_build` — what is attempted is attempted at a line it has come to;
* `ComesTo.exists_outline` — what is finished is what an outline of the lines above means.
-/

namespace ScenarioScript

namespace Draft

open Outcome Outline

variable {site : Site} {unit : Option Int} {text : String} {d e c : Draft} {s : Statement}
  {failure : Failure} {set : ScenarioSet} {statements : List Statement}

/-! ## A single statement -/

/-- **A statement is not taken in** if the blocks it is not in cannot be closed, or it does not stand
directly in the one that is left, or may not take effect there. -/
theorem add_eq_error :
    (d.add site s).outcome = .error failure ↔
      (d.closeTo s.depth).mapError Failure.fault = .error failure ∨
        ∃ c, d.closeTo s.depth = .ok c ∧
          ((s.depth ≠ c.block.depth ∧ failure = .fault (s.fault (.unexpectedIndent s.word))) ∨
            s.depth = c.block.depth ∧ (c.takeIn site s).outcome = .error failure) := by
  rw [add_eq, Traced.outcome_bind_eq_error]
  simp only [Traced.outcome_liftM, mapError_eq_ok]
  refine or_congr_right (exists_congr fun c => and_congr_right fun _ => ?_)
  by_cases h : s.depth = c.block.depth
  · simp [place, h]
  · simp [place, h, eq_comm]

/-- **No file is touched** by a statement, unless it is one to load that takes effect. -/
theorem attempts_add (site : Site) (d : Draft) (s : Statement) :
    (d.add site s).attempts = [] ∨ ∃ set written, d.closeTo s.depth = .ok ⟨set, .root⟩ ∧
      s.depth = 0 ∧ s.command = .load written := by
  cases hclose : d.closeTo s.depth with
  | error diagnostic =>
    rw [add_eq, hclose]
    exact .inl rfl
  | ok c =>
    rw [add_of_closeTo hclose, place]
    split
    · exact .inl rfl
    · next hdepth =>
      obtain ⟨finished, block⟩ := c
      cases block with
      | root =>
        show (addToRoot site finished s).attempts = [] ∨ _
        unfold addToRoot
        split
        · exact .inl rfl
        · exact .inl rfl
        · exact .inl (Traced.attempts_bind_pure _ _)
        · next target hcommand =>
          exact .inr ⟨finished, target, rfl, Decidable.of_not_not hdepth, hcommand⟩
        · exact .inl rfl
        · exact .inl rfl
        · exact .inl rfl
      | _ => exact .inl (Traced.attempts_bind_pure _ _)

/-- **Building a text has come** to a draft, and the lines `below` are still left. -/
def ComesTo (site : Site) (unit : Option Int) (text : String) (d : Draft)
    (below : List ScriptLine) : Prop :=
  ∃ above, Layout.scan unit text = .ok (above ++ below) ∧
    (above.foldlM (addLine site) {}).outcome = .ok d

/-- **Building fails** for the layout, or at a line that it has come to, or when at the end the blocks
are closed. -/
theorem outcome_build_eq_error :
    (build site unit {} text).outcome = .error failure ↔
      Layout.scan unit text = .error failure ∨
        (∃ d line below, ComesTo site unit text d (line :: below) ∧
          (addLine site d line).outcome = .error failure) ∨
        ∃ d, ComesTo site unit text d [] ∧ d.closeAll.mapError Failure.fault = .error failure := by
  simp only [build, Traced.outcome_bind_eq_error, Traced.outcome_liftM, Traced.foldlM_eq_error]
  refine or_congr_right ?_
  constructor
  · rintro ⟨lines, hlines, ⟨above, line, below, d, rfl, hd, hline⟩ | ⟨d, hd, hclose⟩⟩
    · exact .inl ⟨d, line, below, ⟨above, hlines, hd⟩, hline⟩
    · exact .inr ⟨d, ⟨lines, by rwa [List.append_nil], hd⟩, hclose⟩
  · rintro (⟨d, line, below, ⟨above, hlines, hd⟩, hline⟩ | ⟨d, ⟨above, hlines, hd⟩, hclose⟩)
    · exact ⟨_, hlines, .inl ⟨above, line, below, d, rfl, hd, hline⟩⟩
    · rw [List.append_nil] at hlines
      exact ⟨above, hlines, .inr ⟨d, hd, hclose⟩⟩

theorem ComesTo.said {line : ScriptLine} {below : List ScriptLine}
    (h : ComesTo site unit text d (line :: below)) (hline : classify line = .ok s) :
    Says unit text s := by
  obtain ⟨above, hlines, -⟩ := h
  exact ⟨_, hlines, line, List.mem_append_right above List.mem_cons_self, hline⟩

/-- **What has been taken in** was said by the text. -/
theorem ComesTo.exists_statements {below : List ScriptLine} (h : ComesTo site unit text d below) :
    ∃ statements : List Statement, (∀ s ∈ statements, Says unit text s) ∧
      (statements.foldlM (add site) {}).outcome = .ok d := by
  obtain ⟨above, hlines, habove⟩ := h
  obtain ⟨statements, hmap, hfold⟩ := foldlM_addLine_eq_ok.1 habove
  refine ⟨statements, fun s hs => ?_, hfold⟩
  obtain ⟨line, hline, hclassify⟩ := exists_of_mem_of_mapM hmap hs
  exact ⟨_, hlines, line, List.mem_append_left below hline, hclassify⟩

/-! ## What is finished -/

theorem finished_closeStep (h : d.closeStep = .ok c) : c.finished = d.finished := by
  unfold closeStep at h
  split at h
  · obtain ⟨_, -, rfl⟩ := map_eq_ok.1 h
    rfl
  · obtain rfl := Except.ok.inj h
    rfl
  · obtain rfl := Except.ok.inj h
    rfl

/-- **Closing blocks** finishes nothing, or everything that is open. -/
theorem finished_closeTo {depth : Int} (h : d.closeTo depth = .ok c) :
    c.finished = d.finished ∨ d.closeAll = .ok c.finished := by
  unfold closeTo at h
  split at h
  · obtain ⟨set, hset, rfl⟩ := map_eq_ok.1 h
    exact .inr hset
  · split at h
    · exact .inl (finished_closeStep h)
    · obtain rfl := Except.ok.inj h
      exact .inl rfl

/-- **Taking effect** finishes nothing, or leaves no block open. -/
theorem finished_takeIn (h : (d.takeIn site s).outcome = .ok e) :
    e.finished = d.finished ∨ e.block = .root := by
  obtain ⟨finished, block⟩ := d
  cases block with
  | root =>
    simp only [takeIn] at h
    unfold addToRoot at h
    split at h
    · exact .inr (Except.ok.inj h ▸ rfl)
    · exact .inr (Except.ok.inj h ▸ rfl)
    · rw [Traced.outcome_bind_pure, map_eq_ok] at h
      obtain ⟨config, -, rfl⟩ := h
      exact .inr rfl
    · rw [Traced.outcome_bind_pure, map_eq_ok] at h
      obtain ⟨loaded, -, rfl⟩ := h
      exact .inr rfl
    · exact .inl (Except.ok.inj h ▸ rfl)
    · exact .inl (Except.ok.inj h ▸ rfl)
    · exact absurd h error_ne_ok
  | _ =>
    rw [takeIn, Traced.outcome_bind_pure, map_eq_ok] at h
    obtain ⟨_, -, rfl⟩ := h
    exact .inl rfl

/-- **What is finished** is what a run of the first statements builds.  The induction takes the
statements from the end, as what the last one finishes is what is open before it. -/
theorem exists_run_finished (h : (statements.foldlM (add site) {}).outcome = .ok d) :
    ∃ above below, statements = above ++ below ∧ (run site {} above).outcome = .ok d.finished := by
  induction statements using List.reverseRecOn generalizing d with
  | nil =>
    obtain rfl := Except.ok.inj h
    exact ⟨[], [], rfl, rfl⟩
  | append_singleton statements s ih =>
    have hall := h
    rw [List.foldlM_append, Traced.outcome_bind_eq_ok] at h
    obtain ⟨e, he, hadd⟩ := h
    simp only [List.foldlM_cons, List.foldlM_nil, bind_pure, add_eq_ok] at hadd
    obtain ⟨c, hclose, -, htake⟩ := hadd
    obtain hfinished | hroot := finished_takeIn htake
    · obtain hopen | hclosed := finished_closeTo hclose
      · obtain ⟨above, below, rfl, hrun⟩ := ih he
        refine ⟨above, below ++ [s], List.append_assoc .., ?_⟩
        rw [hrun, hfinished, hopen]
      · refine ⟨statements, [s], rfl, ?_⟩
        rw [hfinished]
        exact Traced.outcome_bind_eq_ok.2 ⟨e, he, mapError_eq_ok.2 hclosed⟩
    · refine ⟨statements ++ [s], [], (List.append_nil _).symm, ?_⟩
      have hresult : d.closeAll = .ok d.finished := by
        obtain ⟨finished, block⟩ := d
        obtain rfl : block = .root := hroot
        rfl
      exact Traced.outcome_bind_eq_ok.2 ⟨d, hall, mapError_eq_ok.2 hresult⟩

/-- **What is finished** when building has come to a line is what an outline means that the text
says. -/
theorem ComesTo.exists_outline {below : List ScriptLine} (h : ComesTo site unit text d below) :
    ∃ o : Outline, (∀ s ∈ o.statements, Says unit text s) ∧
      o.meaning site {} = some d.finished := by
  obtain ⟨statements, hsaid, hfold⟩ := h.exists_statements
  obtain ⟨above, below, rfl, hrun⟩ := exists_run_finished hfold
  have habove : ∀ s ∈ above, Says unit text s := fun s hs =>
    hsaid s (List.mem_append_left below hs)
  obtain ⟨o, rfl, ho⟩ := (outlined site fun s hs => (habove s hs).complete).top hrun
  exact ⟨o, habove, ho⟩

end Draft

end ScenarioScript
