import Mathlib.Data.List.Sort
import Mathlib.Data.String.Basic
import ScenarioScript.Proofs.Sharing.Agreement

/-!
# Proofs/Sharing/Order — the open blocks and the result stay together

The open blocks of a ledger and its result are two views of the same nodes.  `Ledger.Orderly` says how
they lie to one another: there are no more than two open blocks, one inside the other, and each of
them is the node that comes last in what holds it.  `Draft.foldlM_orderly` says that it is so in every
state that statements lead to, and that a statement opens a block exactly if its command is one that
does.
-/

namespace ScenarioScript

open Outcome

/-! ## Names in alphabetical order -/

theorem pairwise_eraseDups {names : List String} (h : names.Pairwise (· ≤ ·)) :
    names.eraseDups.Pairwise (· < ·) := by
  induction hlength : names.length using Nat.strongRecOn generalizing names with
  | ind n ih =>
    cases names with
    | nil => exact .nil
    | cons name names =>
      obtain ⟨hname, hnames⟩ := List.pairwise_cons.1 h
      have hshort := List.length_filter_le (fun other => !other == name) names
      rw [List.eraseDups_cons, List.pairwise_cons]
      refine ⟨fun other hother => ?_, ih _ ?_ (hnames.filter _) rfl⟩
      · rw [List.mem_eraseDups, List.mem_filter] at hother
        exact lt_of_le_of_ne (hname other hother.1) fun he => by simp [he] at hother
      · rw [← hlength, List.length_cons]
        exact Nat.lt_succ_of_le hshort

/-- **Names are shown alike** in whatever order they come. -/
theorem SameNames.sortedNames_eq {names names' : List String} (h : SameNames names names') :
    Draft.sortedNames names = Draft.sortedNames names' := by
  have hsorted (names : List String) : (Draft.sortedNames names).Pairwise (· < ·) := by
    refine pairwise_eraseDups ?_
    have htrans (a b c : String) (hab : decide (a ≤ b) = true) (hbc : decide (b ≤ c) = true) :
        decide (a ≤ c) = true :=
      decide_eq_true (le_trans (of_decide_eq_true hab) (of_decide_eq_true hbc))
    have htotal (a b : String) : (decide (a ≤ b) || decide (b ≤ a)) = true := by
      simpa using le_total a b
    exact (List.pairwise_mergeSort htrans htotal names).imp of_decide_eq_true
  refine (hsorted names).eq_of_mem_iff (hsorted names') fun name => ?_
  simp only [Draft.sortedNames, List.mem_eraseDups, List.mem_mergeSort, h name]

theorem sortedNames_nil : Draft.sortedNames [] = [] := by
  simp [Draft.sortedNames]

/-! ## Open blocks -/

namespace Ledger

/-- **The open blocks**, outermost first. -/
def frames (l : Ledger) : List Frame := l.stack.reverse

/-- What kind of block builds the node. -/
def Node.kind : Node → Surroundings
  | .scenario _ => .scenario
  | .group _ => .group
  | .step _ => .step

/-- What is shown of an open block. -/
def Frame.shown (f : Frame) : Draft.Frame :=
  ⟨f.depth, f.node.kind, Draft.sortedNames f.visible, f.scenario.isSome⟩

/-- The kept step comes last in the node. -/
def EndsWith (σ : Store) (own : Nat) : Node → Prop
  | .scenario id => (σ.scenarios id).steps.getLast? = some (.kept own)
  | .group id => (σ.groups id).items.getLast? = some (.step own)
  | .step _ => False

/-- **How the open blocks and the result of a ledger lie to one another.** -/
structure Orderly (l : Ledger) : Prop where
  /-- No more than two blocks are open. -/
  length_le : l.frames.length ≤ 2
  /-- An open block is as deep as there are blocks around it. -/
  depth_eq : ∀ (i : Nat) (f : Frame), l.frames[i]? = some f → f.depth = i
  /-- The outer block builds a scenario or a group. -/
  outer : ∀ f, l.frames[0]? = some f → (∃ id, f.node = .scenario id) ∨ ∃ id, f.node = .group id
  /-- The inner block builds a step. -/
  inner : ∀ f, l.frames[1]? = some f → ∃ id, f.node = .step id
  /-- An open scenario is the last one of the result. -/
  scenario_last : ∀ f ∈ l.frames, ∀ id, f.node = .scenario id →
    l.result.scenarios.getLast? = some (.kept id)
  /-- An open group is the one that the result has under its name. -/
  group_named : ∀ f ∈ l.frames, ∀ id, f.node = .group id →
    l.result.groups.get? (l.store.groups id).head.name = some (.kept id)
  /-- An open step is the last one of what is built around it. -/
  step_last : ∀ outer inner, l.frames = [outer, inner] → ∀ own, inner.node = .step own →
    EndsWith l.store own outer.node
  /-- An open step is in a scenario exactly if one is built around it. -/
  scenario_iff : ∀ outer inner, l.frames = [outer, inner] →
    (inner.scenario.isSome = true ↔ ∃ id, outer.node = .scenario id)

variable {l : Ledger} {d e : Draft} {site : Site} {s : Statement} {statements : List Statement}

theorem depth_eq_of_pair {outer inner : Frame} (houter : outer.depth = 0)
    (hinner : inner.depth = 1) (i : Nat) (f : Frame) (h : [outer, inner][i]? = some f) :
    f.depth = i := by
  match i with
  | 0 => exact Option.some.inj h ▸ houter
  | 1 => exact Option.some.inj h ▸ hinner
  | i + 2 => exact absurd h nofun

theorem depth_eq_of_single {outer : Frame} (houter : outer.depth = 0) (i : Nat) (f : Frame)
    (h : [outer][i]? = some f) : f.depth = i := by
  match i with
  | 0 => exact Option.some.inj h ▸ houter
  | i + 1 => exact absurd h nofun

/-- **A ledger that shows a draft** is orderly. -/
theorem Shows.orderly (h : l.Shows d) : l.Orderly := by
  cases h with
  | root => constructor <;> simp [frames]
  | scenario =>
    refine ⟨?_, depth_eq_of_single rfl, ?_, ?_, ?_, ?_, ?_, ?_⟩ <;>
      simp [frames, KeptSet.withScenario]
  | scenarioStep h =>
    refine ⟨?_, depth_eq_of_pair rfl rfl, ?_, ?_, ?_, ?_, ?_, ?_⟩ <;>
      simp [frames, EndsWith, KeptSet.withScenario, h.steps_eq]
  | @group σ _ _ id group h =>
    have hname : group.name = (σ.groups id).head.name := h.group_eq ▸ rfl
    refine ⟨?_, depth_eq_of_single rfl, ?_, ?_, ?_, ?_, ?_, ?_⟩ <;>
      simp [frames, KeptSet.withGroup, hname]
  | @groupStep σ _ _ id _ _ group _ h =>
    have hname : group.name = (σ.groups id).head.name := h.group_eq ▸ rfl
    refine ⟨?_, depth_eq_of_pair rfl rfl, ?_, ?_, ?_, ?_, ?_, ?_⟩ <;>
      simp [frames, EndsWith, KeptSet.withGroup, h.items_eq, hname]

/-- And its open blocks are shown as those of the draft. -/
theorem Shows.shown_frames (h : l.Shows d) : l.frames.map Frame.shown = d.stack := by
  cases h with
  | root => rfl
  | scenario h =>
    simp [frames, Frame.shown, Draft.stack, Node.kind, h.visible_eq.sortedNames_eq]
  | scenarioStep h =>
    simp [frames, Frame.shown, Draft.stack, Node.kind, h.visible_eq.sortedNames_eq,
      h.seen_eq.sortedNames_eq]
  | group => simp [frames, Frame.shown, Draft.stack, Node.kind, sortedNames_nil]
  | groupStep => simp [frames, Frame.shown, Draft.stack, Node.kind, sortedNames_nil]

theorem Shows.length_frames (h : l.Shows d) : (l.frames.length : Int) = d.block.depth := by
  cases h <;> rfl

end Ledger

/-! ## Statements that open a block -/

namespace Draft

/-- How much deeper the open block is behind a command. -/
def deepening (c : Command) : Int := if c.opensBlock then 1 else 0

variable {site : Site} {s : Statement}

theorem yields_addToRoot (set : ScenarioSet) :
    Yields (fun e : Draft => e.block.depth = deepening s.command) (addToRoot site set s).outcome := by
  unfold addToRoot
  cases s.command with
  | setting setting =>
    simp only [Traced.outcome_bind_pure]
    exact .map_of_forall _ fun _ => rfl
  | load target =>
    simp only [Traced.outcome_bind_pure]
    exact .map_of_forall _ fun _ => rfl
  | bind | endpoint | scenario | group => exact .ok rfl
  | _ => exact .error _

theorem yields_addToScenario (path : Option String) (groups : OrderedMap String Group)
    (scenario : Scenario) :
    Yields (fun block => block.depth = 1 + deepening s.command)
      (addToScenario path groups scenario s) := by
  unfold addToScenario
  cases s.command with
  | step | setting | inclusion => exact .map_of_forall _ fun _ => rfl
  | bind | endpoint | name => exact .ok rfl
  | _ => exact .error _

theorem yields_addToGroup (path : Option String) (group : Group) :
    Yields (fun block => block.depth = 1 + deepening s.command) (addToGroup path group s) := by
  unfold addToGroup
  cases s.command with
  | step => exact .map_of_forall _ fun _ => rfl
  | inclusion => exact .ok rfl
  | _ => exact .error _

/-- In a step no statement opens a block. -/
theorem yields_addToStep (step : Step) :
    Yields (fun _ => deepening s.command = 0) (addToStep step s) := by
  unfold addToStep
  cases s.command with
  | setting | json | param => exact .map_of_forall _ fun _ => rfl
  | name | method | body | expect | bind => exact .ok rfl
  | _ => exact .error _

/-- **A statement that takes effect** leaves a block open that is deeper by one exactly if its command
begins a block. -/
theorem yields_takeIn (d : Draft) :
    Yields (fun e : Draft => e.block.depth = d.block.depth + deepening s.command)
      (d.takeIn site s).outcome := by
  obtain ⟨set, block⟩ := d
  cases block with
  | root => simpa [takeIn, Block.depth] using yields_addToRoot set
  | scenario scenario =>
    simp only [takeIn, Traced.outcome_bind_pure, Traced.outcome_liftM]
    exact (yields_addToScenario _ _ _).map fun _ h => h
  | group group =>
    simp only [takeIn, Traced.outcome_bind_pure, Traced.outcome_liftM]
    exact (yields_addToGroup _ _).map fun _ h => h
  | scenarioStep scenario step =>
    simp only [takeIn, Traced.outcome_bind_pure, Traced.outcome_liftM]
    exact (yields_addToStep step).map fun _ h => by rw [h]; rfl
  | groupStep group step =>
    simp only [takeIn, Traced.outcome_bind_pure, Traced.outcome_liftM]
    exact (yields_addToStep step).map fun _ h => by rw [h]; rfl

end Draft

/-! ## Runs -/

namespace Ledger

/-- **A statement opens a block** exactly if its command is one that does: then there is one open block
more than were left of those before. -/
theorem Shows.exists_closeTo {l m : Ledger} {d e : Draft} {site : Site} {s : Statement}
    (hl : l.Shows d) (hm : m.Shows e) (h : (d.add site s).outcome = .ok e) :
    ∃ left, l.closeTo s.depth = .ok left ∧
      (m.frames.length = left.frames.length + 1 ↔ s.command.opensBlock = true) := by
  obtain ⟨c, hclose, -, htake⟩ := Draft.add_eq_ok.1 h
  obtain ⟨left, hleft, hshows⟩ := (hl.matches_closeTo s.depth).exists_ok hclose
  refine ⟨left, hleft, ?_⟩
  have hdepth : e.block.depth = c.block.depth + Draft.deepening s.command :=
    Draft.yields_takeIn c e htake
  rw [← hm.length_frames, ← hshows.length_frames, Draft.deepening] at hdepth
  cases hopens : s.command.opensBlock <;> simp [hopens] at hdepth ⊢ <;> omega

end Ledger

namespace Draft

/-- **The open blocks and the result stay together** over whole runs.  What a draft comes to by any
statements, a ledger comes to by the same ones: it shows the same set and the same open blocks, and it
is orderly; and the last statement has opened a block exactly if its command is one that does. -/
theorem foldlM_orderly (site : Site) (statements : List Statement) (d : Draft)
    (h : (statements.foldlM (add site) {}).outcome = .ok d) :
    ∃ l : Ledger, (statements.foldlM (Ledger.add site) {}).outcome = .ok l ∧
      l.set = d.result ∧ l.frames.map Ledger.Frame.shown = d.stack ∧ l.Orderly ∧
        ∀ before s, statements = before ++ [s] → ∃ above left : Ledger,
          (before.foldlM (Ledger.add site) {}).outcome = .ok above ∧
            above.closeTo s.depth = .ok left ∧
              (l.frames.length = left.frames.length + 1 ↔ s.command.opensBlock = true) := by
  obtain ⟨l, hl, hshows⟩ := (Ledger.shows_empty.matches_foldlM site statements).exists_ok h
  refine ⟨l, hl, hshows.set_eq, hshows.shown_frames, hshows.orderly, fun before s hsplit => ?_⟩
  subst hsplit
  simp only [List.foldlM_append, List.foldlM_cons, List.foldlM_nil, bind_pure,
    Traced.outcome_bind_eq_ok] at h
  obtain ⟨c, hbefore, hadd⟩ := h
  obtain ⟨above, habove, hc⟩ := (Ledger.shows_empty.matches_foldlM site before).exists_ok hbefore
  obtain ⟨left, hleft, hopens⟩ := hc.exists_closeTo hshows hadd
  exact ⟨above, left, habove, hleft, hopens⟩

/-- A text that can load nothing. -/
def secluded : Site where
  path := none
  load _ _ := Traced.ofExcept (.error .nullInPath)

/-- A group of one step, and a scenario that includes it and has a step of its own, which is open. -/
def nesting : List Statement :=
  [⟨.group "g", "g", 0, 1, 1⟩, ⟨.step .reload none, "", 1, 2, 2⟩, ⟨.scenario "s", "s", 0, 3, 1⟩,
    ⟨.inclusion "g", "g", 1, 4, 2⟩, ⟨.step .follow none, "", 1, 5, 2⟩]

theorem exists_orderly_nesting :
    ∃ d : Draft, (nesting.foldlM (add secluded) {}).outcome = .ok d ∧ d.stack.length = 2 ∧
      ∃ l : Ledger, (nesting.foldlM (Ledger.add secluded) {}).outcome = .ok l ∧
        l.set = d.result ∧ l.frames.map Ledger.Frame.shown = d.stack ∧ l.Orderly := by
  have hrun : (nesting.foldlM (add secluded) {}).outcome.toOption.map (·.stack.length) = some 2 := by
    decide +kernel
  obtain ⟨d, hd, hlength⟩ := Option.map_eq_some_iff.1 hrun
  rw [toOption_eq_some] at hd
  obtain ⟨l, hl, hset, hframes, horderly, -⟩ := foldlM_orderly secluded nesting d hd
  exact ⟨d, hd, hlength, l, hl, hset, hframes, horderly⟩

end Draft

end ScenarioScript
