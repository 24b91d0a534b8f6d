import ScenarioScript.Proofs.Containment.Holdings
import ScenarioScript.Proofs.Sharing.Ledger

/-!
# Proofs/Sharing/Agreement — ledgers and drafts agree

A ledger and a draft that take in the same statements show the same set and the same open blocks, and
fail in the same way (`Ledger.Shows.matches_foldlM`, `Ledger.outcome_foldlM_set`).

A change to a kept node must show where the node is open and nowhere else.  What carries this is the
order in which nodes are entered: an open block has a higher number than everything that is finished
around it (`Store.Settled`), and a store that is changed at a number is the **same** below it
(`Store.Same`).
-/

namespace ScenarioScript

/-! ## Results that match -/

/-- **Two results match**: both fail in the same way, or both succeed with values that are related. -/
inductive Matches {ε α β : Type} (R : α → β → Prop) : Except ε α → Except ε β → Prop
  | ok {a : α} {b : β} (related : R a b) : Matches R (.ok a) (.ok b)
  | error (e : ε) : Matches R (.error e) (.error e)

namespace Matches

variable {ε ε' α β α' β' : Type} {R : α → β → Prop} {S : α' → β' → Prop} {r : Except ε α}
  {t : Except ε β}

theorem exists_ok {b : β} (h : Matches R r t) (hb : t = .ok b) : ∃ a, r = .ok a ∧ R a b := by
  cases h with
  | ok related => exact ⟨_, rfl, Except.ok.inj hb ▸ related⟩
  | error e => exact absurd hb nofun

/-- **Two stages match** if both do. -/
theorem bind {f : α → Except ε α'} {g : β → Except ε β'} (h : Matches R r t)
    (hnext : ∀ a b, R a b → Matches S (f a) (g b)) : Matches S (r.bind f) (t.bind g) := by
  cases h with
  | ok related => exact hnext _ _ related
  | error e => exact .error e

/-- **What is the same** for related values is the same for the results. -/
theorem map_eq {γ : Type} {f : α → γ} {g : β → γ} (h : Matches R r t)
    (hfg : ∀ a b, R a b → f a = g b) : r.map f = t.map g := by
  cases h with
  | ok related => exact congrArg Except.ok (hfg _ _ related)
  | error e => rfl

theorem mapError {f : ε → ε'} (h : Matches R r t) : Matches R (r.mapError f) (t.mapError f) := by
  cases h with
  | ok related => exact .ok related
  | error e => exact .error (f e)

/-- **One result** matches itself, whatever related things are made of it. -/
theorem map {γ : Type} {f : γ → α} {g : γ → β} (r : Except ε γ) (h : ∀ c, R (f c) (g c)) :
    Matches R (r.map f) (r.map g) := by
  cases r with
  | ok c => exact .ok (h c)
  | error e => exact .error e

end Matches

/-! ## What is kept below a number -/

/-- The reference is to a copy, or to a node that is kept below the number. -/
def Ref.Below {α : Type} (n : Nat) : Ref α → Prop
  | .kept id => id < n
  | .copy _ => True

/-- The item is an inclusion, or refers to a step that is kept below the number. -/
def KeptItem.Below (n : Nat) : KeptItem → Prop
  | .step id => id < n
  | .inclusion _ => True

theorem Ref.Below.mono {α : Type} {r : Ref α} {n m : Nat} (h : r.Below n) (hle : n ≤ m) :
    r.Below m := by
  cases r with
  | kept id => exact Nat.lt_of_lt_of_le h hle
  | copy value => trivial

theorem KeptItem.Below.mono {item : KeptItem} {n m : Nat} (h : item.Below n) (hle : n ≤ m) :
    item.Below m := by
  cases item with
  | step id => exact Nat.lt_of_lt_of_le h hle
  | inclusion i => trivial

namespace Store

variable {σ τ : Store} {n m id : Nat} {kept : KeptSet}

/-- A scenario that is kept below the number, with all its steps, or a copy. -/
def ScenarioBelow (σ : Store) (n : Nat) : Ref Scenario → Prop
  | .kept id => id < n ∧ ∀ r ∈ (σ.scenarios id).steps, r.Below n
  | .copy _ => True

/-- A group that is kept below the number, with all its steps, or a copy. -/
def GroupBelow (σ : Store) (n : Nat) : Ref Group → Prop
  | .kept id => id < n ∧ ∀ item ∈ (σ.groups id).items, item.Below n
  | .copy _ => True

/-- **The set is settled below the number**: all that it refers to is kept there. -/
structure Settled (σ : Store) (n : Nat) (kept : KeptSet) : Prop where
  scenarios : ∀ r ∈ kept.scenarios, σ.ScenarioBelow n r
  groups : kept.groups.All (σ.GroupBelow n)

/-- **Two stores are the same below the number.** -/
structure Same (n : Nat) (σ τ : Store) : Prop where
  scenarios : ∀ i < n, τ.scenarios i = σ.scenarios i
  groups : ∀ i < n, τ.groups i = σ.groups i
  steps : ∀ i < n, τ.steps i = σ.steps i

theorem ScenarioBelow.mono {r : Ref Scenario} (h : σ.ScenarioBelow n r) (hle : n ≤ m) :
    σ.ScenarioBelow m r := by
  cases r with
  | kept id => exact ⟨Nat.lt_of_lt_of_le h.1 hle, fun r hr => (h.2 r hr).mono hle⟩
  | copy scenario => trivial

theorem GroupBelow.mono {r : Ref Group} (h : σ.GroupBelow n r) (hle : n ≤ m) :
    σ.GroupBelow m r := by
  cases r with
  | kept id => exact ⟨Nat.lt_of_lt_of_le h.1 hle, fun r hr => (h.2 r hr).mono hle⟩
  | copy group => trivial

theorem Settled.mono (h : σ.Settled n kept) (hle : n ≤ m) : σ.Settled m kept :=
  ⟨fun r hr => (h.scenarios r hr).mono hle, fun e he => (h.groups e he).mono hle⟩

@[simp] theorem map_step_copy (σ : Store) (steps : List Step) :
    (steps.map .copy).map σ.step = steps := by
  rw [List.map_map]
  exact List.map_id steps

@[simp] theorem map_scenario_copy (σ : Store) (scenarios : List Scenario) :
    (scenarios.map .copy).map σ.scenario = scenarios := by
  rw [List.map_map]
  exact List.map_id scenarios

@[simp] theorem map_group_copy (σ : Store) (groups : OrderedMap String Group) :
    (groups.map .copy).map σ.group = groups := by
  refine OrderedMap.ext ((List.map_map ..).trans ?_)
  exact List.map_id groups.entries

/-! ### Changes further up -/

theorem Same.trans {υ : Store} (h : Same n σ τ) (h' : Same n τ υ) : Same n σ υ :=
  ⟨fun i hi => (h'.scenarios i hi).trans (h.scenarios i hi),
    fun i hi => (h'.groups i hi).trans (h.groups i hi),
    fun i hi => (h'.steps i hi).trans (h.steps i hi)⟩

/-- **A change at a number** leaves everything below it the same. -/
theorem same_changeScenario (hle : n ≤ id) (f : KeptScenario → KeptScenario) :
    Same n σ (σ.changeScenario id f) :=
  ⟨fun _ hi => Function.update_of_ne (Nat.ne_of_lt (Nat.lt_of_lt_of_le hi hle)) .., fun _ _ => rfl,
    fun _ _ => rfl⟩

theorem same_changeGroup (hle : n ≤ id) (f : KeptGroup → KeptGroup) :
    Same n σ (σ.changeGroup id f) :=
  ⟨fun _ _ => rfl, fun _ hi => Function.update_of_ne (Nat.ne_of_lt (Nat.lt_of_lt_of_le hi hle)) ..,
    fun _ _ => rfl⟩

theorem same_changeStep (hle : n ≤ id) (step : Step) : Same n σ (σ.changeStep id step) :=
  ⟨fun _ _ => rfl, fun _ _ => rfl,
    fun _ hi => Function.update_of_ne (Nat.ne_of_lt (Nat.lt_of_lt_of_le hi hle)) ..⟩

/-- **To enter a node** leaves all others the same. -/
theorem same_enterScenario (hle : n ≤ σ.size) (head : Scenario) : Same n σ (σ.enterScenario head) :=
  ⟨fun _ hi => Function.update_of_ne (Nat.ne_of_lt (Nat.lt_of_lt_of_le hi hle)) .., fun _ _ => rfl,
    fun _ _ => rfl⟩

theorem same_enterGroup (hle : n ≤ σ.size) (head : Group) : Same n σ (σ.enterGroup head) :=
  ⟨fun _ _ => rfl, fun _ hi => Function.update_of_ne (Nat.ne_of_lt (Nat.lt_of_lt_of_le hi hle)) ..,
    fun _ _ => rfl⟩

theorem same_enterStep (hle : n ≤ σ.size) (step : Step) : Same n σ (σ.enterStep step) :=
  ⟨fun _ _ => rfl, fun _ _ => rfl,
    fun _ hi => Function.update_of_ne (Nat.ne_of_lt (Nat.lt_of_lt_of_le hi hle)) ..⟩

namespace Same

variable (h : Same n σ τ)

include h

theorem step_eq {r : Ref Step} (hr : r.Below n) : τ.step r = σ.step r := by
  cases r with
  | kept id => exact h.steps id hr
  | copy step => rfl

theorem map_step_eq {refs : List (Ref Step)} (hrefs : ∀ r ∈ refs, r.Below n) :
    refs.map τ.step = refs.map σ.step :=
  List.map_congr_left fun r hr => h.step_eq (hrefs r hr)

theorem map_item_eq {items : List KeptItem} (hitems : ∀ item ∈ items, item.Below n) :
    items.map τ.item = items.map σ.item := by
  refine List.map_congr_left fun item hitem => ?_
  cases item with
  | step id => exact congrArg GroupItem.step (h.steps id (hitems _ hitem))
  | inclusion i => rfl

theorem scenario {r : Ref Scenario} (hr : σ.ScenarioBelow n r) :
    τ.ScenarioBelow n r ∧ τ.scenario r = σ.scenario r := by
  cases r with
  | copy scenario => exact ⟨trivial, rfl⟩
  | kept id =>
    have hid := h.scenarios id hr.1
    refine ⟨⟨hr.1, hid ▸ hr.2⟩, ?_⟩
    simp only [Store.scenario, hid, h.map_step_eq hr.2]

theorem group {r : Ref Group} (hr : σ.GroupBelow n r) :
    τ.GroupBelow n r ∧ τ.group r = σ.group r := by
  cases r with
  | copy group => exact ⟨trivial, rfl⟩
  | kept id =>
    have hid := h.groups id hr.1
    refine ⟨⟨hr.1, hid ▸ hr.2⟩, ?_⟩
    simp only [Store.group, hid, h.map_item_eq hr.2]

theorem settled (hkept : σ.Settled n kept) : τ.Settled n kept :=
  ⟨fun r hr => (h.scenario (hkept.scenarios r hr)).1, fun e he => (h.group (hkept.groups e he)).1⟩

/-- **What is settled below the number** shows no change further up. -/
theorem set_eq (hkept : σ.Settled n kept) : τ.set kept = σ.set kept := by
  have hscenarios : kept.scenarios.map τ.scenario = kept.scenarios.map σ.scenario :=
    List.map_congr_left fun r hr => (h.scenario (hkept.scenarios r hr)).2
  have hgroups : kept.groups.map τ.group = kept.groups.map σ.group :=
    OrderedMap.map_congr fun e he => (h.group (hkept.groups e he)).2
  simp only [Store.set, hscenarios, hgroups]

end Same

end Store

/-! ## A ledger that shows a draft -/

/-- The same names, in whatever order and however often. -/
def SameNames (names names' : List String) : Prop := ∀ name, name ∈ names ↔ name ∈ names'

theorem SameNames.append {a a' b b' : List String} (h : SameNames a a') (h' : SameNames b b') :
    SameNames (a ++ b) (a' ++ b') := fun name => by
  simp only [List.mem_append, h name, h' name]

/-- **A step is checked by the names that can be seen**, in whatever order they come. -/
theorem SameNames.checkScope_eq {names names' : List String} (h : SameNames names names')
    (step : Step) : step.checkScope names = step.checkScope names' := by
  have hown : step.ownNames names = step.ownNames names' :=
    List.filter_congr fun name _ => by simp only [h name]
  simp only [Step.checkScope, Step.forwardRef?, hown]

theorem SameNames.bind {visible : List String} {scenario : Scenario}
    (h : SameNames visible scenario.visible) (name : String) (value : Tree) :
    SameNames (visible ++ [name]) (scenario.bind name value).visible := by
  intro name'
  have hname := h name'
  simp only [Scenario.visible, Scenario.bind, List.mem_append, List.mem_singleton,
    OrderedMap.mem_keys_insert] at hname ⊢
  rw [hname]
  tauto

namespace Ledger

open Outcome

section Open

variable (σ : Store) (kept : KeptSet) (set : ScenarioSet)

/-- **A scenario is open** under a number: what is finished around it is the given set, and is settled
below it. -/
structure OpenScenario (id : Nat) (scenario : Scenario) (visible : List String) : Prop where
  settled : σ.Settled id kept
  set_eq : σ.set kept = set
  id_lt : id < σ.size
  steps : ∀ r ∈ (σ.scenarios id).steps, r.Below σ.size
  scenario_eq : σ.scenario (.kept id) = scenario
  visible_eq : SameNames visible scenario.visible

/-- **A step of a scenario is open** under a number: it comes last in the scenario, and the steps before
it are kept below it. -/
structure OpenScenarioStep (id own : Nat) (refs : List (Ref Step)) (scenario : Scenario)
    (seen visible : List String) : Prop where
  settled : σ.Settled id kept
  set_eq : σ.set kept = set
  id_lt : id < own
  own_lt : own < σ.size
  steps_eq : (σ.scenarios id).steps = refs ++ [.kept own]
  steps : ∀ r ∈ refs, r.Below own
  scenario_eq : { (σ.scenarios id).head with steps := refs.map σ.step } = scenario
  seen_eq : SameNames seen scenario.visible
  visible_eq : SameNames visible scenario.visible

/-- **A group is open** under a number. -/
structure OpenGroup (id : Nat) (group : Group) : Prop where
  settled : σ.Settled id kept
  set_eq : σ.set kept = set
  id_lt : id < σ.size
  items : ∀ item ∈ (σ.groups id).items, item.Below σ.size
  group_eq : σ.group (.kept id) = group

/-- **A step of a group is open** under a number: it comes last in the group. -/
structure OpenGroupStep (id own : Nat) (items : List KeptItem) (group : Group) : Prop where
  settled : σ.Settled id kept
  set_eq : σ.set kept = set
  id_lt : id < own
  own_lt : own < σ.size
  items_eq : (σ.groups id).items = items ++ [.step own]
  items_below : ∀ item ∈ items, item.Below own
  group_eq : { (σ.groups id).head with items := items.map σ.item } = group

end Open

/-- **A ledger shows a draft**: without its open nodes, the result of the ledger is what the draft has
finished, and the open nodes are those of the draft. -/
inductive Shows : Ledger → Draft → Prop
  | root {σ : Store} {kept : KeptSet} (settled : σ.Settled σ.size kept) :
      Shows ⟨σ, kept, []⟩ ⟨σ.set kept, .root⟩
  | scenario {σ : Store} {kept : KeptSet} {set : ScenarioSet} {id : Nat} {scenario : Scenario}
      {visible : List String} (h : OpenScenario σ kept set id scenario visible) :
      Shows ⟨σ, kept.withScenario id, [⟨0, .scenario id, some id, visible⟩]⟩
        ⟨set, .scenario scenario⟩
  | scenarioStep {σ : Store} {kept : KeptSet} {set : ScenarioSet} {id own : Nat}
      {refs : List (Ref Step)} {scenario : Scenario} {step : Step} {seen visible : List String}
      (h : OpenScenarioStep σ kept set id own refs scenario seen visible)
      (step_eq : σ.steps own = step) :
      Shows ⟨σ, kept.withScenario id,
        [⟨1, .step own, some id, seen⟩, ⟨0, .scenario id, some id, visible⟩]⟩
        ⟨set, .scenarioStep scenario step⟩
  | group {σ : Store} {kept : KeptSet} {set : ScenarioSet} {id : Nat} {group : Group}
      (h : OpenGroup σ kept set id group) :
      Shows ⟨σ, kept.withGroup group.name id, [⟨0, .group id, none, []⟩]⟩ ⟨set, .group group⟩
  | groupStep {σ : Store} {kept : KeptSet} {set : ScenarioSet} {id own : Nat}
      {items : List KeptItem} {group : Group} {step : Step}
      (h : OpenGroupStep σ kept set id own items group) (step_eq : σ.steps own = step) :
      Shows ⟨σ, kept.withGroup group.name id,
        [⟨1, .step own, none, []⟩, ⟨0, .group id, none, []⟩]⟩
        ⟨set, .groupStep group step⟩

variable {l : Ledger} {d : Draft} {site : Site} {s : Statement} {σ : Store} {kept : KeptSet}
  {set : ScenarioSet} {id own : Nat}

theorem shows_empty : Shows {} {} :=
  .root ⟨List.forall_mem_nil _, OrderedMap.all_empty⟩

/-! ### What is shown -/

theorem OpenScenario.settled_with {scenario : Scenario} {visible : List String}
    (h : OpenScenario σ kept set id scenario visible) : σ.Settled σ.size (kept.withScenario id) :=
  have hkept := h.settled.mono (Nat.le_of_lt h.id_lt)
  ⟨forall_mem_concat hkept.scenarios ⟨h.id_lt, h.steps⟩, hkept.groups⟩

theorem OpenGroup.settled_with {group : Group} (h : OpenGroup σ kept set id group) :
    σ.Settled σ.size (kept.withGroup group.name id) :=
  have hkept := h.settled.mono (Nat.le_of_lt h.id_lt)
  ⟨hkept.scenarios, hkept.groups.insert ⟨h.id_lt, h.items⟩⟩

theorem OpenScenario.set_with {scenario : Scenario} {visible : List String}
    (h : OpenScenario σ kept set id scenario visible) :
    σ.set (kept.withScenario id) = { set with scenarios := set.scenarios ++ [scenario] } := by
  obtain ⟨-, rfl, -, -, rfl, -⟩ := h
  simp [Store.set, KeptSet.withScenario]

theorem OpenGroup.set_with {group : Group} (h : OpenGroup σ kept set id group) :
    σ.set (kept.withGroup group.name id) =
      { set with groups := set.groups.insert group.name group } := by
  obtain ⟨-, rfl, -, -, rfl⟩ := h
  simp [Store.set, KeptSet.withGroup, OrderedMap.map_insert]

/-- **Behind an open step of a scenario** the scenario has one step more, whose names can be seen. -/
theorem OpenScenarioStep.closed {refs : List (Ref Step)} {scenario : Scenario}
    {seen visible : List String} (h : OpenScenarioStep σ kept set id own refs scenario seen visible) :
    OpenScenario σ kept set id { scenario with steps := scenario.steps ++ [σ.steps own] }
      (visible ++ (σ.steps own).setNames) where
  settled := h.settled
  set_eq := h.set_eq
  id_lt := Nat.lt_trans h.id_lt h.own_lt
  steps := by
    rw [h.steps_eq]
    exact forall_mem_concat (fun r hr => (h.steps r hr).mono (Nat.le_of_lt h.own_lt)) h.own_lt
  scenario_eq := by
    rw [← h.scenario_eq]
    simp [Store.scenario, h.steps_eq, Store.step]
  visible_eq := by
    have hnames := h.visible_eq.append fun name => Iff.rfl (a := name ∈ (σ.steps own).setNames)
    simpa [Scenario.visible] using hnames

/-- **Behind an open step of a group** the group has one item more. -/
theorem OpenGroupStep.closed {items : List KeptItem} {group : Group}
    (h : OpenGroupStep σ kept set id own items group) :
    OpenGroup σ kept set id { group with items := group.items ++ [.step (σ.steps own)] } where
  settled := h.settled
  set_eq := h.set_eq
  id_lt := Nat.lt_trans h.id_lt h.own_lt
  items := by
    rw [h.items_eq]
    exact forall_mem_concat (fun item hitem => (h.items_below item hitem).mono (Nat.le_of_lt h.own_lt))
      h.own_lt
  group_eq := by
    rw [← h.group_eq]
    simp [Store.group, h.items_eq, Store.item]

/-- **All that a ledger refers to** has been entered. -/
theorem Shows.settled (h : l.Shows d) : l.store.Settled l.store.size l.result := by
  cases h with
  | root settled => exact settled
  | scenario h => exact h.settled_with
  | scenarioStep h step_eq => exact h.closed.settled_with
  | group h => exact h.settled_with
  | groupStep h step_eq => exact h.closed.settled_with

/-- **A ledger shows the set** that the draft does. -/
theorem Shows.set_eq (h : l.Shows d) : l.set = d.result := by
  cases h with
  | root => rfl
  | scenario h => exact h.set_with
  | scenarioStep h step_eq => exact step_eq ▸ h.closed.set_with
  | group h => exact h.set_with
  | groupStep h step_eq => exact step_eq ▸ h.closed.set_with

theorem Shows.expectedDepth_eq (h : l.Shows d) : l.expectedDepth = d.block.depth := by
  cases h <;> rfl

/-! ### Closing blocks -/

/-- Behind the last check, every block may be closed. -/
theorem Shows.closed (h : l.Shows d) : Shows { l with stack := [] } ⟨d.result, .root⟩ :=
  h.set_eq ▸ .root h.settled

/-- **Blocks are closed** in a ledger as in the draft that it shows. -/
theorem Shows.matches_closeTo (h : l.Shows d) (depth : Int) :
    Matches Shows (l.closeTo depth) (d.closeTo depth) := by
  have hclosed := h.closed
  cases h with
  | @root σ kept settled =>
    have hd : Draft.closeTo ⟨σ.set kept, .root⟩ depth = .ok ⟨σ.set kept, .root⟩ := by
      unfold Draft.closeTo
      split
      · rfl
      · split <;> rfl
    rw [hd]
    exact .ok hclosed
  | @scenario σ kept set id scenario visible h =>
    by_cases hdepth : depth ≤ 0
    · simp only [Ledger.closeTo, closeFrames, if_pos hdepth, Draft.closeTo]
      exact .ok hclosed
    · have hd : Draft.closeTo ⟨set, .scenario scenario⟩ depth = .ok ⟨set, .scenario scenario⟩ := by
        rw [Draft.closeTo, if_neg hdepth]
        split <;> rfl
      simp only [Ledger.closeTo, closeFrames, if_neg hdepth, Frame.see, List.append_nil, hd]
      exact .ok (.scenario h)
  | @group σ kept set id group h =>
    by_cases hdepth : depth ≤ 0
    · simp only [Ledger.closeTo, closeFrames, if_pos hdepth, Draft.closeTo]
      exact .ok hclosed
    · have hd : Draft.closeTo ⟨set, .group group⟩ depth = .ok ⟨set, .group group⟩ := by
        rw [Draft.closeTo, if_neg hdepth]
        split <;> rfl
      simp only [Ledger.closeTo, closeFrames, if_neg hdepth, Frame.see, List.append_nil, hd]
      exact .ok (.group h)
  | @scenarioStep σ kept set id own refs scenario step seen visible h step_eq =>
    subst step_eq
    by_cases hdeep : depth ≤ 1
    · simp only [Ledger.closeTo, closeFrames, if_pos hdeep, close, Frame.see, List.append_nil,
        h.seen_eq.checkScope_eq, Draft.closeTo, Draft.closeAll, Draft.closeStep]
      cases (σ.steps own).checkScope scenario.visible with
      | error e => split <;> exact .error e
      | ok u =>
        by_cases hdepth : depth ≤ 0
        · simp only [if_pos hdepth]
          exact .ok (Shows.scenario h.closed).closed
        · simp only [if_neg hdepth]
          exact .ok (.scenario h.closed)
    · have hdepth : ¬depth ≤ 0 := by omega
      simp only [Ledger.closeTo, closeFrames, if_neg hdeep, Frame.see, List.append_nil,
        Draft.closeTo, if_neg hdepth]
      exact .ok (.scenarioStep h rfl)
  | @groupStep σ kept set id own items group step h step_eq =>
    subst step_eq
    by_cases hdeep : depth ≤ 1
    · simp only [Ledger.closeTo, closeFrames, if_pos hdeep, close, Frame.see, List.append_nil,
        Draft.closeTo, Draft.closeAll, Draft.closeStep]
      by_cases hdepth : depth ≤ 0
      · simp only [if_pos hdepth]
        exact .ok (Shows.group h.closed).closed
      · simp only [if_neg hdepth]
        exact .ok (.group h.closed)
    · have hdepth : ¬depth ≤ 0 := by omega
      simp only [Ledger.closeTo, closeFrames, if_neg hdeep, Frame.see, List.append_nil,
        Draft.closeTo, if_neg hdepth]
      exact .ok (.groupStep h rfl)

/-! ### Statements at top level -/

/-- **A scenario that begins** comes last in the result. -/
theorem shows_openScenario (settled : σ.Settled σ.size kept) {scenario : Scenario}
    (hsteps : scenario.steps = []) :
    Shows (openScenario ⟨σ, kept, []⟩ 0 scenario) ⟨σ.set kept, .scenario scenario⟩ := by
  have hsame := σ.same_enterScenario (Nat.le_refl σ.size) scenario
  have hentered : (σ.enterScenario scenario).scenarios σ.size = ⟨scenario, []⟩ :=
    Function.update_self ..
  refine .scenario ⟨hsame.settled settled, hsame.set_eq settled, Nat.lt_succ_self _, ?_, ?_, ?_⟩
  · rw [hentered]
    exact List.forall_mem_nil _
  · simp only [Store.scenario, hentered, List.map_nil]
    rw [← hsteps]
  · intro name
    simp [Scenario.visible, hsteps]

/-- **A group that begins** comes into the result under its name. -/
theorem shows_openGroup (settled : σ.Settled σ.size kept) {group : Group}
    (hitems : group.items = []) :
    Shows (openGroup ⟨σ, kept, []⟩ 0 group) ⟨σ.set kept, .group group⟩ := by
  have hsame := σ.same_enterGroup (Nat.le_refl σ.size) group
  have hentered : (σ.enterGroup group).groups σ.size = ⟨group, []⟩ := Function.update_self ..
  refine .group ⟨hsame.settled settled, hsame.set_eq settled, Nat.lt_succ_self _, ?_, ?_⟩
  · rw [hentered]
    exact List.forall_mem_nil _
  · simp only [Store.group, hentered, List.map_nil]
    rw [← hitems]

/-- At top level the bindings and settings can be changed. -/
theorem shows_head (settled : σ.Settled σ.size kept) (head : ScenarioSet) :
    Shows ⟨σ, { kept with head }, []⟩ ⟨σ.set { kept with head }, .root⟩ :=
  .root ⟨settled.scenarios, settled.groups⟩

/-- **A loaded set** comes in as copies. -/
theorem shows_merge (settled : σ.Settled σ.size kept) (loaded : ScenarioSet) :
    Shows ⟨σ, kept.merge loaded, []⟩ { finished := (σ.set kept).merge loaded } := by
  have hset : σ.set (kept.merge loaded) = (σ.set kept).merge loaded := by
    simp only [Store.set, KeptSet.merge, ScenarioSet.merge, OrderedMap.map_update, List.map_append,
      Store.map_scenario_copy, Store.map_group_copy]
  exact hset ▸ .root
    ⟨List.forall_mem_append.2 ⟨settled.scenarios, List.forall_mem_map.2 fun _ _ => trivial⟩,
      settled.groups.update (List.forall_mem_map.2 fun _ _ => trivial)⟩

theorem matches_addToRoot (settled : σ.Settled σ.size kept) (hdepth : s.depth = 0) :
    Matches Shows (addToRoot site ⟨σ, kept, []⟩ s).outcome
      (Draft.addToRoot site (σ.set kept) s).outcome := by
  unfold addToRoot Draft.addToRoot
  cases s.command with
  | bind name value => exact .ok (shows_head settled _)
  | endpoint value => exact .ok (shows_head settled _)
  | setting setting =>
    simp only [Traced.outcome_bind_pure, Traced.outcome_liftM]
    exact .map _ fun config => shows_head settled _
  | load target =>
    simp only [Traced.outcome_bind_pure]
    exact .map _ (shows_merge settled)
  | scenario label =>
    rw [hdepth]
    exact .ok (shows_openScenario settled rfl)
  | group name =>
    rw [hdepth]
    exact .ok (shows_openGroup settled rfl)
  | _ => exact .error _

/-! ### Statements in a scenario -/

namespace OpenScenario

variable {scenario : Scenario} {visible : List String}
  (h : OpenScenario σ kept set id scenario visible)

include h

/-- **A scenario whose head is changed** in the store is changed in the result. -/
theorem shows_changeHead {f : Scenario → Scenario}
    (hf : ∀ head steps, f { head with steps } = { f head with steps }) {visible' : List String}
    (hvisible : SameNames visible' (f scenario).visible) :
    Shows ⟨σ.changeScenario id fun s => { s with head := f s.head }, kept.withScenario id,
      [⟨0, .scenario id, some id, visible'⟩]⟩ ⟨set, .scenario (f scenario)⟩ := by
  have hsame := σ.same_changeScenario (Nat.le_refl id) fun s => { s with head := f s.head }
  have hchanged : (σ.changeScenario id fun s => { s with head := f s.head }).scenarios id =
      { σ.scenarios id with head := f (σ.scenarios id).head } := Function.update_self ..
  refine .scenario ⟨hsame.settled h.settled, (hsame.set_eq h.settled).trans h.set_eq, h.id_lt, ?_, ?_,
    hvisible⟩
  · rw [hchanged]
    exact h.steps
  · rw [Store.scenario, hchanged, ← h.scenario_eq]
    exact (hf _ _).symm

/-- **Steps that are included** come into the scenario as copies, and their names can be seen. -/
theorem shows_include (included : List Step) :
    Shows ⟨σ.changeScenario id fun s => { s with steps := s.steps ++ included.map .copy },
      kept.withScenario id,
      [⟨0, .scenario id, some id, visible ++ included.flatMap (·.setNames)⟩]⟩
      ⟨set, .scenario { scenario with steps := scenario.steps ++ included }⟩ := by
  have hsame := σ.same_changeScenario (Nat.le_refl id) fun s =>
    { s with steps := s.steps ++ included.map .copy }
  have hchanged : (σ.changeScenario id fun s =>
      { s with steps := s.steps ++ included.map .copy }).scenarios id =
      { σ.scenarios id with steps := (σ.scenarios id).steps ++ included.map .copy } :=
    Function.update_self ..
  refine .scenario ⟨hsame.settled h.settled, (hsame.set_eq h.settled).trans h.set_eq, h.id_lt, ?_, ?_,
    ?_⟩
  · rw [hchanged]
    exact List.forall_mem_append.2 ⟨h.steps, List.forall_mem_map.2 fun _ _ => trivial⟩
  · simp only [Store.scenario, hchanged, List.map_append, Store.map_step_copy, ← h.scenario_eq]
    rfl
  · have hnames := h.visible_eq.append fun name =>
      Iff.rfl (a := name ∈ included.flatMap (·.setNames))
    simpa [Scenario.visible] using hnames

/-- **A step that begins** comes last in its scenario. -/
theorem shows_openScenarioStep (step : Step) :
    Shows (openScenarioStep ⟨σ, kept.withScenario id, [⟨0, .scenario id, some id, visible⟩]⟩ 1 id
      visible step) ⟨set, .scenarioStep scenario step⟩ := by
  have hentered := σ.same_enterStep (Nat.le_of_lt h.id_lt) step
  have hsame := hentered.trans ((σ.enterStep step).same_changeScenario (Nat.le_refl id) fun s =>
    { s with steps := s.steps ++ [.kept σ.size] })
  have hsteps := (σ.same_enterStep (Nat.le_refl σ.size) step).map_step_eq h.steps
  have hchanged : ((σ.enterStep step).changeScenario id fun s =>
      { s with steps := s.steps ++ [.kept σ.size] }).scenarios id =
      { σ.scenarios id with steps := (σ.scenarios id).steps ++ [.kept σ.size] } :=
    Function.update_self ..
  have hopen : OpenScenarioStep ((σ.enterStep step).changeScenario id fun s =>
      { s with steps := s.steps ++ [.kept σ.size] }) kept set id σ.size (σ.scenarios id).steps
      scenario visible visible := by
    refine ⟨hsame.settled h.settled, (hsame.set_eq h.settled).trans h.set_eq, h.id_lt,
      Nat.lt_succ_self _, ?_, h.steps, ?_, h.visible_eq, h.visible_eq⟩
    · rw [hchanged]
    · rw [hchanged, ← h.scenario_eq]
      exact congrArg (fun steps => { (σ.scenarios id).head with steps }) hsteps
  exact .scenarioStep hopen (Function.update_self ..)

theorem matches_addToScenario (hdepth : s.depth = 1) (path : Option String) :
    Matches Shows
      (addToScenario path ⟨σ, kept.withScenario id, [⟨0, .scenario id, some id, visible⟩]⟩ id
        visible s)
      ((Draft.addToScenario path set.groups scenario s).map fun block => ⟨set, block⟩) := by
  unfold addToScenario Draft.addToScenario
  cases s.command with
  | step kind target =>
    simp only [hdepth, map_map]
    exact .map _ h.shows_openScenarioStep
  | bind name value =>
    exact .ok (h.shows_changeHead (f := (·.bind name value)) (fun _ _ => rfl)
      (h.visible_eq.bind name value))
  | endpoint value =>
    exact .ok (h.shows_changeHead (f := fun head => { head.bind "endpoint" value with
      config := { head.config with endpoint := some value } }) (fun _ _ => rfl)
      (h.visible_eq.bind "endpoint" value))
  | name value =>
    exact .ok (h.shows_changeHead (f := fun head => { head with
      name := some value, config := { head.config with name := some value } }) (fun _ _ => rfl)
      h.visible_eq)
  | setting setting =>
    have hconfig : (σ.scenarios id).head.config = scenario.config := h.scenario_eq ▸ rfl
    simp only [map_map, hconfig]
    exact .map _ fun config =>
      h.shows_changeHead (f := ({ · with config })) (fun _ _ => rfl) h.visible_eq
  | inclusion group =>
    have hgroups : (Ledger.set ⟨σ, kept.withScenario id,
        [⟨0, .scenario id, some id, visible⟩]⟩).groups = set.groups := h.set_eq ▸ rfl
    simp only [hgroups, map_map]
    exact .map _ h.shows_include
  | _ => exact .error _

end OpenScenario

/-! ### Statements in a group -/

namespace OpenGroup

variable {group : Group} (h : OpenGroup σ kept set id group)

include h

/-- **An inclusion** comes into the group as it is. -/
theorem shows_addInclusion (inclusion : Inclusion) :
    Shows ⟨σ.changeGroup id fun g => { g with items := g.items ++ [.inclusion inclusion] },
      kept.withGroup group.name id, [⟨0, .group id, none, []⟩]⟩
      ⟨set, .group { group with items := group.items ++ [.inclusion inclusion] }⟩ := by
  have hsame := σ.same_changeGroup (Nat.le_refl id) fun g =>
    { g with items := g.items ++ [.inclusion inclusion] }
  have hchanged : (σ.changeGroup id fun g =>
      { g with items := g.items ++ [.inclusion inclusion] }).groups id =
      { σ.groups id with items := (σ.groups id).items ++ [.inclusion inclusion] } :=
    Function.update_self ..
  have hopen : OpenGroup (σ.changeGroup id fun g =>
      { g with items := g.items ++ [.inclusion inclusion] }) kept set id
      { group with items := group.items ++ [.inclusion inclusion] } := by
    refine ⟨hsame.settled h.settled, (hsame.set_eq h.settled).trans h.set_eq, h.id_lt, ?_, ?_⟩
    · rw [hchanged]
      exact forall_mem_concat h.items trivial
    · simp only [Store.group, hchanged, List.map_append, ← h.group_eq]
      rfl
  exact .group hopen

/-- **A step that begins** comes last in its group. -/
theorem shows_openGroupStep (step : Step) :
    Shows (openGroupStep ⟨σ, kept.withGroup group.name id, [⟨0, .group id, none, []⟩]⟩ 1 id step)
      ⟨set, .groupStep group step⟩ := by
  have hentered := σ.same_enterStep (Nat.le_of_lt h.id_lt) step
  have hsame := hentered.trans ((σ.enterStep step).same_changeGroup (Nat.le_refl id) fun g =>
    { g with items := g.items ++ [.step σ.size] })
  have hitems := (σ.same_enterStep (Nat.le_refl σ.size) step).map_item_eq h.items
  have hchanged : ((σ.enterStep step).changeGroup id fun g =>
      { g with items := g.items ++ [.step σ.size] }).groups id =
      { σ.groups id with items := (σ.groups id).items ++ [.step σ.size] } :=
    Function.update_self ..
  have hopen : OpenGroupStep ((σ.enterStep step).changeGroup id fun g =>
      { g with items := g.items ++ [.step σ.size] }) kept set id σ.size (σ.groups id).items
      group := by
    refine ⟨hsame.settled h.settled, (hsame.set_eq h.settled).trans h.set_eq, h.id_lt,
      Nat.lt_succ_self _, ?_, h.items, ?_⟩
    · rw [hchanged]
    · rw [hchanged, ← h.group_eq]
      exact congrArg (fun items => { (σ.groups id).head with items }) hitems
  exact .groupStep hopen (Function.update_self ..)

theorem matches_addToGroup (hdepth : s.depth = 1) (path : Option String) :
    Matches Shows
      (addToGroup path ⟨σ, kept.withGroup group.name id, [⟨0, .group id, none, []⟩]⟩ id s)
      ((Draft.addToGroup path group s).map fun block => ⟨set, block⟩) := by
  unfold addToGroup Draft.addToGroup
  cases s.command with
  | step kind target =>
    simp only [hdepth, map_map]
    exact .map _ h.shows_openGroupStep
  | inclusion name => exact .ok (h.shows_addInclusion _)
  | _ => exact .error _

end OpenGroup

/-! ### Statements in a step -/

/-- **A step of a scenario that is changed** in the store is changed in the result. -/
theorem OpenScenarioStep.shows_changeStep {refs : List (Ref Step)} {scenario : Scenario}
    {seen visible : List String} (h : OpenScenarioStep σ kept set id own refs scenario seen visible)
    (step : Step) :
    Shows ⟨σ.changeStep own step, kept.withScenario id,
      [⟨1, .step own, some id, seen⟩, ⟨0, .scenario id, some id, visible⟩]⟩
      ⟨set, .scenarioStep scenario step⟩ := by
  have hsame := σ.same_changeStep (Nat.le_of_lt h.id_lt) step
  have hsteps := (σ.same_changeStep (Nat.le_refl own) step).map_step_eq h.steps
  have hopen : OpenScenarioStep (σ.changeStep own step) kept set id own refs scenario seen visible :=
    ⟨hsame.settled h.settled, (hsame.set_eq h.settled).trans h.set_eq, h.id_lt, h.own_lt,
      h.steps_eq, h.steps, hsteps ▸ h.scenario_eq, h.seen_eq, h.visible_eq⟩
  exact .scenarioStep hopen (Function.update_self ..)

/-- **A step of a group that is changed** in the store is changed in the result. -/
theorem OpenGroupStep.shows_changeStep {items : List KeptItem} {group : Group}
    (h : OpenGroupStep σ kept set id own items group) (step : Step) :
    Shows ⟨σ.changeStep own step, kept.withGroup group.name id,
      [⟨1, .step own, none, []⟩, ⟨0, .group id, none, []⟩]⟩ ⟨set, .groupStep group step⟩ := by
  have hsame := σ.same_changeStep (Nat.le_of_lt h.id_lt) step
  have hitems := (σ.same_changeStep (Nat.le_refl own) step).map_item_eq h.items_below
  have hopen : OpenGroupStep (σ.changeStep own step) kept set id own items group :=
    ⟨hsame.settled h.settled, (hsame.set_eq h.settled).trans h.set_eq, h.id_lt, h.own_lt,
      h.items_eq, h.items_below, hitems ▸ h.group_eq⟩
  exact .groupStep hopen (Function.update_self ..)

/-! ### Runs -/

theorem Shows.matches_takeIn (h : l.Shows d) (hdepth : s.depth = d.block.depth) :
    Matches Shows (l.takeIn site s).outcome (d.takeIn site s).outcome := by
  cases h with
  | root settled => exact matches_addToRoot settled hdepth
  | scenario h =>
    simp only [Draft.takeIn, Traced.outcome_bind_pure, Traced.outcome_liftM]
    exact h.matches_addToScenario hdepth site.path
  | group h =>
    simp only [Draft.takeIn, Traced.outcome_bind_pure, Traced.outcome_liftM]
    exact h.matches_addToGroup hdepth site.path
  | scenarioStep h step_eq =>
    subst step_eq
    simp only [Draft.takeIn, Traced.outcome_bind_pure, Traced.outcome_liftM]
    exact .map _ h.shows_changeStep
  | groupStep h step_eq =>
    subst step_eq
    simp only [Draft.takeIn, Traced.outcome_bind_pure, Traced.outcome_liftM]
    exact .map _ h.shows_changeStep

/-- **A statement is taken in** by a ledger as by the draft that it shows. -/
theorem Shows.matches_add (h : l.Shows d) (site : Site) (s : Statement) :
    Matches Shows (l.add site s).outcome (d.add site s).outcome := by
  rw [add, Draft.add_eq, Traced.outcome_bind, Traced.outcome_bind]
  refine (h.matches_closeTo s.depth).mapError.bind fun l d h => ?_
  rw [h.expectedDepth_eq, Draft.place]
  by_cases hdepth : s.depth = d.block.depth
  · rw [if_neg (not_not_intro hdepth), if_neg (not_not_intro hdepth)]
    exact h.matches_takeIn hdepth
  · rw [if_pos hdepth, if_pos hdepth]
    exact .error _

/-- **Ledgers and drafts agree**, from one statement to the next. -/
theorem Shows.matches_foldlM (h : l.Shows d) (site : Site) (statements : List Statement) :
    Matches Shows (statements.foldlM (add site) l).outcome
      (statements.foldlM (Draft.add site) d).outcome := by
  induction statements generalizing l d with
  | nil => exact .ok h
  | cons s statements ih =>
    rw [List.foldlM_cons, List.foldlM_cons, Traced.outcome_bind, Traced.outcome_bind]
    exact (h.matches_add site s).bind fun _ _ h => ih h

/-- **A ledger comes to the same** as a draft, by whatever statements: to the same set, or to the same
failure. -/
theorem outcome_foldlM_set (site : Site) (statements : List Statement) :
    (statements.foldlM (add site) {}).outcome.map Ledger.set =
      (statements.foldlM (Draft.add site) {}).outcome.map Draft.result :=
  (shows_empty.matches_foldlM site statements).map_eq fun _ _ h => h.set_eq

end Ledger

end ScenarioScript
