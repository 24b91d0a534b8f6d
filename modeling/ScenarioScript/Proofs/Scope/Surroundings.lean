import ScenarioScript.Proofs.Groups.Standing
import ScenarioScript.Proofs.Scope.Scoping

/-!
# Proofs/Scope/Surroundings — where a scenario and its steps stand

A passage stands in a script, below the entries above it (`Passage.Below`).  Each step of its scenario
is the meaning of a block of its own: a member of the passage, or one of a group that an inclusion
brings in, in the same script or in one that it loads (`Passage.Brings`).

* `exists_below` — the script, and what is above the passage there;
* `exists_brings` — the block of each step.
-/

namespace ScenarioScript

open Relation Outcome Outline

variable {env : Environment} {s : Script} {p : Passage} {before : Outline}

/-- **A passage stands in a script** below certain entries. -/
structure Passage.Below (env : Environment) (s : Script) (before : Outline) (p : Passage) :
    Prop where
  /-- The script can be read, and the passage comes behind these entries. -/
  reads : ∃ after, env.Reads s.loading s.path s.text
    (before ++ .block .scenario p.mark p.label p.members :: after)
  /-- The passage goes by the path of the script. -/
  path_eq : p.path = s.path.map Path.render
  /-- What is above the passage is what the entries make. -/
  above_eq : before.meaning (env.site s.loading s.path) {} = some p.above

/-- **A script that is read enters** those that it loads. -/
theorem Environment.Reads.enters {after : Outline} {mark : Mark} {target inner : String}
    (h : env.Reads s.loading s.path s.text (before ++ .load mark target :: after))
    (hinner : env.read (env.resolve target s.path) = .ok inner) :
    Enters env s ⟨s.stack, some (env.resolve target s.path), inner⟩ := by
  obtain ⟨hstatements, set, hmeaning⟩ := h
  obtain ⟨above, below, -, happly, -⟩ := exists_apply_of_meaning hmeaning
  obtain ⟨loaded, hloaded, -⟩ := Option.map_eq_some_iff.1 happly
  obtain ⟨hreaches, hnew, -⟩ := outcome_site_load.1 hloaded
  have hmem : mark.statement (.load target) 0 ∈
      Outline.statements (before ++ .load mark target :: after) :=
    List.mem_flatMap.2 ⟨_, List.mem_append_right before List.mem_cons_self, List.mem_singleton_self _⟩
  exact .enter ((Draft.says_of_mem_statementsOf hstatements hmem).asks rfl hreaches) hnew hinner

/-- **Every passage stands in a script that is reached.** -/
theorem exists_below {loading : List Path} {path : Option Path} {text : String}
    (h : Wrote env loading path text p) :
    ∃ s before, ReflTransGen (Enters env) ⟨loading, path, text⟩ s ∧ p.Below env s before := by
  induction h with
  | @here loading path text before after mark label members above hreads habove =>
    exact ⟨⟨loading, path, text⟩, before, .refl, ⟨after, hreads⟩, rfl, habove⟩
  | @loaded loading path text inner before after mark target p hreads hinner _ ih =>
    obtain ⟨s, entries, hreached, hbelow⟩ := ih
    have henters := Environment.Reads.enters (s := ⟨loading, path, text⟩) hreads hinner
    exact ⟨s, entries, hreached.head henters, hbelow⟩

/-! ## The blocks of steps -/

/-- **A passage brings in a step** by a certain block, which means the step. -/
inductive Passage.Brings (env : Environment) (s : Script) (p : Passage) (step : Step) :
    StepBlock → Prop where
  /-- The block stands in the passage. -/
  | direct {b : StepBlock} (hmem : .step b ∈ p.members) (hmeaning : b.meaning p.path = some step) :
      Brings env s p step b
  /-- The block stands in a group, in the same script or in one that it loads. -/
  | included {b : StepBlock} {mark : Mark} {group : String} {inner : Script}
      (hinclusion : .inclusion mark group ∈ p.members)
      (hreached : ReflTransGen (Enters env) s inner) {o : Outline}
      (hreads : env.Reads inner.loading inner.path inner.text o) {opening : Mark} {name : String}
      {members : List (Member .group)} (hgroup : .block .group opening name members ∈ o)
      (hmem : .step b ∈ members) (hmeaning : b.meaning (inner.path.map Path.render) = some step) :
      Brings env s p step b

namespace Outline

variable {path : Option String} {groups : OrderedMap String Group}

/-- A step that is written as the item of a group is the meaning of a block of the group. -/
theorem Writes.exists_block {o : Outline} {step : Step} (h : o.Writes path (.step step)) :
    ∃ mark label members, .block .group mark label members ∈ o ∧
      ∃ b : StepBlock, .step b ∈ members ∧ b.meaning path = some step := by
  obtain ⟨mark, label, members, hgroup, m, hmem, hitem⟩ := h
  cases m with
  | step b =>
    obtain ⟨step', hmeaning, hstep⟩ := Option.map_eq_some_iff.1 hitem
    obtain rfl := GroupItem.step.inj hstep
    exact ⟨mark, label, members, hgroup, b, hmem, hmeaning⟩
  | inclusion mark' group => exact absurd (Option.some.inj hitem) nofun

/-- **The steps of a scenario** are those that its members bring, in their order. -/
theorem steps_fill {members : List (Member .scenario)} {scenario result : Scenario}
    (h : Holder.fill path groups members scenario = some result) :
    result.steps = scenario.steps ++ members.flatMap (Member.brought path groups) := by
  induction members generalizing scenario with
  | nil =>
    obtain rfl : scenario = result := Option.some.inj h
    exact (List.append_nil _).symm
  | cons m members ih =>
    rw [Holder.fill, List.foldlM_cons] at h
    obtain ⟨scenario₁, happly, hrest⟩ := Option.bind_eq_some_iff.1 h
    rw [ih hrest, (Member.steps_of_apply happly).1, List.append_assoc, List.flatMap_cons]

end Outline

/-- The groups above a passage hold steps of groups that are written above it, or in scripts that are
loaded there. -/
theorem Passage.Below.exists_included (h : p.Below env s before) {mark : Mark} {group : String}
    (hinclusion : .inclusion mark group ∈ p.members) :
    ∀ name g, p.above.groups.get? name = some g → ∀ step, .step step ∈ g.items →
      ∃ b, p.Brings env s step b := by
  intro name g hget step hstep
  obtain ⟨after, hreads⟩ := h.reads
  have hitems := items_part (fun statement hmem => Draft.says_of_mem_statementsOf hreads.1
    (List.mem_flatMap.2 ((List.mem_flatMap.1 hmem).imp fun e he =>
      ⟨List.mem_append_left _ he.1, he.2⟩))) h.above_eq
  obtain hwrites | ⟨inner, hreached, o, hreads', hwrites⟩ :=
    OrderedMap.All.of_get? hitems hget _ hstep
  · obtain ⟨opening, label, members, hgroup, b, hmem, hmeaning⟩ :=
      (hwrites.mono (List.subset_append_left before _)).exists_block
    exact ⟨b, .included hinclusion .refl hreads hgroup hmem hmeaning⟩
  · obtain ⟨opening, label, members, hgroup, b, hmem, hmeaning⟩ := hwrites.exists_block
    exact ⟨b, .included hinclusion hreached hreads' hgroup hmem hmeaning⟩

/-- **Every step of a passage's scenario** is brought in by a block of its own. -/
theorem exists_brings {scenario : Scenario} (h : p.Below env s before)
    (hp : p.scenario? = some scenario) : ∀ step ∈ scenario.steps, ∃ b, p.Brings env s step b := by
  intro step hstep
  rw [steps_fill hp] at hstep
  obtain ⟨m, hm, hbrought⟩ := List.mem_flatMap.1 hstep
  cases m with
  | step b => exact ⟨b, .direct hm (Option.mem_toList.1 hbrought)⟩
  | inclusion mark group =>
    rw [Member.brought] at hbrought
    cases hexpand : (expandGroup p.above.groups group (.includedFrom p.path mark.position) []) with
    | error d => exact absurd (hexpand ▸ hbrought) List.not_mem_nil
    | ok steps =>
      rw [hexpand] at hbrought
      exact steps_expandGroup (h.exists_included hm) group _ [] steps hexpand step hbrought
  | _ => exact absurd hbrought List.not_mem_nil

end ScenarioScript
