import ScenarioScript.Proofs.Form.Set
import ScenarioScript.Proofs.Scope.Surroundings

/-!
# Proofs/Form/Parse — the form of what a script defines

Whatever a script is made of, what it defines has a certain form, and each scenario and step of it
stands where a statement does.

* `ScenarioSet.WellFormed` — the form of a set, down to its steps;
* `Scenario.Declared`, `Step.Declared` — the statement that begins a scenario or step, in a script
  that is reached;
* `parse_wellFormed` — so it is with the set of every script.
-/

namespace ScenarioScript

open Relation Outcome Outline Text

/-! ## The form of a set -/

/-- **The form of a scenario.** -/
structure Scenario.WellFormed (s : Scenario) : Prop extends s.OwnWellFormed where
  key_ne_empty : s.key ≠ ""
  /-- The key can stand on a line of its own. -/
  key_tidy : Tidy s.key.toList
  steps : ∀ step ∈ s.steps, step.WellFormed

/-- **The form of an item of a group**: a step is of its form, and an inclusion names a group. -/
def GroupItem.WellFormed : GroupItem → Prop
  | step s => s.WellFormed
  | inclusion i => i.name ≠ ""

/-- **The form of a set.** -/
structure ScenarioSet.WellFormed (s : ScenarioSet) : Prop extends s.OwnWellFormed where
  scenarios : ∀ scenario ∈ s.scenarios, scenario.WellFormed
  items : ∀ e ∈ s.groups.entries, ∀ item ∈ e.2.items, item.WellFormed

/-! ## Where scenarios and steps stand -/

variable {env : Environment} {main s : Script} {p : Passage} {before : Outline} {step : Step}
  {scenario : Scenario}

/-- **A statement is declared** under a path: it is one of a script that goes by the path and is
reached. -/
def Script.Declares (env : Environment) (main : Script) (path : Option String) (s : Statement) :
    Prop :=
  ∃ script, ReflTransGen (Enters env) main script ∧ script.path.map Path.render = path ∧
    Says env.unit script.text s

/-- **A step is declared**: it keeps the place of a statement that begins such a step. -/
def Step.Declared (env : Environment) (main : Script) (step : Step) : Prop :=
  ∃ statement, main.Declares env step.path statement ∧ statement.line = step.line ∧
    statement.command = .step step.kind step.target

/-- **A scenario is declared**: it keeps the place of a statement that begins a scenario, and is
anonymous exactly if there is no label; a label is its key. -/
def Scenario.Declared (env : Environment) (main : Script) (s : Scenario) : Prop :=
  ∃ statement label, main.Declares env s.path statement ∧ statement.line = s.line ∧
    statement.command = .scenario label ∧ (s.anonymous = true ↔ label = "") ∧
      (label ≠ "" → s.key = label)

/-- **A step stands in a script**: it is the meaning of a block whose statements are there. -/
def Script.HasStep (env : Environment) (s : Script) (step : Step) : Prop :=
  ∃ b : StepBlock, b.meaning (s.path.map Path.render) = some step ∧
    ∀ statement ∈ b.statements, Says env.unit s.text statement

theorem Script.HasStep.wellFormed (h : s.HasStep env step) : step.WellFormed := by
  obtain ⟨b, hmeaning, hsaid⟩ := h
  exact b.wellFormed (fun statement hmem => (hsaid statement hmem).wellFormed) hmeaning

theorem Script.HasStep.declared (h : s.HasStep env step)
    (hreached : ReflTransGen (Enters env) main s) : step.Declared env main := by
  obtain ⟨b, hmeaning, hsaid⟩ := h
  obtain ⟨hkind, htarget, hline, hpath⟩ := StepBlock.head_of_meaning hmeaning
  refine ⟨b.opening, ⟨s, hreached, hpath.symm, hsaid _ List.mem_cons_self⟩, hline.symm, ?_⟩
  rw [hkind, htarget]
  rfl

/-! ## Parts of scripts -/

/-- The statements of an entry that stands in a script are statements of its text. -/
theorem Environment.Reads.said {o : Outline} {e : Entry}
    (h : env.Reads s.loading s.path s.text o) (he : e ∈ o) :
    ∀ statement ∈ e.statements, Says env.unit s.text statement := fun _ hmem =>
  Draft.says_of_mem_statementsOf h.1 (List.mem_flatMap.2 ⟨e, he, hmem⟩)

theorem Passage.Below.said (h : p.Below env s before) :
    ∀ statement ∈ (Entry.block .scenario p.mark p.label p.members).statements,
      Says env.unit s.text statement := by
  obtain ⟨after, hreads⟩ := h.reads
  exact hreads.said (List.mem_append_right before List.mem_cons_self)

/-- **Every step of a passage's scenario** stands in a script that is reached. -/
theorem Passage.Below.exists_hasStep (h : p.Below env s before)
    (hp : p.scenario? = some scenario) : ∀ step ∈ scenario.steps,
      ∃ inner, ReflTransGen (Enters env) s inner ∧ inner.HasStep env step := by
  intro step hstep
  obtain ⟨b, hbrings⟩ := exists_brings h hp step hstep
  cases hbrings with
  | direct hmem hmeaning =>
    refine ⟨s, .refl, b, h.path_eq ▸ hmeaning, fun statement hstatement => h.said statement ?_⟩
    exact List.mem_cons_of_mem _ (List.mem_flatMap.2 ⟨_, hmem, hstatement⟩)
  | @included mark group inner hinclusion hreached o hreads opening name members hgroup hmem
      hmeaning =>
    refine ⟨inner, hreached, b, hmeaning, fun statement hstatement => hreads.said hgroup _ ?_⟩
    exact List.mem_cons_of_mem _ (List.mem_flatMap.2 ⟨_, hmem, hstatement⟩)

/-- **An item of a group that stands in a script** is a step that stands there, or an inclusion that
names a group. -/
theorem Script.Writes.hasStep_or {item : GroupItem} (h : s.Writes env item) :
    (∃ step, item = .step step ∧ s.HasStep env step) ∨
      ∃ i, item = .inclusion i ∧ i.name ≠ "" := by
  obtain ⟨o, hreads, mark, label, members, hgroup, m, hm, hitem⟩ := h
  have hsaid : ∀ statement ∈ m.statements, Says env.unit s.text statement := fun _ hmem =>
    hreads.said hgroup _ (List.mem_cons_of_mem _ (List.mem_flatMap.2 ⟨m, hm, hmem⟩))
  cases m with
  | step b =>
    obtain ⟨step, hmeaning, rfl⟩ := Option.map_eq_some_iff.1 hitem
    exact .inl ⟨step, rfl, b, hmeaning, hsaid⟩
  | inclusion mark' group =>
    obtain rfl := Option.some.inj hitem
    have htidy : Tidy group.toList :=
      (hsaid _ (List.mem_singleton_self _)).wellFormed.command
    exact .inr ⟨_, rfl, fun hempty : group = "" => htidy.ne_nil (by rw [hempty]; rfl)⟩

/-- **The scenario of a passage** has the form of what stands directly in it. -/
theorem Passage.Below.ownWellFormed (h : p.Below env s before)
    (hp : p.scenario? = some scenario) : scenario.OwnWellFormed := by
  obtain ⟨after, hreads⟩ := h.reads
  have habove : ∀ statement ∈ before.statements, Says env.unit s.text statement := by
    intro statement hmem
    obtain ⟨e, he, hstatement⟩ := List.mem_flatMap.1 hmem
    exact hreads.said (List.mem_append_left _ he) statement hstatement
  refine ownWellFormed_fill (keptByEntries_ownWellFormed.part
    ScenarioSet.ownWellFormed_empty habove p.above h.above_eq) (fun m hm statement hmem => ?_) hp
  exact (h.said statement
    (List.mem_cons_of_mem _ (List.mem_flatMap.2 ⟨m, hm, hmem⟩))).wellFormed

/-- **The scenario of a passage** is declared where the passage begins. -/
theorem Passage.Below.declared (h : p.Below env s before) (hp : p.scenario? = some scenario)
    (hreached : ReflTransGen (Enters env) main s) : scenario.Declared env main := by
  obtain ⟨hkey, hanonymous, hline, hpath⟩ := head_fill hp
  refine ⟨p.mark.statement (.scenario p.label) 0, p.label, ?_, hline.symm, rfl, ?_, fun _ => hkey⟩
  · exact ⟨s, hreached, (hpath.trans h.path_eq).symm, h.said _ List.mem_cons_self⟩
  · rw [hanonymous]
    exact String.isEmpty_iff

/-! ## Keys -/

/-- What stands directly in a scenario does not depend on its key. -/
theorem Scenario.ownWellFormed_key (s : Scenario) (key : String) :
    Scenario.OwnWellFormed { s with key } ↔ s.OwnWellFormed :=
  ⟨fun h => ⟨h.bindings, h.config, h.name⟩, fun h => ⟨h.bindings, h.config, h.name⟩⟩

theorem tidy_candidateKeys {labels : List String} {place : Nat} :
    ∀ key ∈ candidateKeys labels place, Tidy key.toList := by
  have hplace : ∀ c ∈ Nat.toDigits 10 place, isBlank c = false := fun c => isBlank_of_mem_toDigits
  refine List.forall_mem_cons.2 ⟨?_, List.forall_mem_map.2 fun n _ => ?_⟩
  · have hkey : (s!"#{place}").toList = '#' :: Nat.toDigits 10 place := by simp; rfl
    rw [hkey]
    exact .of_word (List.cons_ne_nil _ _) (List.forall_mem_cons.2 ⟨by decide, hplace⟩)
  · have hkey : (s!"#{place}-{n + 2}").toList =
        '#' :: (Nat.toDigits 10 place ++ '-' :: Nat.toDigits 10 (n + 2)) := by simp; rfl
    rw [hkey]
    exact .of_word (List.cons_ne_nil _ _) (List.forall_mem_cons.2 ⟨by decide,
      List.forall_mem_append.2 ⟨hplace, List.forall_mem_cons.2 ⟨by decide,
        fun c => isBlank_of_mem_toDigits⟩⟩⟩)

/-- **The key of a scenario without a label** can stand on a line. -/
theorem tidy_anonymousKey (labels : List String) (place : Nat) :
    Tidy (anonymousKey labels place).toList := by
  rw [anonymousKey]
  cases hfind : (candidateKeys labels place).find? (· ∉ labels) with
  | none => exact @tidy_candidateKeys labels place _ List.mem_cons_self
  | some key => exact tidy_candidateKeys _ (List.mem_of_find?_eq_some hfind)

/-- **Keys can stand on a line** once the scenarios without a label have theirs, if labels can. -/
theorem tidy_nameAnonymous {set : ScenarioSet}
    (h : ∀ s ∈ set.scenarios, s.anonymous = false → Tidy s.key.toList) :
    ∀ s ∈ set.nameAnonymous.scenarios, Tidy s.key.toList := by
  intro s hs
  obtain ⟨i, hi, rfl⟩ := List.mem_mapIdx.1 hs
  split
  · exact tidy_anonymousKey _ _
  · next hnamed => exact h _ (List.getElem_mem hi) (Bool.not_eq_true _ ▸ hnamed)

/-- What stands in a scenario is declared whatever key it is given, if it is anonymous. -/
theorem Scenario.Declared.nameAnonymous {set : ScenarioSet}
    (h : ∀ s ∈ set.scenarios, s.Declared env main) :
    ∀ s ∈ set.nameAnonymous.scenarios, s.Declared env main := by
  intro s hs
  obtain ⟨i, hi, rfl⟩ := List.mem_mapIdx.1 hs
  obtain ⟨statement, label, hdeclares, hline, hcommand, hanonymous, hkey⟩ :=
    h _ (List.getElem_mem hi)
  split
  · next hunnamed =>
    exact ⟨statement, label, hdeclares, hline, hcommand, hanonymous,
      fun hne => absurd (hanonymous.1 hunnamed) hne⟩
  · exact ⟨statement, label, hdeclares, hline, hcommand, hanonymous, hkey⟩

/-! ## The set of a script -/

/-- **What a script defines has its form**, and stands where it is declared. -/
structure Formed (env : Environment) (main : Script) (set : ScenarioSet) : Prop where
  wellFormed : set.WellFormed
  scenarios : ∀ scenario ∈ set.scenarios, scenario.Declared env main
  steps : ∀ scenario ∈ set.scenarios, ∀ step ∈ scenario.steps, step.Declared env main
  groupSteps : ∀ e ∈ set.groups.entries, ∀ step, .step step ∈ e.2.items → step.Declared env main

/-- **The scenarios that are read** are of their form, but for their keys. -/
theorem scenarios_readScript {set : ScenarioSet}
    (h : (readScript env main.loading main.path main.text).outcome = .ok set) :
    ∀ scenario ∈ set.scenarios, scenario.Declared env main ∧ scenario.OwnWellFormed ∧
      ∀ step ∈ scenario.steps, step.WellFormed ∧ step.Declared env main := by
  intro scenario hscenario
  obtain ⟨p, hwrote, hp⟩ := exists_wrote h hscenario
  obtain ⟨s, before, hreached, hbelow⟩ := exists_below hwrote
  refine ⟨hbelow.declared hp hreached, hbelow.ownWellFormed hp, fun step hstep => ?_⟩
  obtain ⟨inner, hinner, hstands⟩ := hbelow.exists_hasStep hp step hstep
  exact ⟨hstands.wellFormed, hstands.declared (hreached.trans hinner)⟩

/-- **The items of groups that are read** are of their form. -/
theorem items_wellFormed_readScript {set : ScenarioSet}
    (h : (readScript env main.loading main.path main.text).outcome = .ok set) :
    ∀ e ∈ set.groups.entries, ∀ item ∈ e.2.items,
      item.WellFormed ∧ ∀ step, item = .step step → step.Declared env main := by
  intro e he item hitem
  obtain ⟨last, hreached, hwrites⟩ := items_readScript env main set h e he item hitem
  obtain ⟨step, rfl, hstands⟩ | ⟨i, rfl, hname⟩ := hwrites.hasStep_or
  · refine ⟨hstands.wellFormed, fun step' hstep => ?_⟩
    obtain rfl := GroupItem.step.inj hstep
    exact hstands.declared hreached
  · exact ⟨hname, fun step hstep => absurd hstep nofun⟩

/-- **The key of a declared scenario** can stand on a line, if it is a label. -/
theorem Scenario.Declared.tidy (h : scenario.Declared env main)
    (hnamed : scenario.anonymous = false) : Tidy scenario.key.toList := by
  obtain ⟨statement, label, ⟨script, -, -, hsaid⟩, -, hcommand, hanonymous, hkey⟩ := h
  have hne : label ≠ "" := fun hempty => absurd (hnamed.symm.trans (hanonymous.2 hempty)) nofun
  have hformed := hsaid.wellFormed.command
  rw [hcommand] at hformed
  exact hkey hne ▸ hformed.resolve_left hne

/-- **The scenarios that are read** are of their form once those without a label have their keys. -/
theorem wellFormed_nameAnonymous_readScript {set : ScenarioSet}
    (h : (readScript env main.loading main.path main.text).outcome = .ok set) :
    ∀ s ∈ set.nameAnonymous.scenarios, s.WellFormed := by
  have hscenarios := scenarios_readScript h
  have hkeys := tidy_nameAnonymous fun s hs => (hscenarios s hs).1.tidy
  have hown : ∀ s ∈ set.nameAnonymous.scenarios, s.OwnWellFormed :=
    (forall_nameAnonymous_iff Scenario.ownWellFormed_key).2 fun s hs => (hscenarios s hs).2.1
  have hsteps : ∀ s ∈ set.nameAnonymous.scenarios, ∀ step ∈ s.steps, step.WellFormed :=
    (forall_nameAnonymous_iff fun _ _ => Iff.rfl).2 fun s hs step hstep =>
      ((hscenarios s hs).2.2 step hstep).1
  exact fun s hs => { hown s hs with
    key_ne_empty := fun hempty => (hkeys s hs).ne_nil (by rw [hempty]; rfl)
    key_tidy := hkeys s hs
    steps := hsteps s hs }

/-- **What a script defines is well formed.**  All expressions are what pieces of lines were read to,
with comparisons at the root of what is expected and nowhere else; names and keys are made of what
they may be made of; steps have the targets and files that they need; and scenarios and steps, loaded
and included ones as well, keep the place of the statement that begins them. -/
theorem parse_wellFormed (env : Environment) (path : Option String) (text : String)
    (set : ScenarioSet) (h : (parse env path text).outcome = .ok set) :
    Formed env (env.main path text) set := by
  obtain ⟨-, before, hread, rfl⟩ := outcome_parse_eq_ok.1 h
  have hscenarios := @scenarios_readScript env (env.main path text) before hread
  have hitems := @items_wellFormed_readScript env (env.main path text) before hread
  have hsteps : ∀ s ∈ before.nameAnonymous.scenarios, ∀ step ∈ s.steps,
      step.Declared env (env.main path text) :=
    (forall_nameAnonymous_iff fun _ _ => Iff.rfl).2 fun s hs step hstep =>
      ((hscenarios s hs).2.2 step hstep).2
  have htop : before.nameAnonymous.OwnWellFormed :=
    { keptByEntries_ownWellFormed.readScript ScenarioSet.ownWellFormed_empty env
        (env.main path text) before hread with }
  exact {
    wellFormed := { htop with
      scenarios := @wellFormed_nameAnonymous_readScript env (env.main path text) before hread
      items := fun e he item hitem => (hitems e he item hitem).1 }
    scenarios := Scenario.Declared.nameAnonymous fun s hs => (hscenarios s hs).1
    steps := hsteps
    groupSteps := fun e he step hstep => (hitems e he _ hstep).2 step rfl }

/-- A script with a group whose step sends a file and compares what comes back. -/
def sendingText : String :=
  "samples 007\ngroup send\n  submit form\n    param f file(\"a\", \"b\")\n" ++
    "    expect body.match(_) == 1\n    set id_1 x\n"

/-- The file that the script is in. -/
def sending : Environment where
  workspace := { files := .ofList [(⟨["s"], by decide⟩, sendingText.toUTF8)] }

/-- A script that loads the other one and includes its group, in a scenario without a label behind
one whose label is the key that would be its own. -/
def includingText : String :=
  "load \"s\"\nscenario #2\n  warmup 'auto'\nscenario\n  include send\n  reload\n"

/-- An included step keeps its line in the file, and a key that a label has taken is not given. -/
theorem parse_wellFormed_including :
    ∃ set, (parse sending none includingText).outcome = .ok set ∧
      Formed sending (sending.main none includingText) set ∧
      (set.scenarios.map fun s => (s.key, s.anonymous, s.config.samples, s.steps.map (·.line))) =
        [("#2", false, some 7, []), ("#2-2", true, some 7, [3, 6])] := by
  have hrun : (parse sending none includingText).outcome.toOption.map (fun set =>
      set.scenarios.map fun s => (s.key, s.anonymous, s.config.samples, s.steps.map (·.line))) =
      some [("#2", false, some 7, []), ("#2-2", true, some 7, [3, 6])] := by decide +kernel
  obtain ⟨set, hset, hlook⟩ := Option.map_eq_some_iff.1 hrun
  rw [toOption_eq_some] at hset
  exact ⟨set, hset, parse_wellFormed sending none includingText set hset, hlook⟩

end ScenarioScript
