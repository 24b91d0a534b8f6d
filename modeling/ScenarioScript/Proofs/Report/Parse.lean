import ScenarioScript.Proofs.Blocks.Growth
import ScenarioScript.Proofs.Loading.Alone
import ScenarioScript.Proofs.Report.Reading

/-!
# Proofs/Report/Parse — reports are scripts

The report of a set without groups is a script, and what this defines has the same report
(`parse_describe`).  Where there is no group no step is included, so every step has passed its check
(`ScenarioSet.ScopedUnaided`); and every scenario that is read again has a label, its key.
-/

namespace ScenarioScript

open Outcome Outline Text

/-! ## Scripts without groups -/

/-- **Of two maps** whose update is empty, the first is empty. -/
theorem OrderedMap.eq_empty_of_update {κ α : Type} [DecidableEq κ] {m n : OrderedMap κ α}
    (h : m.update n = .empty) : m = .empty := by
  have hkeys := m.keys_prefix_update n
  rw [h] at hkeys
  exact OrderedMap.ext (List.map_eq_nil_iff.1 (List.prefix_nil.1 hkeys))

/-- **Without groups**, every step keeps to what it can see. -/
def ScenarioSet.ScopedUnaided (s : ScenarioSet) : Prop :=
  s.groups = .empty → ∀ scenario ∈ s.scenarios, ∀ place, scenario.ScopedAt place

namespace Outline

variable {path : Option String}

/-- **Where there is no group**, nothing is included. -/
theorem Member.not_included_of_no_group (m : Member .scenario) : true ∉ m.included path .empty := by
  intro htrue
  obtain ⟨step, hstep, hmark⟩ := List.mem_map.1 htrue
  cases m with
  | inclusion mark group =>
    have hunknown : expandGroup .empty group (.includedFrom path mark.position) [] = .error _ :=
      @expandGroup_of_unknown _ _ ⟨group, mark.line, mark.column, path⟩ List.not_mem_nil rfl
    rw [Member.brought, hunknown] at hstep
    exact List.not_mem_nil hstep
  | _ => exact absurd hmark Bool.false_ne_true

end Outline

/-- Entries keep it so: where no group has come up, what a block includes is nothing, and what is
loaded has no group either. -/
theorem keptByEntries_scopedUnaided : KeptByEntries ScenarioSet.ScopedUnaided := by
  intro site e set _ hset hload result h hgroups
  cases e with
  | setting mark choice =>
    obtain ⟨config, -, rfl⟩ := Option.map_eq_some_iff.1 h
    exact hset hgroups
  | load mark target =>
    obtain ⟨loaded, hloaded, rfl⟩ := Option.map_eq_some_iff.1 h
    have hmerged : set.groups.update loaded.groups = .empty := hgroups
    have hbefore : set.groups = .empty := OrderedMap.eq_empty_of_update hmerged
    rw [hbefore, OrderedMap.empty_update] at hmerged
    exact List.forall_mem_append.2 ⟨hset hbefore,
      hload mark target rfl loaded (toOption_eq_some.1 hloaded) hmerged⟩
  | block holder mark label members =>
    obtain ⟨body, hfill, rfl⟩ := Option.map_eq_some_iff.1 h
    cases holder with
    | scenario =>
      refine forall_mem_concat (hset hgroups) (scopedAt_of_included
        (p := ⟨site.path, set, mark, label, members⟩) hfill fun place hplace => ?_)
      obtain ⟨m, -, htrue⟩ := List.mem_flatMap.1 (List.mem_of_getElem? hplace)
      have hnone : set.groups = .empty := hgroups
      rw [hnone] at htrue
      exact absurd htrue m.not_included_of_no_group
    | group =>
      have hmem : body.name ∈ (set.groups.insert body.name body).keys :=
        (OrderedMap.mem_keys_insert ..).2 (.inl rfl)
      have hinserted : set.groups.insert body.name body = .empty := hgroups
      rw [hinserted] at hmem
      exact absurd hmem List.not_mem_nil
  | _ =>
    obtain rfl := Option.some.inj h
    exact hset hgroups

/-- **A scenario passes its checks** if its steps keep to what they can see. -/
theorem Scenario.passes_of_scopedAt {s : Scenario} (h : ∀ place, s.ScopedAt place) : s.Passes := by
  intro done step rest hsteps
  rw [Step.forwardRef?_eq_none_iff]
  intro value hvalue name hname hset
  have hplace : s.steps[done.length]? = some step := by simp [hsteps]
  have htake : s.steps.take done.length = done := by simp [hsteps]
  have hscoped := h done.length step hplace value hvalue name hname hset
  rw [htake] at hscoped
  exact List.mem_append.2 (hscoped.imp_right List.mem_flatMap.2)

/-! ## Reading a report -/

/-- Scenarios that came with labels keep their keys. -/
theorem ScenarioSet.nameAnonymous_of_named {s : ScenarioSet}
    (h : ∀ scenario ∈ s.scenarios, scenario.anonymous = false) : s.nameAnonymous = s := by
  have hsame : (s.scenarios.mapIdx fun index scenario =>
      if scenario.anonymous then { scenario with key := anonymousKey s.labels (index + 1) }
      else scenario) = s.scenarios := by
    refine List.ext_getElem (List.length_mapIdx ..) fun i _ hi => ?_
    rw [List.getElem_mapIdx, h _ (List.getElem_mem hi), if_neg Bool.false_ne_true]
  exact congrArg (fun scenarios => { s with scenarios }) hsame

/-- Sets without groups that have the same summaries have the same report. -/
theorem describe_eq_of_summaries {s t : ScenarioSet} (hs : s.groups.entries = [])
    (ht : t.groups.entries = [])
    (h : s.scenarios.map Scenario.summary = t.scenarios.map Scenario.summary) :
    describe s = describe t := by
  rw [describe_eq hs, describe_eq ht, ← List.flatMap_map, h, List.flatMap_map]

/-- **A report is a script.**  The report of a set without groups can be read, from anywhere, without
any file or option, and what it defines has the same report. -/
theorem parse_describe (env : Environment) (path : Option String) (text : String)
    (set : ScenarioSet) (h : (parse env path text).outcome = .ok set)
    (hgroups : set.groups.entries = []) :
    ∃ again, (parse {} none (describe set)).outcome = .ok again ∧
      describe again = describe set ∧
      again.scenarios.map Scenario.summary = set.scenarios.map Scenario.summary := by
  obtain ⟨-, before, hread, rfl⟩ := outcome_parse_eq_ok.1 h
  have hscoped : ScenarioSet.ScopedUnaided before :=
    keptByEntries_scopedUnaided.readScript (fun _ => List.forall_mem_nil _) env
      (env.main path text) before hread
  have hpasses : ∀ s ∈ before.nameAnonymous.scenarios, s.Passes := fun s hs =>
    Scenario.passes_of_scopedAt ((forall_nameAnonymous_iff fun _ _ => Iff.rfl).2
      (hscoped (OrderedMap.ext hgroups)) s hs)
  have hformed := @wellFormed_nameAnonymous_readScript env (env.main path text) before hread
  have hturns := turns_scenarios (Environment.site {} [] none) hformed hpasses
  obtain ⟨o, hstatements, hmeaning⟩ := hturns.read 1
  obtain ⟨again, hagain, hechoes⟩ :=
    hmeaning {} ⟨rfl, List.forall_mem_nil _, rfl, rfl⟩
  have hscan : Layout.scan none _ = .ok _ :=
    Layout.scan_rows (by decide : 0 < 4) nofun hturns.writable (stepwise_scenarios _)
  rw [← describe_eq hgroups] at hscan
  have hreadAgain : (readScript {} [] none (describe before.nameAnonymous)).outcome = .ok again :=
    outcome_readScript_eq_ok.2 ⟨o, bind_eq_ok.2 ⟨_, hscan, hstatements⟩, hagain⟩
  refine ⟨again, outcome_parse_eq_ok.2 ⟨rfl, again, hreadAgain,
    again.nameAnonymous_of_named hechoes.named⟩, ?_, hechoes.summaries⟩
  exact describe_eq_of_summaries (by rw [hechoes.groups]; rfl) hgroups hechoes.summaries

/-- A script with a binding for all scenarios, one of which has no label. -/
def tellingText : String :=
  "load \"home\"\nset user  \"a b\"\nscenario\n  visit home ~ ( \"/\" ~ user )\n" ++
    "    samples 007\n    warmup 'auto'\n    param f file( \"x\" ,user)\n" ++
    "    expect body.match(_)  == 1\n    set id user\n  reload\n"

/-- The file that it loads. -/
def telling : Environment where
  workspace := { files := .ofList [(⟨["home"], by decide⟩, "set home \"//h\"\n".toUTF8)] }

/-- The report of this script. -/
def toldText : String :=
  "scenario #1\n    set home \"//h\"\n    set user \"a b\"\n" ++
    "    visit home ~ ( \"/\" ~ user )\n        samples 7\n        warmup 'auto'\n" ++
    "        param f file( \"x\" ,user)\n        expect body.match(_)  == 1\n" ++
    "        set id user\n    reload"

/-- Names from a file and from the top level are told with the scenario, which has a label then. -/
theorem parse_describe_telling :
    ∃ set again, (parse telling none tellingText).outcome = .ok set ∧ set.groups.entries = [] ∧
      describe set = toldText ∧ (parse {} none toldText).outcome = .ok again ∧
      describe again = toldText ∧
      again.scenarios.map Scenario.summary = set.scenarios.map Scenario.summary := by
  have hrun : (parse telling none tellingText).outcome.toOption.map (fun set =>
      (set.groups.entries.isEmpty, describe set)) = some (true, toldText) := by decide +kernel
  obtain ⟨set, hset, hlook⟩ := Option.map_eq_some_iff.1 hrun
  obtain ⟨hgroups, htold⟩ := Prod.mk.injEq .. ▸ hlook
  have hempty : set.groups.entries = [] := List.isEmpty_iff.1 hgroups
  obtain ⟨again, hagain, hsame, hsummaries⟩ :=
    parse_describe telling none tellingText set (toOption_eq_some.1 hset) hempty
  rw [htold] at hagain hsame
  exact ⟨set, again, toOption_eq_some.1 hset, hempty, htold, hagain, hsame, hsummaries⟩

end ScenarioScript
