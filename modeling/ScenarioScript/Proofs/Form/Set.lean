import ScenarioScript.Proofs.Form.Step
import ScenarioScript.Proofs.Groups.Standing

/-!
# Proofs/Form/Set — the form of what stands at top level and in scenarios

The bindings and settings of a script, and of its scenarios, come of statements that stand directly
in them and of the scripts that are loaded.  What is kept by every entry holds of all that is made of
entries (`KeptByEntries`).

* `ScenarioSet.OwnWellFormed` — the form of the bindings, the settings and the keys of groups;
  `ownWellFormed_readScript`, `ownWellFormed_part`: so it is with what is made of a script, or of a
  part of it;
* `Scenario.OwnWellFormed`, `ownWellFormed_fill` — the same for scenarios.
-/

namespace ScenarioScript

open Outcome Outline Text

/-! ## What every entry keeps -/

/-- **A property of sets is kept by entries**: an entry keeps it if its statements are of their form,
and if the set that it loads has the property. -/
def KeptByEntries (P : ScenarioSet → Prop) : Prop :=
  ∀ (site : Site) (e : Entry) (set : ScenarioSet), (∀ s ∈ e.statements, s.WellFormed) → P set →
    (∀ mark target, e = .load mark target →
      Yields P (site.load target (.loadedFrom site.path mark.position)).outcome) →
    ∀ result, e.apply site set = some result → P result

namespace KeptByEntries

variable {P : ScenarioSet → Prop} {env : Environment} {s : Script} {o : Outline}

/-- What is made of a part of a script has the property if what is loaded there has it. -/
theorem of_said (h : KeptByEntries P) (hempty : P {})
    (hinner : ∀ inner, Enters env s inner →
      Yields P (readScript env inner.loading inner.path inner.text).outcome)
    (hsaid : ∀ statement ∈ o.statements, Says env.unit s.text statement) :
    ∀ set, o.meaning (env.site s.loading s.path) {} = some set → P set := by
  intro set hmeaning
  refine forall_foldlM (fun e he set hset => ?_) hempty hmeaning
  have hstatements : ∀ statement ∈ e.statements, Says env.unit s.text statement :=
    fun statement hmem => hsaid statement (List.mem_flatMap.2 ⟨e, he, hmem⟩)
  refine h _ e set (fun statement hmem => (hstatements statement hmem).wellFormed) hset ?_
  rintro mark target rfl loaded hloaded
  have hisLoad : IsLoadOf (env.site s.loading s.path) env.unit s.text _ :=
    ⟨_, target, hstatements _ (List.mem_singleton_self _), rfl, rfl⟩
  obtain ⟨inner, henters, hread⟩ := hisLoad.exists_enters hloaded
  exact hinner inner henters loaded hread

/-- **What is made of a script** has the property.  The induction is on entering, which ends. -/
theorem readScript (h : KeptByEntries P) (hempty : P {}) (env : Environment) (s : Script) :
    Yields P (readScript env s.loading s.path s.text).outcome := by
  induction s using (wellFounded_enters env).induction with
  | _ s ih =>
    intro set hset
    obtain ⟨o, hstatements, hmeaning⟩ := outcome_readScript_eq_ok.1 hset
    exact h.of_said hempty ih (fun _ => Draft.says_of_mem_statementsOf hstatements) set hmeaning

/-- **What is made of a part of a script** has the property. -/
theorem part (h : KeptByEntries P) (hempty : P {})
    (hsaid : ∀ statement ∈ o.statements, Says env.unit s.text statement) :
    ∀ set, o.meaning (env.site s.loading s.path) {} = some set → P set :=
  h.of_said hempty (fun inner _ => h.readScript hempty env inner) hsaid

end KeptByEntries

/-! ## Bindings -/

/-- **The form of bindings**: names with expressions. -/
def OrderedMap.WellBound (m : OrderedMap String Tree) : Prop :=
  ∀ e ∈ m.entries, IsName e.1.toList ∧ e.2.Legible false

theorem OrderedMap.WellBound.insert {m : OrderedMap String Tree} {name : String} {value : Tree}
    (h : m.WellBound) (hname : IsName name.toList) (hvalue : value.Legible false) :
    (m.insert name value).WellBound :=
  forall_mem_insert h ⟨hname, hvalue⟩

theorem Text.isName_endpoint : IsName "endpoint".toList :=
  isName_cons_iff.2 ⟨by decide, List.all_eq_true.1 (by decide)⟩

/-! ## Sets -/

/-- **The form of what stands at top level.** -/
structure ScenarioSet.OwnWellFormed (s : ScenarioSet) : Prop where
  bindings : s.bindings.WellBound
  config : s.config.WellFormed
  /-- A group is kept under its name, which is not empty. -/
  groups : ∀ e ∈ s.groups.entries, e.1 = e.2.name ∧ e.1 ≠ ""

theorem ScenarioSet.ownWellFormed_empty : ScenarioSet.OwnWellFormed {} :=
  ⟨List.forall_mem_nil _, Config.wellFormed_empty, List.forall_mem_nil _⟩

theorem ScenarioSet.OwnWellFormed.merge {s loaded : ScenarioSet} (h : s.OwnWellFormed)
    (hloaded : loaded.OwnWellFormed) : (s.merge loaded).OwnWellFormed where
  bindings := OrderedMap.forall_mem_update h.bindings hloaded.bindings
  config := h.config.merged hloaded.config
  groups := OrderedMap.forall_mem_update h.groups hloaded.groups

/-- Members leave the name of a group alone. -/
theorem Outline.name_fill {path : Option String} {groups : OrderedMap String Group}
    {members : List (Member .group)} {g g' : Group}
    (h : Holder.fill path groups members g = some g') : g'.name = g.name := by
  refine forall_foldlM (Q := fun g' : Group => g'.name = g.name) (fun m _ b hb b' hm => ?_) rfl h
  cases m with
  | step block =>
    obtain ⟨step, -, hadd⟩ := Option.bind_eq_some_iff.1 hm
    obtain rfl := Option.some.inj hadd
    exact hb
  | inclusion mark group =>
    obtain rfl := Option.some.inj hm
    exact hb

/-- **Entries keep the form** of what stands at top level. -/
theorem keptByEntries_ownWellFormed : KeptByEntries ScenarioSet.OwnWellFormed := by
  intro site e set hsaid hset hload result h
  cases e with
  | bind mark bound value =>
    obtain rfl := Option.some.inj h
    obtain ⟨hname, hvalue⟩ := (hsaid _ (List.mem_singleton_self _)).command
    exact { hset with bindings := hset.bindings.insert hname hvalue }
  | endpoint mark value =>
    obtain rfl := Option.some.inj h
    have hvalue : value.Legible false := (hsaid _ (List.mem_singleton_self _)).command
    exact { hset with
      bindings := hset.bindings.insert isName_endpoint hvalue
      config := hset.config.endpoint hvalue }
  | setting mark choice =>
    obtain ⟨config, hconfig, rfl⟩ := Option.map_eq_some_iff.1 h
    have hvalue := (hsaid _ (List.mem_singleton_self _)).command
    exact { hset with config := hset.config.apply hvalue config (toOption_eq_some.1 hconfig) }
  | load mark target =>
    obtain ⟨loaded, hloaded, rfl⟩ := Option.map_eq_some_iff.1 h
    exact hset.merge (hload mark target rfl loaded (toOption_eq_some.1 hloaded))
  | block holder mark label members =>
    obtain ⟨body, hfill, rfl⟩ := Option.map_eq_some_iff.1 h
    cases holder with
    | scenario => exact { hset with }
    | group =>
      have htidy : Tidy label.toList := (hsaid _ List.mem_cons_self).command
      have hname : body.name = label := name_fill hfill
      have hne : label ≠ "" := fun hempty => htidy.ne_nil (by rw [hempty]; rfl)
      exact { hset with
        groups := OrderedMap.forall_mem_insert hset.groups ⟨rfl, hname ▸ hne⟩ }

/-! ## Scenarios -/

/-- **The form of what stands directly in a scenario.** -/
structure Scenario.OwnWellFormed (s : Scenario) : Prop where
  bindings : s.bindings.WellBound
  config : s.config.WellFormed
  name : ∀ t ∈ s.name, t.Legible false

namespace Outline

variable {path : Option String} {groups : OrderedMap String Group}

/-- **One member more** keeps the form of a scenario. -/
theorem Member.ownWellFormed_apply {m : Member .scenario} {s t : Scenario}
    (hm : ∀ statement ∈ m.statements, statement.WellFormed) (hs : s.OwnWellFormed)
    (h : m.apply path groups s = some t) : t.OwnWellFormed := by
  cases m with
  | step block =>
    obtain ⟨step, -, hadd⟩ := Option.bind_eq_some_iff.1 h
    obtain ⟨-, hadd⟩ := Option.ite_none_right_eq_some.1 hadd
    obtain rfl := Option.some.inj hadd
    exact { hs with }
  | inclusion mark group =>
    obtain ⟨steps, -, rfl⟩ := Option.map_eq_some_iff.1 h
    exact { hs with }
  | bind mark bound value =>
    obtain rfl := Option.some.inj h
    obtain ⟨hname, hvalue⟩ := (hm _ (List.mem_singleton_self _)).command
    exact { hs with bindings := hs.bindings.insert hname hvalue }
  | endpoint mark value =>
    obtain rfl := Option.some.inj h
    have hvalue : value.Legible false := (hm _ (List.mem_singleton_self _)).command
    exact { hs with
      bindings := hs.bindings.insert isName_endpoint hvalue
      config := hs.config.endpoint hvalue }
  | name mark value =>
    obtain rfl := Option.some.inj h
    have hvalue : value.Legible false := (hm _ (List.mem_singleton_self _)).command
    exact { hs with
      name := fun _ ht => Option.some.inj ht ▸ hvalue
      config := hs.config.name hvalue }
  | setting mark choice =>
    obtain ⟨config, hconfig, rfl⟩ := Option.map_eq_some_iff.1 h
    have hvalue := (hm _ (List.mem_singleton_self _)).command
    exact { hs with config := hs.config.apply hvalue config (toOption_eq_some.1 hconfig) }

/-- **A scenario** takes over the bindings and settings above it, and keeps their form. -/
theorem ownWellFormed_fill {members : List (Member .scenario)} {set : ScenarioSet} {mark : Mark}
    {label : String} {s : Scenario} (hset : set.OwnWellFormed)
    (hmembers : ∀ m ∈ members, ∀ statement ∈ m.statements, statement.WellFormed)
    (h : Holder.fill path groups members (Holder.start path set mark label .scenario) = some s) :
    s.OwnWellFormed := by
  have hstart : Scenario.OwnWellFormed (Draft.newScenario set path mark.line label) :=
    ⟨hset.bindings, hset.config, nofun⟩
  exact forall_foldlM (fun m hm s hs t => m.ownWellFormed_apply (hmembers m hm) hs) hstart h

/-- **Members leave the head of a scenario alone.** -/
theorem head_fill {members : List (Member .scenario)} {s t : Scenario}
    (h : Holder.fill path groups members s = some t) :
    t.key = s.key ∧ t.anonymous = s.anonymous ∧ t.line = s.line ∧ t.path = s.path := by
  refine forall_foldlM (Q := fun t : Scenario =>
    t.key = s.key ∧ t.anonymous = s.anonymous ∧ t.line = s.line ∧ t.path = s.path)
    (fun m _ b hb b' hm => ?_) ⟨rfl, rfl, rfl, rfl⟩ h
  cases m with
  | step block =>
    obtain ⟨step, -, hadd⟩ := Option.bind_eq_some_iff.1 hm
    obtain ⟨-, hadd⟩ := Option.ite_none_right_eq_some.1 hadd
    obtain rfl := Option.some.inj hadd
    exact hb
  | inclusion | setting =>
    obtain ⟨_, -, rfl⟩ := Option.map_eq_some_iff.1 hm
    exact hb
  | _ =>
    obtain rfl := Option.some.inj hm
    exact hb

end Outline

end ScenarioScript
