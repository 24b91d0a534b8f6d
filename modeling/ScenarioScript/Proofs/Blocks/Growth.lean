import ScenarioScript.Proofs.Blocks.Run

/-!
# Proofs/Blocks/Growth — what is finished stays as it is

A draft adds to the set of what it has finished, and takes nothing back.  Scenarios come behind
those there are; a name that is bound anew keeps its place; and a group changes only where its name
is opened once more, or comes in with a set that is loaded (`ScenarioSet.Grows`).

* `Draft.Grown.add` — a statement keeps to it, whatever it is;
* `Draft.run_grows` — where a row of statements is cut at top level, the first part builds a set by
  itself, and the whole row builds one that has grown from it.
-/

namespace ScenarioScript

open Outcome

/-! ## Ordered maps -/

namespace OrderedMap

variable {κ α : Type} [DecidableEq κ] {k : κ}

/-- **A value more** leaves the keys there are in their places. -/
theorem keys_prefix_insert (m : OrderedMap κ α) (k : κ) (a : α) :
    m.keys <+: (m.insert k a).keys := by
  rw [keys_insert]
  split
  · exact List.prefix_rfl
  · exact List.prefix_append ..

theorem keys_prefix_foldl_insert (m : OrderedMap κ α) (entries : List (κ × α)) :
    m.keys <+: (entries.foldl (fun m e => m.insert e.1 e.2) m).keys := by
  induction entries generalizing m with
  | nil => exact List.prefix_rfl
  | cons e rest ih => exact (m.keys_prefix_insert e.1 e.2).trans (ih _)

/-- **A map more** leaves them there as well. -/
theorem keys_prefix_update (m n : OrderedMap κ α) : m.keys <+: (m.update n).keys :=
  m.keys_prefix_foldl_insert n.entries

theorem get?_foldl_insert (m : OrderedMap κ α) {entries : List (κ × α)}
    (h : (entries.map Prod.fst).Nodup) :
    (entries.foldl (fun m e => m.insert e.1 e.2) m).get? k =
      (valueAt? k entries).or (m.get? k) := by
  induction entries generalizing m with
  | nil => rfl
  | cons e rest ih =>
    obtain ⟨hnew, hrest⟩ := List.nodup_cons.1 h
    rw [List.foldl_cons, ih _ hrest, get?_insert, valueAt?]
    by_cases hk : e.1 = k
    · have hnone : valueAt? k rest = none :=
        Option.not_isSome_iff_eq_none.1 fun hsome => hnew (hk ▸ (isSome_valueAt? k rest).1 hsome)
      rw [if_pos hk, if_pos hk, hnone, Option.none_or, Option.some_or]
    · rw [if_neg hk, if_neg hk]

/-- **What the second map has a value for** is what it has there, and the rest is what it was. -/
theorem get?_update_eq_or (m n : OrderedMap κ α) : (m.update n).get? k = (n.get? k).or (m.get? k) :=
  m.get?_foldl_insert n.nodup_keys

/-- What the second map has no value for is what it was. -/
theorem get?_update (m : OrderedMap κ α) {n : OrderedMap κ α} (h : k ∉ n.keys) :
    (m.update n).get? k = m.get? k := by
  have hnone : n.get? k = none :=
    Option.not_isSome_iff_eq_none.1 fun hsome => h ((n.isSome_get? k).1 hsome)
  rw [get?_update_eq_or, hnone, Option.none_or]

end OrderedMap

/-! ## Sets -/

namespace ScenarioSet

/-- **One set has grown from another**, where some groups may have been renewed. -/
structure Grows (renewed : String → Prop) (s t : ScenarioSet) : Prop where
  /-- The scenarios are those there were, each as it was, and then further ones. -/
  scenarios : s.scenarios <+: t.scenarios
  /-- A name that is not renewed stands for the group that it stood for, or for none as before. -/
  groups : ∀ name, ¬renewed name → t.groups.get? name = s.groups.get? name
  /-- The names that were bound come first, in the order in which they were. -/
  bindings : s.bindings.keys <+: t.bindings.keys

variable {renewed : String → Prop} {s t u : ScenarioSet}

theorem Grows.refl (s : ScenarioSet) : s.Grows renewed s :=
  ⟨List.prefix_rfl, fun _ _ => rfl, List.prefix_rfl⟩

theorem Grows.trans (hst : s.Grows renewed t) (htu : t.Grows renewed u) : s.Grows renewed u where
  scenarios := hst.scenarios.trans htu.scenarios
  groups name hname := (htu.groups name hname).trans (hst.groups name hname)
  bindings := hst.bindings.trans htu.bindings

theorem grows_bind (s : ScenarioSet) (name : String) (value : Tree) :
    s.Grows renewed (s.bind name value) :=
  { Grows.refl s with bindings := s.bindings.keys_prefix_insert name value }

theorem grows_scenario (s : ScenarioSet) (scenario : Scenario) :
    s.Grows renewed { s with scenarios := s.scenarios ++ [scenario] } :=
  { Grows.refl s with scenarios := List.prefix_append .. }

theorem grows_group (s : ScenarioSet) {group : Group} (h : renewed group.name) :
    s.Grows renewed { s with groups := s.groups.insert group.name group } where
  scenarios := List.prefix_rfl
  groups name hname := by
    have hne : group.name ≠ name := fun heq => hname (heq ▸ h)
    exact (OrderedMap.get?_insert ..).trans (if_neg hne)
  bindings := List.prefix_rfl

/-- **A set grows by a merge**, which renews the groups of what comes in. -/
theorem grows_merge (s : ScenarioSet) {loaded : ScenarioSet}
    (h : ∀ name ∈ loaded.groups.keys, renewed name) : s.Grows renewed (s.merge loaded) where
  scenarios := List.prefix_append ..
  groups name hname := s.groups.get?_update (mt (h name) hname)
  bindings := s.bindings.keys_prefix_update loaded.bindings

end ScenarioSet

/-! ## Drafts -/

/-- The name of the group that is open. -/
def Block.groupName? : Block → Option String
  | group g | groupStep g _ => some g.name
  | _ => none

/-- **A statement renews a group**: it opens one of the name, or loads a set that has one. -/
inductive Statement.Renews (site : Site) (name : String) (s : Statement) : Prop where
  | opened (hcommand : s.command = .group name)
  | loaded {target : String} {set : ScenarioSet} (hcommand : s.command = .load target)
      (hload : (site.load target (.loadedFrom site.path s.position)).outcome = .ok set)
      (hmem : name ∈ set.groups.keys)

namespace Draft

variable {site : Site} {renewed : String → Prop} {base set : ScenarioSet} {d : Draft}
  {s : Statement}

/-- **A draft that has grown from a set**: what is finished has, and the group that is open is one
that may be renewed. -/
structure Grown (renewed : String → Prop) (base : ScenarioSet) (d : Draft) : Prop where
  finished : base.Grows renewed d.finished
  group : ∀ name ∈ d.block.groupName?, renewed name

/-- What has been made so far has grown as well, the open blocks included. -/
theorem Grown.result (h : d.Grown renewed base) : base.Grows renewed d.result := by
  obtain ⟨finished, block⟩ := d
  obtain ⟨hfinished, hgroup⟩ := h
  cases block with
  | root => exact hfinished
  | scenario | scenarioStep => exact hfinished.trans (finished.grows_scenario _)
  | group g =>
    have hname : renewed g.name := hgroup g.name rfl
    exact hfinished.trans (finished.grows_group hname)
  | groupStep g step =>
    have hname : renewed { g with items := g.items ++ [.step step] : Group }.name :=
      hgroup g.name rfl
    exact hfinished.trans (finished.grows_group hname)

theorem Grown.closeStep (h : d.Grown renewed base) : Yields (Grown renewed base) d.closeStep := by
  obtain ⟨finished, block⟩ := d
  obtain ⟨hfinished, hgroup⟩ := h
  cases block with
  | scenarioStep scenario step =>
    intro e he
    obtain ⟨_, -, rfl⟩ := map_eq_ok.1 he
    exact ⟨hfinished, nofun⟩
  | _ => exact .ok ⟨hfinished, hgroup⟩

theorem Grown.closeAll (h : d.Grown renewed base) : Yields (base.Grows renewed) d.closeAll :=
  h.closeStep.map fun _ => Grown.result

theorem Grown.closeTo (h : d.Grown renewed base) (depth : Int) :
    Yields (Grown renewed base) (d.closeTo depth) := by
  unfold Draft.closeTo
  split
  · exact h.closeAll.map fun set hset => ⟨hset, nofun⟩
  · split
    · exact h.closeStep
    · exact .ok h

theorem grown_addToRoot (h : base.Grows renewed set)
    (hs : ∀ name, s.Renews site name → renewed name) :
    Yields (Grown renewed base) (addToRoot site set s).outcome := by
  unfold addToRoot
  split
  · next name value _ => exact .ok ⟨h.trans (set.grows_bind name value), nofun⟩
  · next value _ =>
    have hbound := h.trans (set.grows_bind "endpoint" value)
    exact .ok ⟨{ hbound with }, nofun⟩
  · rw [Traced.outcome_bind_pure]
    intro d hd
    obtain ⟨config, -, rfl⟩ := map_eq_ok.1 hd
    exact ⟨{ h with }, nofun⟩
  · next target hcommand =>
    rw [Traced.outcome_bind_pure]
    intro d hd
    obtain ⟨loaded, hload, rfl⟩ := map_eq_ok.1 hd
    have hnames : ∀ name ∈ loaded.groups.keys, renewed name := fun name hname =>
      hs name (.loaded hcommand hload hname)
    exact ⟨h.trans (set.grows_merge hnames), nofun⟩
  · exact .ok ⟨h, nofun⟩
  · next name hcommand =>
    exact .ok ⟨h, fun _ hname => Option.some.inj hname ▸ hs name (.opened hcommand)⟩
  · exact .error _

/-- In a scenario no group is opened. -/
theorem groupName?_addToScenario (path : Option String) (groups : OrderedMap String Group)
    (scenario : Scenario) (s : Statement) :
    Yields (fun block => block.groupName? = none) (addToScenario path groups scenario s) := by
  have hmap : ∀ {α : Type} {r : Except Failure α} {f : α → Block},
      (∀ a, (f a).groupName? = none) → Yields (fun block => block.groupName? = none) (r.map f) := by
    intro α r f hf block hblock
    obtain ⟨a, -, rfl⟩ := map_eq_ok.1 hblock
    exact hf a
  unfold addToScenario
  split
  · exact hmap fun _ => rfl
  · exact .ok rfl
  · exact .ok rfl
  · exact .ok rfl
  · exact hmap fun _ => rfl
  · exact hmap fun _ => rfl
  · exact .error _

/-- In a group none but this is open. -/
theorem groupName?_addToGroup (path : Option String) (group : Group) (s : Statement) :
    Yields (fun block => block.groupName? = some group.name) (addToGroup path group s) := by
  unfold addToGroup
  split
  · intro block hblock
    obtain ⟨step, -, rfl⟩ := map_eq_ok.1 hblock
    rfl
  · exact .ok rfl
  · exact .error _

theorem Grown.takeIn (h : d.Grown renewed base) (hs : ∀ name, s.Renews site name → renewed name) :
    Yields (Grown renewed base) (d.takeIn site s).outcome := by
  obtain ⟨finished, block⟩ := d
  obtain ⟨hfinished, hgroup⟩ := h
  cases block with
  | root => exact grown_addToRoot hfinished hs
  | scenario scenario =>
    rw [Draft.takeIn, Traced.outcome_bind_pure]
    refine (groupName?_addToScenario _ _ scenario s).map fun block hblock => ⟨hfinished, ?_⟩
    exact fun name hname => absurd (hname.symm.trans hblock) (Option.some_ne_none name)
  | group group =>
    rw [Draft.takeIn, Traced.outcome_bind_pure]
    refine (groupName?_addToGroup _ group s).map fun block hblock => ⟨hfinished, ?_⟩
    exact fun name hname => hgroup name (hblock.symm.trans hname)
  | scenarioStep | groupStep =>
    rw [Draft.takeIn, Traced.outcome_bind_pure]
    intro e he
    obtain ⟨step', -, rfl⟩ := map_eq_ok.1 he
    exact ⟨hfinished, hgroup⟩

/-- **A statement lets a draft grow**, and renews the groups that it says. -/
theorem Grown.add (h : d.Grown renewed base) (hs : ∀ name, s.Renews site name → renewed name) :
    Yields (Grown renewed base) (d.add site s).outcome := by
  intro e he
  obtain ⟨c, hclose, -, htake⟩ := add_eq_ok.1 he
  exact (h.closeTo s.depth c hclose).takeIn hs e htake

/-- **And so does a row of statements.** -/
theorem Grown.run {statements : List Statement} (h : d.Grown renewed base)
    (hrenews : ∀ s ∈ statements, ∀ name, s.Renews site name → renewed name) :
    Yields (base.Grows renewed) (d.run site statements).outcome := by
  rw [Draft.run, Traced.outcome_bind]
  have hfold := Traced.yields_foldlM (fun s hs d hd => Grown.add hd (hrenews s hs)) h
  exact hfold.bind fun e _ he => he.closeAll.mapError

/-! ## Cutting a row of statements -/

theorem run_append_eq_ok {above below : List Statement} :
    (d.run site (above ++ below)).outcome = .ok set ↔
      ∃ e, (above.foldlM (add site) d).outcome = .ok e ∧ (e.run site below).outcome = .ok set := by
  simp only [run, List.foldlM_append, bind_assoc]
  exact Traced.outcome_bind_eq_ok

/-- **A row of statements can be cut at top level**: what stands above the cut builds a set, from
which the rest goes on. -/
theorem run_append_of_within {above below : List Statement} (h : Within 0 below) :
    (d.run site (above ++ below)).outcome = .ok set ↔
      ∃ part, (d.run site above).outcome = .ok part ∧
        (Draft.run site ⟨part, .root⟩ below).outcome = .ok set := by
  have habove : ∀ part, (d.run site above).outcome = .ok part ↔
      ∃ e, (above.foldlM (add site) d).outcome = .ok e ∧ e.closeAll = .ok part := fun part => by
    rw [run, Traced.outcome_bind_eq_ok]
    exact exists_congr fun e => and_congr_right fun _ => mapError_eq_ok
  rw [run_append_eq_ok]
  constructor
  · rintro ⟨e, hfold, hrun⟩
    obtain ⟨part, hclose, hrest⟩ := (run_of_closeAll h).1 hrun
    exact ⟨part, (habove part).2 ⟨e, hfold, hclose⟩, hrest⟩
  · rintro ⟨part, hpart, hrest⟩
    obtain ⟨e, hfold, hclose⟩ := (habove part).1 hpart
    exact ⟨e, hfold, (run_of_closeAll h).2 ⟨part, hclose, hrest⟩⟩

/-- **What is finished stays as it is.**  Where a row of statements builds a set, what stands above
a statement at top level builds one by itself, and the whole has grown from it: no scenario of it is
changed, nor a group that is neither opened again nor loaded further down. -/
theorem run_grows (site : Site) (above : List Statement) (s : Statement) (below : List Statement)
    (whole : ScenarioSet) (hdepth : s.depth = 0)
    (h : (run site {} (above ++ s :: below)).outcome = .ok whole) :
    ∃ part, (run site {} above).outcome = .ok part ∧
      part.Grows (fun name => ∃ t ∈ s :: below, t.Renews site name) whole := by
  obtain ⟨part, hpart, hrest⟩ := (run_append_of_within (within_cons.2 (Int.le_of_eq hdepth))).1 h
  have hroot : Grown (fun name => ∃ t ∈ s :: below, t.Renews site name) part ⟨part, .root⟩ :=
    ⟨.refl part, nofun⟩
  exact ⟨part, hpart, hroot.run (fun t ht _ hname => ⟨t, ht, hname⟩) whole hrest⟩

/-- A script that loads one with a scenario, and with a group `common`. -/
def loadsCommon : Site where
  path := none
  load _ _ := pure
    { scenarios := [{ key := "loaded" }], groups := .ofList [("common", { name := "common" })] }

/-- Two groups, and a scenario that includes the first of them. -/
def twoGroupsIncluded : List Statement :=
  [⟨.group "first", "first", 0, 1, 1⟩, ⟨.step .reload none, "", 1, 2, 5⟩,
    ⟨.group "second", "second", 0, 3, 1⟩, ⟨.step .follow none, "", 1, 4, 5⟩,
    ⟨.bind "host" default, "", 0, 5, 1⟩, ⟨.scenario "before", "before", 0, 6, 1⟩,
    ⟨.inclusion "first", "first", 1, 7, 5⟩]

/-- Then the first group is written anew, a script is loaded, a name is bound once more, and a
second scenario includes the group. -/
def firstGroupRenewed : List Statement :=
  [⟨.step .follow none, "", 1, 9, 5⟩, ⟨.load "s", "\"s\"", 0, 10, 1⟩,
    ⟨.bind "host" default, "", 0, 11, 1⟩, ⟨.endpoint default, "", 0, 12, 1⟩,
    ⟨.scenario "behind", "behind", 0, 13, 1⟩, ⟨.inclusion "first", "first", 1, 14, 5⟩]

/-- The first scenario keeps the step that it included. -/
theorem run_grows_renewal :
    ∃ whole, (run loadsCommon {} (twoGroupsIncluded ++ ⟨.group "first", "first", 0, 8, 1⟩ ::
        firstGroupRenewed)).outcome = .ok whole ∧
      (∃ part, (run loadsCommon {} twoGroupsIncluded).outcome = .ok part ∧
        part.Grows (fun name => ∃ t ∈ ⟨.group "first", "first", 0, 8, 1⟩ :: firstGroupRenewed,
          t.Renews loadsCommon name) whole) ∧
      whole.scenarios.map (fun s => (s.key, s.steps.map (·.line))) =
        [("before", [2]), ("loaded", []), ("behind", [9])] := by
  have hrun : (run loadsCommon {} (twoGroupsIncluded ++ ⟨.group "first", "first", 0, 8, 1⟩ ::
      firstGroupRenewed)).outcome.toOption.map (fun whole => whole.scenarios.map
        fun s => (s.key, s.steps.map (·.line))) =
          some [("before", [2]), ("loaded", []), ("behind", [9])] := by
    decide +kernel
  obtain ⟨whole, hwhole, hsteps⟩ := Option.map_eq_some_iff.1 hrun
  rw [toOption_eq_some] at hwhole
  exact ⟨whole, hwhole, run_grows loadsCommon _ _ _ whole rfl hwhole, hsteps⟩

end Draft

end ScenarioScript
