import ScenarioScript.Proofs.Blocks.Growth
import ScenarioScript.Proofs.Loading.Reading
import ScenarioScript.Proofs.Loading.Stack
import ScenarioScript.Proofs.Merging.Sets

/-!
# Proofs/Merging/Loads — loads inside loads

Settings are a monoid under `Config.merged`, and sets are one under `ScenarioSet.merge`, order of keys
and of scenarios included.  A load merges what the loaded script defines, and that script may merge
others before; as merging is associative, it does not matter which script merges what.

* `Draft.Loads` — the sets that a row of statements loads, in order, however deep the loads are
  nested in one another;
* `Draft.outcome_run_of_loads` — the row merges these sets, one after the other;
* `merging_laws` — the laws of both monoids, and that **scripts that load the same sets in the same
  order** define the same.
-/

namespace ScenarioScript

open Outcome

instance : Std.Associative ScenarioSet.merge := ⟨ScenarioSet.merge_assoc⟩

/-! ## Rows of loads -/

namespace Draft

variable {site : Site} {s : Statement} {statements : List Statement} {sets : List ScenarioSet}

/-- **The statement loads a set**, at top level. -/
structure LoadsSet (site : Site) (s : Statement) (set : ScenarioSet) : Prop where
  depth : s.depth = 0
  load : ∃ target, s.command = .load target ∧
    (site.load target (.loadedFrom site.path s.position)).outcome = .ok set

/-- **The sets that a row of statements loads**, in order.  What a statement loads is either taken as
it is, or it is what the statements of a script define: the first of these, if there are any before
the loads, define a set by themselves, and the others load more. -/
inductive Loads : Site → List Statement → List ScenarioSet → Prop
  | nil {site : Site} : Loads site [] []
  | whole {site : Site} {s : Statement} {set : ScenarioSet} {statements : List Statement}
      {sets : List ScenarioSet} (load : LoadsSet site s set)
      (below : Loads site statements sets) : Loads site (s :: statements) (set :: sets)
  | parts {site inner : Site} {s : Statement} {set : ScenarioSet}
      {own loads statements : List Statement} {first : Option ScenarioSet}
      {sets more : List ScenarioSet} (load : LoadsSet site s set)
      (defines : (run inner {} (own ++ loads)).outcome = .ok set)
      (begins : (run inner {} own).outcome = .ok (first.getD {})) (inside : Loads inner loads sets)
      (below : Loads site statements more) :
      Loads site (s :: statements) (first.toList ++ sets ++ more)

/-- Such a row stands at top level. -/
theorem Loads.within (h : Loads site statements sets) : Within 0 statements := by
  cases h with
  | nil => exact within_nil 0
  | whole load | parts load => exact within_cons.2 (Int.le_of_eq load.depth)

/-- **A statement that loads a set** merges it, and the run goes on. -/
theorem LoadsSet.outcome_run_cons {set : ScenarioSet} (h : LoadsSet site s set) (r : ScenarioSet)
    (statements : List Statement) :
    (run site ⟨r, .root⟩ (s :: statements)).outcome =
      (run site ⟨r.merge set, .root⟩ statements).outcome := by
  obtain ⟨hdepth, target, hcommand, hload⟩ := h
  have hclose : closeTo ⟨r, .root⟩ s.depth = .ok ⟨r, .root⟩ := by
    rw [hdepth]
    rfl
  have hadd : (add site ⟨r, .root⟩ s).outcome = .ok ⟨r.merge set, .root⟩ := by
    rw [add_load hclose hdepth hcommand, Traced.outcome_bind_pure, hload]
    rfl
  simp only [run, List.foldlM_cons, bind_assoc]
  rw [Traced.outcome_bind, hadd]
  rfl

/-- **A row of loads** merges what is loaded, one set after the other.  The induction is on how the
loads are nested: to merge what a script has merged by itself is to merge its parts. -/
theorem outcome_run_of_loads (h : Loads site statements sets) (r : ScenarioSet) :
    (run site ⟨r, .root⟩ statements).outcome = .ok (sets.foldl ScenarioSet.merge r) := by
  induction h generalizing r with
  | nil => rfl
  | whole load _ ih => rw [load.outcome_run_cons, ih, List.foldl_cons]
  | @parts _ inner _ set own loads _ first sets _ load defines begins inside _ ihInside ihBelow =>
    have hset : set = sets.foldl ScenarioSet.merge (first.getD {}) := by
      have hparts : (run inner {} (own ++ loads)).outcome = .ok _ :=
        (run_append_of_within inside.within).2 ⟨_, begins, ihInside _⟩
      exact Except.ok.inj (defines.symm.trans hparts)
    have hfirst : r.merge (first.getD {}) = first.toList.foldl ScenarioSet.merge r := by
      cases first with
      | none => exact r.merge_empty
      | some set => rfl
    have hmerge : r.merge set = (first.toList ++ sets).foldl ScenarioSet.merge r := by
      rw [hset, List.foldl_append, ← hfirst, List.foldl_assoc]
    rw [load.outcome_run_cons, ihBelow, hmerge, ← List.foldl_append]

end Draft

/-! ## Scripts that load -/

/-- **A script loads sets**: it is nothing but the statements that load them. -/
def Script.LoadsSets (env : Environment) (s : Script) (sets : List ScenarioSet) : Prop :=
  ∃ statements, Draft.statementsOf env.unit s.text = .ok statements ∧
    Draft.Loads (env.site s.loading s.path) statements sets

/-- **A script that loads sets** defines what they merge to. -/
theorem Script.LoadsSets.outcome_readScript {env : Environment} {s : Script}
    {sets : List ScenarioSet} (h : s.LoadsSets env sets) :
    (readScript env s.loading s.path s.text).outcome = .ok (sets.foldl ScenarioSet.merge {}) := by
  obtain ⟨statements, hstatements, hloads⟩ := h
  rw [readScript_eq, Traced.outcome_mapFault, mapError_eq_ok, Draft.outcome_build_eq_ok]
  exact ⟨statements, hstatements, Draft.outcome_run_of_loads hloads {}⟩

/-- **Settings and sets are monoids**, and loads rest on it: to fold settings in is to merge them, and
scripts that load the same sets in the same order define the same, however the loads are nested in
one another. -/
theorem merging_laws :
    (∀ a b c : Config, (a.merged b).merged c = a.merged (b.merged c)) ∧
    (∀ c : Config, Config.empty.merged c = c ∧ c.merged Config.empty = c) ∧
    (∀ a b : Config, a.update b = a.merged b) ∧
    (∀ a b c : ScenarioSet, (a.merge b).merge c = a.merge (b.merge c)) ∧
    (∀ s : ScenarioSet, ScenarioSet.empty.merge s = s ∧ s.merge ScenarioSet.empty = s) ∧
    (∀ a b : ScenarioSet, (a.merge b).config = a.config.update b.config) ∧
    ∀ (env env' : Environment) (s s' : Script) (sets : List ScenarioSet),
      s.LoadsSets env sets → s'.LoadsSets env' sets →
        (readScript env s.loading s.path s.text).outcome = .ok (sets.foldl ScenarioSet.merge {}) ∧
        (readScript env' s'.loading s'.path s'.text).outcome =
          (readScript env s.loading s.path s.text).outcome := by
  refine ⟨Config.merged_assoc, fun c => ⟨c.empty_merged, c.merged_empty⟩, Config.update_eq_merged,
    ScenarioSet.merge_assoc, fun s => ⟨s.empty_merge, s.merge_empty⟩,
    fun a b => (a.config.update_eq_merged b.config).symm, ?_⟩
  intro env env' s s' sets h h'
  have hread := h.outcome_readScript
  exact ⟨hread, h'.outcome_readScript.trans hread.symm⟩

/-- Three files: two that define groups, and one that loads these. -/
def groupFiles : Environment where
  workspace := { files := .ofList [(⟨["first"], by decide⟩, "group g\ngroup h\n".toUTF8),
    (⟨["second"], by decide⟩, "group g\n".toUTF8),
    (⟨["both"], by decide⟩, "load \"first\"\nload \"second\"\n".toUTF8)] }

/-- What the first two files define. -/
def groupSets : List ScenarioSet :=
  [{ groups := .ofList [("g", { name := "g", line := 1, path := some "/first" }),
      ("h", { name := "h", line := 2, path := some "/first" })] },
    { groups := .ofList [("g", { name := "g", line := 1, path := some "/second" })] }]

/-- A script that loads the third file, and one that loads what this loads. -/
def nestedLoads : Script := ⟨[], none, "load \"both\""⟩

def sequentialLoads : Script := ⟨[], none, "load \"first\"\nload \"second\""⟩

def groupLoads : List Statement :=
  [⟨.load "first", "\"first\"", 0, 1, 1⟩, ⟨.load "second", "\"second\"", 0, 2, 1⟩]

/-- Loaded in one file or one after the other, the second file writes a group of the first anew, in
its place. -/
theorem merging_laws_groupFiles :
    nestedLoads.LoadsSets groupFiles groupSets ∧ sequentialLoads.LoadsSets groupFiles groupSets ∧
      (readScript groupFiles [] none "load \"both\"").outcome =
        (readScript groupFiles [] none "load \"first\"\nload \"second\"").outcome ∧
      (groupSets.foldl ScenarioSet.merge {}).groups.entries.map (fun e => (e.1, e.2.path)) =
        [("g", some "/second"), ("h", some "/first")] := by
  have hrow (path : Option Path) (hfirst : ((groupFiles.site [] path).load "first"
      (.loadedFrom (path.map Path.render) ⟨1, 1⟩)).outcome = .ok groupSets[0])
      (hsecond : ((groupFiles.site [] path).load "second"
        (.loadedFrom (path.map Path.render) ⟨2, 1⟩)).outcome = .ok groupSets[1]) :
      Draft.Loads (groupFiles.site [] path) groupLoads groupSets :=
    .whole ⟨rfl, _, rfl, hfirst⟩ (.whole ⟨rfl, _, rfl, hsecond⟩ .nil)
  have hinside := hrow (some ⟨["both"], by decide⟩) (by decide +kernel) (by decide +kernel)
  have hnested : nestedLoads.LoadsSets groupFiles groupSets := by
    refine ⟨[⟨.load "both", "\"both\"", 0, 1, 1⟩], by decide +kernel, ?_⟩
    have hload : Draft.LoadsSet (groupFiles.site [] none) ⟨.load "both", "\"both\"", 0, 1, 1⟩
        (groupSets.foldl ScenarioSet.merge {}) := ⟨rfl, _, rfl, by decide +kernel⟩
    have hown : (Draft.run (groupFiles.site [] (some ⟨["both"], by decide⟩)) {} []).outcome =
        .ok ((none : Option ScenarioSet).getD {}) := rfl
    have hparts := Draft.Loads.parts hload (Draft.outcome_run_of_loads hinside {}) hown hinside .nil
    exact hparts
  have hsequential : sequentialLoads.LoadsSets groupFiles groupSets :=
    ⟨groupLoads, by decide +kernel, hrow none (by decide +kernel) (by decide +kernel)⟩
  obtain ⟨-, -, -, -, -, -, hloads⟩ := merging_laws
  exact ⟨hnested, hsequential, (hloads _ _ _ _ _ hsequential hnested).2, by decide +kernel⟩

end ScenarioScript
