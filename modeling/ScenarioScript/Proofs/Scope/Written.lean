import ScenarioScript.Proofs.Loading.Reading

/-!
# Proofs/Scope/Written — where the scenarios of a set are written

Every scenario of a set is written in one place: in the script that was read, or in one that it
loads, in a block with certain members below certain other entries.  Such a place is a **passage**.

* `Wrote` — the passages of a script that is read, and of those it loads;
* `mem_scenarios_readScript` — the scenarios that come of reading a script are those of its
  passages, no more and no less.
-/

namespace ScenarioScript

open Outcome Outline

/-! ## What entries add to the scenarios -/

namespace Outline

variable {site : Site} {set result : ScenarioSet} {scenario : Scenario}

/-- The scenarios that an entry adds to those above it. -/
def Entry.scenarios (site : Site) (set : ScenarioSet) : Entry → List Scenario
  | load mark target =>
    ((site.load target (.loadedFrom site.path mark.position)).outcome.toOption.map
      ScenarioSet.scenarios).getD []
  | block .scenario mark label members =>
    (Holder.fill site.path set.groups members
      (Holder.start site.path set mark label .scenario)).toList
  | _ => []

theorem Entry.scenarios_of_apply {e : Entry} (h : e.apply site set = some result) :
    result.scenarios = set.scenarios ++ e.scenarios site set := by
  cases e with
  | setting mark choice =>
    obtain ⟨config, -, rfl⟩ := Option.map_eq_some_iff.1 h
    exact (List.append_nil _).symm
  | load mark target =>
    obtain ⟨loaded, hload, rfl⟩ := Option.map_eq_some_iff.1 h
    rw [Entry.scenarios, hload]
    rfl
  | block holder mark label members =>
    obtain ⟨body, hfill, rfl⟩ := Option.map_eq_some_iff.1 h
    cases holder with
    | scenario =>
      rw [Entry.scenarios, hfill]
      rfl
    | group => exact (List.append_nil _).symm
  | _ =>
    obtain rfl := Option.some.inj h
    exact (List.append_nil _).symm

/-- **The scenarios of an outline** are those that were there, and those that some entry adds to
what the entries above it have made. -/
theorem mem_scenarios_meaning {o : Outline} (h : o.meaning site set = some result) :
    scenario ∈ result.scenarios ↔ scenario ∈ set.scenarios ∨
      ∃ (before : Outline) (e : Entry) (after : Outline) (above : ScenarioSet),
        o = before ++ e :: after ∧ before.meaning site set = some above ∧
          scenario ∈ e.scenarios site above := by
  induction o generalizing set with
  | nil =>
    obtain rfl : set = result := Option.some.inj h
    refine ⟨Or.inl, fun h => h.elim id fun ⟨before, e, after, above, hsplit, _, _⟩ => ?_⟩
    exact absurd hsplit (by simp)
  | cons e o ih =>
    rw [meaning, List.foldlM_cons] at h
    obtain ⟨set₁, happly, hrest⟩ := Option.bind_eq_some_iff.1 h
    rw [ih hrest, Entry.scenarios_of_apply happly, List.mem_append, or_assoc]
    refine or_congr_right ⟨?_, ?_⟩
    · rintro (hadded | ⟨before, e', after, above, rfl, hbefore, hadded⟩)
      · exact ⟨[], e, o, set, rfl, rfl, hadded⟩
      · refine ⟨e :: before, e', after, above, rfl, ?_, hadded⟩
        rw [meaning, List.foldlM_cons, happly]
        exact hbefore
    · rintro ⟨before, e', after, above, hsplit, hbefore, hadded⟩
      cases before with
      | nil =>
        obtain ⟨rfl, rfl⟩ := List.cons.inj hsplit
        obtain rfl : set = above := Option.some.inj hbefore
        exact .inl hadded
      | cons e₁ before =>
        obtain ⟨rfl, rfl⟩ := List.cons.inj hsplit
        rw [meaning, List.foldlM_cons, happly] at hbefore
        exact .inr ⟨before, e', after, above, rfl, hbefore, hadded⟩

end Outline

/-! ## Passages -/

/-- **A passage**: the block of a scenario, with the path of its script and the set that the entries
above it have made. -/
structure Passage where
  path : Option String
  above : ScenarioSet
  mark : Mark
  label : String
  members : List (Member .scenario)

/-- The scenario that a passage defines. -/
def Passage.scenario? (p : Passage) : Option Scenario :=
  Holder.fill p.path p.above.groups p.members (Holder.start p.path p.above p.mark p.label .scenario)

/-- The text of a script is that of the outline, which has a meaning. -/
def Environment.Reads (env : Environment) (loading : List Path) (path : Option Path) (text : String)
    (o : Outline) : Prop :=
  Draft.statementsOf env.unit text = .ok o.statements ∧
    ∃ set, o.meaning (env.site loading path) {} = some set

/-- **The passages** of a script that is read, and of those it loads. -/
inductive Wrote (env : Environment) : List Path → Option Path → String → Passage → Prop where
  | here {loading : List Path} {path : Option Path} {text : String} {before after : Outline}
      {mark : Mark} {label : String} {members : List (Member .scenario)} {above : ScenarioSet}
      (hreads : env.Reads loading path text (before ++ .block .scenario mark label members :: after))
      (habove : before.meaning (env.site loading path) {} = some above) :
      Wrote env loading path text ⟨(env.site loading path).path, above, mark, label, members⟩
  | loaded {loading : List Path} {path : Option Path} {text inner : String}
      {before after : Outline} {mark : Mark} {target : String} {p : Passage}
      (hreads : env.Reads loading path text (before ++ .load mark target :: after))
      (hinner : env.read (env.resolve target path) = .ok inner)
      (hwrote : Wrote env (loading ++ path.toList) (some (env.resolve target path)) inner p) :
      Wrote env loading path text p

variable {env : Environment} {loading : List Path} {path : Option Path} {text : String}
  {set : ScenarioSet} {scenario : Scenario}

/-- The set that comes of reading is the meaning of any outline that the text has. -/
theorem Environment.Reads.meaning {o : Outline} (h : env.Reads loading path text o)
    (hread : (readScript env loading path text).outcome = .ok set) :
    o.meaning (env.site loading path) {} = some set := by
  obtain ⟨hstatements, set', hset'⟩ := h
  have hread' := outcome_readScript_eq_ok.2 ⟨o, hstatements, hset'⟩
  rw [hset', Except.ok.inj (hread.symm.trans hread')]

/-- Loading with success is reading what is loaded. -/
theorem outcome_site_load {mark : Mark} {target : String} :
    ((env.site loading path).load target (.loadedFrom (env.site loading path).path
      mark.position)).outcome.toOption = some set ↔
      env.reaches target path = true ∧ env.resolve target path ∉ loading ++ path.toList ∧
        ∃ inner, env.read (env.resolve target path) = .ok inner ∧
          (readScript env (loading ++ path.toList) (some (env.resolve target path)) inner).outcome =
            .ok set := by
  rw [toOption_eq_some]
  by_cases hreaches : env.reaches target path = true
  · rw [load_site_of_reaches hreaches, outcome_loadScript_eq_ok, and_iff_right hreaches]
  · rw [load_site_of_not_reaches hreaches]
    exact iff_of_false nofun fun h => hreaches h.1

theorem mem_scenarios_load {mark : Mark} {target : String} {above : ScenarioSet} :
    scenario ∈ (Entry.load mark target).scenarios (env.site loading path) above ↔
      ∃ loaded, ((env.site loading path).load target (.loadedFrom (env.site loading path).path
        mark.position)).outcome.toOption = some loaded ∧ scenario ∈ loaded.scenarios := by
  rw [Entry.scenarios]
  cases ((env.site loading path).load target (.loadedFrom (env.site loading path).path
    mark.position)).outcome.toOption with
  | none => simp
  | some loaded => simp

/-- **Every scenario is written somewhere.**  The recursion is that of reading: each load leaves
fewer files that are not in the middle of being read. -/
theorem exists_wrote {env : Environment} {loading : List Path} {path : Option Path} {text : String}
    {set : ScenarioSet} {scenario : Scenario}
    (hread : (readScript env loading path text).outcome = .ok set)
    (hscenario : scenario ∈ set.scenarios) :
    ∃ p, Wrote env loading path text p ∧ p.scenario? = some scenario := by
  obtain ⟨o, hstatements, hmeaning⟩ := outcome_readScript_eq_ok.1 hread
  obtain hnone | ⟨before, e, after, above, rfl, habove, hadded⟩ :=
    (mem_scenarios_meaning hmeaning).1 hscenario
  · exact absurd hnone List.not_mem_nil
  · cases e with
    | load mark target =>
      obtain ⟨loaded, hloaded, hmem⟩ := mem_scenarios_load.1 hadded
      obtain ⟨-, hnew, inner, hinner, hread'⟩ := outcome_site_load.1 hloaded
      obtain ⟨p, hwrote, hp⟩ := exists_wrote hread' hmem
      exact ⟨p, .loaded ⟨hstatements, set, hmeaning⟩ hinner hwrote, hp⟩
    | block holder mark label members =>
      cases holder with
      | scenario =>
        exact ⟨_, .here ⟨hstatements, set, hmeaning⟩ habove, Option.mem_toList.1 hadded⟩
      | group => exact absurd hadded List.not_mem_nil
    | _ => exact absurd hadded List.not_mem_nil
termination_by unvisited env.paths (loading ++ path.toList)
decreasing_by exact unvisited_lt (Workspace.mem_keys_of_read hinner) hnew

/-- **Every scenario that is written is there.** -/
theorem mem_scenarios_of_wrote {p : Passage} (hwrote : Wrote env loading path text p)
    (hread : (readScript env loading path text).outcome = .ok set)
    (hp : p.scenario? = some scenario) : scenario ∈ set.scenarios := by
  induction hwrote generalizing set with
  | here hreads habove =>
    refine (mem_scenarios_meaning (hreads.meaning hread)).2 (.inr ?_)
    exact ⟨_, _, _, _, rfl, habove, Option.mem_toList.2 hp⟩
  | @loaded loading path text inner before after mark target p hreads hinner hwrote ih =>
    obtain ⟨above, below, habove, happly, -⟩ := exists_apply_of_meaning (hreads.meaning hread)
    obtain ⟨loaded, hloaded, -⟩ := Option.map_eq_some_iff.1 happly
    obtain ⟨-, -, inner', hinner', hread'⟩ := outcome_site_load.1 hloaded
    obtain rfl : inner = inner' := Except.ok.inj (hinner.symm.trans hinner')
    refine (mem_scenarios_meaning (hreads.meaning hread)).2 (.inr ?_)
    exact ⟨_, _, _, _, rfl, habove, mem_scenarios_load.2 ⟨loaded, hloaded, ih hread' hp⟩⟩

/-- **The scenarios of a script** are those of its passages. -/
theorem mem_scenarios_readScript (hread : (readScript env loading path text).outcome = .ok set) :
    scenario ∈ set.scenarios ↔
      ∃ p, Wrote env loading path text p ∧ p.scenario? = some scenario :=
  ⟨exists_wrote hread, fun ⟨_, hwrote, hp⟩ => mem_scenarios_of_wrote hwrote hread hp⟩

end ScenarioScript
