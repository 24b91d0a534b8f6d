import ScenarioScript.Proofs.Blocks.Effect

/-!
# Proofs/Blocks/Meaning — the open block computes the meaning of the outline

A draft knows one open block and no outline; an outline's meaning knows no open block.  They agree:

* `run_outline` — every outline is built, and what is built is what it means;
* `outlined` — a run that succeeds has an outline in its statements, or what is left of one;
* `run_eq_ok_iff` — a row of statements builds a set exactly if it is the row of an outline, and the
  set is what the outline means.
-/

namespace ScenarioScript

namespace Outline

open Outcome Draft

variable {site : Site} {set result : ScenarioSet} {holder : Holder}

/-! ## Every outline is built

What is behind a part in a run is at most as deep as the part, so the part is closed when it has
been taken in. -/

theorem Member.within_flatMap (members : List (Member holder)) {below : List Statement}
    (h : Within 1 below) : Within 1 (members.flatMap Member.statements ++ below) := by
  cases members with
  | nil => exact h
  | cons m members =>
    rw [List.flatMap_cons, List.append_assoc]
    cases m <;> exact within_cons.2 (Int.le_refl 1)

theorem within_statements (o : Outline) : Within 0 o.statements := by
  cases o with
  | nil => exact within_nil 0
  | cons e o =>
    rw [Outline.statements, List.flatMap_cons]
    cases e with
    | block holder mark label members => cases holder <;> exact within_cons.2 (Int.le_refl 0)
    | _ => exact within_cons.2 (Int.le_refl 0)

theorem run_clauses {clauses : List Clause} {body : holder.Body} {step step' : Step}
    {below : List Statement} (h : clauses.foldlM Clause.apply step = some step')
    (hrun : (run site ⟨set, Holder.stepBlock body step'⟩ below).outcome = .ok result) :
    (run site ⟨set, Holder.stepBlock body step⟩
      (clauses.map Clause.statement ++ below)).outcome = .ok result := by
  induction clauses generalizing step with
  | nil =>
    obtain rfl := Option.some.inj h
    exact hrun
  | cons c clauses ih =>
    rw [List.foldlM_cons] at h
    obtain ⟨step₁, hc, hrest⟩ := Option.bind_eq_some_iff.1 h
    rw [← toOption_addToStep, toOption_eq_some] at hc
    have hdepth : c.statement.depth = 2 := by cases c <;> rfl
    refine run_cons_eq_ok.2 ⟨⟨set, Holder.stepBlock body step₁⟩, ?_, ih hrest⟩
    rw [add_of_depth (hdepth.trans (Holder.depth_stepBlock body step).symm), takeIn_stepBlock, hc]
    rfl

/-- A step is opened by its first statement, and closed by what is behind its clauses. -/
theorem run_step {b : StepBlock} {body body' : holder.Body} {below : List Statement}
    (h : (b.meaning site.path).bind (Holder.addStep body) = some body')
    (hcomplete : b.opening.Complete) (hbelow : Within 1 below)
    (hrun : (run site ⟨set, Holder.block body'⟩ below).outcome = .ok result) :
    (run site ⟨set, Holder.block body⟩ (b.statements ++ below)).outcome = .ok result := by
  obtain ⟨step, hstep, hadd⟩ := Option.bind_eq_some_iff.1 h
  have hopen : (add site ⟨set, Holder.block body⟩ b.opening).outcome =
      .ok ⟨set, Holder.stepBlock body (b.head site.path)⟩ := by
    rw [add_of_depth (Holder.depth_block body).symm, takeIn_block,
      (addToBody_opening hcomplete).2 rfl]
    rfl
  refine run_cons_eq_ok.2 ⟨_, hopen, run_clauses hstep ?_⟩
  rw [run_of_closeStep hbelow]
  exact ⟨_, closeStep_stepBlock.2 ⟨body', hadd, rfl⟩, hrun⟩

theorem run_member {m : Member holder} {body body' : holder.Body} {below : List Statement}
    (h : m.apply site.path set.groups body = some body')
    (hcomplete : ∀ s ∈ m.statements, s.Complete) (hbelow : Within 1 below)
    (hrun : (run site ⟨set, Holder.block body'⟩ below).outcome = .ok result) :
    (run site ⟨set, Holder.block body⟩ (m.statements ++ below)).outcome = .ok result := by
  cases hm : m.single? with
  | none =>
    cases m with
    | step b => exact run_step h (hcomplete b.opening List.mem_cons_self) hbelow hrun
    | _ => simp [Member.single?, Member.statements] at hm
  | some s =>
    obtain ⟨hstatements, hdepth⟩ := Member.of_single? hm
    rw [hstatements]
    refine run_cons_eq_ok.2 ⟨⟨set, Holder.block body'⟩, ?_, hrun⟩
    rw [add_of_depth (hdepth.trans (Holder.depth_block body).symm), takeIn_block,
      (addToBody_eq_ok hm).2 ⟨body', h, rfl⟩]
    rfl

theorem run_members {members : List (Member holder)} {body body' : holder.Body}
    {below : List Statement} (h : Holder.fill site.path set.groups members body = some body')
    (hcomplete : ∀ s ∈ members.flatMap Member.statements, s.Complete) (hbelow : Within 1 below)
    (hrun : (run site ⟨set, Holder.block body'⟩ below).outcome = .ok result) :
    (run site ⟨set, Holder.block body⟩
      (members.flatMap Member.statements ++ below)).outcome = .ok result := by
  induction members generalizing body with
  | nil =>
    obtain rfl := Option.some.inj h
    exact hrun
  | cons m members ih =>
    rw [List.flatMap_cons] at hcomplete
    obtain ⟨hm, hmembers⟩ := List.forall_mem_append.1 hcomplete
    rw [Holder.fill, List.foldlM_cons] at h
    obtain ⟨body₁, happly, hrest⟩ := Option.bind_eq_some_iff.1 h
    rw [List.flatMap_cons, List.append_assoc]
    exact run_member happly hm (Member.within_flatMap members hbelow) (ih hrest hmembers)

theorem run_entry {e : Entry} {set' : ScenarioSet} {below : List Statement}
    (h : e.apply site set = some set') (hcomplete : ∀ s ∈ e.statements, s.Complete)
    (hbelow : Within 0 below) (hrun : (run site ⟨set', .root⟩ below).outcome = .ok result) :
    (run site ⟨set, .root⟩ (e.statements ++ below)).outcome = .ok result := by
  cases he : e.single? with
  | none =>
    cases e with
    | block holder mark label members =>
      obtain ⟨body, hfill, rfl⟩ := Option.map_eq_some_iff.1 h
      have hdepth : (holder.opening mark label).depth = 0 := by cases holder <;> rfl
      refine run_cons_eq_ok.2 ⟨⟨set, Holder.block (holder.start site.path set mark label)⟩, ?_, ?_⟩
      · rw [add_of_depth hdepth]
        exact outcome_addToRoot_opening site set holder mark label
      · refine run_members hfill (fun s hs => hcomplete s (List.mem_cons_of_mem _ hs))
          (hbelow.mono (by decide)) ?_
        rw [run_of_closeAll hbelow]
        exact ⟨_, closeAll_block body, hrun⟩
    | _ => simp [Entry.single?, Entry.statements] at he
  | some s =>
    obtain ⟨hstatements, hdepth⟩ := Entry.of_single? he
    rw [hstatements]
    refine run_cons_eq_ok.2 ⟨⟨set', .root⟩, ?_, hrun⟩
    rw [add_of_depth hdepth]
    exact (addToRoot_eq_ok he).2 ⟨set', h, rfl⟩

/-- **Every outline is built**, and what is built is what it means. -/
theorem run_outline {o : Outline} (h : o.meaning site set = some result)
    (hcomplete : ∀ s ∈ o.statements, s.Complete) :
    (run site ⟨set, .root⟩ o.statements).outcome = .ok result := by
  induction o generalizing set with
  | nil => exact run_nil_eq_ok.2 (congrArg Except.ok (Option.some.inj h))
  | cons e o ih =>
    rw [statements, List.flatMap_cons] at hcomplete ⊢
    obtain ⟨he, ho⟩ := List.forall_mem_append.1 hcomplete
    rw [meaning, List.foldlM_cons] at h
    obtain ⟨set₁, happly, hrest⟩ := Option.bind_eq_some_iff.1 h
    exact run_entry happly he (within_statements o) (ih hrest ho)

/-! ## What is built has an outline

In the middle of a run the outline is not complete: some of its parts are still to come, in the
open step, in the block around it, and at top level.  These parts are what an induction on the
statements can find. -/

/-- The statements are an outline, and this is what it makes of the set. -/
def AtTop (site : Site) (set : ScenarioSet) (statements : List Statement) (result : ScenarioSet) :
    Prop :=
  ∃ o : Outline, o.statements = statements ∧ o.meaning site set = some result

/-- The statements are the members that are still missing, and then an outline. -/
def InBlock (site : Site) (set : ScenarioSet) {holder : Holder} (body : holder.Body)
    (statements : List Statement) (result : ScenarioSet) : Prop :=
  ∃ (members : List (Member holder)) (body' : holder.Body) (below : List Statement),
    members.flatMap Member.statements ++ below = statements ∧
      Holder.fill site.path set.groups members body = some body' ∧
        AtTop site (Holder.finish set body') below result

/-- The statements are the clauses that are still missing, then members, and then an outline. -/
def InStep (site : Site) (set : ScenarioSet) {holder : Holder} (body : holder.Body) (step : Step)
    (statements : List Statement) (result : ScenarioSet) : Prop :=
  ∃ (clauses : List Clause) (step' : Step) (body' : holder.Body) (below : List Statement),
    clauses.map Clause.statement ++ below = statements ∧
      clauses.foldlM Clause.apply step = some step' ∧
        Holder.addStep body step' = some body' ∧ InBlock site set body' below result

theorem AtTop.cons {e : Entry} {set' : ScenarioSet} {below : List Statement}
    (happly : e.apply site set = some set') (h : AtTop site set' below result) :
    AtTop site set (e.statements ++ below) result := by
  obtain ⟨o, rfl, ho⟩ := h
  refine ⟨e :: o, rfl, ?_⟩
  rw [meaning, List.foldlM_cons, happly]
  exact ho

theorem AtTop.of_block {mark : Mark} {label : String} {below : List Statement}
    (h : InBlock site set (holder.start site.path set mark label) below result) :
    AtTop site set (holder.opening mark label :: below) result := by
  obtain ⟨members, body, rest, rfl, hfill, hrest⟩ := h
  have happly : (Entry.block holder mark label members).apply site set =
      some (Holder.finish set body) := by
    rw [Entry.apply, hfill]
    rfl
  exact AtTop.cons happly hrest

theorem InBlock.of_top {body : holder.Body} {below : List Statement}
    (h : AtTop site (Holder.finish set body) below result) : InBlock site set body below result :=
  ⟨[], body, below, rfl, rfl, h⟩

theorem InBlock.cons {m : Member holder} {body body' : holder.Body} {below : List Statement}
    (happly : m.apply site.path set.groups body = some body')
    (h : InBlock site set body' below result) :
    InBlock site set body (m.statements ++ below) result := by
  obtain ⟨members, body₁, rest, rfl, hfill, hrest⟩ := h
  refine ⟨m :: members, body₁, rest, List.append_assoc .., ?_, hrest⟩
  rw [Holder.fill, List.foldlM_cons, happly]
  exact hfill

theorem InBlock.of_step {b : StepBlock} {body : holder.Body} {below : List Statement}
    (h : InStep site set body (b.head site.path) below result) :
    InBlock site set body (b.opening :: below) result := by
  obtain ⟨clauses, step, body', rest, rfl, hclauses, hadd, hrest⟩ := h
  have happly : (Member.step { b with clauses }).apply site.path set.groups body = some body' :=
    Option.bind_eq_some_iff.2 ⟨step, hclauses, hadd⟩
  exact InBlock.cons happly hrest

theorem InStep.of_block {body body' : holder.Body} {step : Step} {below : List Statement}
    (hadd : Holder.addStep body step = some body') (h : InBlock site set body' below result) :
    InStep site set body step below result :=
  ⟨[], step, body', below, rfl, rfl, hadd, h⟩

theorem InStep.cons {c : Clause} {body : holder.Body} {step step' : Step} {below : List Statement}
    (happly : c.apply step = some step') (h : InStep site set body step' below result) :
    InStep site set body step (c.statement :: below) result := by
  obtain ⟨clauses, step₁, body', rest, rfl, hclauses, hadd, hrest⟩ := h
  refine ⟨c :: clauses, step₁, body', rest, rfl, ?_, hadd, hrest⟩
  rw [List.foldlM_cons, happly]
  exact hclauses

/-- **A run that succeeds has the rest of an outline** in its statements, wherever it begins. -/
structure Outlined (site : Site) (statements : List Statement) : Prop where
  top : ∀ {set result : ScenarioSet},
    (run site ⟨set, .root⟩ statements).outcome = .ok result → AtTop site set statements result
  block : ∀ {holder : Holder} {body : holder.Body} {set result : ScenarioSet},
    (run site ⟨set, Holder.block body⟩ statements).outcome = .ok result →
      InBlock site set body statements result
  step : ∀ {holder : Holder} {body : holder.Body} {step : Step} {set result : ScenarioSet},
    (run site ⟨set, Holder.stepBlock body step⟩ statements).outcome = .ok result →
      InStep site set body step statements result

theorem inBlock_of_within {body : holder.Body} {statements : List Statement}
    (hwithin : Within 0 statements)
    (htop : ∀ {set : ScenarioSet}, (run site ⟨set, .root⟩ statements).outcome = .ok result →
      AtTop site set statements result)
    (h : (run site ⟨set, Holder.block body⟩ statements).outcome = .ok result) :
    InBlock site set body statements result := by
  obtain ⟨before, hclose, hrun⟩ := (run_of_closeAll hwithin).1 h
  obtain rfl := Except.ok.inj ((closeAll_block body).symm.trans hclose)
  exact .of_top (htop hrun)

theorem inStep_of_within {body : holder.Body} {step : Step} {statements : List Statement}
    (hwithin : Within 1 statements)
    (hblock : ∀ {body : holder.Body},
      (run site ⟨set, Holder.block body⟩ statements).outcome = .ok result →
        InBlock site set body statements result)
    (h : (run site ⟨set, Holder.stepBlock body step⟩ statements).outcome = .ok result) :
    InStep site set body step statements result := by
  obtain ⟨d, hclose, hrun⟩ := (run_of_closeStep hwithin).1 h
  obtain ⟨body', hadd, rfl⟩ := closeStep_stepBlock.1 hclose
  exact .of_block hadd (hblock hrun)

theorem outlined_nil (site : Site) : Outlined site [] := by
  have htop : ∀ {set result : ScenarioSet}, (run site ⟨set, .root⟩ []).outcome = .ok result →
      AtTop site set [] result := fun {set result} h => by
    obtain rfl : set = result := Except.ok.inj (run_nil_eq_ok.1 h)
    exact ⟨[], rfl, rfl⟩
  have hblock : ∀ {holder : Holder} {body : holder.Body} {set result : ScenarioSet},
      (run site ⟨set, Holder.block body⟩ []).outcome = .ok result →
        InBlock site set body [] result := inBlock_of_within (within_nil 0) htop
  exact ⟨htop, hblock, inStep_of_within (within_nil 1) hblock⟩

theorem Outlined.top_cons {s : Statement} {statements : List Statement}
    (hbelow : Outlined site statements)
    (h : (run site ⟨set, .root⟩ (s :: statements)).outcome = .ok result) :
    AtTop site set (s :: statements) result := by
  obtain ⟨d, hadd, hrun⟩ := run_cons_eq_ok.1 h
  have hdepth : s.depth = 0 := Int.le_antisymm (depth_of_add hadd).2 (depth_of_add hadd).1
  have htake : (addToRoot site set s).outcome = .ok d := (add_of_depth hdepth).1 hadd
  obtain ⟨e, he⟩ | ⟨holder, mark, label, rfl⟩ := exists_entry hdepth htake
  · obtain ⟨set', happly, rfl⟩ := (addToRoot_eq_ok he).1 htake
    have hentry := AtTop.cons happly (hbelow.top hrun)
    rw [(Entry.of_single? he).1] at hentry
    exact hentry
  · rw [outcome_addToRoot_opening] at htake
    obtain rfl := Except.ok.inj htake
    exact .of_block (hbelow.block hrun)

theorem Outlined.block_cons {body : holder.Body} {s : Statement} {statements : List Statement}
    (hcomplete : s.Complete) (hbelow : Outlined site statements)
    (h : (run site ⟨set, Holder.block body⟩ (s :: statements)).outcome = .ok result) :
    InBlock site set body (s :: statements) result := by
  by_cases hdepth : s.depth ≤ 0
  · exact inBlock_of_within (within_cons.2 hdepth) (top_cons hbelow) h
  obtain ⟨d, hadd, hrun⟩ := run_cons_eq_ok.1 h
  have hone : s.depth = 1 := by
    have hle : s.depth ≤ (Holder.block body).depth := (depth_of_add hadd).2
    rw [Holder.depth_block] at hle
    omega
  rw [add_of_depth (hone.trans (Holder.depth_block body).symm), takeIn_block, map_eq_ok] at hadd
  obtain ⟨block, heffect, rfl⟩ := hadd
  obtain ⟨m, hm⟩ | ⟨b, rfl⟩ := exists_member hone heffect
  · obtain ⟨body', happly, rfl⟩ := (addToBody_eq_ok hm).1 heffect
    have hmember := InBlock.cons happly (hbelow.block hrun)
    rw [(Member.of_single? hm).1] at hmember
    exact hmember
  · rw [addToBody_opening hcomplete] at heffect
    obtain rfl := heffect
    exact .of_step (hbelow.step hrun)

theorem Outlined.step_cons {body : holder.Body} {step : Step} {s : Statement}
    {statements : List Statement} (hcomplete : s.Complete) (hbelow : Outlined site statements)
    (h : (run site ⟨set, Holder.stepBlock body step⟩ (s :: statements)).outcome = .ok result) :
    InStep site set body step (s :: statements) result := by
  by_cases hdepth : s.depth ≤ 1
  · exact inStep_of_within (within_cons.2 hdepth) (block_cons hcomplete hbelow) h
  obtain ⟨d, hadd, hrun⟩ := run_cons_eq_ok.1 h
  have htwo : s.depth = 2 := by
    have hle : s.depth ≤ (Holder.stepBlock body step).depth := (depth_of_add hadd).2
    rw [Holder.depth_stepBlock] at hle
    omega
  rw [add_of_depth (htwo.trans (Holder.depth_stepBlock body step).symm), takeIn_stepBlock,
    map_eq_ok] at hadd
  obtain ⟨step', heffect, rfl⟩ := hadd
  obtain ⟨c, rfl⟩ := exists_clause htwo heffect
  have happly : c.apply step = some step' := by
    rw [← toOption_addToStep, heffect]
    rfl
  exact .cons happly (hbelow.step hrun)

/-- **The rest of an outline** is found by induction on the statements: each belongs into the open
block or closes it. -/
theorem outlined (site : Site) {statements : List Statement}
    (hcomplete : ∀ s ∈ statements, s.Complete) : Outlined site statements := by
  induction statements with
  | nil => exact outlined_nil site
  | cons s statements ih =>
    obtain ⟨hs, hstatements⟩ := List.forall_mem_cons.1 hcomplete
    have hbelow := ih hstatements
    exact ⟨hbelow.top_cons, hbelow.block_cons hs, hbelow.step_cons hs⟩

/-- **Building computes the meaning of the outline.**  A draft takes in the statements of some lines,
whatever their depths, and closes its blocks, exactly if they are the statements of an outline that
has a meaning; and what it then has built is this meaning. -/
theorem run_eq_ok_iff (site : Site) (statements : List Statement)
    (hlines : ∀ s ∈ statements, ∃ line, classify line = .ok s) (result : ScenarioSet) :
    (run site {} statements).outcome = .ok result ↔
      ∃ o : Outline, o.statements = statements ∧ o.meaning site {} = some result := by
  have hcomplete : ∀ s ∈ statements, s.Complete := fun s hs =>
    (hlines s hs).elim fun _ hline => complete_of_classify hline
  constructor
  · exact fun h => (outlined site hcomplete).top h
  · rintro ⟨o, rfl, ho⟩
    exact run_outline ho hcomplete

/-- The lines of a script with a setting, a binding, a group and a scenario that includes it; depths
go down by one and by two. -/
def reloadingLines : List ScriptLine :=
  [⟨0, "wait 1", 1, 1⟩, ⟨0, "set base '/home'", 2, 1⟩, ⟨0, "group g", 3, 1⟩, ⟨1, "reload", 4, 5⟩,
    ⟨2, "expect true", 5, 9⟩, ⟨0, "scenario home", 6, 1⟩, ⟨1, "include g", 7, 5⟩,
    ⟨1, "visit base", 8, 5⟩, ⟨2, "set seen 1", 9, 9⟩, ⟨1, "set user 'me'", 10, 5⟩]

/-- The statements on these lines. -/
def reloading : List Statement := reloadingLines.filterMap fun line => (classify line).toOption

/-- A text without a path, and no file to load. -/
def alone : Site where
  path := none
  load target origin :=
    Traced.refused ⟨[], origin, Path.root.resolve target, .unreadable .missing⟩
      (.unresolvedLoad target Cause.fileNotFound)

/-- The steps of the first scenario in a set: what is done, what is expected and what is bound. -/
def stepsOf (set : ScenarioSet) : List (StepKind × List String × List String) :=
  (set.scenarios.head?.elim [] (·.steps)).map fun step =>
    (step.kind, step.expects.map (·.text), step.setNames)

/-- The ten lines have an outline, and it means a set in which the group comes before the step. -/
theorem exists_outline_reloading :
    reloading.length = 10 ∧ ∃ (o : Outline) (set : ScenarioSet), o.statements = reloading ∧
      o.meaning alone {} = some set ∧ set.groups.keys = ["g"] ∧
      set.config.wait.map (·.text) = some "1" ∧
      set.scenarios.map (fun s => (s.key, s.bindings.keys)) = [("home", ["base", "user"])] ∧
      stepsOf set = [(.reload, ["true"], []), (.visit, [], ["seen"])] := by
  have hlines : ∀ s ∈ reloading, ∃ line, classify line = .ok s := fun s hs =>
    (List.mem_filterMap.1 hs).imp fun line hline => toOption_eq_some.1 hline.2
  have hrun : (run alone {} reloading).outcome.toOption.map (fun set => (set.groups.keys,
      set.config.wait.map (·.text), set.scenarios.map fun s => (s.key, s.bindings.keys))) =
        some (["g"], some "1", [("home", ["base", "user"])]) := by
    decide +kernel
  have hsteps : (run alone {} reloading).outcome.toOption.map stepsOf =
      some [(.reload, ["true"], []), (.visit, [], ["seen"])] := by
    decide +kernel
  obtain ⟨set, hset, hshows⟩ := Option.map_eq_some_iff.1 hrun
  rw [hset] at hsteps
  obtain ⟨hgroups, hwait, hscenarios⟩ := Prod.mk.injEq .. ▸ Prod.mk.injEq .. ▸ hshows
  obtain ⟨o, ho, hmeaning⟩ :=
    (run_eq_ok_iff alone reloading hlines set).1 (toOption_eq_some.1 hset)
  exact ⟨by decide +kernel, o, set, ho, hmeaning, hgroups, hwait, hscenarios,
    Option.some.inj hsteps⟩

end Outline

end ScenarioScript
