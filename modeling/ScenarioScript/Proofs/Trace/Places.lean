import ScenarioScript.Proofs.Faults.Script
import ScenarioScript.Proofs.Groups.Standing
import ScenarioScript.Proofs.Groups.Unrolling
import ScenarioScript.Proofs.Trace.Raising

/-!
# Proofs/Trace/Places — the places of faults and of inclusions

A fault that a script raises lies in its text, unless the script includes a group in a scenario and
what this brings in cannot be followed (`Raises.cases`).  Then the fault is in some inclusion, and
that is written in the script itself or in one that it has loaded, as are the inclusions around it
(`exists_writtenIn_of_unrolls`).
-/

namespace ScenarioScript

open Outcome Outline Relation

variable {env : Environment} {s : Script} {i own failing : Inclusion} {around : List Inclusion}
  {cause : Cause} {groups : OrderedMap String Group}

/-! ## Where inclusions are written -/

/-- **An inclusion is written in a script**: a statement of the text says it, there where it is said
to stand, and the path that it carries is the script's. -/
structure Inclusion.WrittenIn (env : Environment) (s : Script) (i : Inclusion) : Prop where
  path_eq : i.path = s.path.map Path.render
  said : ∃ statement, Says env.unit s.text statement ∧ statement.command = .inclusion i.name ∧
    statement.position = ⟨i.line, i.column⟩

/-- **It has a place** in the text, then. -/
theorem Inclusion.WrittenIn.place (h : i.WrittenIn env s) : PlaceOf s.text i.line i.column := by
  obtain ⟨statement, hsaid, -, hposition⟩ := h.said
  obtain ⟨hline, hcolumn⟩ := Position.mk.inj hposition
  exact hline ▸ hcolumn ▸ hsaid.standsAt.start

/-- An inclusion that is written in an outline is one of its statements. -/
theorem Outline.Writes.exists_statement {path : Option String} {o : Outline}
    (h : o.Writes path (.inclusion i)) :
    i.path = path ∧ ∃ statement ∈ o.statements, statement.command = .inclusion i.name ∧
      statement.position = ⟨i.line, i.column⟩ := by
  obtain ⟨mark, label, members, hblock, m, hm, hitem⟩ := h
  cases m with
  | step block =>
    obtain ⟨step, -, hstep⟩ := Option.map_eq_some_iff.1 hitem
    exact absurd hstep nofun
  | inclusion at' group =>
    obtain rfl := GroupItem.inclusion.inj (Option.some.inj hitem)
    have hstatement : at'.statement (.inclusion group) 1 ∈
        Entry.statements (.block .group mark label members) :=
      List.mem_cons_of_mem _ (List.mem_flatMap.2 ⟨_, hm, List.mem_singleton_self _⟩)
    exact ⟨rfl, _, List.mem_flatMap.2 ⟨_, hblock, hstatement⟩, rfl, rfl⟩

theorem writtenIn_of_says {o : Outline} (hsaid : ∀ t ∈ o.statements, Says env.unit s.text t)
    (h : o.Writes (s.path.map Path.render) (.inclusion i)) : i.WrittenIn env s := by
  obtain ⟨hpath, statement, hmem, hcommand, hposition⟩ := h.exists_statement
  exact ⟨hpath, statement, hsaid statement hmem, hcommand, hposition⟩

theorem Script.Writes.writtenIn (h : s.Writes env (.inclusion i)) : i.WrittenIn env s := by
  obtain ⟨o, ⟨hstatements, -⟩, hwrites⟩ := h
  exact writtenIn_of_says (fun _ => Draft.says_of_mem_statementsOf hstatements) hwrites

/-! ## Where a script includes a group -/

/-- The inclusion of a group by a statement of a script. -/
def Script.inclusion (s : Script) (statement : Statement) (group : String) : Inclusion :=
  ⟨group, statement.line, statement.column, s.path.map Path.render⟩

/-- **A script has come to an inclusion** in a scenario, and the groups are those that there are. -/
def Script.ComesToInclude (env : Environment) (s : Script) (groups : OrderedMap String Group)
    (own : Inclusion) : Prop :=
  ∃ set scenario statement group, s.ComesTo env ⟨set, .scenario scenario⟩ statement ∧
    set.groups = groups ∧ statement.command = .inclusion group ∧ own = s.inclusion statement group

namespace Script.ComesToInclude

theorem writtenIn (h : s.ComesToInclude env groups own) : own.WrittenIn env s := by
  obtain ⟨set, scenario, statement, group, hcomes, -, hcommand, rfl⟩ := h
  exact ⟨rfl, statement, hcomes.said, hcommand, rfl⟩

/-- **The groups that there are then** were written in the script or in those that it has loaded: a
scenario adds nothing to the groups above it. -/
theorem exists_writtenIn (h : s.ComesToInclude env groups own) {name : String} {group : Group}
    (hgroup : groups.get? name = some group) (hmem : .inclusion i ∈ group.items) :
    ∃ holder, ReflTransGen (Enters env) s holder ∧ i.WrittenIn env holder := by
  obtain ⟨set, scenario, statement, _, hcomes, rfl, -, -⟩ := h
  obtain ⟨above, line, below, hcomes, -, hclose, hdepth⟩ := hcomes
  have hdepth : statement.depth = 1 := hdepth
  have hfinished : set = above.finished := by
    simp only [Draft.closeTo, hdepth] at hclose
    exact Draft.finished_closeStep hclose
  obtain ⟨o, hsaid, hmeaning⟩ := hcomes.exists_outline
  rw [hfinished] at hgroup
  have hitems := (items_part hsaid hmeaning).of_get? hgroup
  obtain hwrites | ⟨holder, hreached, hwrites⟩ := hitems _ hmem
  · exact ⟨s, .refl, writtenIn_of_says hsaid hwrites⟩
  · exact ⟨holder, hreached, hwrites.writtenIn⟩

end Script.ComesToInclude

/-- **What is met on the way** is the inclusion where it began, or stands in a group. -/
theorem Unrolls.mem_items {expanding : List String}
    (h : Unrolls groups expanding own failing around cause) :
    ∀ i ∈ failing :: around, i = own ∨ ∃ name group, groups.get? name = some group ∧
      .inclusion i ∈ group.items := by
  induction h with
  | unknown | cycle => exact List.forall_mem_singleton.2 (.inl rfl)
  | @within expanding own inner failing around cause group before after _ hget hitems _ _ ih =>
    rw [← List.cons_append]
    refine List.forall_mem_append.2 ⟨fun i hi => ?_, List.forall_mem_singleton.2 (.inl rfl)⟩
    obtain rfl | hgroup := ih i hi
    · exact .inr ⟨own.name, group, hget, hitems ▸ List.mem_append_right before List.mem_cons_self⟩
    · exact .inr hgroup

/-- **The inclusions that a failure has travelled through**, and the one that it is in, are written
in the script that is being read or in those that it has loaded. -/
theorem exists_writtenIn_of_unrolls (hcomes : s.ComesToInclude env groups own)
    (h : Unrolls groups [] own failing around cause) :
    ∀ i ∈ failing :: around, ∃ holder, ReflTransGen (Enters env) s holder ∧
      i.WrittenIn env holder := by
  intro i hi
  obtain rfl | ⟨name, group, hgroup, hmem⟩ := h.mem_items i hi
  · exact ⟨s, .refl, hcomes.writtenIn⟩
  · exact hcomes.exists_writtenIn hgroup hmem

/-! ## What a script raises -/

/-- A fault that lies in a text alone is not one of bringing in a group. -/
theorem Cause.isExpansion_of_isLocal {cause : Cause} (h : cause.isLocal = true) :
    cause.isExpansion = false := by
  cases cause <;> first | rfl | exact absurd h nofun

/-- **A fault of a script by itself**: it lies in the text, and brings no trace along. -/
def Script.HasFault (s : Script) (raw : Diagnostic) : Prop :=
  ∃ cause line column, raw = .atPosition cause line column ∧ cause.isExpansion = false ∧
    PlaceOf s.text line column

theorem hasFault_of_at {raw : Diagnostic} (h : Failure.At (PlaceOf s.text) (.fault raw)) :
    s.HasFault raw := by
  cases h with
  | fault hlocal hposition => exact ⟨_, _, _, rfl, Cause.isExpansion_of_isLocal hlocal, hposition⟩

/-- A load that reads no file has a fault at the statement that asks for it. -/
theorem hasFault_of_load {raw : Diagnostic} {statement : Statement} {written : String}
    (hsaid : Says env.unit s.text statement)
    (hquiet : ∀ a ∈ ((env.site s.loading s.path).load written
      (.loadedFrom (s.path.map Path.render) statement.position)).attempts, a.outcome ≠ .read)
    (hfails : ((env.site s.loading s.path).load written
      (.loadedFrom (s.path.map Path.render) statement.position)).outcome = .error (.fault raw)) :
    s.HasFault raw := by
  by_cases hreaches : env.reaches written s.path = true
  · rw [load_site hreaches] at hquiet hfails
    by_cases hmem : env.resolve written s.path ∈ s.stack
    · rw [loadScript_of_mem hmem] at hfails
      obtain rfl := Failure.fault.inj (Except.error.inj hfails)
      exact ⟨_, _, _, rfl, rfl, hsaid.standsAt.start⟩
    · cases hread : env.read (env.resolve written s.path) with
      | error why =>
        rw [loadScript_of_unreadable hmem hread] at hfails
        obtain rfl := Failure.fault.inj (Except.error.inj hfails)
        exact ⟨_, _, _, rfl, rfl, hsaid.standsAt.start⟩
      | ok held =>
        rw [loadScript_of_read hmem hread, Traced.bind_eq, Traced.andThen_of_ok rfl] at hquiet
        exact absurd rfl (hquiet _ List.mem_cons_self)
  · rw [load_site_of_not_reaches hreaches] at hfails
    exact absurd (Except.error.inj hfails) nofun

/-- **What a script raises** lies in its text, or comes of what it includes in a scenario. -/
theorem Script.Raises.cases {raw : Diagnostic} (h : s.Raises env raw) :
    s.HasFault raw ∨ ∃ groups own failing around cause, s.ComesToInclude env groups own ∧
      Unrolls groups [] own failing around cause ∧ raw = failing.traced cause around := by
  cases h with
  | layout hfails => exact .inl (hasFault_of_at (Layout.at_scan env.unit_pos s.text _ hfails))
  | @line d line below hcomes hfails =>
    obtain ⟨above, hlines, -⟩ := hcomes
    have hmem : line ∈ above ++ line :: below := List.mem_append_right above List.mem_cons_self
    have hat := at_classify (Layout.clean_of_mem_scan hlines line hmem) _ hfails
    exact .inl (hasFault_of_at (hat.mono (Layout.placeIn_of_mem_scan hlines line hmem)))
  | @statement d line below statement hcomes hline hquiet hfails =>
    have hsaid : Says env.unit s.text statement := hcomes.said hline
    have hstep := hcomes.stepHolds.stepExpressions
    cases Draft.fails_add hstep hsaid.complete hsaid.standsAt _ hfails with
    | statement h =>
      cases h with
      | here h => exact .inl (hasFault_of_at h)
    | load hclose hdepth hcommand hload =>
      rw [Draft.add_load hclose hdepth hcommand, Traced.attempts_bind_pure] at hquiet
      exact .inl (hasFault_of_load hsaid hquiet hload)
    | inclusion hclose hdepth hinclusion =>
      cases hinclusion with
      | @expansion group _ hcommand hexpand =>
        obtain ⟨failing, around, cause, hunrolls, hraw⟩ :=
          unrolls_of_error (s.inclusion statement group) [] hexpand
        refine .inr ⟨_, _, failing, around, cause, ?_, hunrolls, hraw⟩
        exact ⟨_, _, statement, group, ⟨d, line, below, hcomes, hline, hclose, hdepth⟩, rfl,
          hcommand, rfl⟩
  | @ending d hcomes hfails =>
    have hat := Draft.at_closeAll hcomes.stepHolds.stepExpressions
    exact .inl (hasFault_of_at (hat _ (mapError_eq_error.2 ⟨_, hfails, rfl⟩)))

end ScenarioScript
