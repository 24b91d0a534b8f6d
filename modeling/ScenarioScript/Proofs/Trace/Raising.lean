import ScenarioScript.Proofs.Blocks.Progress
import ScenarioScript.Proofs.Loading.Attempts

/-!
# Proofs/Trace/Raising — where a fault is raised, and how it gets out

While a script is read it comes to statements that load others, so scripts are read one inside the
other (`Nested`).  A fault is raised in the innermost of them (`Script.Raises`); on its way out it
takes the path of this script, if it has no path yet, and then the place of each statement to load
that it passes (`Diagnostic.carried`).  `outcome_readScript_eq_fault`: this is how reading a script
ends in a fault.
-/

namespace ScenarioScript

open Outcome Relation

variable {env : Environment} {outer inner next s : Script} {origin : Location}
  {loads : List Location} {d raw : Diagnostic}

/-! ## Scripts that are read one inside the other -/

/-- **A script has come to a statement**: what is above it has been taken in, the blocks that it is
not in have been closed, and the statement stands directly in the one that is left. -/
def Script.ComesTo (env : Environment) (s : Script) (d : Draft) (statement : Statement) : Prop :=
  ∃ above line below,
    Draft.ComesTo (env.site s.loading s.path) env.unit s.text above (line :: below) ∧
      classify line = .ok statement ∧ above.closeTo statement.depth = .ok d ∧
        statement.depth = d.block.depth

theorem Script.ComesTo.said {draft : Draft} {statement : Statement}
    (h : s.ComesTo env draft statement) : Says env.unit s.text statement := by
  obtain ⟨above, line, below, hcomes, hline, -, -⟩ := h
  exact hcomes.said hline

/-- **One script is read inside another**: the outer one has come to a statement to load, which
stands at the origin; the file that it loads is not in the middle of being read, and can be read. -/
inductive LeadsInto (env : Environment) (outer : Script) : Location → Script → Prop where
  | load {set : ScenarioSet} {statement : Statement} {written held : String}
      (hcomes : outer.ComesTo env ⟨set, .root⟩ statement)
      (hcommand : statement.command = .load written)
      (hreaches : env.reaches written outer.path = true)
      (hnew : env.resolve written outer.path ∉ outer.stack)
      (hread : env.read (env.resolve written outer.path) = .ok held) :
      LeadsInto env outer (.loadedFrom (outer.path.map Path.render) statement.position)
        ⟨outer.stack, some (env.resolve written outer.path), held⟩

/-- **Scripts are read one inside the other**, from the first to the second, for the statements to
load at the given places, innermost first. -/
inductive Nested (env : Environment) : Script → List Location → Script → Prop where
  | here (s : Script) : Nested env s [] s
  | load {outer next inner : Script} {origin : Location} {loads : List Location}
      (hleads : LeadsInto env outer origin next) (hnested : Nested env next loads inner) :
      Nested env outer (loads ++ [origin]) inner

/-! ## Faults that are raised in a script -/

/-- **A fault is raised in a script**, and in none that is read inside it. -/
inductive Script.Raises (env : Environment) (s : Script) : Diagnostic → Prop where
  /-- The text is badly laid out. -/
  | layout {raw : Diagnostic} (hfails : Layout.scan env.unit s.text = .error (.fault raw)) :
      Raises env s raw
  /-- A line is not understood. -/
  | line {raw : Diagnostic} {d : Draft} {line : ScriptLine} {below : List ScriptLine}
      (hcomes : Draft.ComesTo (env.site s.loading s.path) env.unit s.text d (line :: below))
      (hfails : classify line = .error (.fault raw)) : Raises env s raw
  /-- A statement is not taken in, and no file is read for it. -/
  | statement {raw : Diagnostic} {d : Draft} {line : ScriptLine} {below : List ScriptLine}
      {statement : Statement}
      (hcomes : Draft.ComesTo (env.site s.loading s.path) env.unit s.text d (line :: below))
      (hline : classify line = .ok statement)
      (hquiet : ∀ a ∈ (d.add (env.site s.loading s.path) statement).attempts, a.outcome ≠ .read)
      (hfails : (d.add (env.site s.loading s.path) statement).outcome = .error (.fault raw)) :
      Raises env s raw
  /-- The text ends, and the step that is open then cannot be closed. -/
  | ending {raw : Diagnostic} {d : Draft}
      (hcomes : Draft.ComesTo (env.site s.loading s.path) env.unit s.text d [])
      (hfails : d.closeAll = .error raw) : Raises env s raw

/-- **A diagnostic that has come out** of the script with the given path, and through the given
statements to load. -/
def Diagnostic.carried (raw : Diagnostic) (path : Option String) (loads : List Location) :
    Diagnostic :=
  { raw.locate path with frames := raw.frames ++ loads }

namespace Diagnostic

section Carried

variable (raw : Diagnostic) (path : Option String) (loads : List Location)

@[simp] theorem cause_carried : (raw.carried path loads).cause = raw.cause := raw.cause_locate path

@[simp] theorem frames_carried : (raw.carried path loads).frames = raw.frames ++ loads := rfl

@[simp] theorem path_carried : (raw.carried path loads).path = raw.path.or path :=
  raw.path_locate path

@[simp] theorem line_carried : (raw.carried path loads).line = raw.line := by
  unfold carried locate
  split <;> rfl

@[simp] theorem column_carried : (raw.carried path loads).column = raw.column := by
  unfold carried locate
  split <;> rfl

end Carried

theorem carried_nil (raw : Diagnostic) (path : Option String) :
    raw.carried path [] = raw.locate path := by
  rw [carried, List.append_nil, ← frames_locate raw path]

/-- **One statement more** on the way out, of a script in which the path is known already. -/
theorem locate_addFrame_carried (raw : Diagnostic) (path : String) (loads : List Location)
    (origin : Location) (outer : Option String) :
    ((raw.carried (some path) loads).addFrame origin).locate outer =
      raw.carried (some path) (loads ++ [origin]) := by
  have hpath : ((raw.carried (some path) loads).addFrame origin).path ≠ none := by
    rw [path_addFrame, path_carried]
    cases raw.path <;> exact nofun
  rw [locate, if_neg fun hnone => hpath (Option.isNone_iff_eq_none.1 hnone)]
  simp [carried, addFrame, List.append_assoc]

end Diagnostic

/-! ## The way out -/

theorem LeadsInto.enters (h : LeadsInto env outer origin inner) : Enters env outer inner := by
  obtain @⟨set, statement, written, held, hcomes, hcommand, hreaches, hnew, hread⟩ := h
  exact .enter (hcomes.said.asks hcommand hreaches) hnew hread

theorem Nested.reached (h : Nested env s loads inner) : ReflTransGen (Enters env) s inner := by
  induction h with
  | here s => exact .refl
  | load hleads _ ih => exact ih.head hleads.enters

theorem LeadsInto.path_isSome (h : LeadsInto env outer origin inner) : inner.path.isSome = true := by
  cases h
  rfl

theorem Nested.path_isSome (h : Nested env s loads inner) (hpath : s.path.isSome = true) :
    inner.path.isSome = true := by
  induction h with
  | here s => exact hpath
  | load hleads _ ih => exact ih hleads.path_isSome

/-- **A script that is read inside another** has a path, so nothing further out changes the path of
what comes out of it. -/
theorem LeadsInto.locate_carried (h : LeadsInto env s origin next)
    (hnested : Nested env next loads inner) (raw : Diagnostic) (outer : Option String) :
    ((raw.carried (inner.path.map Path.render) loads).addFrame origin).locate outer =
      raw.carried (inner.path.map Path.render) (loads ++ [origin]) := by
  obtain ⟨file, hfile⟩ := Option.isSome_iff_exists.1 (hnested.path_isSome h.path_isSome)
  rw [hfile]
  exact raw.locate_addFrame_carried file.render loads origin outer

section Statement

variable {above : Draft} {line : ScriptLine} {below : List ScriptLine} {statement : Statement}
  {set : ScenarioSet} {written held : String} {failure : Failure}

theorem load_site (hreaches : env.reaches written s.path = true) :
    (env.site s.loading s.path).load written origin =
      loadScript env s.stack s.path written origin :=
  load_site_of_reaches hreaches

/-- **A statement to load fails** as the script that it reads, and notes where it stands. -/
theorem outcome_add_load (hclose : above.closeTo statement.depth = .ok ⟨set, .root⟩)
    (hdepth : statement.depth = 0) (hcommand : statement.command = .load written)
    (hreaches : env.reaches written s.path = true) (hnew : env.resolve written s.path ∉ s.stack)
    (hread : env.read (env.resolve written s.path) = .ok held) :
    (above.add (env.site s.loading s.path) statement).outcome = .error failure ↔
      ∃ e, (readScript env s.stack (some (env.resolve written s.path)) held).outcome = .error e ∧
        e.mapFault (·.addFrame (.loadedFrom (s.path.map Path.render) statement.position)) =
          failure := by
  rw [Draft.add_load hclose hdepth hcommand, Traced.outcome_bind_pure, map_eq_error,
    load_site hreaches, loadScript_of_read hnew hread, Traced.outcome_bind]
  exact mapError_eq_error

/-- **At a statement** no file is read, or a script is that the text leads into. -/
theorem exists_leadsInto
    (hcomes : Draft.ComesTo (env.site s.loading s.path) env.unit s.text above (line :: below))
    (hline : classify line = .ok statement) :
    (∀ a ∈ (above.add (env.site s.loading s.path) statement).attempts, a.outcome ≠ .read) ∨
      ∃ origin inner, LeadsInto env s origin inner ∧ ∀ failure,
        (above.add (env.site s.loading s.path) statement).outcome = .error failure ↔
          ∃ e, (readScript env inner.loading inner.path inner.text).outcome = .error e ∧
            e.mapFault (·.addFrame origin) = failure := by
  obtain hnone | ⟨set, written, hclose, hdepth, hcommand⟩ :=
    Draft.attempts_add (env.site s.loading s.path) above statement
  · rw [hnone]
    exact .inl (List.forall_mem_nil _)
  by_cases hreaches : env.reaches written s.path = true
  · by_cases hmem : env.resolve written s.path ∈ s.stack
    · rw [Draft.add_load hclose hdepth hcommand, Traced.attempts_bind_pure, load_site hreaches,
        loadScript_of_mem hmem]
      exact .inl (List.forall_mem_singleton.2 nofun)
    · cases hread : env.read (env.resolve written s.path) with
      | error why =>
        rw [Draft.add_load hclose hdepth hcommand, Traced.attempts_bind_pure, load_site hreaches,
          loadScript_of_unreadable hmem hread]
        exact .inl (List.forall_mem_singleton.2 nofun)
      | ok held =>
        exact .inr ⟨_, _,
          .load ⟨above, line, below, hcomes, hline, hclose, hdepth⟩ hcommand hreaches hmem hread,
          fun failure => outcome_add_load hclose hdepth hcommand hreaches hmem hread⟩
  · rw [Draft.add_load hclose hdepth hcommand, Traced.attempts_bind_pure,
      load_site_of_not_reaches hreaches]
    exact .inl (List.forall_mem_nil _)

end Statement

/-- **Reading a script ends in a fault** exactly if building the text does; the fault then takes the
script's path, if it has none. -/
theorem readScript_eq_fault :
    (readScript env s.loading s.path s.text).outcome = .error (.fault d) ↔
      ∃ e : Diagnostic, (Draft.build (env.site s.loading s.path) env.unit {} s.text).outcome =
        .error (.fault e) ∧ e.locate (s.path.map Path.render) = d := by
  rw [readScript_eq, Traced.outcome_mapFault, mapError_eq_error]
  constructor
  · rintro ⟨failure, hfailure, hd⟩
    cases failure with
    | fault e => exact ⟨e, hfailure, Failure.fault.inj hd⟩
    | _ => exact absurd hd nofun
  · rintro ⟨e, he, rfl⟩
    exact ⟨.fault e, he, rfl⟩

/-- **A fault that building ends in** is raised in the script, or comes out of one that it leads
into. -/
theorem build_eq_fault :
    (Draft.build (env.site s.loading s.path) env.unit {} s.text).outcome = .error (.fault d) ↔
      s.Raises env d ∨ ∃ origin inner e, LeadsInto env s origin inner ∧
        (readScript env inner.loading inner.path inner.text).outcome = .error (.fault e) ∧
          e.addFrame origin = d := by
  rw [Draft.outcome_build_eq_error]
  constructor
  · rintro (hlayout | ⟨above, line, below, hcomes, hfails⟩ | ⟨above, hcomes, hfails⟩)
    · exact .inl (.layout hlayout)
    · obtain hline | ⟨statement, hline, hadd⟩ := Traced.outcome_bind_eq_error.1 hfails
      · exact .inl (.line hcomes hline)
      · obtain hquiet | ⟨origin, inner, hleads, houtcome⟩ := exists_leadsInto hcomes hline
        · exact .inl (.statement hcomes hline hquiet hadd)
        · obtain ⟨failure, hfailure, hd⟩ := (houtcome _).1 hadd
          cases failure with
          | fault e => exact .inr ⟨origin, inner, e, hleads, hfailure, Failure.fault.inj hd⟩
          | _ => exact absurd hd nofun
    · obtain ⟨e, he, hd⟩ := mapError_eq_error.1 hfails
      exact .inl (.ending hcomes (Failure.fault.inj hd ▸ he))
  · rintro (hraises | ⟨origin, inner, e, hleads, he, rfl⟩)
    · cases hraises with
      | layout hfails => exact .inl hfails
      | line hcomes hfails =>
        exact .inr (.inl ⟨_, _, _, hcomes, Traced.outcome_bind_eq_error.2 (.inl hfails)⟩)
      | statement hcomes hline hquiet hfails =>
        exact .inr (.inl ⟨_, _, _, hcomes,
          Traced.outcome_bind_eq_error.2 (.inr ⟨_, hline, hfails⟩)⟩)
      | ending hcomes hfails =>
        exact .inr (.inr ⟨_, hcomes, mapError_eq_error.2 ⟨_, hfails, rfl⟩⟩)
    · obtain @⟨set, statement, written, held, hcomes, hcommand, hreaches, hnew, hread⟩ := hleads
      obtain ⟨above, line, below, hcomes, hline, hclose, hdepth⟩ := hcomes
      refine .inr (.inl ⟨above, line, below, hcomes, Traced.outcome_bind_eq_error.2
        (.inr ⟨statement, hline, ?_⟩)⟩)
      exact (outcome_add_load hclose hdepth hcommand hreaches hnew hread).2 ⟨_, he, rfl⟩

/-- **How reading a script ends in a fault**: the fault is raised in a script that is read inside it,
for statements to load one inside the other, and has come out through these.  The induction is on
entering, which ends. -/
theorem outcome_readScript_eq_fault :
    (readScript env s.loading s.path s.text).outcome = .error (.fault d) ↔
      ∃ loads inner raw, Nested env s loads inner ∧ inner.Raises env raw ∧
        d = raw.carried (inner.path.map Path.render) loads := by
  induction s using (wellFounded_enters env).induction generalizing d with
  | _ s ih =>
    rw [readScript_eq_fault]
    constructor
    · rintro ⟨e, he, rfl⟩
      obtain hraises | ⟨origin, next, e', hleads, he', rfl⟩ := build_eq_fault.1 he
      · exact ⟨[], s, e, .here s, hraises, (Diagnostic.carried_nil _ _).symm⟩
      · obtain ⟨loads, inner, raw, hnested, hraises, rfl⟩ := (ih next hleads.enters).1 he'
        exact ⟨loads ++ [origin], inner, raw, .load hleads hnested, hraises,
          hleads.locate_carried hnested raw _⟩
    · rintro ⟨loads, inner, raw, hnested, hraises, rfl⟩
      cases hnested with
      | here => exact ⟨raw, build_eq_fault.2 (.inl hraises), (Diagnostic.carried_nil _ _).symm⟩
      | @load _ next _ origin loads hleads hnested =>
        have he := (ih next hleads.enters).2 ⟨loads, inner, raw, hnested, hraises, rfl⟩
        exact ⟨_, build_eq_fault.2 (.inr ⟨origin, next, _, hleads, he, rfl⟩),
          hleads.locate_carried hnested raw _⟩

end ScenarioScript
