import ScenarioScript.Proofs.Trace.Trail

/-!
# Proofs/Trace/Pointing — diagnostics point into the texts they are about

A diagnostic names a path for its place, and one for each of its frames.  Scripts that show under one
path have one text (`ReadUnder.unique`), since different paths are written differently and no file
is read under the main script's path.  `parse_pointsInto`: the place and the frames of a fault lie in
the texts that were read under their paths.
-/

namespace ScenarioScript

open Outcome Relation

variable {env : Environment} {path shown : Option String} {text held held' : String}
  {main outer inner s : Script} {origin : Location} {loads : List Location} {line column : Int}

/-! ## The texts that were read -/

/-- **A text was read under a path**, as this shows in diagnostics: it is that of the main script, or
of a script that is reached from it. -/
def ReadUnder (env : Environment) (main : Script) (shown : Option String) (text : String) : Prop :=
  ∃ s, ReflTransGen (Enters env) main s ∧ s.path.map Path.render = shown ∧ s.text = text

/-- **There is only one**: the path that shows tells the path, and this tells the text. -/
theorem ReadUnder.unique (h : ReadUnder env (env.main path text) shown held)
    (h' : ReadUnder env (env.main path text) shown held') : held = held' := by
  obtain ⟨s, hreached, hshown, rfl⟩ := h
  obtain ⟨s', hreached', hshown', rfl⟩ := h'
  have hpath : s.path = s'.path :=
    Option.map_injective Path.render_injective (hshown.trans hshown'.symm)
  have hholds := (stacked_of_reached hreached).holds
  rw [hpath] at hholds
  exact hholds.unique (stacked_of_reached hreached').holds

/-- **Where no path shows**, or the main script's, it is the main text. -/
theorem ReadUnder.eq_main (h : ReadUnder env (env.main path text) shown held)
    (hshown : shown = none ∨ shown = (env.main path text).path.map Path.render) : held = text := by
  have hmain : ReadUnder env (env.main path text) ((env.main path text).path.map Path.render) text :=
    ⟨_, .refl, rfl, rfl⟩
  obtain rfl | rfl := hshown
  · obtain ⟨s, hreached, hnone, rfl⟩ := h
    rw [eq_of_reached_of_nameless hreached (Option.map_eq_none_iff.1 hnone)]
    rfl
  · exact h.unique hmain

/-- **A position points into the text under a path**: there is such a text, and the position is a
column of one of its lines that is neither blank nor a comment, or the one behind its end.  If no
path shows, or the main script's, this is the main text. -/
structure PointsInto (env : Environment) (path : Option String) (text : String)
    (shown : Option String) (line column : Int) : Prop where
  read : ∃ held, ReadUnder env (env.main path text) shown held
  place : ∀ held, ReadUnder env (env.main path text) shown held → PlaceOf held line column
  main : shown = none ∨ shown = (env.main path text).path.map Path.render →
    PlaceOf text line column

/-- **A place in a script that is reached** is one that its path points to. -/
theorem pointsInto_of_reached (h : ReflTransGen (Enters env) (env.main path text) s)
    (hplace : PlaceOf s.text line column) :
    PointsInto env path text (s.path.map Path.render) line column := by
  have hread : ReadUnder env (env.main path text) (s.path.map Path.render) s.text :=
    ⟨s, h, rfl, rfl⟩
  constructor
  · exact ⟨s.text, hread⟩
  · intro held hheld
    exact hheld.unique hread ▸ hplace
  · intro hmain
    exact hread.eq_main hmain ▸ hplace

/-! ## Faults and their frames -/

/-- **A statement to load** stands in the script that is read when it is come to. -/
theorem LeadsInto.place (h : LeadsInto env outer origin inner) :
    origin.path = outer.path.map Path.render ∧ PlaceOf outer.text origin.line origin.column := by
  obtain @⟨set, statement, written, held, hcomes, -, -, -, -⟩ := h
  exact ⟨rfl, hcomes.said.standsAt.start⟩

/-- **The statements to load** that scripts are read for stand in scripts that have been reached. -/
theorem Nested.exists_of_mem_loads (h : Nested env s loads inner) :
    ∀ f ∈ loads, ∃ outer, ReflTransGen (Enters env) s outer ∧
      f.path = outer.path.map Path.render ∧ PlaceOf outer.text f.line f.column := by
  induction h with
  | here s => exact List.forall_mem_nil _
  | @load outer next inner origin loads hleads hnested ih =>
    refine List.forall_mem_append.2 ⟨fun f hf => ?_, List.forall_mem_singleton.2 ?_⟩
    · obtain ⟨last, hreached, hpath, hplace⟩ := ih f hf
      exact ⟨last, hreached.head hleads.enters, hpath, hplace⟩
    · exact ⟨outer, .refl, hleads.place⟩

variable {d : Diagnostic} {holder : Script} {around : List Inclusion}

/-- **What a fault travelled through** stands in scripts that have been reached. -/
theorem Trail.exists_of_mem_frames (h : Trail env main d loads inner holder around) :
    ∀ f ∈ d.frames, ∃ outer, ReflTransGen (Enters env) main outer ∧
      f.path = outer.path.map Path.render ∧ PlaceOf outer.text f.line f.column := by
  intro f hf
  rw [h.frames_eq, List.mem_append, List.mem_map] at hf
  obtain ⟨i, hi, rfl⟩ | hload := hf
  · by_cases hexpansion : d.cause.isExpansion = true
    · obtain ⟨groups, own, failing, hfails, -⟩ := h.inclusion hexpansion
      obtain ⟨outer, hreached, hwritten⟩ := hfails.written i (List.mem_cons_of_mem failing hi)
      exact ⟨outer, h.nested.reached.trans hreached, hwritten.path_eq, hwritten.place⟩
    · obtain ⟨-, rfl⟩ := h.plain (Bool.not_eq_true _ ▸ hexpansion)
      exact absurd hi List.not_mem_nil
  · exact h.nested.exists_of_mem_loads f hload

/-- **Every diagnostic points into the text it is about**: its line and column are known and lie in
the text that was read under its path, and so it is with every frame. -/
theorem parse_pointsInto (env : Environment) (path : Option String) (text : String) (d : Diagnostic)
    (h : (parse env path text).outcome = .error (.fault d)) :
    (∃ line column, d.line = some line ∧ d.column = some column ∧
      PointsInto env path text d.path line column) ∧
      ∀ f ∈ d.frames, PointsInto env path text f.path f.line f.column := by
  obtain ⟨-, hread⟩ := parse_eq_fault.1 h
  obtain ⟨loads, inner, holder, around, htrail⟩ := readScript_fault_iff_trail.1 hread
  constructor
  · obtain ⟨line, column, hline, hcolumn, hplace⟩ := htrail.placed
    refine ⟨line, column, hline, hcolumn, ?_⟩
    rw [htrail.path_eq]
    exact pointsInto_of_reached (htrail.nested.reached.trans htrail.reached) hplace
  · intro f hf
    obtain ⟨outer, hreached, hpath, hplace⟩ := htrail.exists_of_mem_frames f hf
    rw [hpath]
    exact pointsInto_of_reached hreached hplace

/-- A fault in one file, with frames in another and in a text without a path. -/
theorem parse_pointsInto_relying :
    (parse relying none "load \"tests\"\n").outcome = .error (.fault wanting) ∧
      (∃ line column, wanting.line = some line ∧ wanting.column = some column ∧
        PointsInto relying none "load \"tests\"\n" wanting.path line column) ∧
        ∀ f ∈ wanting.frames, PointsInto relying none "load \"tests\"\n" f.path f.line f.column := by
  have h : (parse relying none "load \"tests\"\n").outcome = .error (.fault wanting) := by
    decide +kernel
  exact ⟨h, parse_pointsInto relying none _ wanting h⟩

end ScenarioScript
