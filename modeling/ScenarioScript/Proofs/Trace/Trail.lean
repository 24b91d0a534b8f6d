import ScenarioScript.Proofs.Trace.Places

/-!
# Proofs/Trace/Trail — the trace of a fault is the way that it came

When a fault is raised, scripts are being read one inside the other, and in the innermost one an
inclusion may be being followed, from one group to the next.  The **trail** of the fault says which:
`parse_fault_iff_trail`, reading a script ends in a fault exactly if there is a trail of it, and the
path and the frames of the fault are those of the trail.
-/

namespace ScenarioScript

open Outcome Relation

variable {env : Environment} {main s inner : Script} {own failing : Inclusion}
  {around : List Inclusion} {cause : Cause} {groups : OrderedMap String Group}
  {loads : List Location} {d raw : Diagnostic}

/-! ## Inclusions that cannot be followed -/

/-- **A script fails to include a group**: it has come to the inclusion `own` in a scenario, and what
this brings in comes to one that cannot be followed, `failing`, through those `around` it. -/
structure Script.FailsToInclude (env : Environment) (s : Script) (groups : OrderedMap String Group)
    (own failing : Inclusion) (around : List Inclusion) (cause : Cause) : Prop where
  comes : s.ComesToInclude env groups own
  unrolls : Unrolls groups [] own failing around cause
  /-- Outermost is the inclusion in the scenario, … -/
  outermost : (failing :: around).getLast? = some own
  /-- … and any other stands in the group that the next one includes. -/
  enclosed : (failing :: around).IsChain fun inner outer =>
    ∃ group, groups.get? outer.name = some group ∧ .inclusion inner ∈ group.items
  /-- Each is written in the script or in one that it has loaded. -/
  written : ∀ i ∈ failing :: around, ∃ holder, ReflTransGen (Enters env) s holder ∧
    i.WrittenIn env holder
  /-- Where there is no group of the name in the scenario, nothing is around it. -/
  unknown : groups.get? own.name = none → failing = own ∧ around = []
  /-- A cycle is told by the names of the groups, from the scenario inwards. -/
  cycle : ∀ chain, cause = .includeCycle chain →
    chain = ((failing :: around).map Inclusion.name).reverse

theorem Script.ComesToInclude.failsToInclude (hcomes : s.ComesToInclude env groups own)
    (h : Unrolls groups [] own failing around cause) :
    s.FailsToInclude env groups own failing around cause where
  comes := hcomes
  unrolls := h
  outermost := h.linked.1
  enclosed := h.linked.2
  written := exists_writtenIn_of_unrolls hcomes h
  unknown hnone := by
    cases h with
    | unknown | cycle => exact ⟨rfl, rfl⟩
    | within _ hget => exact absurd (hnone.symm.trans hget) nofun
  cycle chain hchain := by
    obtain ⟨-, rfl⟩ | ⟨-, hcause⟩ := h.cause_eq
    · exact absurd hchain nofun
    · exact Cause.includeCycle.inj (hchain.symm.trans hcause)

/-! ## Trails -/

/-- **The trail of a fault** that comes out of the script `main`: which scripts are being read when
it is raised, which one its place is in, and which inclusions are being followed around it. -/
structure Trail (env : Environment) (main : Script) (d : Diagnostic) (loads : List Location)
    (inner holder : Script) (around : List Inclusion) : Prop where
  /-- The scripts are read one inside the other, for statements to load that stand there. -/
  nested : Nested env main loads inner
  /-- The fault is raised in the innermost one, and comes out through all of them. -/
  raised : ∃ raw, inner.Raises env raw ∧ d = raw.carried (inner.path.map Path.render) loads
  /-- The frames are the inclusions, and behind them the statements to load, innermost first. -/
  frames_eq : d.frames = around.map Inclusion.origin ++ loads
  /-- The place is in a script that is being read or has been read by then, … -/
  reached : ReflTransGen (Enters env) inner holder
  /-- … whose path the fault shows. -/
  path_eq : d.path = holder.path.map Path.render
  placed : ∃ line column, d.line = some line ∧ d.column = some column ∧
    PlaceOf holder.text line column
  /-- It is the innermost script, and no inclusion is being followed, unless the fault is one of
  bringing in a group. -/
  plain : d.cause.isExpansion = false → holder = inner ∧ around = []
  /-- If it is, the place is that of the inclusion which cannot be followed. -/
  inclusion : d.cause.isExpansion = true → ∃ groups own failing,
    inner.FailsToInclude env groups own failing around d.cause ∧ failing.WrittenIn env holder ∧
      d.line = some failing.line ∧ d.column = some failing.column
  /-- A cycle of groups has one name more than there are inclusions around its end. -/
  cycle : ∀ chain, d.cause = .includeCycle chain → chain.length = around.length + 1
  /-- No path is shown only for a main script that has none. -/
  nameless : d.path = none → main.path = none ∧ inner = main ∧ holder = main

/-- **A script without a path** is not read inside another. -/
theorem eq_of_reached_of_nameless (h : ReflTransGen (Enters env) s inner)
    (hpath : inner.path = none) : inner = s := by
  obtain rfl | ⟨outer, -, henters⟩ := ReflTransGen.cases_tail h
  · rfl
  · cases henters
    exact absurd hpath nofun

/-- So a path is missing only if the main script has none. -/
theorem nameless_of_reached {holder : Script} (hinner : ReflTransGen (Enters env) main inner)
    (hholder : ReflTransGen (Enters env) inner holder)
    (hnone : holder.path.map Path.render = none) :
    main.path = none ∧ inner = main ∧ holder = main := by
  have hpath : holder.path = none := Option.map_eq_none_iff.1 hnone
  obtain rfl := eq_of_reached_of_nameless hholder hpath
  obtain rfl := eq_of_reached_of_nameless hinner hpath
  exact ⟨hpath, rfl, rfl⟩

/-- The trail of a fault that lies in the innermost script. -/
theorem Script.HasFault.trail (h : inner.HasFault raw) (hraises : inner.Raises env raw)
    (hnested : Nested env main loads inner) :
    Trail env main (raw.carried (inner.path.map Path.render) loads) loads inner inner [] := by
  obtain ⟨cause, line, column, rfl, hcause, hplace⟩ := h
  exact {
    nested := hnested
    raised := ⟨_, hraises, rfl⟩
    frames_eq := rfl
    reached := .refl
    path_eq := rfl
    placed := ⟨line, column, rfl, rfl, hplace⟩
    plain := fun _ => ⟨rfl, rfl⟩
    inclusion := fun hexpansion => absurd (hcause.symm.trans hexpansion) Bool.false_ne_true
    cycle := fun chain hchain => by
      obtain rfl : cause = .includeCycle chain := hchain
      exact absurd hcause.symm Bool.false_ne_true
    nameless := nameless_of_reached hnested.reached .refl }

/-- The trail of an inclusion that cannot be followed.  It is written in some script, and this is
where the fault is. -/
theorem Script.FailsToInclude.exists_trail
    (h : inner.FailsToInclude env groups own failing around cause)
    (hraises : inner.Raises env (failing.traced cause around))
    (hnested : Nested env main loads inner) :
    ∃ holder, Trail env main
      ((failing.traced cause around).carried (inner.path.map Path.render) loads) loads inner holder
      around := by
  obtain ⟨holder, hreached, hwritten⟩ := h.written failing List.mem_cons_self
  have hcause := (failing.traced cause around).cause_carried (inner.path.map Path.render) loads
  have hline := (failing.traced cause around).line_carried (inner.path.map Path.render) loads
  have hcolumn := (failing.traced cause around).column_carried (inner.path.map Path.render) loads
  -- a script without a path holds only its own inclusions, so the path is the same either way
  have hpath : ((failing.traced cause around).carried (inner.path.map Path.render) loads).path =
      holder.path.map Path.render := by
    rw [Diagnostic.path_carried]
    show failing.path.or (inner.path.map Path.render) = holder.path.map Path.render
    rw [hwritten.path_eq]
    cases hholder : holder.path with
    | some file => rfl
    | none =>
      rw [← eq_of_reached_of_nameless hreached hholder, hholder]
      rfl
  exact ⟨holder, {
    nested := hnested
    raised := ⟨_, hraises, rfl⟩
    frames_eq := rfl
    reached := hreached
    path_eq := hpath
    placed := ⟨failing.line, failing.column, hline, hcolumn, hwritten.place⟩
    plain := fun hplain =>
      absurd ((hcause ▸ hplain).symm.trans h.unrolls.isExpansion) Bool.false_ne_true
    inclusion := fun _ => ⟨groups, own, failing, hcause ▸ h, hwritten, hline, hcolumn⟩
    cycle := fun chain hchain => by
      rw [h.cycle chain (hcause.symm.trans hchain), List.length_reverse, List.length_map,
        List.length_cons]
    nameless := fun hnone =>
      nameless_of_reached hnested.reached hreached (hpath.symm.trans hnone) }⟩

/-- **Where a fault is raised**, it has a trail. -/
theorem exists_trail_of_raises (hnested : Nested env main loads inner)
    (hraises : inner.Raises env raw) :
    ∃ holder around,
      Trail env main (raw.carried (inner.path.map Path.render) loads) loads inner holder around := by
  obtain hfault | ⟨groups, own, failing, around, cause, hcomes, hunrolls, rfl⟩ := hraises.cases
  · exact ⟨inner, [], hfault.trail hraises hnested⟩
  · obtain ⟨holder, htrail⟩ := (hcomes.failsToInclude hunrolls).exists_trail hraises hnested
    exact ⟨holder, around, htrail⟩

/-- **Reading a script ends in a fault** exactly if there is a trail of it. -/
theorem readScript_fault_iff_trail :
    (readScript env main.loading main.path main.text).outcome = .error (.fault d) ↔
      ∃ loads inner holder around, Trail env main d loads inner holder around := by
  rw [outcome_readScript_eq_fault]
  constructor
  · rintro ⟨loads, inner, raw, hnested, hraises, rfl⟩
    exact ⟨loads, inner, exists_trail_of_raises hnested hraises⟩
  · rintro ⟨loads, inner, holder, around, htrail⟩
    obtain ⟨raw, hraises, rfl⟩ := htrail.raised
    exact ⟨loads, inner, raw, htrail.nested, hraises, rfl⟩

/-- A parse ends in a fault as reading the main script does, where the system takes its path. -/
theorem parse_eq_fault {path : Option String} {text : String} :
    (parse env path text).outcome = .error (.fault d) ↔ path.any Path.holdsNull = false ∧
      (readScript env (env.main path text).loading (env.main path text).path text).outcome =
        .error (.fault d) := by
  rw [outcome_parse_eq_error]
  exact or_iff_right fun h => absurd h.2 nofun

/-- **The trace of a fault is the way that it came**: a script is read to a fault exactly if there is
a trail of it. -/
theorem parse_fault_iff_trail (env : Environment) (path : Option String) (text : String)
    (d : Diagnostic) :
    (parse env path text).outcome = .error (.fault d) ↔ path.any Path.holdsNull = false ∧
      ∃ loads inner holder around, Trail env (env.main path text) d loads inner holder around := by
  rw [parse_eq_fault]
  exact and_congr_right fun _ => readScript_fault_iff_trail

/-- A script with a group that includes one which there is not. -/
def wantingText : String := "# groups\ngroup a\n include b\n"

/-- A script that loads the other one, and includes its group. -/
def relyingText : String := "load \"groups\"\nscenario\n include a\n"

/-- The files that the scripts are in. -/
def relying : Environment where
  workspace := { files := .ofList [(⟨["groups"], by decide⟩, wantingText.toUTF8),
    (⟨["tests"], by decide⟩, relyingText.toUTF8)] }

/-- The fault shows the file where the inclusion is written that cannot be followed; this is not
among those that are being read when it is met. -/
def wanting : Diagnostic where
  cause := .unknownGroup "b"
  line := some 3
  column := some 2
  path := some "/groups"
  frames := [.includedFrom (some "/tests") ⟨3, 2⟩, .loadedFrom none ⟨1, 1⟩]

example : (parse relying none "load \"tests\"\n").outcome = .error (.fault wanting) := by
  decide +kernel

end ScenarioScript
