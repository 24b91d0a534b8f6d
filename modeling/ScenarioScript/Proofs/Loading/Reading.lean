import ScenarioScript.Proofs.Blocks.Meaning
import ScenarioScript.Script

/-!
# Proofs/Loading/Reading — what it is for a script to be read

Reading a script with success is finding an outline in its statements that has a meaning, where the
entries that load mean what is read from the files they name:

* `outcome_loadScript_eq_ok` — a script is loaded if it is not in the middle of being read, its file
  can be read, and so can the script in it;
* `outcome_readScript_eq_ok` — a script is read exactly if its text is that of an outline with a
  meaning;
* `outcome_parse_eq_ok`, `outcome_parse_eq_error` — a main script is read as any other, unless the
  system does not take its path.
-/

namespace ScenarioScript

open Outcome

variable {env : Environment} {loading : List Path} {current path : Option Path} {text : String}
  {set : ScenarioSet}

/-- **Indentation has a width**, if it is given. -/
theorem Environment.unit_pos (env : Environment) : ∀ width ∈ env.unit, 0 < width := by
  intro width hwidth
  obtain ⟨n, hn, rfl⟩ := Option.map_eq_some_iff.1 hwidth
  exact Int.natCast_pos.2 (env.options.indentUnit_pos n hn)

/-- What reading a script with the given path, or none, needs to know of it. -/
def Environment.site (env : Environment) (loading : List Path) (path : Option Path) : Site where
  path := path.map Path.render
  load target origin :=
    if env.reaches target path then loadScript env (loading ++ path.toList) path target origin
    else Traced.ofExcept (.error .nullInPath)

theorem readScript_eq (env : Environment) (loading : List Path) (path : Option Path)
    (text : String) :
    readScript env loading path text =
      (Draft.build (env.site loading path) env.unit {} text).mapFault
        (·.locate (env.site loading path).path) := by
  rw [readScript]
  rfl

/-! ## The ways in which a load can go -/

section Load

variable {target : String} {origin : Location}

theorem load_site_of_reaches (h : env.reaches target path = true) :
    (env.site loading path).load target origin =
      loadScript env (loading ++ path.toList) path target origin :=
  if_pos h

/-- **What the system cannot be asked for** is not attempted. -/
theorem load_site_of_not_reaches (h : ¬env.reaches target path = true) :
    (env.site loading path).load target origin = Traced.ofExcept (.error .nullInPath) :=
  if_neg h

theorem loadScript_of_mem (h : env.resolve target current ∈ loading) :
    loadScript env loading current target origin =
      Traced.refused ⟨loading, origin, env.resolve target current, .cycle⟩
        (.loadCycle (Environment.cycle loading (env.resolve target current))) := by
  rw [loadScript]
  exact dif_pos h

theorem loadScript_of_unreadable {why : Unreadable} (hnew : env.resolve target current ∉ loading)
    (hread : env.read (env.resolve target current) = .error why) :
    loadScript env loading current target origin =
      Traced.refused ⟨loading, origin, env.resolve target current, .unreadable why⟩
        (.unresolvedLoad target (env.reason why)) := by
  rw [loadScript]
  refine (dif_neg hnew).trans ?_
  split
  · next why' hread' =>
    obtain rfl := Except.error.inj (hread.symm.trans hread')
    rfl
  · next text hread' => exact absurd (hread.symm.trans hread') (by simp)

theorem loadScript_of_read (hnew : env.resolve target current ∉ loading)
    (hread : env.read (env.resolve target current) = .ok text) :
    loadScript env loading current target origin =
      (Traced.note ⟨loading, origin, env.resolve target current, .read⟩ >>= fun _ =>
        (readScript env loading (some (env.resolve target current)) text).mapFault
          (·.addFrame origin)) := by
  rw [loadScript]
  refine (dif_neg hnew).trans ?_
  split
  · next why hread' => exact absurd (hread.symm.trans hread') (by simp)
  · next text' hread' =>
    obtain rfl := Except.ok.inj (hread.symm.trans hread')
    rfl

/-- **A script is loaded** if it is not in the middle of being read, its file can be read, and so can
the script in it. -/
theorem outcome_loadScript_eq_ok :
    (loadScript env loading current target origin).outcome = .ok set ↔
      env.resolve target current ∉ loading ∧
        ∃ text, env.read (env.resolve target current) = .ok text ∧
          (readScript env loading (some (env.resolve target current)) text).outcome = .ok set := by
  by_cases hnew : env.resolve target current ∈ loading
  · rw [loadScript_of_mem hnew]
    exact iff_of_false nofun fun h => h.1 hnew
  · cases hread : env.read (env.resolve target current) with
    | error why =>
      rw [loadScript_of_unreadable hnew hread]
      exact iff_of_false nofun fun ⟨_, _, h, _⟩ => absurd h nofun
    | ok text =>
      rw [loadScript_of_read hnew hread, Traced.outcome_bind]
      show ((readScript env loading _ text).outcome.mapError _) = .ok set ↔ _
      rw [mapError_eq_ok]
      exact ⟨fun h => ⟨hnew, text, rfl, h⟩, fun ⟨_, _, htext, h⟩ => Except.ok.inj htext ▸ h⟩

end Load

/-! ## Reading as finding an outline -/

theorem complete_of_mem_statementsOf {unit : Option Int} {statements : List Statement}
    (h : Draft.statementsOf unit text = .ok statements) : ∀ s ∈ statements, s.Complete := by
  intro s hs
  obtain ⟨lines, -, hlines⟩ := bind_eq_ok.1 h
  obtain ⟨line, -, hline⟩ := exists_of_mem_of_mapM hlines hs
  exact complete_of_classify hline

/-- **A text is built** exactly if it is that of an outline with a meaning. -/
theorem outcome_build_iff_outline {site : Site} {unit : Option Int} :
    (Draft.build site unit {} text).outcome = .ok set ↔
      ∃ o : Outline, Draft.statementsOf unit text = .ok o.statements ∧
        o.meaning site {} = some set := by
  rw [Draft.outcome_build_eq_ok]
  constructor
  · rintro ⟨statements, hstatements, hrun⟩
    obtain ⟨o, rfl, ho⟩ :=
      (Outline.outlined site (complete_of_mem_statementsOf hstatements)).top hrun
    exact ⟨o, hstatements, ho⟩
  · rintro ⟨o, hstatements, ho⟩
    exact ⟨o.statements, hstatements,
      Outline.run_outline ho (complete_of_mem_statementsOf hstatements)⟩

/-- **A script is read** exactly if its text is that of an outline with a meaning. -/
theorem outcome_readScript_eq_ok :
    (readScript env loading path text).outcome = .ok set ↔
      ∃ o : Outline, Draft.statementsOf env.unit text = .ok o.statements ∧
        o.meaning (env.site loading path) {} = some set := by
  rw [readScript_eq, Traced.outcome_mapFault, mapError_eq_ok, outcome_build_iff_outline]

/-! ## Main scripts -/

section Parse

variable {path : Option String}

/-- **A main script gives a set** if the system takes its path, and it is read. -/
theorem outcome_parse_eq_ok :
    (parse env path text).outcome = .ok set ↔
      path.any Path.holdsNull = false ∧
        ∃ before, (readScript env [] (path.map env.workspace.directory.resolve) text).outcome =
          .ok before ∧ before.nameAnonymous = set := by
  cases hnull : path.any Path.holdsNull with
  | true =>
    rw [parse_of_holdsNull env hnull]
    exact iff_of_false nofun fun h => absurd h.1 nofun
  | false =>
    rw [parse_of_not_holdsNull env hnull, Traced.outcome_bind_pure, map_eq_ok, and_iff_right rfl]

/-- **A main script fails** if the system does not take its path, or as reading it does. -/
theorem outcome_parse_eq_error {failure : Failure} :
    (parse env path text).outcome = .error failure ↔
      path.any Path.holdsNull = true ∧ failure = .nullInPath ∨
        path.any Path.holdsNull = false ∧
          (readScript env [] (path.map env.workspace.directory.resolve) text).outcome =
            .error failure := by
  cases hnull : path.any Path.holdsNull with
  | true =>
    rw [parse_of_holdsNull env hnull, Traced.outcome_ofExcept, Except.error.injEq]
    simp [eq_comm]
  | false =>
    rw [parse_of_not_holdsNull env hnull, Traced.outcome_bind_pure, map_eq_error]
    simp

end Parse

end ScenarioScript
