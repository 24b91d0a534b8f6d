import ScenarioScript.Proofs.Loading.Reading
import ScenarioScript.Proofs.Merging.Sets
import ScenarioScript.Proofs.Writing.Entries
import ScenarioScript.Script

/-!
# Proofs/Loading/Alone — a script that only loads another

A script that is nothing but a statement to load defines what the loaded script does
(`outcome_parse_load`), and fails as that one fails, one frame further from the fault.  A path
written in full leads to itself from wherever it is loaded (`Path.resolve_render`).
-/

namespace ScenarioScript

open Text

/-! ## Paths written in full -/

namespace Path

theorem cutAtSlashes_of_not_mem {piece : List Char} (h : '/' ∉ piece) :
    cutAtSlashes piece = [piece] := by
  induction piece with
  | nil => rfl
  | cons c piece ih =>
    obtain ⟨hc, hpiece⟩ := not_or.1 (mt List.mem_cons.2 h)
    simp [cutAtSlashes, ih hpiece, Ne.symm hc]

theorem cutAtSlashes_append {piece : List Char} (h : '/' ∉ piece) (rest : List Char) :
    cutAtSlashes (piece ++ '/' :: rest) = piece :: cutAtSlashes rest := by
  have hne : ∀ text, cutAtSlashes text ≠ [] := by
    intro text
    induction text with
    | nil => exact List.cons_ne_nil _ _
    | cons c text ih =>
      simp only [cutAtSlashes]
      split
      · exact List.cons_ne_nil _ _
      · split <;> exact List.cons_ne_nil _ _
  induction piece with
  | nil =>
    obtain ⟨first, more, hmore⟩ := List.exists_cons_of_ne_nil (hne rest)
    simp [cutAtSlashes, hmore]
  | cons c piece ih =>
    obtain ⟨hc, hpiece⟩ := not_or.1 (mt List.mem_cons.2 h)
    simp [cutAtSlashes, ih hpiece, Ne.symm hc]

/-- **Names with a slash between them** are what is left when the slashes are cut. -/
theorem steps_intercalate {row : List String} (hne : row ≠ [])
    (h : ∀ s ∈ row, '/' ∉ s.toList) : steps ("/".intercalate row) = row := by
  induction row with
  | nil => exact absurd rfl hne
  | cons s row ih =>
    obtain ⟨hs, hrow⟩ := List.forall_mem_cons.1 h
    cases row with
    | nil => simp [steps, cutAtSlashes_of_not_mem hs]
    | cons t row =>
      have hbelow := ih (List.cons_ne_nil t row) hrow
      rw [steps] at hbelow ⊢
      have hcut : ("/".intercalate (s :: t :: row)).toList =
          s.toList ++ '/' :: ("/".intercalate (t :: row)).toList := by
        rw [String.intercalate_cons_cons]
        simp
      rw [hcut, cutAtSlashes_append hs, List.map_cons, hbelow, String.ofList_toList]

theorem segments_foldl_follow {row : List String} (h : ∀ s ∈ row, isSegment s = true) (p : Path) :
    (row.foldl follow p).segments = p.segments ++ row := by
  induction row generalizing p with
  | nil => exact (List.append_nil _).symm
  | cons s row ih =>
    obtain ⟨hs, hrow⟩ := List.forall_mem_cons.1 h
    rw [List.foldl_cons, ih hrow, follow, dif_pos hs, List.append_assoc]
    rfl

theorem toList_render (p : Path) : p.render.toList = '/' :: ("/".intercalate p.segments).toList := by
  simp [render]

theorem startsAtRoot_render (p : Path) : startsAtRoot p.render = true := by
  rw [startsAtRoot, toList_render]
  rfl

/-- **A path written in full** leads to itself, from wherever it is taken. -/
theorem resolve_render (base p : Path) : base.resolve p.render = p := by
  have hsteps : steps p.render = "" :: steps ("/".intercalate p.segments) := by
    rw [steps, toList_render]
    exact congrArg (List.map String.ofList)
      (@cutAtSlashes_append [] List.not_mem_nil _)
  have hslash : ∀ s ∈ p.segments, '/' ∉ s.toList := by
    intro s hs
    have := p.normal s hs
    simp_all [isSegment]
  rw [resolve, if_pos p.startsAtRoot_render, hsteps, List.foldl_cons, follow_empty]
  by_cases hroot : p.segments = []
  · rw [hroot]
    exact Path.ext hroot.symm
  · rw [steps_intercalate hroot hslash]
    exact Path.ext (segments_foldl_follow p.normal root)

end Path

/-! ## Statements to load -/

theorem Lexeme.cutString_of_plain {text : List Char} (h : ∀ c ∈ text, c ≠ '"' ∧ c ≠ '\\') :
    cutString '"' (text ++ ['"']) = some (text ++ ['"'], []) := by
  induction text with
  | nil => rfl
  | cons c text ih =>
    obtain ⟨⟨hmark, hslash⟩, htext⟩ := List.forall_mem_cons.1 h
    rw [List.cons_append, cutString, if_neg hmark, ih htext]
    · rfl
    · exact fun _ _ hc => absurd hc hslash

/-- **A text between quotes** that holds neither a quote nor a backslash is the path that it quotes. -/
theorem quotedPath_of_plain {text : List Char} (h : ∀ c ∈ text, c ≠ '"' ∧ c ≠ '\\')
    (line column : Int) :
    Argument.quotedPath ⟨'"' :: text ++ ['"'], line, column⟩ = .ok (String.ofList text) := by
  have hhead : Lexeme.head '"' (text ++ ['"']) = .lexeme .string ('"' :: (text ++ ['"'])) [] := by
    rw [Lexeme.head, if_neg (by decide), if_pos (by decide), Lexeme.cutString_of_plain h]
  simp [Argument.quotedPath, tokensOf, readTokens_of_lexeme hhead, Token.ofLexeme]

/-- A text that is not broken can stand on a line, between quotes. -/
theorem tidy_quoted {text : List Char} (h : ∀ c ∈ text, isLineBreak c = false) :
    Tidy ('"' :: text ++ ['"']) :=
  tidy_enclosed (by decide) (by decide) h

/-! ## A script that only loads another -/

/-- **The statement that loads a path**, as it is written. -/
def loadText (target : String) : String := "load \"" ++ target ++ "\""

/-- **Can a path be written in a statement to load?**  It can if no line ends in it, and it holds
nothing that would end the quotes or shield their end. -/
def Quotable (target : String) : Prop :=
  ∀ c ∈ target.toList, isLineBreak c = false ∧ c ≠ '"' ∧ c ≠ '\\'

variable {env : Environment} {p : Path} {target text : String}

theorem loadText_eq (target : String) :
    loadText target =
      String.ofList (Keyword.load.word.toList ++ ' ' :: ('"' :: target.toList ++ ['"'])) := by
  rw [← String.toList_inj]
  simp [loadText, Keyword.word]

/-- A text that only loads a path holds one line, and this tells to load the path. -/
theorem classify_loadText (h : Quotable target) :
    classify ⟨0, loadText target, 1, 1⟩ =
      .ok ⟨.load target, String.ofList ('"' :: target.toList ++ ['"']), 0, 1, 1⟩ := by
  have hquoted := tidy_quoted fun c hc => (h c hc).1
  rw [loadText_eq, classify_entry .load 0 1 1 hquoted, Keyword.read,
    quotedPath_of_plain fun c hc => (h c hc).2, String.ofList_toList]
  rfl

theorem scan_loadText (h : Quotable target) (unit : Option Int) :
    Layout.scan unit (loadText target) = .ok [⟨0, loadText target, 1, 1⟩] := by
  obtain ⟨hne, hword⟩ := Keyword.load.isWord_word
  rw [loadText_eq]
  exact Layout.scan_row ⟨(tidy_quoted fun c hc => (h c hc).1).entry hne hword, nofun⟩ unit

/-- **To build from a text that only loads a path** is to load the path. -/
theorem build_loadText (h : Quotable target) (site : Site) (unit : Option Int) :
    Draft.build site unit {} (loadText target) =
      site.load target (.loadedFrom site.path ⟨1, 1⟩) := by
  have hlift {α : Type} (a : α) : (liftM (.ok a : Except Failure α) : Traced α) = pure a := rfl
  have hadd (s : Statement) (hdepth : s.depth = 0) (hcommand : s.command = .load target) :
      Draft.add site {} s = (site.load target (.loadedFrom site.path s.position) >>= fun loaded =>
        pure { finished := ({} : ScenarioSet).merge loaded }) :=
    Draft.add_load (hdepth ▸ rfl) hdepth hcommand
  have hclose (set : ScenarioSet) :
      (Draft.closeAll { finished := set }).mapError Failure.fault = .ok set := rfl
  rw [Draft.build, scan_loadText h, hlift, pure_bind, List.foldlM_cons, Draft.addLine,
    classify_loadText h, hlift, pure_bind, hadd _ rfl rfl]
  simp only [List.foldlM_nil, bind_pure, bind_assoc, pure_bind, hclose, hlift,
    ScenarioSet.empty_merge]
  rfl

/-- A fault that has no path to gain stays as it is. -/
theorem Traced.mapFault_locate_none {α : Type} (t : Traced α) : t.mapFault (·.locate none) = t := by
  have hlocate (d : Diagnostic) : d.locate none = d := by
    obtain ⟨cause, line, column, path, frames⟩ := d
    cases path <;> rfl
  obtain ⟨outcome | _, attempts⟩ := t
  · cases outcome <;> simp [Traced.mapFault, Except.mapError, Failure.mapFault, hlocate]
  · rfl

/-- **A script that only loads a path** is read as the path is loaded, from nowhere. -/
theorem readScript_loadText (h : Quotable target) (hreaches : env.reaches target none = true) :
    readScript env [] none (loadText target) =
      loadScript env [] none target (.loadedFrom none ⟨1, 1⟩) := by
  rw [readScript_eq, build_loadText h, load_site_of_reaches hreaches]
  exact Traced.mapFault_locate_none _

/-- **A script that only loads another is that one.**  It defines the same set, if there is one, and
otherwise it fails in the same way: a fault keeps its cause and place, and has come one frame
further, from the first line of a text without a path. -/
theorem outcome_parse_load (hread : env.read p = .ok text) (hp : Quotable p.render) :
    (parse env none (loadText p.render)).outcome =
      (parse env (some p.render) text).outcome.mapError
        (·.mapFault (·.addFrame ⟨none, 1, 1, "loaded from"⟩)) := by
  by_cases hnull : Path.holdsNull p.render = true
  · have hreaches : ¬env.reaches p.render none = true := by
      simp [Environment.reaches, hnull]
    simp only [parse, Option.any_none, Option.any_some, hnull, Option.map_none, readScript_eq,
      build_loadText hp, load_site_of_not_reaches hreaches]
    rfl
  · have hreaches : env.reaches p.render none = true := by
      simp [Environment.reaches, hnull, p.startsAtRoot_render]
    have hresolve (base : Path) : base.resolve p.render = p := Path.resolve_render base p
    have hread' : env.read (env.resolve p.render none) = .ok text := by
      rwa [Environment.resolve, hresolve]
    have hload : loadScript env [] none p.render (.loadedFrom none ⟨1, 1⟩) = _ :=
      loadScript_of_read List.not_mem_nil hread'
    rw [Environment.resolve, hresolve] at hload
    simp only [parse, Option.any_none, Option.any_some, hnull, Option.map_none, Option.map_some,
      hresolve, readScript_loadText hp hreaches, hload, Bool.false_eq_true, if_false,
      Traced.outcome_bind, Traced.outcome_mapFault]
    exact Outcome.map_mapError _ _ _

/-- A file that loads the one beside it, and includes a group that this has. -/
def gatheringText : String := "load \"part\"\nscenario\n include g\n include gone\n"

def gatheringPath : Path := ⟨["a b", "whole"], by decide⟩

/-- The two files, in a directory whose name has a space in it. -/
def gathering : Environment where
  workspace := { files := .ofList [(gatheringPath, gatheringText.toUTF8),
    (⟨["a b", "part"], by decide⟩, "group g\n reload\n".toUTF8)] }

/-- The fault in the first file: there is no group of the second name. -/
def gatheringFault : Diagnostic where
  cause := .unknownGroup "gone"
  line := some 4
  column := some 2
  path := some "/a b/whole"

/-- A fault in a file that loads another: by itself, the file has the fault without a frame, and
loaded it has the same one with a frame for the load. -/
theorem outcome_parse_load_gathering :
    gathering.read gatheringPath = .ok gatheringText ∧ Quotable gatheringPath.render ∧
      (parse gathering (some gatheringPath.render) gatheringText).outcome =
        .error (.fault gatheringFault) ∧
      (parse gathering none (loadText gatheringPath.render)).outcome =
        .error (.fault { gatheringFault with frames := [⟨none, 1, 1, "loaded from"⟩] }) := by
  have hread : gathering.read gatheringPath = .ok gatheringText := by decide +kernel
  have hall : gatheringPath.render.toList.all
      (fun c => !isLineBreak c && c != '"' && c != '\\') = true := by
    decide +kernel
  have hquotable : Quotable gatheringPath.render := fun c hc => by
    have hc := List.all_eq_true.1 hall c hc
    simp_all
  have hfails : (parse gathering (some gatheringPath.render) gatheringText).outcome =
      .error (.fault gatheringFault) := by decide +kernel
  refine ⟨hread, hquotable, hfails, ?_⟩
  rw [outcome_parse_load hread hquotable, hfails]
  rfl

end ScenarioScript
