import Mathlib.Data.List.Chain
import Mathlib.Logic.Relation
import ScenarioScript.Load

/-!
# Proofs/Loading/Stack — the scripts in the middle of being read

A script that is being read has a **stack** around it: the files whose reading led to it, and its
own.  It **enters** another script when it asks for a file that is not on the stack and can be read.

* `wellFounded_enters` — there is no end to entering only if there is no end to the files;
* `Stacked` — what holds of every stack there is (`stacked_of_reached`): it repeats nothing, its
  files can be read, and each of them was asked for by the one below.
-/

namespace ScenarioScript

open Relation

/-! ## Asking and entering -/

/-- **A text asks for a file**: a line of it is a statement to load, which stands at the origin and
leads to the target from where the text is; the system can be asked for it. -/
def Asks (env : Environment) (path : Option Path) (text : String) (origin : Location)
    (target : Path) : Prop :=
  ∃ lines, Layout.scan env.unit text = .ok lines ∧
    ∃ line ∈ lines, ∃ s written, classify line = .ok s ∧ s.command = .load written ∧
      env.reaches written path = true ∧
      origin = .loadedFrom (path.map Path.render) s.position ∧ target = env.resolve written path

/-- **A script that is being read**: the files whose reading led to it, outermost first, its own
path, if it has one, and its text. -/
structure Script where
  loading : List Path
  path : Option Path
  text : String

/-- The files in the middle of being read while the script is. -/
def Script.stack (s : Script) : List Path := s.loading ++ s.path.toList

/-- The script that is read first. -/
def Environment.main (env : Environment) (path : Option String) (text : String) : Script :=
  ⟨[], path.map env.workspace.directory.resolve, text⟩

/-- **One script enters another**: it asks for a file that is not on the stack and can be read. -/
inductive Enters (env : Environment) : Script → Script → Prop where
  | enter {outer : Script} {origin : Location} {target : Path} {held : String}
      (hasks : Asks env outer.path outer.text origin target) (hnew : target ∉ outer.stack)
      (hread : env.read target = .ok held) : Enters env outer ⟨outer.stack, some target, held⟩

variable {env : Environment} {top : Option Path} {text : String} {outer inner s : Script}

/-- **Entering ends**: each script that is entered leaves fewer files off the stack. -/
theorem wellFounded_enters (env : Environment) :
    WellFounded fun inner outer => Enters env outer inner := by
  refine Subrelation.wf ?_ (measure fun s : Script => unvisited env.paths s.stack).wf
  rintro _ outer ⟨-, hnew, hread⟩
  exact unvisited_lt (Workspace.mem_keys_of_read hread) hnew

/-! ## Which texts ask for which -/

/-- The text that a path stands for: that of the main script for the main script's path, even if the
file has another, and otherwise that of the file. -/
def Holds (env : Environment) (top : Option Path) (text : String) (path : Option Path)
    (held : String) : Prop :=
  (path = top ∧ held = text) ∨ (path ≠ top ∧ ∃ file, path = some file ∧ env.read file = .ok held)

theorem Holds.unique {path : Option Path} {held held' : String} (h : Holds env top text path held)
    (h' : Holds env top text path held') : held = held' := by
  obtain ⟨hpath, rfl⟩ | ⟨hpath, file, hfile, hread⟩ := h
  · obtain ⟨-, rfl⟩ | ⟨hne, -⟩ := h'
    · rfl
    · exact absurd hpath hne
  · obtain ⟨heq, -⟩ | ⟨-, file', hfile', hread'⟩ := h'
    · exact absurd heq hpath
    · obtain rfl := Option.some.inj (hfile.symm.trans hfile')
      exact Except.ok.inj (hread.symm.trans hread')

/-- **The graph of loads**: the text of one path asks for the other. -/
def Links (env : Environment) (top : Option Path) (text : String) (path target : Option Path) :
    Prop :=
  ∃ held, Holds env top text path held ∧
    ∃ origin file, Asks env path held origin file ∧ target = some file

/-! ## What holds of every stack -/

/-- **What holds of a script that is being read** below the main script with the given path, or none,
and the given text. -/
structure Stacked (env : Environment) (top : Option Path) (text : String) (s : Script) : Prop where
  /-- Nothing is on the stack twice. -/
  nodup : s.stack.Nodup
  /-- Above the main script's path there are files that can be read. -/
  files : ∃ files, s.stack = top.toList ++ files ∧ ∀ p ∈ files, ∃ held, env.read p = .ok held
  /-- The script itself is on top. -/
  getLast?_eq : s.stack.getLast? = s.path
  /-- The script's text is the one its path stands for. -/
  holds : Holds env top text s.path s.text
  /-- Each file on the stack was asked for by the one below. -/
  linked : s.stack.IsChain fun p q => Links env top text (some p) (some q)

/-- **It holds of the main script.** -/
theorem stacked_main (env : Environment) (top : Option Path) (text : String) :
    Stacked env top text ⟨[], top, text⟩ where
  nodup := by cases top <;> simp [Script.stack]
  files := ⟨[], (List.append_nil _).symm, nofun⟩
  getLast?_eq := by cases top <;> rfl
  holds := .inl ⟨rfl, rfl⟩
  linked := by cases top <;> simp [Script.stack]

/-- **It is kept** where one script enters another. -/
theorem Stacked.enters (hs : Stacked env top text outer) (h : Enters env outer inner) :
    Stacked env top text inner := by
  obtain @⟨origin, target, held, hasks, hnew, hread⟩ := h
  obtain ⟨files, hfiles, hreadable⟩ := hs.files
  have hlink : Links env top text outer.path (some target) :=
    ⟨outer.text, hs.holds, origin, target, hasks, rfl⟩
  constructor
  · refine List.nodup_append.2 ⟨hs.nodup, List.pairwise_singleton _ target, ?_⟩
    rintro p hp q hq rfl
    exact hnew (List.mem_singleton.1 hq ▸ hp)
  · refine ⟨files ++ [target], ?_, ?_⟩
    · rw [← List.append_assoc, ← hfiles]
      rfl
    · exact List.forall_mem_append.2 ⟨hreadable, List.forall_mem_singleton.2 ⟨held, hread⟩⟩
  · exact List.getLast?_concat
  · refine .inr ⟨?_, target, rfl, hread⟩
    rintro rfl
    exact hnew (hfiles ▸ List.mem_append_left files (List.mem_singleton_self target))
  · refine hs.linked.append (List.isChain_singleton target) fun p hp q hq => ?_
    obtain rfl : target = q := Option.some.inj hq
    have hpath : outer.path = some p := hs.getLast?_eq.symm.trans hp
    exact hpath ▸ hlink

/-- **It holds of every script** that is reached from the main script. -/
theorem stacked_of_reached (h : ReflTransGen (Enters env) ⟨[], top, text⟩ s) :
    Stacked env top text s := by
  induction h with
  | refl => exact stacked_main env top text
  | tail _ henters ih => exact ih.enters henters

/-- **No stack is deeper** than there are files, and one. -/
theorem Stacked.length_le (h : Stacked env top text s) : s.stack.length ≤ env.paths.length + 1 := by
  obtain ⟨files, hfiles, hreadable⟩ := h.files
  have hnodup : files.Nodup := (List.nodup_append.1 (hfiles ▸ h.nodup)).2.1
  have hsub : files ⊆ env.paths := fun p hp => by
    obtain ⟨held, hread⟩ := hreadable p hp
    exact Workspace.mem_keys_of_read hread
  have hlength : files.length ≤ env.paths.length := hnodup.length_le_of_subset hsub
  have htop : top.toList.length ≤ 1 := Option.length_toList_le
  rw [hfiles, List.length_append]
  omega

end ScenarioScript
