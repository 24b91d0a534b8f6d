import ScenarioScript.Files.Encoding
import ScenarioScript.Files.Path
import ScenarioScript.OrderedMap

/-!
# Files — the files that scripts are read from

A workspace is a finite tree of files and a current directory.  Directories are there because files
are in them.  `Workspace.read` tells the ways in which a file cannot be read apart.
-/

namespace ScenarioScript

/-- Why a file cannot be read. -/
inductive Unreadable where
  | missing
  | directory
  /-- The path leads through a file. -/
  | throughFile
  /-- The bytes are no text. -/
  | notText
  deriving DecidableEq, Repr

/-- Files and the directory in which one is. -/
structure Workspace where
  files : OrderedMap Path ByteArray := .empty
  directory : Path := .root

namespace Workspace

/-- Is there a directory at the path? -/
def hasDirectory (w : Workspace) (p : Path) : Bool :=
  p == w.directory || p.holds w.directory || w.files.keys.any p.holds

/-- Is there a file at the path? -/
def hasFile (w : Workspace) (p : Path) : Bool := (w.files.get? p).isSome

/-- **The text of the file at a path.** -/
def read (w : Workspace) (encoding : Encoding) (p : Path) : Except Unreadable String :=
  match w.files.get? p with
  | some bytes =>
    match encoding.decode bytes with
    | some text => .ok text
    | none => .error .notText
  | none =>
    if w.hasDirectory p then .error .directory
    else if w.files.keys.any (·.holds p) then .error .throughFile
    else .error .missing

theorem mem_keys_of_read {w : Workspace} {encoding : Encoding} {p : Path} {text : String}
    (h : w.read encoding p = .ok text) : p ∈ w.files.keys := by
  rw [← OrderedMap.isSome_get?]
  unfold read at h
  split at h
  · next bytes hget => simp [hget]
  · repeat' split at h
    all_goals simp at h

/-! ## Walking -/

/-- What is found where a walk ends. -/
inductive Found where
  | file (path : Path)
  | directory (path : Path)
  deriving DecidableEq

/-- What is at a path. -/
def at? (w : Workspace) (p : Path) : Option Found :=
  if w.hasFile p then some (.file p)
  else if w.hasDirectory p then some (.directory p)
  else none

/-- One step on: only a directory can be left. -/
def stepOn (w : Workspace) (found : Option Found) (step : String) : Option Found :=
  match found with
  | some (.directory p) => w.at? (p.follow step)
  | _ => none

/-- **What a written path leads to**, step by step: unlike in `Path.resolve`, each place passed must
be there. -/
def walk? (w : Workspace) (written : String) : Option Found :=
  let start := if Path.startsAtRoot written then Path.root else w.directory
  let steps := (Path.steps written).filter fun step => step != "" && step != "."
  steps.foldl w.stepOn (some (.directory start))

end Workspace

end ScenarioScript
