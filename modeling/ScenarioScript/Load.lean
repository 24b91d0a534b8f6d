import ScenarioScript.Draft
import ScenarioScript.Unvisited

/-!
# Load — scripts that load other scripts

A script is read in an environment: the files there are, the current directory and the options.  A
path to load is taken from the directory of the loading script or, where that has no path, from the
base directory.  A script that is in the middle of being read is not loaded again, so reading ends:
the files that are not in the middle of being read become fewer with every load.
-/

namespace ScenarioScript

/-- How scripts are read. -/
structure Options where
  /-- The number of spaces to a level of nesting; without one, each script shows its own. -/
  indentUnit : Option Nat
  /-- **A unit has a width.** -/
  indentUnit_pos : ∀ n, indentUnit = some n → 0 < n
  /-- The directory from which a script without a path loads. -/
  baseDirectory : Option String
  encoding : Encoding

namespace Options

/-- The options of one who has said nothing. -/
def standard : Options := ⟨none, nofun, none, .utf8⟩

/-- What there is to say of an indentation of no width or less. -/
def unitRefused (unit : Int) : String := s!"indent_unit must be positive, got {unit}"

/-- The options with the given unit, which must be positive. -/
def ofUnit? (unit : Option Int) (baseDirectory : Option String) (encoding : Encoding) :
    Option Options :=
  match unit with
  | none => some { standard with baseDirectory, encoding }
  | some unit =>
    if h : 0 < unit then
      have hpos : ∀ n, some unit.toNat = some n → 0 < n := by
        intro n hn
        obtain rfl := Option.some.inj hn
        omega
      some ⟨some unit.toNat, hpos, baseDirectory, encoding⟩
    else none

end Options

/-- The files scripts are read from, and how they are read. -/
structure Environment where
  workspace : Workspace := {}
  options : Options := .standard

namespace Environment

/-- The directory from which a script loads. -/
def base (env : Environment) (current : Option Path) : Path :=
  match current with
  | some path => path.parent
  | none =>
    match env.options.baseDirectory with
    | some written => env.workspace.directory.resolve written
    | none => env.workspace.directory

/-- **The path that a script loads**, given how it is written there. -/
def resolve (env : Environment) (target : String) (current : Option Path) : Path :=
  (env.base current).resolve target

/-- Is there a null character in the directory from which a script loads, as it is written? -/
def baseHoldsNull (env : Environment) : Option Path → Bool
  | some path => Path.holdsNull path.parent.render
  | none => env.options.baseDirectory.any Path.holdsNull

/-- **Can the system be asked for the path that a script loads?**  It cannot if there is a null
character in what is written, or in the directory that this is taken from. -/
def reaches (env : Environment) (target : String) (current : Option Path) : Bool :=
  !Path.holdsNull target && (Path.startsAtRoot target || !env.baseHoldsNull current)

/-- The text of a file. -/
def read (env : Environment) (path : Path) : Except Unreadable String :=
  env.workspace.read env.options.encoding path

/-- The paths of all files. -/
def paths (env : Environment) : List Path := env.workspace.files.keys

/-- The indentation unit as it was given. -/
def unit (env : Environment) : Option Int := env.options.indentUnit.map Int.ofNat

/-- Why a load fails whose file cannot be read. -/
def reason (env : Environment) : Unreadable → String
  | .notText => Cause.notText env.options.encoding.name
  | _ => Cause.fileNotFound

/-- **The cycle** that loading a script again would close: from that script to the loading one, and
back. -/
def cycle (loading : List Path) (target : Path) : List String :=
  (loading.dropWhile (· != target) ++ [target]).map Path.render

end Environment

mutual

/-- **Load a script** that the script `current` asks for at `origin`, while the scripts `loading`
are in the middle of being read. -/
def loadScript (env : Environment) (loading : List Path) (current : Option Path) (target : String)
    (origin : Location) : Traced ScenarioSet :=
  let resolved := env.resolve target current
  if _hnew : resolved ∈ loading then
    Traced.refused ⟨loading, origin, resolved, .cycle⟩
      (.loadCycle (Environment.cycle loading resolved))
  else
    match _hread : env.read resolved with
    | .error why =>
      Traced.refused ⟨loading, origin, resolved, .unreadable why⟩
        (.unresolvedLoad target (env.reason why))
    | .ok text => do
      Traced.note ⟨loading, origin, resolved, .read⟩
      (readScript env loading (some resolved) text).mapFault (·.addFrame origin)
termination_by 2 * unvisited env.paths loading
decreasing_by
  have : unvisited env.paths (loading ++ [env.resolve target current]) <
      unvisited env.paths loading :=
    unvisited_lt (Workspace.mem_keys_of_read _hread) _hnew
  simp only [Option.toList]
  omega

/-- **Read the text of a script** that has the given path, or none, while the scripts `loading` are
in the middle of being read.  It loads only what the system can be asked for. -/
def readScript (env : Environment) (loading : List Path) (path : Option Path) (text : String) :
    Traced ScenarioSet :=
  let load := fun target origin =>
    if env.reaches target path then loadScript env (loading ++ path.toList) path target origin
    else Traced.ofExcept (.error .nullInPath)
  let site : Site := ⟨path.map Path.render, load⟩
  (Draft.build site env.unit {} text).mapFault (·.locate site.path)
termination_by 2 * unvisited env.paths (loading ++ path.toList) + 1

end

end ScenarioScript
