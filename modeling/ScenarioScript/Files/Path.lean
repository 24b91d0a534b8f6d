/-!
# Files/Path — absolute paths

A path is the row of its segments from the root down.  A written path is **resolved** by its text
alone: empty segments and `.` stay where they are, `..` goes up, and above the root there is only
the root.
-/

namespace ScenarioScript

/-- Is the text the name of a file or directory, and not a way to go? -/
def isSegment (s : String) : Bool :=
  !s.isEmpty && s != "." && s != ".." && !s.toList.contains '/'

/-- An absolute path. -/
structure Path where
  segments : List String
  /-- **Every segment is a name.** -/
  normal : ∀ s ∈ segments, isSegment s = true
  deriving DecidableEq

namespace Path

@[ext] theorem ext {p q : Path} (h : p.segments = q.segments) : p = q := by
  cases p
  cases q
  simp_all

/-- The path of the root. -/
def root : Path := ⟨[], by simp⟩

instance : Inhabited Path := ⟨root⟩

/-- The directory that holds the path; the root holds itself. -/
def parent (p : Path) : Path :=
  ⟨p.segments.dropLast, fun s hs => p.normal s ((List.dropLast_sublist _).mem hs)⟩

/-- One segment of a written path followed. -/
def follow (p : Path) (step : String) : Path :=
  if h : isSegment step = true then
    ⟨p.segments ++ [step], by
      intro s hs
      rcases List.mem_append.1 hs with hs | hs
      · exact p.normal s hs
      · exact List.mem_singleton.1 hs ▸ h⟩
  else if step = ".." then p.parent
  else p

/-- A text cut at its slashes. -/
def cutAtSlashes : List Char → List (List Char)
  | [] => [[]]
  | c :: rest =>
    match cutAtSlashes rest with
    | [] => [[c]]
    | piece :: pieces => if c = '/' then [] :: piece :: pieces else (c :: piece) :: pieces

/-- The segments of a written path. -/
def steps (written : String) : List String := (cutAtSlashes written.toList).map String.ofList

/-- Does a written path begin at the root? -/
def startsAtRoot (written : String) : Bool := written.toList.head? == some '/'

/-- Is there a null character in a written path?  Then no system can be asked for it. -/
def holdsNull (written : String) : Bool := written.toList.contains '\x00'

/-- **A written path, resolved**: it is taken from the base unless it begins at the root. -/
def resolve (base : Path) (written : String) : Path :=
  (steps written).foldl follow (if startsAtRoot written then root else base)

/-- A path as it is written in full. -/
def render (p : Path) : String := "/" ++ "/".intercalate p.segments

/-- Is the second path inside the directory that the first one would be? -/
def holds (p q : Path) : Bool := p.segments.isPrefixOf q.segments && p != q

@[simp] theorem parent_root : root.parent = root := rfl

@[simp] theorem follow_up (p : Path) : p.follow ".." = p.parent := by
  simp [follow, isSegment]

@[simp] theorem follow_stay (p : Path) : p.follow "." = p := by
  simp [follow, isSegment]

@[simp] theorem follow_empty (p : Path) : p.follow "" = p := by
  simp [follow, isSegment]

/-! ## Paths as they are written -/

/-- **The segments of a path** can be read off from it as it is written in full: they are what is
left when this is cut at its slashes. -/
theorem map_toList_segments (p : Path) :
    p.segments.map String.toList =
      (p.render.toList.splitOn '/').filter fun piece => !piece.isEmpty := by
  have hname : ∀ s ∈ p.segments, '/' ∉ s.toList ∧ (!s.toList.isEmpty) = true := by
    intro s hs
    have hnormal := p.normal s hs
    simp_all [isSegment]
  cases hsegments : p.segments with
  | nil => rw [render, hsegments]; rfl
  | cons first rest =>
    have hrender : p.render.toList = ['/'].intercalate ([] :: p.segments.map String.toList) := by
      simp [render, hsegments]
    rw [← hsegments, hrender, List.splitOn_intercalate '/' _ (List.cons_ne_nil _ _)]
    · rw [List.filter_cons_of_neg (by simp), List.filter_eq_self.2]
      exact List.forall_mem_map.2 fun s hs => (hname s hs).2
    · refine List.forall_mem_cons.2 ⟨List.not_mem_nil, ?_⟩
      exact List.forall_mem_map.2 fun s hs => (hname s hs).1

/-- **Different paths** are written differently. -/
theorem render_injective : Function.Injective render := by
  intro p q h
  have hsegments : p.segments.map String.toList = q.segments.map String.toList := by
    rw [map_toList_segments, map_toList_segments, h]
  exact Path.ext ((List.map_inj_right fun _ _ => String.toList_injective).1 hsegments)

end Path

end ScenarioScript
