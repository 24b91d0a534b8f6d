import ScenarioScript.Proofs.Loading.Stack

/-!
# Proofs/Containment/Paths — what the system can be asked for

The system cannot be asked for a path with a null character in it.  Where none is written, in the
directories that loads start from or in what is loaded, none comes up: what is written is cut and
put together again (`Path.Plain.resolve`), and so it goes on from one script to the next
(`Environment.Plain.of_reached`).
-/

namespace ScenarioScript

open Relation

namespace Path

/-! ## Paths without a null character -/

/-- There is no null character in the path. -/
def Plain (p : Path) : Prop := ∀ s ∈ p.segments, holdsNull s = false

theorem holdsNull_append (a b : String) : holdsNull (a ++ b) = (holdsNull a || holdsNull b) := by
  simp [holdsNull]

theorem holdsNull_intercalate {row : List String} (h : ∀ s ∈ row, holdsNull s = false) :
    holdsNull ("/".intercalate row) = false := by
  induction row with
  | nil => rfl
  | cons s row ih =>
    obtain ⟨hs, hrow⟩ := List.forall_mem_cons.1 h
    cases row with
    | nil => rwa [String.intercalate_singleton]
    | cons t row =>
      rw [String.intercalate_cons_cons, holdsNull_append, holdsNull_append, hs, ih hrow]
      rfl

/-- And so there is none in the path as it is written in full. -/
theorem Plain.holdsNull_render {p : Path} (h : p.Plain) : holdsNull p.render = false := by
  rw [render, holdsNull_append, holdsNull_intercalate h]
  rfl

theorem plain_root : root.Plain := nofun

theorem Plain.parent {p : Path} (h : p.Plain) : p.parent.Plain := fun s hs =>
  h s ((List.dropLast_sublist _).mem hs)

theorem Plain.follow {p : Path} {step : String} (h : p.Plain) (hstep : holdsNull step = false) :
    (p.follow step).Plain := by
  unfold Path.follow
  split
  · exact List.forall_mem_append.2 ⟨h, List.forall_mem_singleton.2 hstep⟩
  split
  · exact h.parent
  · exact h

/-- What is cut has come from the text. -/
theorem mem_of_mem_cutAtSlashes {text piece : List Char} (h : piece ∈ cutAtSlashes text) :
    piece ⊆ text := by
  induction text generalizing piece with
  | nil =>
    obtain rfl := List.mem_singleton.1 h
    exact List.Subset.refl _
  | cons c rest ih =>
    unfold cutAtSlashes at h
    split at h
    · obtain rfl := List.mem_singleton.1 h
      exact List.cons_subset_cons c (List.nil_subset rest)
    · next first pieces hcut =>
      rw [hcut] at ih
      split at h
      · obtain rfl | h := List.mem_cons.1 h
        · exact List.nil_subset _
        · exact List.subset_cons_of_subset c (ih h)
      · obtain rfl | h := List.mem_cons.1 h
        · exact List.cons_subset_cons c (ih List.mem_cons_self)
        · exact List.subset_cons_of_subset c (ih (List.mem_cons_of_mem _ h))

theorem holdsNull_of_mem_steps {written step : String} (h : holdsNull written = false)
    (hstep : step ∈ steps written) : holdsNull step = false := by
  obtain ⟨piece, hpiece, rfl⟩ := List.mem_map.1 hstep
  have hsub : piece ⊆ written.toList := mem_of_mem_cutAtSlashes hpiece
  have hnone : '\x00' ∉ written.toList := by simpa [holdsNull] using h
  simpa [holdsNull] using fun hmem => hnone (hsub hmem)

/-- **A path that is resolved** has no null character, if there was none before. -/
theorem Plain.resolve {base : Path} {written : String} (hbase : base.Plain)
    (h : holdsNull written = false) : (base.resolve written).Plain := by
  have hfollow : ∀ row : List String, (∀ s ∈ row, holdsNull s = false) →
      ∀ p : Path, p.Plain → (row.foldl Path.follow p).Plain := by
    intro row hrow
    induction row with
    | nil => exact fun p hp => hp
    | cons step row ih =>
      obtain ⟨hstep, hrow⟩ := List.forall_mem_cons.1 hrow
      exact fun p hp => ih hrow _ (hp.follow hstep)
  refine hfollow _ (fun _ => holdsNull_of_mem_steps h) _ ?_
  split
  · exact plain_root
  · exact hbase

end Path

/-! ## Where loads start from -/

variable {env : Environment} {outer inner main s : Script} {path : Option Path} {written : String}

/-- **No null character is written** in the directories that loads start from. -/
structure Environment.Plain (env : Environment) (path : Option Path) : Prop where
  directory : env.workspace.directory.Plain
  base : env.options.baseDirectory.any Path.holdsNull = false
  path : ∀ p ∈ path, p.Plain

namespace Environment.Plain

theorem plain_base (h : env.Plain path) : (env.base path).Plain := by
  cases path with
  | some p => exact (h.path p rfl).parent
  | none =>
    have hbase := h.base
    simp only [Environment.base]
    split
    · next given hgiven =>
      rw [hgiven] at hbase
      exact h.directory.resolve hbase
    · exact h.directory

/-- **The system can be asked** for what is written without one. -/
theorem reaches (h : env.Plain path) (hwritten : Path.holdsNull written = false) :
    env.reaches written path = true := by
  have hbase : env.baseHoldsNull path = false := by
    cases path with
    | none => exact h.base
    | some p => exact (h.path p rfl).parent.holdsNull_render
  rw [Environment.reaches, hwritten, hbase]
  simp

theorem enters (h : env.Plain outer.path) (henters : Enters env outer inner) :
    env.Plain inner.path := by
  obtain @⟨_, _, held, ⟨_, _, _, _, _, written, _, _, hreaches, _, rfl⟩, _, _⟩ := henters
  rw [Environment.reaches, Bool.and_eq_true, Bool.not_eq_true'] at hreaches
  exact { h with path := fun p hp => Option.some.inj hp ▸ h.plain_base.resolve hreaches.1 }

/-- **And so it stays** from one script to the next. -/
theorem of_reached (h : env.Plain main.path) (hreached : ReflTransGen (Enters env) main s) :
    env.Plain s.path := by
  induction hreached with
  | refl => exact h
  | tail _ henters ih => exact ih.enters henters

end Environment.Plain

end ScenarioScript
