import ScenarioScript.Proofs.Blocks.Run
import ScenarioScript.Proofs.Faults.Block
import ScenarioScript.Proofs.Faults.Line
import ScenarioScript.Proofs.Groups.Unrolling

/-!
# Proofs/Loading/Gathering — building is a row of loads

What a script does to the files there are, and how it fails, is what its loads do one after another,
as far as it is not plain from its own text.  `Gathers` says so of a traced result, and
`Draft.gathers_build` of building: in between its loads nothing touches a file, and all that can go
wrong is what can go wrong with a statement.
-/

namespace ScenarioScript

open Outcome

variable {α β : Type}

/-! ## A row of loads -/

/-- **A traced result that gathers loads**: it is one load of a certain sort after another; one that
fails ends it, and so may a failure of another sort. -/
inductive Gathers (Q : Failure → Prop) (P : Traced ScenarioSet → Prop) : Traced α → Prop where
  | quiet {t : Traced α} (hattempts : t.attempts = []) (hfails : FailsOnly Q t.outcome) :
      Gathers Q P t
  | failed {load : Traced ScenarioSet} {failure : Failure} (hload : P load)
      (hfailure : load.outcome = .error failure) : Gathers Q P ⟨.error failure, load.attempts⟩
  | after {load : Traced ScenarioSet} {set : ScenarioSet} {t : Traced α} (hload : P load)
      (hset : load.outcome = .ok set) (ht : Gathers Q P t) :
      Gathers Q P ⟨t.outcome, load.attempts ++ t.attempts⟩

namespace Gathers

variable {Q Q' : Failure → Prop} {P : Traced ScenarioSet → Prop}

theorem pure (a : α) : Gathers Q P (pure a : Traced α) := .quiet rfl (.ok a)

/-- A result that took no attempt. -/
theorem liftM {r : Except Failure α} (h : FailsOnly Q r) : Gathers Q P (liftM r : Traced α) :=
  .quiet rfl h

/-- A single load. -/
theorem load {load : Traced ScenarioSet} (h : P load) : Gathers Q P load := by
  obtain ⟨outcome, attempts⟩ := load
  cases outcome with
  | error failure => exact .failed h rfl
  | ok set =>
    have hset : Gathers Q P (⟨.ok set, attempts ++ []⟩ : Traced ScenarioSet) :=
      .after h rfl (.pure set)
    rwa [List.append_nil] at hset

theorem mono {t : Traced α} (h : Gathers Q P t) (hQ : ∀ failure, Q failure → Q' failure) :
    Gathers Q' P t := by
  induction h with
  | quiet hattempts hfails => exact .quiet hattempts (hfails.mono hQ)
  | failed hload hfailure => exact .failed hload hfailure
  | after hload hset _ ih => exact .after hload hset ih

/-- **One row behind another** is a row. -/
theorem bind {t : Traced α} {next : α → Traced β} (ht : Gathers Q P t)
    (hnext : ∀ a, t.outcome = .ok a → Gathers Q P (next a)) : Gathers Q P (t >>= next) := by
  induction ht with
  | @quiet t hattempts hfails =>
    obtain ⟨outcome, attempts⟩ := t
    obtain rfl : attempts = [] := hattempts
    cases outcome with
    | error failure => exact .quiet rfl (.error (hfails failure rfl))
    | ok a => exact hnext a rfl
  | failed hload hfailure => exact .failed hload hfailure
  | @after load set t hload hset ht ih =>
    obtain ⟨outcome, attempts⟩ := t
    cases outcome with
    | error failure => exact .after hload hset (ih hnext)
    | ok a =>
      have hrow := Gathers.after hload hset (ih hnext)
      rw [Traced.bind_eq, Traced.andThen_of_ok rfl, ← List.append_assoc] at hrow
      exact hrow

theorem foldlM {f : α → β → Traced α} {xs : List β} (h : ∀ x ∈ xs, ∀ a, Gathers Q P (f a x))
    (a : α) : Gathers Q P (xs.foldlM f a) := by
  induction xs generalizing a with
  | nil => exact .pure a
  | cons x xs ih =>
    obtain ⟨hx, hxs⟩ := List.forall_mem_cons.1 h
    rw [List.foldlM_cons]
    exact (hx a).bind fun a' _ => ih hxs a'

/-- **A row fails** as one of its loads does, or in the other way that it may. -/
theorem failsOnly {t : Traced α} (h : Gathers Q P t)
    (hload : ∀ load, P load → FailsOnly Q load.outcome) : FailsOnly Q t.outcome := by
  induction h with
  | quiet _ hfails => exact hfails
  | failed h hfailure => exact .error (hload _ h _ hfailure)
  | after _ _ _ ih => exact ih

end Gathers

/-! ## Building -/

/-- **A text says a statement**: a line of it is the statement. -/
def Says (unit : Option Int) (text : String) (s : Statement) : Prop :=
  ∃ lines, Layout.scan unit text = .ok lines ∧ ∃ line ∈ lines, classify line = .ok s

theorem Says.complete {unit : Option Int} {text : String} {s : Statement} (h : Says unit text s) :
    s.Complete := by
  obtain ⟨_, _, _, _, hline⟩ := h
  exact complete_of_classify hline

/-- What it is to load what a statement of a text asks for. -/
def IsLoadOf (site : Site) (unit : Option Int) (text : String) (load : Traced ScenarioSet) : Prop :=
  ∃ s written, Says unit text s ∧ s.command = .load written ∧
    load = site.load written (.loadedFrom site.path s.position)

/-- **A failure of a text**, as far as it loads nothing: a fault of the text, a failure of one of its
statements, or one of bringing in a group. -/
inductive Failure.OfText (unit : Option Int) (text : String) : Failure → Prop where
  | inText {failure : Failure} (h : failure.InText) : OfText unit text failure
  | tooLong {s : Statement} {value : Tree} (hsaid : Says unit text s)
      (hcommand : s.command = .setting (.samples value)) (hlong : value.CountTooLong) :
      OfText unit text .numeralTooLong
  | expansion {d : Diagnostic} (h : d.cause.isExpansion = true) : OfText unit text (.fault d)

namespace Failure

variable {unit : Option Int} {text : String} {s : Statement} {failure : Failure}
  {Q : Int → Int → Prop}

theorem At.ofText (h : failure.At Q) : failure.OfText unit text := .inText h.inText

theorem OfStatement.ofText (h : failure.OfStatement Q s) (hsaid : Says unit text s) :
    failure.OfText unit text := by
  cases h with
  | here h => exact h.ofText
  | tooLong hcommand hlong => exact .tooLong hsaid hcommand hlong

theorem OfInclusion.ofText {path : Option String} {groups : OrderedMap String Group}
    (h : failure.OfInclusion path groups s) : failure.OfText unit text := by
  cases h with
  | @expansion group d _ h =>
    exact .expansion (isExpansion_expandGroup groups ⟨group, s.line, s.column, path⟩ [] d h)

end Failure

theorem Statement.standsAnywhere (s : Statement) : s.StandsAt Anywhere := ⟨trivial, fun _ _ => trivial⟩

namespace Draft

variable {P : Traced ScenarioSet → Prop} {site : Site} {unit : Option Int} {text : String}
  {s : Statement}

/-- A result that fails as a statement of the text may. -/
theorem gathers_of_ofStatement {Q : Int → Int → Prop} {r : Except Failure α}
    (hsaid : Says unit text s) (h : FailsOnly (Failure.OfStatement Q s) r) :
    Gathers (Failure.OfText unit text) P (liftM r : Traced α) :=
  .liftM (h.mono fun _ h => h.ofText hsaid)

/-- A result that fails for a fault of the text. -/
theorem gathers_of_at {Q : Int → Int → Prop} {r : Except Failure α}
    (h : FailsOnly (Failure.At Q) r) :
    Gathers (Failure.OfText unit text) P (liftM r : Traced α) :=
  .liftM (h.mono fun _ => Failure.At.ofText)

theorem gathers_addToRoot (set : ScenarioSet) (hsaid : Says unit text s)
    (hload : ∀ written, s.command = .load written →
      P (site.load written (.loadedFrom site.path s.position))) :
    Gathers (Failure.OfText unit text) P (addToRoot site set s) := by
  have hs := s.standsAnywhere
  unfold addToRoot
  split
  · exact .pure _
  · exact .pure _
  · next setting hcommand =>
    have hfails := set.config.fails_apply_of_command hcommand hs
    exact (gathers_of_ofStatement hsaid hfails).bind fun config _ => .pure _
  · next target hcommand =>
    exact (Gathers.load (hload target hcommand)).bind fun loaded _ => .pure _
  · exact .pure _
  · exact .pure _
  · exact gathers_of_at (at_notAllowed hs .topLevel)

theorem gathers_takeIn (d : Draft) (hsaid : Says unit text s)
    (hload : ∀ written, s.command = .load written →
      P (site.load written (.loadedFrom site.path s.position))) :
    Gathers (Failure.OfText unit text) P (takeIn site d s) := by
  have hs := s.standsAnywhere
  unfold takeIn
  split
  · exact gathers_addToRoot d.finished hsaid hload
  · next scenario _ =>
    have hfails := fails_addToScenario site.path d.finished.groups scenario hsaid.complete hs
    refine Gathers.bind (.liftM (hfails.mono fun failure h => ?_)) fun block _ => .pure _
    obtain h | h := h
    · exact h.ofText hsaid
    · exact h.ofText
  · exact (gathers_of_at (at_addToGroup _ _ hsaid.complete hs)).bind fun block _ => .pure _
  · exact (gathers_of_ofStatement hsaid (fails_addToStep _ hs)).bind fun step _ => .pure _
  · exact (gathers_of_ofStatement hsaid (fails_addToStep _ hs)).bind fun step _ => .pure _

theorem gathers_add (d : Draft) (hsaid : Says unit text s)
    (hload : ∀ written, s.command = .load written →
      P (site.load written (.loadedFrom site.path s.position))) :
    Gathers (Failure.OfText unit text) P (d.add site s) := by
  have hstep : ∀ t ∈ d.block.stepExpressions, t.StandsAt Anywhere := fun _ _ => trivial
  rw [add_eq]
  refine (gathers_of_at (at_closeTo hstep s.depth)).bind fun c _ => ?_
  unfold place
  split
  · exact gathers_of_at (.at rfl s.standsAnywhere.start)
  · exact gathers_takeIn c hsaid hload

/-- **Building is a row of loads**, each of them asked for by the text. -/
theorem gathers_build (site : Site) {unit : Option Int} (hunit : ∀ width ∈ unit, 0 < width)
    (d : Draft) (text : String) :
    Gathers (Failure.OfText unit text) (IsLoadOf site unit text) (build site unit d text) := by
  refine (gathers_of_at (Layout.at_scan hunit text)).bind fun lines hlines =>
    Gathers.bind (Gathers.foldlM (fun line hline d => ?_) d) fun d _ => ?_
  · have hclean : line.Clean := Layout.clean_of_mem_scan hlines line hline
    refine (gathers_of_at (at_classify hclean)).bind fun s hs => ?_
    have hsaid : Says unit text s := ⟨lines, hlines, line, hline, hs⟩
    exact gathers_add d hsaid fun written hcommand =>
      ⟨s, written, hsaid, hcommand, rfl⟩
  · have hstep : ∀ t ∈ d.block.stepExpressions, t.StandsAt Anywhere := fun _ _ => trivial
    exact gathers_of_at (at_closeAll hstep)

end Draft

end ScenarioScript
