import ScenarioScript.Proofs.Loading.Attempts

/-!
# Proofs/Containment/Failing — where a failure comes from

A failure of reading a script is a fault, or there is a statement to account for it, in the script
itself or in one that is reached from it (`accounted_readScript`): a setting with a count that is
too long, or a load of what the system cannot be asked for.
-/

namespace ScenarioScript

open Relation Outcome

variable {env : Environment} {s inner : Script}

namespace Cause

/-- Is it the refusal of a load? -/
def isRefusal : Cause → Bool
  | unresolvedLoad .. | loadCycle _ => true
  | _ => false

/-- Is it a fault that a script can have: one of its text, or of what it brings in? -/
def isOfScript (cause : Cause) : Bool := cause.isLocal || cause.isExpansion || cause.isRefusal

end Cause

/-- **What comes of a load** that a script asks for: the system cannot be asked for the path, or the
load is refused, or another script is entered, and it is what comes of that. -/
theorem IsLoadOf.outcome_cases {load : Traced ScenarioSet}
    (h : IsLoadOf (env.site s.loading s.path) env.unit s.text load) :
    (∃ statement written, Says env.unit s.text statement ∧ statement.command = .load written ∧
        env.reaches written s.path = false ∧ load.outcome = .error .nullInPath) ∨
      (∃ d, load.outcome = .error (.fault d) ∧ d.cause.isOfScript = true) ∨
      ∃ inner origin, Enters env s inner ∧ load.outcome =
        (readScript env inner.loading inner.path inner.text).outcome.mapError
          (·.mapFault (·.addFrame origin)) := by
  obtain ⟨statement, written, hsaid, hcommand, rfl⟩ := h
  by_cases hreaches : env.reaches written s.path = true
  · rw [load_site_of_reaches hreaches]
    by_cases hmem : env.resolve written s.path ∈ s.stack
    · exact .inr (.inl ⟨_, congrArg Traced.outcome (loadScript_of_mem hmem), rfl⟩)
    · cases hread : env.read (env.resolve written s.path) with
      | error why =>
        exact .inr (.inl
          ⟨_, congrArg Traced.outcome (loadScript_of_unreadable hmem hread), rfl⟩)
      | ok held =>
        refine .inr (.inr ⟨_, .loadedFrom (s.path.map Path.render) statement.position,
          .enter (hsaid.asks hcommand hreaches) hmem hread, ?_⟩)
        exact congrArg Traced.outcome (loadScript_of_read hmem hread)
  · rw [load_site_of_not_reaches hreaches]
    exact .inl ⟨statement, written, hsaid, hcommand, Bool.not_eq_true _ ▸ hreaches, rfl⟩

/-- **A failure that is accounted for**: it is a fault that a script can have, or a statement of a
script that is reached asks for too much. -/
inductive Failure.Accounted (env : Environment) (s : Script) : Failure → Prop where
  | fault {d : Diagnostic} (h : d.cause.isOfScript = true) : Accounted env s (.fault d)
  | tooLong {inner : Script} {statement : Statement} {value : Tree}
      (hreached : ReflTransGen (Enters env) s inner) (hsaid : Says env.unit inner.text statement)
      (hcommand : statement.command = .setting (.samples value)) (hlong : value.CountTooLong) :
      Accounted env s .numeralTooLong
  | nullInPath {inner : Script} {statement : Statement} {written : String}
      (hreached : ReflTransGen (Enters env) s inner) (hsaid : Says env.unit inner.text statement)
      (hcommand : statement.command = .load written)
      (hnull : env.reaches written inner.path = false) : Accounted env s .nullInPath

namespace Failure

variable {failure : Failure}

theorem InText.accounted (h : failure.InText) : failure.Accounted env s := by
  cases h with
  | fault hlocal => exact .fault (by simp [Cause.isOfScript, hlocal])

/-- What a script says itself accounts for a failure. -/
theorem OfText.accounted (h : failure.OfText env.unit s.text) : failure.Accounted env s := by
  cases h with
  | inText h => exact h.accounted
  | tooLong hsaid hcommand hlong => exact .tooLong .refl hsaid hcommand hlong
  | expansion h => exact .fault (by simp [Cause.isOfScript, h])

/-- And so does what is said in a script that it enters. -/
theorem Accounted.of_enters (h : failure.Accounted env inner) (henters : Enters env s inner) :
    failure.Accounted env s := by
  cases h with
  | fault h => exact .fault h
  | tooLong hreached hsaid hcommand hlong =>
    exact .tooLong (hreached.head henters) hsaid hcommand hlong
  | nullInPath hreached hsaid hcommand hnull =>
    exact .nullInPath (hreached.head henters) hsaid hcommand hnull

/-- What is written into a diagnostic does not matter, if the cause is left as it is. -/
theorem Accounted.mapFault {f : Diagnostic → Diagnostic} (h : failure.Accounted env s)
    (hf : ∀ d, (f d).cause = d.cause) : (failure.mapFault f).Accounted env s := by
  cases h with
  | fault h => exact .fault ((congrArg Cause.isOfScript (hf _)).trans h)
  | tooLong hreached hsaid hcommand hlong => exact .tooLong hreached hsaid hcommand hlong
  | nullInPath hreached hsaid hcommand hnull => exact .nullInPath hreached hsaid hcommand hnull

end Failure

/-- **Every failure of reading a script** is accounted for.  The induction is on entering, which
ends. -/
theorem accounted_readScript (env : Environment) (s : Script) :
    FailsOnly (Failure.Accounted env s) (readScript env s.loading s.path s.text).outcome := by
  induction s using (wellFounded_enters env).induction with
  | _ s ih =>
    rw [readScript_eq, Traced.outcome_mapFault]
    refine FailsOnly.mapError (P := Failure.Accounted env s) ?_ fun _ h =>
      h.mapFault fun d => d.cause_locate _
    have hrow := Draft.gathers_build (env.site s.loading s.path) env.unit_pos {} s.text
    refine (hrow.mono fun _ => Failure.OfText.accounted).failsOnly fun load hload => ?_
    obtain ⟨statement, written, hsaid, hcommand, hnull, houtcome⟩ | ⟨d, houtcome, hd⟩ |
      ⟨inner, origin, henters, houtcome⟩ := hload.outcome_cases
    · rw [houtcome]
      exact .error (.nullInPath .refl hsaid hcommand hnull)
    · rw [houtcome]
      exact .error (.fault hd)
    · rw [houtcome]
      exact (ih inner henters).mapError fun _ h =>
        (h.of_enters henters).mapFault fun d => d.cause_addFrame origin

end ScenarioScript
