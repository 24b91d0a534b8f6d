import ScenarioScript.Proofs.Scope.Surroundings
import ScenarioScript.Proofs.Settings.Declarations

/-!
# Proofs/Settings/Inheritance — the settings in force for a step

A step hands down nothing, and inherits from its scenario and from the top level of the script where
the scenario stands.  What is above the scenario there counts, and all that stands directly in the
scenario, be it above or below the step.

* `Passage.Brings.inherits` — so it is for each step of a passage's scenario;
* `parse_inherits` — and so for each step of each scenario of a script.
-/

namespace ScenarioScript

open Relation Outcome Outline

/-- **Settings in force where three levels declare some**: of each setting the last declaration of the
innermost level that has one, and of the headers all, those of the outer levels first. -/
structure Config.Inherits (root direct own : List Contribution) (c : Config) : Prop where
  value : ∀ {α : Type} (k : Scalar α), (k.get c).map .ok =
    (Contribution.last? k own).or ((Contribution.last? k direct).or (Contribution.last? k root))
  headers : c.headers = root.flatMap Contribution.headers ++ direct.flatMap Contribution.headers ++
    own.flatMap Contribution.headers

theorem Config.Gathered.inherits {root direct own : List Contribution} {c : Config}
    (h : Config.Gathered {} (root ++ direct ++ own) c) : c.Inherits root direct own where
  value {α} k := by
    have hempty : (k.get {}).map (@Except.ok Failure α) = none := by cases k <;> rfl
    rw [h.value, hempty, Option.or_none, Contribution.last?_append, Contribution.last?_append]
  headers := by
    rw [h.headers, List.flatMap_append, List.flatMap_append]
    rfl

variable {env : Environment} {s : Script} {p : Passage} {before : Outline}

/-- What a step's block contributes to the settings of the step. -/
def Outline.StepBlock.contributed (b : StepBlock) : List Contribution :=
  b.clauses.flatMap Clause.contributed

/-- What stands directly in a passage and contributes to the settings of its scenario. -/
def Passage.contributed (p : Passage) : List Contribution := p.members.flatMap Member.contributed

/-- What a part of a script contributes to the settings at top level. -/
def Script.contributed (env : Environment) (s : Script) (o : Outline) : List Contribution :=
  o.flatMap (Entry.contributed (env.site s.loading s.path))

theorem Passage.Brings.gathered {step : Step} {b : StepBlock} (h : p.Brings env s step b) :
    Config.Gathered {} b.contributed step.config := by
  cases h with
  | direct _ hmeaning => exact StepBlock.gathered hmeaning
  | included _ _ _ _ _ hmeaning => exact StepBlock.gathered hmeaning

/-- **The settings of a passage's scenario** are gathered at top level and then in the passage. -/
theorem Passage.Below.gathered {scenario : Scenario} (h : p.Below env s before)
    (hp : p.scenario? = some scenario) :
    Config.Gathered {} (s.contributed env before ++ p.contributed) scenario.config := by
  have habove : Config.Gathered {} (s.contributed env before) p.above.config :=
    gathered_meaning h.above_eq
  exact habove.append (gathered_fill hp)

/-- **A step of a passage's scenario** inherits from the passage and from what is above it. -/
theorem Passage.Brings.inherits {scenario : Scenario} {step : Step} {b : StepBlock}
    (h : p.Brings env s step b) (hbelow : p.Below env s before)
    (hp : p.scenario? = some scenario) :
    (scenario.stepConfig step).Inherits (s.contributed env before) p.contributed b.contributed :=
  ((hbelow.gathered hp).append (h.gathered.merged scenario.config)).inherits

/-- **Settings are inherited.**  Every scenario of a script stands in a passage, and every step of it
has a block of its own.  The settings in force for the step are those that the block declares last,
else the passage, else what is above the passage in its script, where what is loaded contributes what
it ends with; headers are those of all three, in this order. -/
theorem parse_inherits (env : Environment) (path : Option String) (text : String)
    (set : ScenarioSet) (h : (parse env path text).outcome = .ok set) :
    ∀ scenario ∈ set.scenarios, ∃ (s : Script) (before : Outline) (p : Passage),
      ReflTransGen (Enters env) (env.main path text) s ∧ p.Below env s before ∧
        (∃ key, p.scenario? = some { scenario with key }) ∧
          ∀ step ∈ scenario.steps, ∃ b : StepBlock, p.Brings env s step b ∧
            (scenario.stepConfig step).Inherits (s.contributed env before) p.contributed
              b.contributed := by
  obtain ⟨-, unnamed, hread, rfl⟩ := outcome_parse_eq_ok.1 h
  rw [forall_nameAnonymous_iff fun _ _ => Iff.rfl]
  intro scenario hscenario
  obtain ⟨p, hwrote, hp⟩ := exists_wrote hread hscenario
  obtain ⟨s, before, hreached, hbelow⟩ := exists_below hwrote
  refine ⟨s, before, p, hreached, hbelow, ⟨scenario.key, hp⟩, fun step hstep => ?_⟩
  obtain ⟨b, hbrings⟩ := exists_brings hbelow hp step hstep
  exact ⟨b, hbrings, hbrings.inherits hbelow hp⟩

/-- A script with settings, and with a group whose step has some as well. -/
def lendingText : String :=
  "samples 3\nheader a\nfollow_redirects true\ngroup g\n reload\n  follow_redirects false\n  header c\n"

/-- The file that the script is in. -/
def lending : Environment where
  workspace := { files := .ofList [(⟨["l"], by decide⟩, lendingText.toUTF8)] }

/-- A script that loads the other one, and includes its group. -/
def borrowingText : String :=
  "load \"l\"\nsamples 0\nscenario\n include g\n reload\n header b\n"

/-- A count of zero and a truth value that does not hold prevail over outer ones, and a header that
stands behind a step is in force for it. -/
theorem parse_inherits_borrowing :
    ∃ set, (parse lending none borrowingText).outcome = .ok set ∧
      (∀ scenario ∈ set.scenarios, ∃ (s : Script) (before : Outline) (p : Passage),
        ReflTransGen (Enters lending) (lending.main none borrowingText) s ∧
          p.Below lending s before ∧ (∃ key, p.scenario? = some { scenario with key }) ∧
            ∀ step ∈ scenario.steps, ∃ b : StepBlock, p.Brings lending s step b ∧
              (scenario.stepConfig step).Inherits (s.contributed lending before) p.contributed
                b.contributed) ∧
      (set.scenarios.flatMap fun s => s.steps.map s.stepConfig).map
        (fun c => (c.samples, c.followRedirects, c.headerTexts)) =
          [(some 0, some false, ["a", "b", "c"]), (some 0, some true, ["a", "b"])] := by
  have hrun : (parse lending none borrowingText).outcome.toOption.map (fun set =>
      (set.scenarios.flatMap fun s => s.steps.map s.stepConfig).map
        fun c => (c.samples, c.followRedirects, c.headerTexts)) =
          some [(some 0, some false, ["a", "b", "c"]), (some 0, some true, ["a", "b"])] := by
    decide +kernel
  obtain ⟨set, hset, hconfigs⟩ := Option.map_eq_some_iff.1 hrun
  rw [toOption_eq_some] at hset
  exact ⟨set, hset, parse_inherits lending none borrowingText set hset, hconfigs⟩

end ScenarioScript
