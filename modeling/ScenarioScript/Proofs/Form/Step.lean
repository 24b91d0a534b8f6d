import Mathlib.Algebra.Group.Nat.Defs
import ScenarioScript.Proofs.Blocks.Outline
import ScenarioScript.Proofs.Containment.Holdings
import ScenarioScript.Proofs.Form.Command

/-!
# Proofs/Form/Step — the form of settings and steps

Settings and steps are made of statements, and keep their form with each of them.

* `Config.WellFormed` — settings hold expressions, and the values that are read at once are of the
  form that they are read from;
* `Step.WellFormed` — a step has a target exactly if its kind has one, it sets no endpoint, and it
  has comparisons in nothing but what it expects;
* `StepBlock.wellFormed` — so it is with every step that has a meaning.
-/

namespace ScenarioScript

open Outcome Outline Text

/-! ## Settings -/

theorem Warmup.text_mem (mode : Warmup) : mode.text ∈ ["true", "false", "'auto'"] := by
  cases mode <;> decide

/-- Digits spell a number with no more digits. -/
theorem Text.decimalNumber_lt (digits : List Char) :
    decimalNumber digits < 10 ^ digits.length := by
  induction digits using List.reverseRecOn with
  | nil => exact Nat.one_pos
  | append_singleton digits c ih =>
    have hdigit : (decimalValue? c).getD 0 < 10 := by
      cases hc : decimalValue? c with
      | none => exact Nat.succ_pos 9
      | some n => exact decimalValue?_lt hc
    rw [decimalNumber_concat, List.length_append, List.length_singleton, Nat.pow_succ]
    omega

/-- **A count** has no more digits than a count may have. -/
theorem lt_of_countValue {word : String} {value : Tree} {count : Nat}
    (h : countValue word value = .ok count) : count < 10 ^ digitLimit := by
  simp only [countValue] at h
  split at h
  · split at h
    · next hlimit =>
      obtain rfl := Except.ok.inj h
      have hpow := Nat.pow_le_pow_right (by decide : 0 < 10) hlimit
      exact (decimalNumber_lt _).trans_le hpow
    · exact absurd h error_ne_ok
  · exact absurd h error_ne_ok

/-- **The form of settings.** -/
structure Config.WellFormed (c : Config) : Prop where
  /-- There are no comparisons, and no current values out of their places. -/
  trees : c.Holds (Tree.Legible false)
  /-- A mode of warming up is written in one of three ways. -/
  warmup : ∀ mode ∈ c.warmup, mode.text ∈ ["true", "false", "'auto'"]
  /-- A count is a natural number, and there is a limit to it. -/
  samples : ∀ count ∈ c.samples, 0 ≤ count ∧ count < 10 ^ digitLimit

namespace Config

variable {c inner : Config} {setting : Setting}

theorem wellFormed_empty : Config.WellFormed {} := ⟨holds_empty, nofun, nofun⟩

/-- **One setting more.** -/
theorem WellFormed.apply (h : c.WellFormed)
    (hvalue : ∀ t ∈ setting.value?, Tree.Legible false t) :
    Yields WellFormed (c.apply setting) := by
  intro c' hc'
  refine ⟨h.trees.apply hvalue c' hc', fun mode _ => mode.text_mem, ?_⟩
  cases setting with
  | samples value =>
    obtain ⟨count, hcount, rfl⟩ := map_eq_ok.1 hc'
    intro n hn
    obtain rfl := Option.some.inj hn
    exact ⟨Nat.zero_le _, lt_of_countValue hcount⟩
  | followRedirects | warmup =>
    obtain ⟨_, -, rfl⟩ := map_eq_ok.1 hc'
    exact h.samples
  | _ =>
    obtain rfl := Except.ok.inj hc'
    exact h.samples

theorem WellFormed.endpoint (h : c.WellFormed) {value : Tree} (hvalue : value.Legible false) :
    Config.WellFormed { c with endpoint := some value } :=
  { h with trees := { h.trees with endpoint := fun _ ht => Option.some.inj ht ▸ hvalue } }

theorem WellFormed.name (h : c.WellFormed) {value : Tree} (hvalue : value.Legible false) :
    Config.WellFormed { c with name := some value } :=
  { h with trees := { h.trees with name := fun _ ht => Option.some.inj ht ▸ hvalue } }

/-- **One level inside another.** -/
theorem WellFormed.merged (h : c.WellFormed) (hinner : inner.WellFormed) :
    (c.merged inner).WellFormed where
  trees := h.trees.merged hinner.trees
  warmup mode _ := mode.text_mem
  samples count hcount :=
    (Option.or_eq_some_iff.1 hcount).elim (hinner.samples count) fun hc => h.samples count hc.2

/-- No setting is the endpoint. -/
theorem endpoint_apply {c' : Config} (h : c.apply setting = .ok c') : c'.endpoint = c.endpoint := by
  cases setting with
  | followRedirects | warmup | samples =>
    obtain ⟨_, -, rfl⟩ := map_eq_ok.1 h
    rfl
  | _ =>
    obtain rfl := Except.ok.inj h
    rfl

end Config

/-! ## Steps -/

/-- **The form of a step.** -/
structure Step.WellFormed (s : Step) : Prop where
  /-- It has a target exactly if its kind needs one. -/
  targeted : s.target.isSome = true ↔ s.kind = .visit ∨ s.kind = .click ∨ s.kind = .submit
  target : ∀ t ∈ s.target, t.Legible false
  config : s.config.WellFormed
  /-- The endpoint is none of its settings. -/
  endpoint : s.config.endpoint = none
  method : ∀ t ∈ s.method, t.Legible false
  body : ∀ t ∈ s.body, t.Legible false
  params : ∀ p ∈ s.params, IsName p.name.toList ∧ p.value.Legible false
  /-- A file comes with its path and no more than a name. -/
  files : ∀ p ∈ s.params, p.value.callName? = some "file" →
    1 ≤ p.value.callArgs.length ∧ p.value.callArgs.length ≤ 2
  /-- Comparisons are allowed in what is expected. -/
  expects : ∀ t ∈ s.expects, t.Legible true
  sets : ∀ b ∈ s.sets, IsName b.name.toList ∧ b.value.Legible false
  /-- It stands on a line of its script. -/
  line : 1 ≤ s.line

theorem StepKind.hasTarget_iff (kind : StepKind) :
    kind.hasTarget = true ↔ kind = .visit ∨ kind = .click ∨ kind = .submit := by
  cases kind <;> decide

/-- A parameter passes the check exactly if a file comes with one argument or two. -/
theorem Param.wellFormed_iff {p : Param} : p.wellFormed = true ↔
    (p.value.callName? = some "file" →
      1 ≤ p.value.callArgs.length ∧ p.value.callArgs.length ≤ 2) := by
  simp only [wellFormed, isFile, Bool.or_eq_true, Bool.not_eq_true', beq_eq_false_iff_ne, ne_eq,
    Bool.and_eq_true, decide_eq_true_eq]
  exact imp_iff_not_or.symm

namespace Outline

variable {path : Option String}

/-- **One clause more** keeps the form of a step. -/
theorem Clause.wellFormed_apply {c : Clause} {step step' : Step}
    (hc : c.statement.command.WellFormed) (hstep : step.WellFormed)
    (h : c.apply step = some step') : step'.WellFormed := by
  cases c with
  | setting mark choice =>
    obtain ⟨config, hconfig, rfl⟩ := Option.map_eq_some_iff.1 h
    have happly := toOption_eq_some.1 hconfig
    exact { hstep with
      config := hstep.config.apply hc config happly
      endpoint := (Config.endpoint_apply happly).trans hstep.endpoint }
  | name mark value =>
    obtain rfl := Option.some.inj h
    exact { hstep with config := hstep.config.name hc }
  | method mark value =>
    obtain rfl := Option.some.inj h
    exact { hstep with method := fun _ ht => Option.some.inj ht ▸ hc }
  | body mark value =>
    obtain rfl := Option.some.inj h
    exact { hstep with body := fun _ ht => Option.some.inj ht ▸ hc }
  | json mark value =>
    obtain ⟨flag, -, rfl⟩ := Option.map_eq_some_iff.1 h
    exact { hstep with }
  | param mark bound value =>
    obtain ⟨hformed, hparam⟩ := Option.ite_none_right_eq_some.1 h
    obtain rfl := Option.some.inj hparam
    exact { hstep with
      params := forall_mem_concat hstep.params hc
      files := forall_mem_concat hstep.files (Param.wellFormed_iff.1 hformed) }
  | expect mark condition =>
    obtain rfl := Option.some.inj h
    exact { hstep with expects := forall_mem_concat hstep.expects hc }
  | bind mark bound value =>
    obtain rfl := Option.some.inj h
    exact { hstep with sets := forall_mem_concat hstep.sets hc }

theorem StepBlock.wellFormed_head {b : StepBlock} (h : b.opening.WellFormed) :
    (b.head path).WellFormed where
  targeted := by
    rw [← StepKind.hasTarget_iff]
    exact Bool.eq_iff_iff.1 h.command.1
  target := h.command.2
  config := Config.wellFormed_empty
  endpoint := rfl
  method := nofun
  body := nofun
  params := nofun
  files := nofun
  expects := nofun
  sets := nofun
  line := h.line

/-- **A step that has a meaning** is of its form. -/
theorem StepBlock.wellFormed {b : StepBlock} {step : Step}
    (hb : ∀ s ∈ b.statements, s.WellFormed) (h : b.meaning path = some step) :
    step.WellFormed := by
  obtain ⟨hopening, hclauses⟩ := List.forall_mem_cons.1 hb
  refine forall_foldlM (fun c hc step hstep step' happly => ?_) (wellFormed_head hopening) h
  exact c.wellFormed_apply (hclauses _ (List.mem_map_of_mem hc)).command hstep happly

/-- **Clauses leave the head of a step alone.** -/
theorem StepBlock.head_of_meaning {b : StepBlock} {step : Step} (h : b.meaning path = some step) :
    step.kind = b.kind ∧ step.target = b.target ∧ step.line = b.mark.line ∧ step.path = path := by
  have hhead : ∀ c ∈ b.clauses, ∀ step : Step,
      (step.kind = b.kind ∧ step.target = b.target ∧ step.line = b.mark.line ∧ step.path = path) →
      ∀ step', c.apply step = some step' →
        step'.kind = b.kind ∧ step'.target = b.target ∧ step'.line = b.mark.line ∧
          step'.path = path := by
    intro c _ step hstep step' happly
    cases c with
    | setting | json =>
      obtain ⟨_, -, rfl⟩ := Option.map_eq_some_iff.1 happly
      exact hstep
    | param =>
      obtain ⟨-, hparam⟩ := Option.ite_none_right_eq_some.1 happly
      obtain rfl := Option.some.inj hparam
      exact hstep
    | _ =>
      obtain rfl := Option.some.inj happly
      exact hstep
  exact forall_foldlM hhead ⟨rfl, rfl, rfl, rfl⟩ h

end Outline

end ScenarioScript
