import ScenarioScript.Proofs.Form.Parse
import ScenarioScript.Proofs.Report.Statement

/-!
# Proofs/Report/Reading — what reading the rows of a report leads to

Rows of a report are followed as they are read, from what there is above them to what there is below
(`Row.Turns`): those of a step by clauses, those of a scenario by members, and those of a set by
entries.  On each level what there is **echoes** what was reported so far: it has the summary of it.

* `Row.Turns.append`, `Row.Turns.flatMap`, `Row.Turns.block` — rows behind one another, and rows
  below another;
* `turns_settingRows`, `turns_step`, `turns_scenario`, `turns_scenarios` — what the rows of a
  well-formed step, scenario and set lead to.

A step is checked once more where it is read again.  It mentions nothing that it did not mention
before, and as much is visible to it as was (`Step.Echoes.forwardRef?_eq_none`).
-/

namespace ScenarioScript

open Outcome Outline Text

/-! ## Rows that lead from one state to another -/

namespace Row

variable {α β γ : Type} {statements : β → List Statement} {apply : α → β → Option α}
  {P Q R : α → Prop} {rows more : List Row}

/-- **Rows turn what is `P` into what is `Q`**: they can be written and, whatever lines they stand
on, they are read to the statements of parts which lead from one to the other. -/
structure Turns (statements : β → List Statement) (apply : α → β → Option α) (rows : List Row)
    (P Q : α → Prop) : Prop where
  writable : ∀ r ∈ rows, r.Writable
  read : ∀ number, ∃ parts : List β,
    (scannedFrom 4 number rows).mapM classify = .ok (parts.flatMap statements) ∧
      ∀ a, P a → ∃ b, parts.foldlM apply a = some b ∧ Q b

theorem scannedFrom_append (width : Nat) (number : Int) (rows more : List Row) :
    scannedFrom width number (rows ++ more) =
      scannedFrom width number rows ++ scannedFrom width (number + rows.length) more := by
  induction rows generalizing number with
  | nil => simp [scannedFrom]
  | cons r rows ih =>
    rw [List.cons_append, scannedFrom, ih, List.length_cons, scannedFrom, List.cons_append]
    congr 3
    omega

namespace Turns

theorem nil : Turns statements apply [] P P where
  writable := List.forall_mem_nil _
  read _ := ⟨[], rfl, fun a ha => ⟨a, rfl, ha⟩⟩

/-- **Rows behind one another.** -/
theorem append (h : Turns statements apply rows P Q) (hmore : Turns statements apply more Q R) :
    Turns statements apply (rows ++ more) P R where
  writable := List.forall_mem_append.2 ⟨h.writable, hmore.writable⟩
  read number := by
    obtain ⟨first, hfirst, hto⟩ := h.read number
    obtain ⟨second, hsecond, hon⟩ := hmore.read (number + rows.length)
    refine ⟨first ++ second, ?_, fun a ha => ?_⟩
    · rw [scannedFrom_append, List.mapM_append, hfirst, hsecond, List.flatMap_append]
      rfl
    · obtain ⟨b, hb, hQ⟩ := hto a ha
      obtain ⟨c, hc, hR⟩ := hon b hQ
      refine ⟨c, ?_, hR⟩
      rw [List.foldlM_append, hb]
      exact hc

/-- **Rows for each member of a list**: what has been done grows by one member at a time. -/
theorem flatMap {f : γ → List Row} {I : List γ → α → Prop} {xs : List γ}
    (h : ∀ done x rest, xs = done ++ x :: rest →
      Turns statements apply (f x) (I done) (I (done ++ [x]))) :
    Turns statements apply (xs.flatMap f) (I []) (I xs) := by
  suffices hrest : ∀ rest done, xs = done ++ rest →
      Turns statements apply (rest.flatMap f) (I done) (I xs) from hrest xs [] rfl
  intro rest
  induction rest with
  | nil =>
    intro done hdone
    rw [hdone, List.append_nil]
    exact nil
  | cons x rest ih =>
    intro done hdone
    exact (h done x rest hdone).append (ih (done ++ [x]) (by rw [hdone, List.append_assoc]; rfl))

/-- **A row for each member of a list.** -/
theorem map {f : γ → Row} {I : List γ → α → Prop} {xs : List γ}
    (h : ∀ x ∈ xs, ∀ done, Turns statements apply [f x] (I done) (I (done ++ [x]))) :
    Turns statements apply (xs.map f) (I []) (I xs) := by
  rw [List.map_eq_flatMap]
  exact flatMap fun done x rest hxs => h x (hxs ▸ List.mem_append_right _ List.mem_cons_self) done

/-- **A row for what there may be.** -/
theorem option {f : γ → Row} {I : Option γ → α → Prop} {o : Option γ}
    (h : ∀ v ∈ o, Turns statements apply [f v] (I none) (I (some v))) :
    Turns statements apply (o.map f).toList (I none) (I o) := by
  cases o with
  | none => exact nil
  | some v => exact h v rfl

variable {depth : Nat} {k : Keyword} {argument : Option String}

/-- **One row with others below it**: together they are one part. -/
theorem block {α' β' : Type} {statements' : β' → List Statement} {apply' : α' → β' → Option α'}
    {P' Q' : α' → Prop} (hargument : ∀ text ∈ argument, Tidy text.toList)
    (hrows : Turns statements' apply' rows P' Q')
    (h : ∀ line column, ∃ command,
      k.read ⟨(argument.getD "").toList, line, column⟩ = .ok command ∧
        ∀ (mark : Mark) (parts : List β'),
          (∀ a, P' a → ∃ b, parts.foldlM apply' a = some b ∧ Q' b) →
          ∃ part, statements part = mark.statement command depth :: parts.flatMap statements' ∧
            ∀ a, P a → ∃ b, apply a part = some b ∧ Q b) :
    Turns statements apply (Row.entry depth k argument :: rows) P Q where
  writable := List.forall_mem_cons.2 ⟨writable_entry depth hargument, hrows.writable⟩
  read number := by
    obtain ⟨column, hclassify⟩ := classify_entry_scanned depth k hargument 4 number
    obtain ⟨command, hread, hpart⟩ := h number column
    obtain ⟨parts, hparts, hto⟩ := hrows.read (number + 1)
    obtain ⟨part, hstatements, happly⟩ := hpart ⟨argument.getD "", number, _⟩ parts hto
    refine ⟨[part], ?_, fun a ha => ?_⟩
    · rw [hread] at hclassify
      rw [List.flatMap_singleton, hstatements, scannedFrom]
      exact mapM_cons_eq_ok.2 ⟨_, _, hclassify, hparts, rfl⟩
    · obtain ⟨b, hb, hQ⟩ := happly a ha
      exact ⟨b, by rw [List.foldlM_cons, hb]; rfl, hQ⟩

/-- **One row.** -/
theorem single {text : String} (htidy : Tidy text.toList)
    (h : ∀ line column, ∃ command, k.read ⟨text.toList, line, column⟩ = .ok command ∧
      ∀ mark : Mark, ∃ part, statements part = [mark.statement command depth] ∧
        ∀ a, P a → ∃ b, apply a part = some b ∧ Q b) :
    Turns statements apply [Row.entry depth k (some text)] P Q := by
  have hnone : Turns (fun _ : Empty => []) (fun (_ : Unit) _ => none) [] (fun _ => True)
      (fun _ => True) := nil
  refine block (fun _ htext => Option.some.inj htext ▸ htidy) hnone fun line column => ?_
  obtain ⟨command, hread, hpart⟩ := h line column
  refine ⟨command, hread, fun mark parts _ => ?_⟩
  obtain rfl : parts = [] := List.eq_nil_iff_forall_not_mem.2 fun e => e.elim
  exact hpart mark

end Turns

end Row

/-! ## Steps -/

/-- **A step mentions a name**: it is referred to in one of its expressions. -/
def Step.Mentions (s : Step) (name : String) : Prop := ∃ value ∈ s.expressions, name ∈ value.refs

/-- **A step echoes another one** as far as a summary goes: it has the summary, and mentions nothing
that the other does not mention. -/
structure Step.Echoes (s : Step) (x : Step.Summary) (echo : Step) : Prop where
  summary : echo.summary = x
  holds : echo.Holds fun t => ∀ name ∈ t.refs, s.Mentions name

/-- A parameter that is read again sends the same. -/
theorem Param.summary_rebase (p : Param) (b : Base) :
    summary ⟨p.name, p.value.rebase b⟩ = p.summary := by
  by_cases hfile : p.value.callName? == some "file" <;>
    simp [summary, isFile, filePath?, fileName?, Tree.callArgs_rebase, hfile, Function.comp_def]

namespace Step

variable {s echo : Step} {x : Step.Summary} {t : Tree}

/-- What is read again mentions what it mentioned. -/
theorem mentions_of_mem (ht : t ∈ s.expressions) (b : Base) :
    ∀ name ∈ (t.rebase b).refs, s.Mentions name := fun _ hname =>
  ⟨t, ht, Tree.refs_rebase b t ▸ hname⟩

theorem setNames_eq (s : Step) : s.setNames = s.summary.sets.map Prod.fst := by
  simp [setNames, summary, Function.comp_def]

/-- **An echo passes the check** that the step passes. -/
theorem Echoes.forwardRef?_eq_none {visible : List String} (h : s.Echoes s.summary echo)
    (hscope : s.forwardRef? visible = none) : echo.forwardRef? visible = none := by
  rw [forwardRef?_eq_none_iff] at hscope ⊢
  intro value hvalue name hname hset
  obtain ⟨said, hsaid, hmention⟩ := h.holds.expressions value hvalue name hname
  rw [setNames_eq, h.summary, ← setNames_eq] at hset
  exact hscope said hsaid name hmention hset

/-! ### Rows of clauses -/

/-- Rows of clauses lead a step from one sort to another. -/
abbrev Turns (rows : List Row) (P Q : Step → Prop) : Prop :=
  Row.Turns (fun c : Clause => [c.statement]) Clause.apply rows P Q

theorem turns_header (ht : t ∈ s.expressions) (hread : t.Legible false) :
    Turns [.entry 2 (.setting .header) (some t.text)] (s.Echoes x)
      (s.Echoes { x with headers := x.headers ++ [t.text] }) := by
  refine .single hread.tidy_text fun line column => ?_
  obtain ⟨b, hvalue⟩ := hread.value line column (.setting .header)
  refine ⟨.setting (.header (t.rebase b)), ?_, fun mark =>
    ⟨.setting mark (.header (t.rebase b)), rfl, ?_⟩⟩
  · simp only [Keyword.read, SettingKey.read, hvalue]
    rfl
  · rintro a ⟨rfl, hholds⟩
    refine ⟨_, rfl, ?_, { hholds with config := { hholds.config with
      headers := forall_mem_concat hholds.config.headers (mentions_of_mem ht b) } }⟩
    simp [summary, targetText?, Config.headerTexts]

theorem turns_samples {n : Nat} (hlimit : n < 10 ^ digitLimit) :
    Turns [.entry 2 (.setting .samples) (some (toString n))] (s.Echoes x)
      (s.Echoes { x with samples := some n }) := by
  have hdigits : (toString n).toList = Nat.toDigits 10 n := Nat.toList_repr
  have htidy : Tidy (toString n).toList :=
    hdigits ▸ .of_word Nat.toDigits_ne_nil fun _ => isBlank_of_mem_toDigits
  refine .single htidy fun line column => ?_
  obtain ⟨t, hread, hlabel, htext⟩ := parseExpression_digits n line column false
  have hvalue := Argument.value_of_parse Nat.toDigits_ne_nil hread (.setting .samples)
  refine ⟨.setting (.samples t), ?_, fun mark => ⟨.setting mark (.samples t), rfl, ?_⟩⟩
  · simp only [Keyword.read, SettingKey.read, hdigits, hvalue]
    rfl
  · rintro a ⟨rfl, hholds⟩
    refine ⟨{ a with config := { a.config with samples := some n } }, ?_, rfl,
      { hholds with config := { hholds.config with } }⟩
    simp only [Clause.apply, Config.apply, countValue_digits hlimit _ hlabel htext]
    rfl

theorem turns_warmup (mode : Warmup) :
    Turns [.entry 2 (.setting .warmup) (some mode.text)] (s.Echoes x)
      (s.Echoes { x with warmup := some mode }) := by
  have htidy : Tidy mode.text.toList := by
    have hword : mode.text.toList ≠ [] ∧ mode.text.toList.all (!isBlank ·) = true := by
      cases mode <;> decide
    exact .of_word hword.1 fun c hc => by simpa using List.all_eq_true.1 hword.2 c hc
  refine .single htidy fun line column => ?_
  obtain ⟨t, hread, hmode⟩ := warmupValue_again mode SettingKey.warmup.word line column
  have hvalue := Argument.value_of_parse htidy.ne_nil hread (.setting .warmup)
  refine ⟨.setting (.warmup t), ?_, fun mark => ⟨.setting mark (.warmup t), rfl, ?_⟩⟩
  · simp only [Keyword.read, SettingKey.read, hvalue]
    rfl
  · rintro a ⟨rfl, hholds⟩
    refine ⟨{ a with config := { a.config with warmup := some mode } }, ?_, rfl,
      { hholds with config := { hholds.config with } }⟩
    simp only [Clause.apply, Config.apply, Setting.key, hmode]
    rfl

theorem turns_param {p : Param} (hp : p.value ∈ s.expressions) (hname : IsName p.name.toList)
    (hread : p.value.Legible false) (hformed : p.wellFormed = true) :
    Turns [.binding 2 .param (p.name, p.value.text)] (s.Echoes x)
      (s.Echoes { x with params := x.params ++ [p.summary] }) := by
  refine .single (hread.tidy_binding hname) fun line column => ?_
  obtain ⟨b, hbinding⟩ := hread.binding line column hname .param
  refine ⟨.param p.name (p.value.rebase b), ?_, fun mark =>
    ⟨.param mark p.name (p.value.rebase b), rfl, ?_⟩⟩
  · simp only [Keyword.read, hbinding]
    rfl
  · rintro a ⟨rfl, hholds⟩
    have hagain : Param.wellFormed ⟨p.name, p.value.rebase b⟩ = true := by
      rw [← hformed]
      simp [Param.wellFormed, Param.isFile, Tree.callArgs_rebase]
    refine ⟨{ a with params := a.params ++ [⟨p.name, p.value.rebase b⟩] }, if_pos hagain, ?_,
      { hholds with params := forall_mem_concat hholds.params ⟨mentions_of_mem hp b, hagain⟩ }⟩
    simp [summary, targetText?, Param.summary_rebase]

theorem turns_expect (ht : t ∈ s.expressions) (hread : t.Legible true) :
    Turns [.entry 2 .expect (some t.text)] (s.Echoes x)
      (s.Echoes { x with expects := x.expects ++ [t.text] }) := by
  refine .single hread.tidy_text fun line column => ?_
  obtain ⟨b, hvalue⟩ := hread.value line column .expect
  refine ⟨.expect (t.rebase b), ?_, fun mark => ⟨.expect mark (t.rebase b), rfl, ?_⟩⟩
  · simp only [Keyword.read, hvalue]
    rfl
  · rintro a ⟨rfl, hholds⟩
    refine ⟨_, rfl, ?_,
      { hholds with expects := forall_mem_concat hholds.expects (mentions_of_mem ht b) }⟩
    simp [summary, targetText?]

theorem turns_set {bound : Binding} (hbound : bound.value ∈ s.expressions)
    (hname : IsName bound.name.toList) (hread : bound.value.Legible false) :
    Turns [.binding 2 .bind (bound.name, bound.value.text)] (s.Echoes x)
      (s.Echoes { x with sets := x.sets ++ [(bound.name, bound.value.text)] }) := by
  refine .single (hread.tidy_binding hname) fun line column => ?_
  obtain ⟨b, hbinding⟩ := hread.binding line column hname .bind
  refine ⟨.bind bound.name (bound.value.rebase b), ?_, fun mark =>
    ⟨.bind mark bound.name (bound.value.rebase b), rfl, ?_⟩⟩
  · simp only [Keyword.read, hbinding]
    rfl
  · rintro a ⟨rfl, hholds⟩
    refine ⟨_, rfl, ?_,
      { hholds with sets := forall_mem_concat hholds.sets (mentions_of_mem hbound b) }⟩
    simp [summary, targetText?]

/-! ### The rows of a step -/

variable (x)

theorem turns_headers (hs : s.WellFormed) :
    Turns (s.summary.headers.map fun text => .entry 2 (.setting .header) (some text))
      (s.Echoes { x with headers := [] }) (s.Echoes { x with headers := s.summary.headers }) :=
  Row.Turns.map (I := fun done => s.Echoes { x with headers := done }) <|
    List.forall_mem_map.2 fun t ht _ =>
      turns_header (by simp [expressions, ht]) (hs.config.trees.headers t ht)

theorem turns_params (hs : s.WellFormed) :
    Turns (s.summary.params.map fun param => .binding 2 .param (param.name, param.text))
      (s.Echoes { x with params := [] }) (s.Echoes { x with params := s.summary.params }) := by
  refine Row.Turns.map (I := fun done => s.Echoes { x with params := done })
    (List.forall_mem_map.2 fun p hp _ => ?_)
  have hmem : p.value ∈ s.params.map (·.value) := List.mem_map_of_mem hp
  obtain ⟨hname, hread⟩ := hs.params p hp
  exact turns_param (by simp [expressions, hmem]) hname hread
    (Param.wellFormed_iff.2 (hs.files p hp))

theorem turns_expects (hs : s.WellFormed) :
    Turns (s.summary.expects.map fun text => .entry 2 .expect (some text))
      (s.Echoes { x with expects := [] }) (s.Echoes { x with expects := s.summary.expects }) :=
  Row.Turns.map (I := fun done => s.Echoes { x with expects := done }) <|
    List.forall_mem_map.2 fun t ht _ => turns_expect (by simp [expressions, ht]) (hs.expects t ht)

theorem turns_sets (hs : s.WellFormed) :
    Turns (s.summary.sets.map (.binding 2 .bind)) (s.Echoes { x with sets := [] })
      (s.Echoes { x with sets := s.summary.sets }) := by
  refine Row.Turns.map (I := fun done => s.Echoes { x with sets := done })
    (List.forall_mem_map.2 fun b hb _ => ?_)
  have hmem : b.value ∈ s.sets.map (·.value) := List.mem_map_of_mem hb
  obtain ⟨hname, hread⟩ := hs.sets b hb
  exact turns_set (by simp [expressions, hmem]) hname hread

/-- **The rows below the head of a step** lead from its head to all of it. -/
theorem turns_settingRows (hs : s.WellFormed) :
    Turns s.summary.settingRows (s.Echoes { kind := s.kind, target := s.targetText? })
      (s.Echoes s.summary) := by
  let head : Step.Summary := { kind := s.kind, target := s.targetText? }
  let headed : Step.Summary := { head with headers := s.summary.headers }
  let counted : Step.Summary := { headed with samples := s.config.samples }
  let warmed : Step.Summary := { counted with warmup := s.config.warmup }
  let sending : Step.Summary := { warmed with params := s.summary.params }
  let expecting : Step.Summary := { sending with expects := s.summary.expects }
  have hsamples := Row.Turns.option (I := fun o => s.Echoes { headed with samples := o })
    fun n hn => turns_samples (hs.config.samples n hn).2
  have hwarmup := Row.Turns.option (I := fun o => s.Echoes { counted with warmup := o })
    fun mode (_ : mode ∈ s.config.warmup) => turns_warmup mode
  exact (((((turns_headers head hs).append hsamples).append hwarmup).append
    (turns_params warmed hs)).append (turns_expects sending hs)).append (turns_sets expecting hs)

end Step

/-! ## Scenarios -/

/-- **A scenario echoes a summary**: it has the summary, and came with a label. -/
structure Scenario.Echoes (x : Scenario.Summary) (echo : Scenario) : Prop where
  summary : echo.summary = x
  named : echo.anonymous = false

namespace Scenario

variable {s : Scenario} {path : Option String} {groups : OrderedMap String Group}

/-- **What is visible** behind the steps is told by the summary. -/
theorem visible_eq_of_summary {t : Scenario} (h : s.summary = t.summary) :
    s.visible = t.visible := by
  have hvisible : ∀ s : Scenario, s.visible = s.summary.bindings.map Prod.fst ++
      s.summary.steps.flatMap fun x => x.sets.map Prod.fst := fun s => by
    simp [visible, summary, bindingTexts, OrderedMap.keys, Step.setNames_eq, List.flatMap_map,
      Function.comp_def]
  rw [hvisible, hvisible, h]

/-- Rows of members lead a scenario from one sort to another. -/
abbrev Turns (path : Option String) (groups : OrderedMap String Group) (rows : List Row)
    (P Q : Scenario → Prop) : Prop :=
  Row.Turns Member.statements (@Member.apply path groups .scenario) rows P Q

theorem turns_binding {x : Scenario.Summary} {e : String × Tree}
    (hnew : e.1 ∉ x.bindings.map Prod.fst) (hname : IsName e.1.toList)
    (hread : e.2.Legible false) :
    Turns path groups [.binding 1 .bind (e.1, e.2.text)] (Echoes x)
      (Echoes { x with bindings := x.bindings ++ [(e.1, e.2.text)] }) := by
  refine .single (hread.tidy_binding hname) fun line column => ?_
  obtain ⟨b, hbinding⟩ := hread.binding line column hname .bind
  refine ⟨.bind e.1 (e.2.rebase b), ?_, fun mark => ⟨.bind mark e.1 (e.2.rebase b), rfl, ?_⟩⟩
  · simp only [Keyword.read, hbinding]
    rfl
  · rintro a ⟨rfl, hnamed⟩
    have hput : (a.bindings.insert e.1 (e.2.rebase b)).entries =
        a.bindings.entries ++ [(e.1, e.2.rebase b)] :=
      OrderedMap.putEntry_of_not_mem _ (by simpa [summary, bindingTexts] using hnew)
    refine ⟨a.bind e.1 (e.2.rebase b), rfl, ?_, hnamed⟩
    simp [summary, bindingTexts, bind, hput]

end Scenario

/-- **The head of a step** is read to its kind and to a target that says the same. -/
theorem Step.WellFormed.read_head {s : Step} (hs : s.WellFormed) (line column : Int) :
    ∃ target : Option Tree,
      (Keyword.step s.kind).read ⟨(s.targetText?.getD "").toList, line, column⟩ =
        .ok (.step s.kind target) ∧
      target.map Tree.text = s.targetText? ∧ ∀ t ∈ target, ∀ name ∈ t.refs, s.Mentions name := by
  have htargeted : s.kind.hasTarget = true ↔ s.target.isSome = true :=
    s.kind.hasTarget_iff.trans hs.targeted.symm
  cases htarget : s.target with
  | none =>
    have hnone : ¬s.kind.hasTarget = true := fun h => by simpa [htarget] using htargeted.1 h
    refine ⟨none, ?_, by rw [targetText?, htarget], nofun⟩
    rw [Keyword.read, if_neg hnone, targetText?, htarget]
    rfl
  | some t =>
    have hsome : s.kind.hasTarget = true := htargeted.2 (by rw [htarget, Option.isSome_some])
    obtain ⟨b, hvalue⟩ := (hs.target t htarget).value line column (.step s.kind)
    refine ⟨some (t.rebase b), ?_, by simp [targetText?, htarget], fun _ ht =>
      Option.some.inj ht ▸ mentions_of_mem (by simp [expressions, htarget]) b⟩
    rw [Keyword.read, if_pos hsome, targetText?, htarget]
    exact congrArg (Except.map fun t => Command.step s.kind (some t)) hvalue

namespace Scenario

/-- **A scenario passes its checks**: each of its steps, below those above it. -/
def Passes (s : Scenario) : Prop :=
  ∀ done step rest, s.steps = done ++ step :: rest →
    step.forwardRef? ({ s with steps := done } : Scenario).visible = none

variable {s : Scenario} {path : Option String} {groups : OrderedMap String Group}

/-- **The rows of a step** lead on to the scenario with the step. -/
theorem turns_step {done : List Step} {step : Step} (hstep : step.WellFormed)
    (hscope : step.forwardRef? ({ s with steps := done } : Scenario).visible = none) :
    Turns path groups step.summary.rows (Echoes ({ s with steps := done } : Scenario).summary)
      (Echoes ({ s with steps := done ++ [step] } : Scenario).summary) := by
  have htidy : ∀ text ∈ step.targetText?, Tidy text.toList := fun text htext => by
    obtain ⟨t, ht, rfl⟩ := Option.map_eq_some_iff.1 htext
    exact (hstep.target t ht).tidy_text
  refine .block htidy (Step.turns_settingRows hstep) fun line column => ?_
  obtain ⟨target, hread, htext, hmentions⟩ := hstep.read_head line column
  refine ⟨.step step.kind target, hread, fun mark clauses hclauses =>
    ⟨.step ⟨mark, step.kind, target, clauses⟩, congrArg _ List.map_eq_flatMap, ?_⟩⟩
  rintro a ⟨hsummary, hnamed⟩
  have hhead : step.Echoes { kind := step.kind, target := step.targetText? }
      { kind := step.kind, target, line := mark.line, path } :=
    ⟨by rw [← htext]; rfl, hmentions, Config.holds_empty, nofun, nofun, nofun, nofun, nofun⟩
  obtain ⟨echo, hmeaning, hecho⟩ := hclauses _ hhead
  have hcheck : echo.forwardRef? a.visible = none :=
    hecho.forwardRef?_eq_none (visible_eq_of_summary hsummary ▸ hscope)
  refine ⟨{ a with steps := a.steps ++ [echo] },
    Option.bind_eq_some_iff.2 ⟨echo, hmeaning, if_pos hcheck⟩, ?_, hnamed⟩
  obtain ⟨hkey, hbindings, hsteps⟩ := Scenario.Summary.mk.injEq .. ▸ hsummary
  have hrow : (a.steps ++ [echo]).map Step.summary = (done ++ [step]).map Step.summary := by
    rw [List.map_append, List.map_append, hsteps]
    exact congrArg (_ ++ [·]) hecho.summary
  exact (Scenario.Summary.mk.injEq ..).mpr ⟨hkey, hbindings, hrow⟩

/-- **The rows below the head of a scenario** lead from its head to all of it. -/
theorem turns_members (hs : s.WellFormed) (hpasses : s.Passes) :
    Turns path groups (s.summary.bindings.map (.binding 1 .bind) ++
        s.summary.steps.flatMap Step.Summary.rows)
      (Echoes ⟨s.key, [], []⟩) (Echoes s.summary) := by
  have hbindings : Turns path groups (s.bindings.entries.flatMap fun e =>
      [.binding 1 .bind (e.1, e.2.text)]) (Echoes ⟨s.key, [], []⟩)
      (Echoes ⟨s.key, s.bindingTexts, []⟩) := by
    refine Row.Turns.flatMap (I := fun (done : List (String × Tree)) =>
      Echoes ⟨s.key, done.map fun e => (e.1, e.2.text), []⟩) fun done e rest hentries => ?_
    obtain ⟨hname, hread⟩ := hs.bindings e (hentries ▸ List.mem_append_right _ List.mem_cons_self)
    have hnodup := s.bindings.nodup_keys
    rw [hentries, List.map_append, List.nodup_append] at hnodup
    have hnew : e.1 ∉ (done.map fun e => (e.1, e.2.text)).map Prod.fst := by
      rw [List.map_map]
      exact fun hmem => hnodup.2.2 e.1 hmem e.1 List.mem_cons_self rfl
    rw [List.map_append]
    exact turns_binding (x := ⟨_, _, _⟩) hnew hname hread
  have hsteps : Turns path groups (s.steps.flatMap fun step => step.summary.rows)
      (Echoes ⟨s.key, s.bindingTexts, []⟩) (Echoes s.summary) :=
    Row.Turns.flatMap (I := fun done => Echoes ({ s with steps := done } : Scenario).summary)
      fun done step rest hrow => turns_step
        (hs.steps step (hrow ▸ List.mem_append_right _ List.mem_cons_self))
        (hpasses done step rest hrow)
  have hmap : s.summary.bindings.map (Row.binding 1 .bind) =
      s.bindings.entries.flatMap fun e => [Row.binding 1 .bind (e.1, e.2.text)] :=
    (List.map_map ..).trans List.map_eq_flatMap
  have hflat : s.summary.steps.flatMap Step.Summary.rows =
      s.steps.flatMap fun step => step.summary.rows := List.flatMap_map ..
  rw [hmap, hflat]
  exact hbindings.append hsteps

end Scenario

/-! ## Sets -/

/-- **A set echoes summaries**: its scenarios have them, and came with labels; and there is nothing
else at top level. -/
structure ScenarioSet.Echoes (xs : List Scenario.Summary) (echo : ScenarioSet) : Prop where
  summaries : echo.scenarios.map Scenario.summary = xs
  named : ∀ s ∈ echo.scenarios, s.anonymous = false
  groups : echo.groups = .empty
  bindings : echo.bindings = .empty

/-- **The rows of a scenario** lead on to the set with the scenario. -/
theorem turns_scenario (site : Site) {s : Scenario} {xs : List Scenario.Summary} (hs : s.WellFormed)
    (hpasses : s.Passes) :
    Row.Turns Entry.statements (Entry.apply site) s.summary.rows (ScenarioSet.Echoes xs)
      (ScenarioSet.Echoes (xs ++ [s.summary])) := by
  have hturns : Scenario.Turns site.path .empty _ (Scenario.Echoes ⟨s.key, [], []⟩)
      (Scenario.Echoes s.summary) := Scenario.turns_members hs hpasses
  refine .block (fun _ htext => Option.some.inj htext ▸ hs.key_tidy) hturns fun line column => ?_
  refine ⟨.scenario s.key, congrArg (fun key => Except.ok (Command.scenario key))
    String.ofList_toList, fun mark members hmembers =>
      ⟨.block .scenario mark s.key members, rfl, ?_⟩⟩
  rintro a ⟨rfl, hnamed, hgroups, hbindings⟩
  have hstart : Scenario.Echoes ⟨s.key, [], []⟩ (Holder.start site.path a mark s.key .scenario) := by
    refine ⟨?_, ?_⟩
    · exact congrArg (fun bindings : OrderedMap String Tree =>
        Scenario.Summary.mk s.key (bindings.entries.map fun e => (e.1, e.2.text)) []) hbindings
    · exact Bool.eq_false_iff.2 (mt String.isEmpty_iff.1 hs.key_ne_empty)
  obtain ⟨echo, hfill, hecho⟩ := hmembers _ hstart
  refine ⟨{ a with scenarios := a.scenarios ++ [echo] }, ?_, ?_,
    forall_mem_concat hnamed hecho.named, hgroups, hbindings⟩
  · rw [← hgroups] at hfill
    exact Option.map_eq_some_iff.2 ⟨echo, hfill, rfl⟩
  · rw [List.map_append, List.map_singleton, hecho.summary]

/-- **The rows of scenarios** lead from nothing to a set that echoes them. -/
theorem turns_scenarios (site : Site) {scenarios : List Scenario}
    (hformed : ∀ s ∈ scenarios, s.WellFormed) (hpasses : ∀ s ∈ scenarios, s.Passes) :
    Row.Turns Entry.statements (Entry.apply site) (scenarios.flatMap (·.summary.rows))
      (ScenarioSet.Echoes []) (ScenarioSet.Echoes (scenarios.map Scenario.summary)) := by
  refine Row.Turns.flatMap (I := fun done => ScenarioSet.Echoes (done.map Scenario.summary))
    fun done s rest hrow => ?_
  have hmem : s ∈ scenarios := hrow ▸ List.mem_append_right _ List.mem_cons_self
  rw [List.map_append]
  exact turns_scenario site (hformed s hmem) (hpasses s hmem)

end ScenarioScript
