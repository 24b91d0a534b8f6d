import ScenarioScript.Proofs.Blocks.Effect

/-!
# Proofs/Settings/Declarations — settings as they are declared

Of most settings the last declaration counts, of headers all do.  `Scalar` lists the former, each
with the values it takes; `Scalar.declared` is what a command declares of one.  A script that is
loaded contributes the settings that it ends with.

* `Config.Gathered` — settings that a row of contributions makes of others;
* `StepBlock.gathered`, `gathered_fill`, `gathered_meaning` — so it is with the clauses of a step,
  the members of a scenario, and the entries at top level.
-/

namespace ScenarioScript

open Outcome Outline

/-! ## The settings and their declarations -/

/-- **The settings of which the last declaration counts**, with the sort of their values. -/
inductive Scalar : Type → Type where
  | endpoint : Scalar Tree
  | name : Scalar Tree
  | auth : Scalar Tree
  | blackfire : Scalar Tree
  | wait : Scalar Tree
  | followRedirects : Scalar Bool
  | warmup : Scalar Warmup
  | samples : Scalar Nat

namespace Scalar

variable {α : Type}

/-- The value of a setting, if it is set. -/
def get (c : Config) : Scalar α → Option α
  | endpoint => c.endpoint
  | name => c.name
  | auth => c.auth
  | blackfire => c.blackfire
  | wait => c.wait
  | followRedirects => c.followRedirects
  | warmup => c.warmup
  | samples => c.samples

/-- **What a command declares** of a setting: the value as it is read, if the command is of the
setting's keyword. -/
def declared : Scalar α → Command → Option (Except Failure α)
  | endpoint, .endpoint value => some (.ok value)
  | name, .name value => some (.ok value)
  | auth, .setting (.auth value) => some (.ok value)
  | blackfire, .setting (.blackfire value) => some (.ok value)
  | wait, .setting (.wait value) => some (.ok value)
  | followRedirects, .setting (.followRedirects value) =>
    some (flagValue SettingKey.followRedirects.word value)
  | warmup, .setting (.warmup value) => some (warmupValue SettingKey.warmup.word value)
  | samples, .setting (.samples value) => some (countValue SettingKey.samples.word value)
  | _, _ => none

end Scalar

/-- The header that a command declares. -/
def Command.header? : Command → Option Tree
  | Command.setting (.header value) => some value
  | _ => none

/-- **What contributes to settings**: a command, or a script that is loaded, by the settings that it
ends with. -/
inductive Contribution where
  | declaration (command : Command)
  | loaded (config : Config)

namespace Contribution

variable {α : Type}

/-- What is contributed to a setting. -/
def value? (k : Scalar α) : Contribution → Option (Except Failure α)
  | declaration command => k.declared command
  | loaded config => (k.get config).map .ok

/-- The headers that are contributed. -/
def headers : Contribution → List Tree
  | declaration command => command.header?.toList
  | loaded config => config.headers

/-- **The last contribution** to a setting. -/
def last? (k : Scalar α) (row : List Contribution) : Option (Except Failure α) :=
  (row.filterMap (value? k)).getLast?

theorem last?_append (k : Scalar α) (row more : List Contribution) :
    last? k (row ++ more) = (last? k more).or (last? k row) := by
  rw [last?, List.filterMap_append, List.getLast?_append]
  rfl

end Contribution

/-! ## Settings that contributions make of others -/

/-- **What a row of contributions makes of settings**: the last one to each, or what was there if
there is none; and the headers of all, behind those that were there. -/
structure Config.Gathered (c : Config) (row : List Contribution) (c' : Config) : Prop where
  value : ∀ {α : Type} (k : Scalar α),
    (k.get c').map .ok = (Contribution.last? k row).or ((k.get c).map .ok)
  headers : c'.headers = c.headers ++ row.flatMap Contribution.headers

namespace Config

variable {c c' c'' inner : Config} {row more : List Contribution}

theorem Gathered.refl (c : Config) : c.Gathered [] c := ⟨fun _ => rfl, (List.append_nil _).symm⟩

/-- **One row behind another.** -/
theorem Gathered.append (h : c.Gathered row c') (hmore : c'.Gathered more c'') :
    c.Gathered (row ++ more) c'' where
  value k := by rw [hmore.value, h.value, Contribution.last?_append, Option.or_assoc]
  headers := by rw [hmore.headers, h.headers, List.flatMap_append, List.append_assoc]

/-- What declares nothing makes no difference. -/
theorem gathered_of_silent (c : Config) {command : Command}
    (hvalue : ∀ {α : Type} (k : Scalar α), k.declared command = none)
    (hheader : command.header? = none) : c.Gathered [.declaration command] c where
  value k := by simp [Contribution.last?, Contribution.value?, hvalue]
  headers := by simp [Contribution.headers, hheader]

/-- **A setting** is declared by its statement. -/
theorem gathered_apply {setting : Setting} (h : c.apply setting = .ok c') :
    c.Gathered [.declaration (.setting setting)] c' := by
  cases setting with
  | header value =>
    obtain rfl := Except.ok.inj h
    exact ⟨fun k => by cases k <;> rfl, rfl⟩
  | auth | blackfire | wait =>
    obtain rfl := Except.ok.inj h
    exact ⟨fun k => by cases k <;> rfl, (List.append_nil _).symm⟩
  | followRedirects =>
    obtain ⟨flag, hflag, rfl⟩ := map_eq_ok.1 h
    refine ⟨fun k => ?_, (List.append_nil _).symm⟩
    cases k with
    | followRedirects => exact congrArg some hflag.symm
    | _ => rfl
  | warmup =>
    obtain ⟨mode, hmode, rfl⟩ := map_eq_ok.1 h
    refine ⟨fun k => ?_, (List.append_nil _).symm⟩
    cases k with
    | warmup => exact congrArg some hmode.symm
    | _ => rfl
  | samples =>
    obtain ⟨count, hcount, rfl⟩ := map_eq_ok.1 h
    refine ⟨fun k => ?_, (List.append_nil _).symm⟩
    cases k with
    | samples => exact congrArg some hcount.symm
    | _ => rfl

theorem gathered_endpoint (c : Config) (value : Tree) :
    c.Gathered [.declaration (.endpoint value)] { c with endpoint := some value } :=
  ⟨fun k => by cases k <;> rfl, (List.append_nil _).symm⟩

theorem gathered_name (c : Config) (value : Tree) :
    c.Gathered [.declaration (.name value)] { c with name := some value } :=
  ⟨fun k => by cases k <;> rfl, (List.append_nil _).symm⟩

/-- **Settings that are merged in** are one contribution. -/
theorem gathered_merged (c inner : Config) : c.Gathered [.loaded inner] (c.merged inner) where
  value k := by
    have hget : k.get (c.merged inner) = (k.get inner).or (k.get c) := by cases k <;> rfl
    have hlast : Contribution.last? k [.loaded inner] = (k.get inner).map .ok := by
      rw [Contribution.last?, List.filterMap_cons]
      cases h : k.get inner <;> simp [Contribution.value?, h]
    rw [hget, hlast, Option.map_or]
  headers := congrArg _ (List.append_nil _).symm

/-- What is gathered from nothing may be gathered in other settings, and is merged in. -/
theorem Gathered.merged (h : Gathered {} row inner) (c : Config) :
    c.Gathered row (c.merged inner) where
  value k := by
    have hinner : (k.get inner).map .ok = Contribution.last? k row := by
      rw [h.value]
      cases k <;> exact Option.or_none
    rw [(c.gathered_merged inner).value, ← hinner]
    cases hget : k.get inner <;> simp [Contribution.last?, Contribution.value?, hget]
  headers := congrArg (c.headers ++ ·) h.headers

/-- **A row of stages** gathers what each stage does. -/
theorem gathered_foldlM {α β : Type} (config : β → Config) {contributed : α → List Contribution}
    {f : β → α → Option β}
    (hf : ∀ b a b', f b a = some b' → (config b).Gathered (contributed a) (config b'))
    {xs : List α} {b b' : β} (h : xs.foldlM f b = some b') :
    (config b).Gathered (xs.flatMap contributed) (config b') := by
  induction xs generalizing b with
  | nil =>
    obtain rfl := Option.some.inj h
    exact .refl (config b)
  | cons x xs ih =>
    rw [List.foldlM_cons] at h
    obtain ⟨b₁, hx, hxs⟩ := Option.bind_eq_some_iff.1 h
    rw [List.flatMap_cons]
    exact (hf b x b₁ hx).append (ih hxs)

end Config

/-! ## Steps, scenarios and scripts -/

namespace Outline

variable {path : Option String} {groups : OrderedMap String Group} {site : Site}
  {set result : ScenarioSet}

/-- What a clause contributes to the settings of its step. -/
def Clause.contributed (c : Clause) : List Contribution := [.declaration c.statement.command]

/-- What a member contributes to the settings of its scenario: what it declares, if it is a statement
by itself. -/
def Member.contributed {holder : Holder} (m : Member holder) : List Contribution :=
  m.single?.toList.map fun s => .declaration s.command

/-- **What an entry contributes** to the settings of its script: what it declares, or the settings
that a script it loads ends with. -/
def Entry.contributed (site : Site) : Entry → List Contribution
  | load mark target =>
    (site.load target (.loadedFrom site.path mark.position)).outcome.toOption.toList.map
      fun set => .loaded set.config
  | e => e.single?.toList.map fun s => .declaration s.command

/-- **The settings of a step** are gathered from its clauses. -/
theorem StepBlock.gathered {b : StepBlock} {step : Step} (h : b.meaning path = some step) :
    Config.Gathered {} (b.clauses.flatMap Clause.contributed) step.config := by
  refine Config.gathered_foldlM Step.config (fun step c step' hc => ?_) h
  cases c with
  | setting mark choice =>
    obtain ⟨config, hconfig, rfl⟩ := Option.map_eq_some_iff.1 hc
    exact Config.gathered_apply (toOption_eq_some.1 hconfig)
  | name mark value =>
    obtain rfl := Option.some.inj hc
    exact step.config.gathered_name value
  | json mark value =>
    obtain ⟨flag, -, rfl⟩ := Option.map_eq_some_iff.1 hc
    exact step.config.gathered_of_silent (fun k => by cases k <;> rfl) rfl
  | param mark bound value =>
    obtain ⟨-, hc⟩ := Option.ite_none_right_eq_some.1 hc
    obtain rfl := Option.some.inj hc
    exact step.config.gathered_of_silent (fun k => by cases k <;> rfl) rfl
  | _ =>
    obtain rfl := Option.some.inj hc
    exact step.config.gathered_of_silent (fun k => by cases k <;> rfl) rfl

/-- **The settings of a scenario** are gathered from its members, those behind a step included, in
what there was when it began. -/
theorem gathered_fill {members : List (Member .scenario)} {s s' : Scenario}
    (h : Holder.fill path groups members s = some s') :
    s.config.Gathered (members.flatMap Member.contributed) s'.config := by
  refine Config.gathered_foldlM Scenario.config (fun s m s' hm => ?_) h
  cases m with
  | setting mark choice =>
    obtain ⟨config, hconfig, rfl⟩ := Option.map_eq_some_iff.1 hm
    exact Config.gathered_apply (toOption_eq_some.1 hconfig)
  | name mark value =>
    obtain rfl := Option.some.inj hm
    exact s.config.gathered_name value
  | endpoint mark value =>
    obtain rfl := Option.some.inj hm
    exact s.config.gathered_endpoint value
  | bind mark bound value =>
    obtain rfl := Option.some.inj hm
    exact s.config.gathered_of_silent (fun k => by cases k <;> rfl) rfl
  | inclusion mark group =>
    obtain ⟨steps, -, rfl⟩ := Option.map_eq_some_iff.1 hm
    exact s.config.gathered_of_silent (fun k => by cases k <;> rfl) rfl
  | step block =>
    obtain ⟨step, -, hadd⟩ := Option.bind_eq_some_iff.1 hm
    obtain ⟨-, hadd⟩ := Option.ite_none_right_eq_some.1 hadd
    obtain rfl := Option.some.inj hadd
    exact .refl s.config

/-- **The settings of a script** are gathered from its entries. -/
theorem gathered_meaning {o : Outline} (h : o.meaning site set = some result) :
    set.config.Gathered (o.flatMap (Entry.contributed site)) result.config := by
  refine Config.gathered_foldlM ScenarioSet.config (fun set e set' he => ?_) h
  cases e with
  | setting mark choice =>
    obtain ⟨config, hconfig, rfl⟩ := Option.map_eq_some_iff.1 he
    exact Config.gathered_apply (toOption_eq_some.1 hconfig)
  | endpoint mark value =>
    obtain rfl := Option.some.inj he
    exact set.config.gathered_endpoint value
  | bind mark bound value =>
    obtain rfl := Option.some.inj he
    exact set.config.gathered_of_silent (fun k => by cases k <;> rfl) rfl
  | load mark target =>
    obtain ⟨loaded, hloaded, rfl⟩ := Option.map_eq_some_iff.1 he
    rw [Entry.contributed, hloaded]
    exact set.config.gathered_merged loaded.config
  | block holder mark label members =>
    obtain ⟨body, -, rfl⟩ := Option.map_eq_some_iff.1 he
    cases holder <;> exact .refl set.config

end Outline

end ScenarioScript
