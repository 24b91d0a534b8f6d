import ScenarioScript.Proofs.Expression.Usability
import ScenarioScript.Proofs.Faults.Statement

/-!
# Proofs/Containment/Supply — what is taken from a statement is there

Of a statement one takes the parts that go with its keyword: a label, a name that gets a value, an
expression.  `supplied_of_classify` says that a statement that a line holds has them, and that in
its expression every node has what is taken from it; `reads_of_classify` says where in the line the
expression is read.
-/

namespace ScenarioScript

open Outcome

namespace Keyword

/-- Is the argument a label, name or path, taken as it stands? -/
def takesLabel : Keyword → Bool
  | scenario | group | inclusion | load => true
  | _ => false

/-- Does the argument begin with a name that gets a value? -/
def takesName : Keyword → Bool
  | bind | param => true
  | _ => false

/-- Must there be an expression? -/
def takesValue : Keyword → Bool
  | scenario | group | inclusion | load | json | setting .followRedirects => false
  | step kind => kind.hasTarget
  | _ => true

end Keyword

/-- **A command has what its keyword asks for.** -/
structure Command.Supplied (k : Keyword) (c : Command) : Prop where
  word_eq : c.word = k.word
  label : k.takesLabel = true → ∃ label, c.label? = some label
  name : k.takesName = true → ∃ name, c.boundName? = some name
  value : k.takesValue = true → ∃ value, c.expr? = some value
  usable : ∀ value ∈ c.expr?, value.UsableThroughout

/-- **A tree is read from an argument**: it is that of an expression that an end of the argument
holds. -/
def Argument.Reads (a : Argument) (t : Tree) : Prop :=
  ∃ before rest allowCompare, a.text = before ++ rest ∧
    parseExpression rest a.line (a.column + (before.length : Nat)) allowCompare = .ok t

namespace Argument

variable (a : Argument) {t : Tree}

theorem Reads.usable (h : a.Reads t) : t.UsableThroughout := by
  obtain ⟨_, _, _, _, hparse⟩ := h
  exact usable_of_parseExpression hparse

theorem reads_expression (allowCompare : Bool) : Yields a.Reads (a.expression allowCompare) := by
  intro t ht
  refine ⟨[], a.text, allowCompare, rfl, ?_⟩
  rw [List.length_nil, Int.natCast_zero, Int.add_zero]
  exact ht

theorem reads_value (k : Keyword) (allowCompare : Bool) :
    Yields a.Reads (a.value k allowCompare) := by
  unfold value
  split
  · exact .error _
  · exact a.reads_expression allowCompare

theorem reads_optionalValue : Yields (fun value? => ∀ t ∈ value?, a.Reads t) a.optionalValue := by
  unfold optionalValue
  split
  · exact .ok nofun
  · exact (a.reads_expression false).map fun value h _ hvalue => Option.some.inj hvalue ▸ h

theorem reads_binding (k : Keyword) :
    Yields (fun bound : String × Tree => a.Reads bound.2) (a.binding k) := by
  unfold binding
  split
  · exact .error _
  split
  · exact .error _
  · exact .error _
  · next name rest offset _ hsplit =>
    obtain ⟨before, htext, rfl⟩ := exists_append_of_splitName? hsplit
    intro bound hbound
    obtain ⟨value, hvalue, rfl⟩ := map_eq_ok.1 hbound
    exact ⟨before, rest, false, htext, hvalue⟩

end Argument

/-- A command has what its keyword asks for, and its expression is read from its argument. -/
structure Command.SuppliedBy (a : Argument) (k : Keyword) (c : Command) : Prop
    extends c.Supplied k where
  reads : ∀ value ∈ c.expr?, a.Reads value

namespace Command

variable {a : Argument} {k : Keyword} {c : Command} {value : Tree}

/-- A command that takes nothing but an expression. -/
theorem supplied_of_value (hword : c.word = k.word) (hlabel : k.takesLabel = false)
    (hname : k.takesName = false) (hvalue : c.expr? = some value) (h : a.Reads value) :
    c.SuppliedBy a k where
  word_eq := hword
  label htakes := absurd (hlabel.symm.trans htakes) nofun
  name htakes := absurd (hname.symm.trans htakes) nofun
  value _ := ⟨value, hvalue⟩
  usable _ hmem := Option.some.inj (hvalue.symm.trans hmem) ▸ h.usable
  reads _ hmem := Option.some.inj (hvalue.symm.trans hmem) ▸ h

/-- A command that gives a name a value. -/
theorem supplied_of_binding {name : String} (hword : c.word = k.word)
    (hlabel : k.takesLabel = false) (hname : c.boundName? = some name)
    (hvalue : c.expr? = some value) (h : a.Reads value) : c.SuppliedBy a k where
  word_eq := hword
  label htakes := absurd (hlabel.symm.trans htakes) nofun
  name _ := ⟨name, hname⟩
  value _ := ⟨value, hvalue⟩
  usable _ hmem := Option.some.inj (hvalue.symm.trans hmem) ▸ h.usable
  reads _ hmem := Option.some.inj (hvalue.symm.trans hmem) ▸ h

/-- A command that can do without the expression that it takes. -/
theorem supplied_of_optionalValue (hword : c.word = k.word) (hlabel : k.takesLabel = false)
    (hname : k.takesName = false) (htakes : k.takesValue = false)
    (h : ∀ value ∈ c.expr?, a.Reads value) : c.SuppliedBy a k where
  word_eq := hword
  label htakes := absurd (hlabel.symm.trans htakes) nofun
  name htakes := absurd (hname.symm.trans htakes) nofun
  value h := absurd (htakes.symm.trans h) nofun
  usable value hmem := (h value hmem).usable
  reads := h

/-- A command that takes a label and nothing else. -/
theorem supplied_of_label {label : String} (hword : c.word = k.word)
    (hname : k.takesName = false) (htakes : k.takesValue = false) (hlabel : c.label? = some label)
    (hvalue : c.expr? = none) : c.SuppliedBy a k where
  word_eq := hword
  label _ := ⟨label, hlabel⟩
  name h := absurd (hname.symm.trans h) nofun
  value h := absurd (htakes.symm.trans h) nofun
  usable _ hmem := absurd (hvalue.symm.trans hmem) nofun
  reads _ hmem := absurd (hvalue.symm.trans hmem) nofun

end Command

open Command

theorem SettingKey.supplied_read (key : SettingKey) (a : Argument) :
    Yields (fun choice => SuppliedBy a (.setting key) (.setting choice)) (key.read a) := by
  cases key with
  | followRedirects =>
    exact a.reads_optionalValue.map fun value h => supplied_of_optionalValue rfl rfl rfl rfl h
  | _ => exact (a.reads_value _ false).map fun value => supplied_of_value rfl rfl rfl rfl

/-- **What a keyword reads** has what the keyword asks for. -/
theorem Keyword.supplied_read (k : Keyword) (a : Argument) :
    Yields (SuppliedBy a k) (k.read a) := by
  cases k with
  | scenario => exact .ok (supplied_of_label rfl rfl rfl rfl rfl)
  | group | inclusion | load =>
    intro c hc
    obtain ⟨label, -, rfl⟩ := map_eq_ok.1 hc
    exact supplied_of_label rfl rfl rfl rfl rfl
  | bind | param =>
    exact (a.reads_binding _).map fun bound => supplied_of_binding rfl rfl rfl rfl
  | endpoint | name | method | body =>
    exact (a.reads_value _ false).map fun value => supplied_of_value rfl rfl rfl rfl
  | expect => exact (a.reads_value _ true).map fun value => supplied_of_value rfl rfl rfl rfl
  | json => exact a.reads_optionalValue.map fun value h => supplied_of_optionalValue rfl rfl rfl rfl h
  | setting key => exact (key.supplied_read a).map fun choice h => h
  | step kind =>
    rw [read]
    split
    · exact (a.reads_value _ false).map fun value => supplied_of_value rfl rfl rfl rfl
    · next htarget =>
      intro c hc
      obtain ⟨-, -, rfl⟩ := map_eq_ok.1 hc
      exact supplied_of_optionalValue rfl rfl rfl (Bool.not_eq_true _ ▸ htarget)
        fun value hvalue => absurd hvalue (Option.not_mem_none value)

/-- A statement begins where its line does. -/
theorem position_of_classify {line : ScriptLine} {s : Statement} (h : classify line = .ok s) :
    s.line = line.line ∧ s.column = line.column := by
  obtain ⟨_, _, _, _, _, -, -, -, rfl⟩ := exists_read_of_classify h
  exact ⟨rfl, rfl⟩

/-- A statement that a line holds comes of the argument behind the first word. -/
theorem exists_suppliedBy_of_classify {line : ScriptLine} {s : Statement}
    (h : classify line = .ok s) :
    ∃ word argument offset k, splitStatement? line.text.toList = some (word, argument, offset) ∧
      s.command.SuppliedBy ⟨argument, line.line, line.column + (offset : Nat)⟩ k := by
  obtain ⟨word, argument, offset, k, command, hsplit, -, hread, rfl⟩ := exists_read_of_classify h
  exact ⟨word, argument, offset, k, hsplit, k.supplied_read _ command hread⟩

/-- **A statement that a line holds** has what its keyword asks for. -/
theorem supplied_of_classify {line : ScriptLine} {s : Statement} (h : classify line = .ok s) :
    ∃ k, s.command.Supplied k := by
  obtain ⟨_, _, _, k, _, hsupplied⟩ := exists_suppliedBy_of_classify h
  exact ⟨k, hsupplied.toSupplied⟩

/-- **The expression of a statement** is read from the argument in its line. -/
theorem reads_of_classify {line : ScriptLine} {s : Statement} (h : classify line = .ok s) :
    ∃ word argument offset, splitStatement? line.text.toList = some (word, argument, offset) ∧
      ∀ t ∈ s.command.expr?,
        Argument.Reads ⟨argument, line.line, line.column + (offset : Nat)⟩ t := by
  obtain ⟨word, argument, offset, _, hsplit, hsupplied⟩ := exists_suppliedBy_of_classify h
  exact ⟨word, argument, offset, hsplit, hsupplied.reads⟩

end ScenarioScript
