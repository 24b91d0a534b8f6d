import ScenarioScript.Proofs.Containment.Failing
import ScenarioScript.Proofs.Containment.Supply
import ScenarioScript.Proofs.Writing.Rows

/-!
# Proofs/Form/Command — the form of what a statement holds

A statement holds labels, names and expressions.  A label is tidy, as it is what is left of a line
without the blanks around it; a name is made of certain characters (`Text.IsName`); an expression is
what a piece of a line was read to (`Tree.Legible`), a comparison only in what is expected.

* `Command.WellFormed` — what each command holds is of its form, and a step has a target exactly if
  it needs one;
* `Says.wellFormed` — so it is with every statement of a text, whose lines are counted from one.
-/

namespace ScenarioScript

open Outcome

namespace Text

/-! ## Names -/

/-- **The characters that a name can begin with.** -/
def IsNameHead (c : Char) : Prop := ('a' ≤ c ∧ c ≤ 'z') ∨ ('A' ≤ c ∧ c ≤ 'Z') ∨ c = '_'

/-- **A name**: a small or capital letter or `_`, and behind it such characters and digits. -/
def IsName : List Char → Prop
  | [] => False
  | first :: rest => IsNameHead first ∧ ∀ c ∈ rest, IsNameHead c ∨ ('0' ≤ c ∧ c ≤ '9')

theorem isNameStart_iff {c : Char} : isNameStart c = true ↔ IsNameHead c := by
  change ((decide ('A' ≤ c ∧ c ≤ 'Z') || (decide ('a' ≤ c) && decide (c ≤ 'z'))) ||
    c == '_') = true ↔ _
  simp only [IsNameHead, Bool.or_eq_true, Bool.and_eq_true, decide_eq_true_eq, beq_iff_eq]
  tauto

theorem isNameChar_iff {c : Char} :
    isNameChar c = true ↔ IsNameHead c ∨ ('0' ≤ c ∧ c ≤ '9') := by
  have hchar : isNameChar c = (isNameStart c || (decide ('0' ≤ c) && decide (c ≤ '9'))) := by
    change (c.isAlpha || c.isDigit || c == '_') = (c.isAlpha || c == '_' || c.isDigit)
    rw [Bool.or_assoc, Bool.or_comm c.isDigit, Bool.or_assoc]
  rw [hchar, Bool.or_eq_true, isNameStart_iff, Bool.and_eq_true, decide_eq_true_eq,
    decide_eq_true_eq]

/-- The characters of names lie between the digit zero and the small letter `z`. -/
theorem toNat_of_isNameChar {c : Char} (h : isNameChar c = true) : 48 ≤ c.toNat ∧ c.toNat ≤ 122 := by
  have hbetween {low high : Char} (hlow : 48 ≤ low.val.toNat) (hhigh : high.val.toNat ≤ 122)
      (h : low ≤ c ∧ c ≤ high) : 48 ≤ c.toNat ∧ c.toNat ≤ 122 :=
    ⟨Nat.le_trans hlow (UInt32.le_iff_toNat_le.1 h.1),
      Nat.le_trans (UInt32.le_iff_toNat_le.1 h.2) hhigh⟩
  obtain (hsmall | hcapital | rfl) | hdigit := isNameChar_iff.1 h
  · exact hbetween (by decide) (by decide) hsmall
  · exact hbetween (by decide) (by decide) hcapital
  · decide
  · exact hbetween (by decide) (by decide) hdigit

theorem isName_cons_iff {first : Char} {rest : List Char} : IsName (first :: rest) ↔
    isNameStart first = true ∧ ∀ c ∈ rest, isNameChar c = true := by
  simp only [IsName, isNameStart_iff, isNameChar_iff]

/-- **A name is split off** as long as it goes on. -/
theorem isName_of_splitName? {text name rest : List Char} {offset : Nat}
    (h : splitName? text = some (name, rest, offset)) : IsName name := by
  unfold splitName? at h
  split at h
  · exact absurd h.symm (Option.some_ne_none _)
  · next c tail =>
    dsimp only at h
    split at h
    · next hstart =>
      simp only [Option.some.injEq, Prod.mk.injEq] at h
      obtain ⟨rfl, -, -⟩ := h
      rw [Bool.and_eq_true] at hstart
      have hchar : isNameChar c = true := isNameChar_iff.2 (.inl (isNameStart_iff.1 hstart.1))
      rw [List.takeWhile_cons_of_pos hchar]
      exact isName_cons_iff.2 ⟨hstart.1, fun d hd => List.all_eq_true.1 List.all_takeWhile d hd⟩
    · exact absurd h.symm (Option.some_ne_none _)

/-! ## Tidy texts -/

/-- **A trimmed text** does not end with a blank. -/
theorem getLast?_trim {text : List Char} : ∀ c ∈ (trim text).getLast?, isBlank c = false := by
  intro c hc
  rw [trim, trimEnd, List.getLast?_reverse] at hc
  exact head?_dropWhile_isBlank c hc

variable {text word argument : List Char}

/-- What stands behind a word and its gap is tidy if the text is. -/
theorem Tidy.of_splitStatement? {offset : Nat} (h : Tidy text)
    (hsplit : splitStatement? text = some (word, argument, offset)) :
    argument = [] ∨ Tidy argument := by
  have hsuffix := rest_cutWord_suffix text
  have hbreak : '\n' ∉ (cutWord text).rest := fun hmem =>
    absurd (h.unbroken _ (hsuffix.subset hmem)) (by decide)
  simp only [splitStatement?] at hsplit
  split at hsplit
  · exact absurd hsplit.symm (Option.some_ne_none _)
  · simp only [Option.some.injEq, Prod.mk.injEq] at hsplit
    exact .inl hsplit.2.1.symm
  · next hne =>
    rw [dropLastBreak?_of_unbroken hbreak] at hsplit
    simp only [Option.map_some, Option.some.injEq, Prod.mk.injEq] at hsplit
    obtain ⟨-, rfl, -⟩ := hsplit
    refine .inr ⟨hne, head?_rest_cutWord, fun c hc => h.last c ?_,
      fun c hc => h.unbroken c (hsuffix.subset hc)⟩
    obtain ⟨before, hbefore⟩ := hsuffix
    rwa [← hbefore, List.getLast?_append_of_ne_nil _ hne]

end Text

open Text

/-- **What the statement of a line says** is tidy. -/
theorem ScriptLine.Of.tidy {l : ScriptLine} {number : Int} {raw : List Char} (h : l.Of number raw)
    (hbreak : ∀ c ∈ raw, isLineBreak c = false) : Tidy l.text.toList := by
  have hclean := h.clean hbreak
  exact ⟨hclean.ne_nil, hclean.head, h.toList_text ▸ getLast?_trim, hclean.unbroken⟩

/-- **What the lines of a text say** is tidy. -/
theorem Layout.tidy_of_mem_scan {unit : Option Int} {text : String} {lines : List ScriptLine}
    (h : scan unit text = .ok lines) : ∀ l ∈ lines, Tidy l.text.toList := by
  intro l hl
  obtain ⟨n, raw, hraw, hof⟩ := exists_of_mem_scanLines h l hl
  exact hof.tidy (not_isLineBreak_of_mem_splitLines text.toList raw (List.mem_of_getElem? hraw))

/-! ## Expressions -/

/-- **An expression of a script**: what a piece of a line was read to.  Comparisons and current
values stand in their places in it. -/
structure Tree.Legible (allowCompare : Bool) (t : Tree) : Prop where
  placed : t.WellPlaced allowCompare
  read : ∃ (text : List Char) (line column : Int), (∀ c ∈ text, isLineBreak c = false) ∧
    parseExpression text line column allowCompare = .ok t

theorem legible_parseExpression {text : List Char} (h : ∀ c ∈ text, isLineBreak c = false)
    (line column : Int) (allowCompare : Bool) :
    Yields (Tree.Legible allowCompare) (parseExpression text line column allowCompare) := by
  intro t ht
  obtain ⟨_, _, g, _, hshape⟩ := exists_whole_of_parseExpression ht
  exact ⟨Grammar.wellPlaced_of_shape hshape.symm, text, line, column, h, ht⟩

/-! ## Commands -/

/-- **The form of a command.** -/
def Command.WellFormed : Command → Prop
  | scenario label => label = "" ∨ Tidy label.toList
  | group label | inclusion label => Tidy label.toList
  | load _ | unknown _ => True
  | bind bound value | param bound value => IsName bound.toList ∧ value.Legible false
  | endpoint value | name value | method value | body value => value.Legible false
  | json value => ∀ t ∈ value, t.Legible false
  | expect condition => condition.Legible true
  | Command.setting choice => ∀ t ∈ choice.value?, t.Legible false
  | step kind target => target.isSome = kind.hasTarget ∧ ∀ t ∈ target, t.Legible false

/-- **What a statement needs of its argument**: it is tidy, if there is one. -/
def Argument.WellFormed (a : Argument) : Prop := a.text = [] ∨ Tidy a.text

namespace Argument

variable {a : Argument}

theorem WellFormed.unbroken (h : a.WellFormed) : ∀ c ∈ a.text, isLineBreak c = false := by
  obtain hnil | htidy := h
  · rw [hnil]
    exact List.forall_mem_nil _
  · exact htidy.unbroken

theorem WellFormed.tidy (h : a.WellFormed) (hne : a.text.isEmpty = false) : Tidy a.text :=
  h.resolve_left fun hnil => absurd hne (by simp [hnil])

theorem legible_value (h : a.WellFormed) (k : Keyword) (allowCompare : Bool) :
    Yields (Tree.Legible allowCompare) (a.value k allowCompare) := by
  unfold value
  split
  · exact .error _
  · exact legible_parseExpression h.unbroken _ _ _

theorem legible_optionalValue (h : a.WellFormed) :
    Yields (fun value? => ∀ t ∈ value?, Tree.Legible false t) a.optionalValue := by
  unfold optionalValue
  split
  · exact .ok nofun
  · exact (legible_parseExpression h.unbroken _ _ _).map fun value hvalue t ht =>
      Option.some.inj ht ▸ hvalue

theorem tidy_name (h : a.WellFormed) (k : Keyword) :
    Yields (fun label => Tidy label.toList) (a.name k) := by
  unfold name
  split
  · exact .error _
  · next hne =>
    refine .ok ?_
    rw [written, String.toList_ofList]
    exact h.tidy (Bool.not_eq_true _ ▸ hne)

theorem wellFormed_binding (h : a.WellFormed) (k : Keyword) :
    Yields (fun bound => IsName bound.1.toList ∧ bound.2.Legible false) (a.binding k) := by
  unfold binding
  split
  · exact .error _
  split
  · exact .error _
  · exact .error _
  · next name rest offset _ hsplit =>
    obtain ⟨before, htext, -⟩ := exists_append_of_splitName? hsplit
    have hrest : ∀ c ∈ rest, isLineBreak c = false := fun c hc =>
      h.unbroken c (htext ▸ List.mem_append_right before hc)
    refine (legible_parseExpression hrest _ _ _).map fun value hvalue => ⟨?_, hvalue⟩
    rw [String.toList_ofList]
    exact isName_of_splitName? hsplit

end Argument

theorem SettingKey.wellFormed_read (key : SettingKey) {a : Argument} (h : a.WellFormed) :
    Yields (fun choice => ∀ t ∈ choice.value?, t.Legible false) (key.read a) := by
  cases key with
  | followRedirects => exact (Argument.legible_optionalValue h).map fun value hvalue => hvalue
  | _ =>
    exact (Argument.legible_value h _ false).map fun value hvalue t ht =>
      Option.some.inj ht ▸ hvalue

/-- **What a keyword makes of an argument** is of its form. -/
theorem Keyword.wellFormed_read (k : Keyword) {a : Argument} (h : a.WellFormed) :
    Yields Command.WellFormed (k.read a) := by
  cases k with
  | scenario =>
    refine .ok (h.imp (fun hnil => ?_) fun htidy => ?_)
    · rw [Argument.written, hnil, String.ofList_nil]
    · rwa [Argument.written, String.toList_ofList]
  | group | inclusion => exact (Argument.tidy_name h _).map fun name hname => hname
  | load => exact Yields.map_of_forall _ fun _ => trivial
  | bind | param => exact (Argument.wellFormed_binding h _).map fun bound hbound => hbound
  | endpoint | name | method | body =>
    exact (Argument.legible_value h _ false).map fun value hvalue => hvalue
  | expect => exact (Argument.legible_value h _ true).map fun value hvalue => hvalue
  | json => exact (Argument.legible_optionalValue h).map fun value hvalue => hvalue
  | setting key => exact (key.wellFormed_read h).map fun choice hchoice => hchoice
  | step kind =>
    rw [read]
    split
    · next htarget =>
      exact (Argument.legible_value h _ false).map fun value hvalue =>
        ⟨htarget.symm, fun t ht => Option.some.inj ht ▸ hvalue⟩
    · next htarget =>
      exact Yields.map_of_forall _ fun _ =>
        ⟨(Bool.not_eq_true _ ▸ htarget).symm, fun t ht => absurd ht (Option.not_mem_none t)⟩

/-! ## Statements -/

/-- **The form of a statement**: its command is of its form, and its line is counted from one. -/
structure Statement.WellFormed (s : Statement) : Prop where
  command : s.command.WellFormed
  line : 1 ≤ s.line

/-- **The statements of a text** are of their form. -/
theorem Says.wellFormed {unit : Option Int} {text : String} {s : Statement}
    (h : Says unit text s) : s.WellFormed := by
  obtain ⟨lines, hlines, line, hline, hs⟩ := h
  refine ⟨?_, ?_⟩
  · have htidy := Layout.tidy_of_mem_scan hlines line hline
    obtain ⟨_, _, _, k, command, hsplit, -, hread, rfl⟩ := exists_read_of_classify hs
    exact k.wellFormed_read (htidy.of_splitStatement? hsplit) command hread
  · obtain ⟨n, _, _, _, hnumber, _⟩ :=
      Layout.placeIn_of_mem_scan hlines line hline _ _ line.place_start
    rw [(position_of_classify hs).1]
    omega

end ScenarioScript
