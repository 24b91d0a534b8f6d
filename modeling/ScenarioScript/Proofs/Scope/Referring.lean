import ScenarioScript.Proofs.Expression.Atoms
import ScenarioScript.Proofs.Expression.Variables
import ScenarioScript.Proofs.Report.Statement
import ScenarioScript.Proofs.Scope.Closing

/-!
# Proofs/Scope/Referring — whether a name that is bound can be referred to

A statement binds a name of letters, digits and `_` (`Text.IsName`), which is one word of an
expression as well, and the word is a variable unless it is `true` or `false`.

* `Tree.mem_refs_iff` — the names that a tree refers to are those of its variables;
* `Text.IsName.exists_isAtom` — a name is read to a variable, in parentheses or not;
* `referable_of_classify` — so **every name that is bound can be referred to**, and all uses of it
  are found, but for the two truth values, which can be bound too and never referred to.
-/

namespace ScenarioScript

open Lexeme Text Outcome

/-! ## The variables of a tree -/

namespace Tree

variable {name : String}

/-- **The names that a tree refers to** are those of the variables in it. -/
theorem mem_refs_iff (t : Tree) :
    name ∈ t.refs ↔ ∃ n ∈ t.preorder, n.label? = some .var ∧ n.firstText = name := by
  simp only [refs_eq_map_preorder t, List.mem_map, List.mem_filter, decide_eq_true_eq, and_assoc]

/-- **The tree was read** from a text. -/
def IsRead (t : Tree) : Prop :=
  ∃ text line column allowCompare, parseExpression text line column allowCompare = .ok t

/-- **The name is written in the tree** as an expression, in parentheses or not. -/
def Writes (t : Tree) (name : String) : Prop :=
  ∃ n ∈ t.preorder, n.isExpression = true ∧ Wrapped name.toList n.text.toList

/-- Every variable of a tree that was read is an atom. -/
theorem IsRead.exists_isAtom {t n : Tree} (h : t.IsRead) (hn : n ∈ t.preorder)
    (hlabel : n.label? = some .var) : ∃ token, n.IsAtom .var token ∧ token.text = n.firstText := by
  obtain ⟨text, line, column, allowCompare, hread⟩ := h
  obtain ⟨token, htoken⟩ := exists_isAtom_of_mem_preorder hread hn hlabel rfl
  obtain ⟨span, rfl⟩ := htoken.eq_node
  exact ⟨token, htoken, rfl⟩

/-- **What a tree refers to** is written in it, and is no truth value. -/
theorem IsRead.of_mem_refs {t : Tree} (h : t.IsRead) (hname : name ∈ t.refs) :
    t.Writes name ∧ name ≠ "true" ∧ name ≠ "false" := by
  obtain ⟨n, hn, hlabel, rfl⟩ := t.mem_refs_iff.1 hname
  obtain ⟨token, htoken, htext⟩ := h.exists_isAtom hn hlabel
  refine ⟨⟨n, hn, ?_, htext ▸ htoken.wrapped⟩, htext ▸ htoken.text_ne⟩
  rw [isExpression, hlabel]
  rfl

end Tree

/-! ## Names as they are bound and as they are read -/

/-- **The characters of a name** are those of a word. -/
theorem word_of_isNameChar {c : Char} (h : isNameChar c = true) :
    isWord c = true ∧ (isNameStart c = true → isWordStart c = true) := by
  have hlt : c.toNat < 0x80 := Nat.lt_of_le_of_lt (toNat_of_isNameChar h).2 (by decide)
  exact of_ascii (P := fun c => isNameChar c = true →
    isWord c = true ∧ (isNameStart c = true → isWordStart c = true)) (by decide +kernel) hlt h

/-- **A name that is no truth value** is spelled as a name. -/
theorem Text.IsName.spelled {name : String} (h : IsName name.toList) (htrue : name ≠ "true")
    (hfalse : name ≠ "false") : Spelled .ident name.toList := by
  have hne {word : String} (hword : name ≠ word) : name.toList ≠ word.toList := fun heq =>
    hword (String.toList_inj.1 heq)
  obtain ⟨c, more, hcons⟩ := List.exists_cons_of_ne_nil h.ne_nil
  have htrue' := hne htrue
  have hfalse' := hne hfalse
  have hchars := h.isNameChar
  rw [hcons] at h hchars htrue' hfalse' ⊢
  obtain ⟨hc, hmore⟩ := List.forall_mem_cons.1 hchars
  exact .ident ((word_of_isNameChar hc).2 (isName_cons_iff.1 h).1)
    (fun d hd => (word_of_isNameChar (hmore d hd)).1) htrue' hfalse'

/-- **A name is read to a variable**, in parentheses or not. -/
theorem Text.IsName.exists_isAtom {name : String} (h : IsName name.toList) (htrue : name ≠ "true")
    (hfalse : name ≠ "false") {text : List Char} (hwrapped : Wrapped name.toList text)
    (line column : Int) (allowCompare : Bool) :
    ∃ tree t, parseExpression text line column allowCompare = .ok tree ∧ tree.IsAtom .var t ∧
      t.text = name := by
  obtain ⟨tree, label, t, hread, hatom, hkind, htext⟩ :=
    exists_isAtom_of_wrapped hwrapped (h.spelled htrue hfalse) rfl line column allowCompare
  obtain rfl := hatom.kind_eq.2.2.2 hkind
  exact ⟨tree, t, hread, hatom, String.toList_inj.1 htext⟩

/-! ## Names that can be referred to -/

/-- **The name can be referred to**: by itself it is a variable; a tree that was read refers to it
exactly if it is written there; and a step that binds it and cannot see it is refused wherever it is
written in the step. -/
structure Referable (name : String) : Prop where
  alone : ∀ line column allowCompare, ∃ tree,
    parseExpression name.toList line column allowCompare = .ok tree ∧
      tree.label? = some .var ∧ tree.refs = [name]
  within : ∀ tree : Tree, tree.IsRead → (name ∈ tree.refs ↔ tree.Writes name)
  seen : ∀ (step : Step) (visible : List String), name ∈ step.setNames → name ∉ visible →
    ∀ value ∈ step.expressions, value.IsRead → value.Writes name →
      ∃ diagnostic, step.checkScope visible = .error diagnostic

/-- **No tree refers to the name**, which by itself is a truth value. -/
structure Unreferable (name : String) : Prop where
  alone : ∀ line column allowCompare, ∃ tree,
    parseExpression name.toList line column allowCompare = .ok tree ∧
      tree.label? = some .bool ∧ tree.refs = []
  within : ∀ tree : Tree, tree.IsRead → name ∉ tree.refs

theorem Text.IsName.referable {name : String} (h : IsName name.toList) (htrue : name ≠ "true")
    (hfalse : name ≠ "false") : Referable name := by
  have hwithin : ∀ tree : Tree, tree.IsRead → (name ∈ tree.refs ↔ tree.Writes name) := by
    refine fun tree hread => ⟨fun hname => (hread.of_mem_refs hname).1, ?_⟩
    rintro ⟨n, hn, hexpression, hwrapped⟩
    -- read by itself, the node is the variable, and so it was
    obtain ⟨text, line, column, allowCompare, hread⟩ := hread
    have hagain := parseExpression_text hread hn hexpression 1 1 true fun _ => rfl
    obtain ⟨tree', t, hread', hatom, rfl⟩ := h.exists_isAtom htrue hfalse hwrapped 1 1 true
    obtain rfl := Except.ok.inj (hread'.symm.trans hagain)
    refine tree.mem_refs_iff.2 ⟨n, hn, ?_, ?_⟩
    · rw [← Tree.label?_rebase, hatom.label?_eq]
    · rw [← Tree.firstText_rebase]
      obtain ⟨span, hnode⟩ := hatom.eq_node
      rw [hnode]
      rfl
  refine ⟨fun line column allowCompare => ?_, hwithin, ?_⟩
  · obtain ⟨tree, t, hread, hatom, rfl⟩ :=
      h.exists_isAtom htrue hfalse .bare line column allowCompare
    exact ⟨tree, hread, hatom.label?_eq, hatom.refs_eq⟩
  · intro step visible hset hvisible value hvalue hread hwrites
    exact (step.closesWith_checkScope visible).fails_iff.2
      ⟨value, hvalue, name, (hwithin value hread).2 hwrites, hset, hvisible⟩

/-- **The truth values** are names that cannot be referred to. -/
theorem unreferable_truthValue {name : String} (h : name = "true" ∨ name = "false") :
    Unreferable name := by
  obtain ⟨kind, hkind, hspelled⟩ : ∃ kind : TokenKind, (kind = .trueWord ∨ kind = .falseWord) ∧
      Spelled kind name.toList := by
    obtain rfl | rfl := h
    · exact ⟨.trueWord, .inl rfl, .trueWord⟩
    · exact ⟨.falseWord, .inr rfl, .falseWord⟩
  have hatomic : kind.isAtom = true := by obtain rfl | rfl := hkind <;> rfl
  refine ⟨fun line column allowCompare => ?_, fun tree hread hname => ?_⟩
  · obtain ⟨tree, label, t, hread, hatom, rfl, -⟩ :=
      exists_isAtom_of_wrapped .bare hspelled hatomic line column allowCompare
    obtain rfl := hatom.kind_eq.2.1.2 hkind
    refine ⟨tree, hread, hatom.label?_eq, ?_⟩
    obtain ⟨span, rfl⟩ := hatom.eq_node
    rfl
  · obtain ⟨-, htrue, hfalse⟩ := hread.of_mem_refs hname
    exact h.elim htrue hfalse

/-- **A name can be referred to** if it is no truth value, and only then. -/
theorem Text.IsName.referable_iff {name : String} (h : IsName name.toList) :
    Referable name ↔ name ≠ "true" ∧ name ≠ "false" := by
  refine ⟨fun hreferable => ?_, fun ⟨htrue, hfalse⟩ => h.referable htrue hfalse⟩
  obtain ⟨tree, hread, -, hrefs⟩ := hreferable.alone 1 1 false
  have hname : name ∈ tree.refs := hrefs ▸ List.mem_singleton_self name
  exact (Tree.IsRead.of_mem_refs ⟨_, 1, 1, false, hread⟩ hname).2

/-! ## Names that are bound -/

/-- **A line that begins with `set`** binds a name. -/
theorem exists_bind_of_classify {line : ScriptLine} {s : Statement} (h : classify line = .ok s)
    (hset : s.word = "set") : ∃ name value, s.command = .bind name value := by
  obtain ⟨k, hsupplied⟩ := supplied_of_classify h
  have hword : k.word = Keyword.bind.word := hsupplied.word_eq.symm.trans hset
  obtain rfl : k = .bind := Option.some.inj
    ((Keyword.ofWord?_word k).symm.trans (hword ▸ Keyword.ofWord?_word .bind))
  obtain ⟨name, hname⟩ := hsupplied.name rfl
  cases hcommand : s.command with
  | bind bound value => exact ⟨bound, value, rfl⟩
  | param bound value =>
    rw [Statement.word, hcommand] at hset
    exact absurd (show Keyword.param.word = "set" from hset) (by decide)
  | _ =>
    rw [hcommand] at hname
    exact absurd hname nofun

/-- **Every name that is bound can be referred to**, but for the two truth values.  A line of a script
that begins with `set` binds a name; unless the name is `true` or `false` it is a variable by itself,
trees refer to it wherever it is written, and no step that binds it can use it too early.  The two
can be bound as well, and nothing can ever refer to them. -/
theorem referable_of_classify (unit : Option Int) (text : String) (lines : List ScriptLine)
    (hscan : Layout.scan unit text = .ok lines) (line : ScriptLine) (hline : line ∈ lines)
    (s : Statement) (hs : classify line = .ok s) (hset : s.word = "set") :
    ∃ name value, s.command = .bind name value ∧
      (Referable name ↔ name ≠ "true" ∧ name ≠ "false") ∧
      (name = "true" ∨ name = "false" → Unreferable name) := by
  obtain ⟨name, value, hcommand⟩ := exists_bind_of_classify hs hset
  have hform : s.command.WellFormed := (Says.wellFormed ⟨lines, hscan, line, hline, hs⟩).command
  rw [hcommand] at hform
  exact ⟨name, value, hcommand, Text.IsName.referable_iff hform.1, unreferable_truthValue⟩

/-- A line that binds `x`, which can be referred to. -/
theorem referable_of_classify_x : Referable "x" := by
  have hscan : Layout.scan none "set x 1" = .ok [⟨0, "set x 1", 1, 1⟩] := by decide +kernel
  have hrun : (classify ⟨0, "set x 1", 1, 1⟩).toOption.map
      (fun s => (s.word, s.command.boundName?)) = some ("set", some "x") := by
    decide +kernel
  obtain ⟨s, hs, hlook⟩ := Option.map_eq_some_iff.1 hrun
  obtain ⟨hset, hbound⟩ := Prod.mk.injEq .. ▸ hlook
  obtain ⟨name, value, hcommand, hiff, -⟩ :=
    referable_of_classify none "set x 1" _ hscan _ (List.mem_singleton_self _) s
      (toOption_eq_some.1 hs) hset
  rw [hcommand] at hbound
  obtain rfl : name = "x" := Option.some.inj hbound
  exact hiff.2 (by decide)

/-- **Not every name that is bound** can be referred to: `true` can be bound, and is a truth value. -/
theorem not_referable_of_classify :
    ¬ ∀ (unit : Option Int) (text : String) (lines : List ScriptLine),
      Layout.scan unit text = .ok lines → ∀ line ∈ lines, ∀ s : Statement, classify line = .ok s →
        s.word = "set" → ∀ name ∈ s.command.boundName?, ∃ tree,
          parseExpression name.toList 1 1 false = .ok tree ∧ tree.label? = some .var ∧
            tree.refs = [name] := by
  intro hall
  have hscan : Layout.scan none "set true 1" = .ok [⟨0, "set true 1", 1, 1⟩] := by decide +kernel
  have hrun : (classify ⟨0, "set true 1", 1, 1⟩).toOption.map
      (fun s => (s.word, s.command.boundName?)) = some ("set", some "true") := by
    decide +kernel
  obtain ⟨s, hs, hlook⟩ := Option.map_eq_some_iff.1 hrun
  obtain ⟨hset, hbound⟩ := Prod.mk.injEq .. ▸ hlook
  obtain ⟨tree, hread, hlabel, -⟩ := hall none "set true 1" _ hscan _ (List.mem_singleton_self _) s
    (toOption_eq_some.1 hs) hset "true" hbound
  obtain ⟨tree', hread', hlabel', -⟩ := (unreferable_truthValue (.inl rfl)).alone 1 1 false
  obtain rfl := Except.ok.inj (hread.symm.trans hread')
  exact absurd (hlabel.symm.trans hlabel') (by decide)

end ScenarioScript
