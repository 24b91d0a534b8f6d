import ScenarioScript.Proofs.Expression.Atoms
import ScenarioScript.Proofs.Expression.Nesting
import ScenarioScript.Proofs.Form.Command

/-!
# Proofs/Form/Faithful — a statement keeps all of its line

A line is cut at two seams at most: behind its keyword, and behind the name that a value is given to.
What lies at a seam are blanks, of every sort there is; but an expression passes over spaces and tabs
only, and has its columns counted from the seam in front of it.

* `Text.Parted` — a text cut at blanks, of which none is left on either side;
* `text_of_parseExpression` — an expression without blanks around it is covered by its tree;
* `ArgumentForm.Sets` — the label, the name and the expression that an argument comes to, with what
  each of them is in the argument;
* `classify_faithful` — so every line can be put together again from its statement, and every node
  and token of an expression is found in the line at its column.
-/

namespace ScenarioScript

open Outcome Lexeme

/-! ## Texts and seams -/

namespace Text

/-- **A text without blanks around it**, and without a line feed in it. -/
structure Trimmed (text : List Char) : Prop where
  ne_nil : text ≠ []
  head : ∀ c ∈ text.head?, isBlank c = false
  last : ∀ c ∈ text.getLast?, isBlank c = false
  unbroken : '\n' ∉ text

instance Trimmed.decidable (text : List Char) : Decidable (Trimmed text) :=
  decidable_of_iff (text ≠ [] ∧ text.head?.any isBlank = false ∧
      text.getLast?.any isBlank = false ∧ '\n' ∉ text)
    ⟨fun ⟨hne, hhead, hlast, hunbroken⟩ =>
      ⟨hne, (Option.any_eq_false ..).1 hhead, (Option.any_eq_false ..).1 hlast, hunbroken⟩,
    fun h =>
      ⟨h.ne_nil, (Option.any_eq_false ..).2 h.head, (Option.any_eq_false ..).2 h.last, h.unbroken⟩⟩

/-- **A text cut at blanks** into what is before them and what is behind, which begins with none. -/
inductive Parted : List Char → List Char → List Char → Prop
  | mk (first gap rest : List Char) (ne_nil : gap ≠ []) (blank : ∀ c ∈ gap, isBlank c = true)
      (head : ∀ c ∈ rest.head?, isBlank c = false) : Parted (first ++ gap ++ rest) first rest

variable {text word argument name rest : List Char} {offset : Nat}

/-- An end of a trimmed text that does not begin with a blank is trimmed. -/
theorem Trimmed.of_suffix (h : Trimmed text) (hsuffix : rest <:+ text) (hne : rest ≠ [])
    (hhead : ∀ c ∈ rest.head?, isBlank c = false) : Trimmed rest := by
  refine ⟨hne, hhead, fun c hc => h.last c ?_, fun hmem => h.unbroken (hsuffix.subset hmem)⟩
  obtain ⟨before, rfl⟩ := hsuffix
  rwa [List.getLast?_append_of_ne_nil _ hne]

/-- **Blanks at the ends** of a trimmed text there are none. -/
theorem Trimmed.ends_eq_nil {gap core gap' : List Char} (h : Trimmed (gap ++ core ++ gap'))
    (hblank : ∀ c ∈ gap ++ gap', isBlank c = true) : gap = [] ∧ gap' = [] := by
  obtain ⟨hgap, hgap'⟩ := List.forall_mem_append.1 hblank
  constructor
  · cases gap with
    | nil => rfl
    | cons c gap => exact absurd ((hgap c List.mem_cons_self).symm.trans (h.head c rfl)) nofun
  · rcases List.eq_nil_or_concat' gap' with rfl | ⟨gap', c, rfl⟩
    · rfl
    · have hlast : c ∈ (gap ++ core ++ (gap' ++ [c])).getLast? := by
        rw [← List.append_assoc]
        exact List.getLast?_concat
      have hc : isBlank c = true := hgap' c (List.mem_append_right gap' List.mem_cons_self)
      exact absurd (hc.symm.trans (h.last c hlast)) nofun

theorem Parted.head?_isBlank {first : List Char} (h : Parted text first rest) :
    ∀ c ∈ rest.head?, isBlank c = false := by
  cases h with
  | mk _ _ _ _ _ head => exact head

/-- **Blanks between two parts** are left out of both. -/
theorem parted_append (first : List Char) {tail : List Char}
    (hblank : tail.head?.any isBlank = true) :
    Parted (first ++ tail) first (tail.dropWhile isBlank) := by
  have hgap : tail.takeWhile isBlank ≠ [] := by
    cases tail with
    | nil => exact absurd hblank nofun
    | cons c tail =>
      have hc : isBlank c = true := hblank
      rw [List.takeWhile_cons_of_pos hc]
      exact List.cons_ne_nil _ _
  have hparted := Parted.mk first _ (tail.dropWhile isBlank) hgap
    (fun c => List.all_eq_true.1 List.all_takeWhile c) head?_dropWhile_isBlank
  rwa [List.append_assoc, List.takeWhile_append_dropWhile] at hparted

/-- What comes behind a word begins with a blank. -/
theorem head?_any_isBlank_dropWhile (hne : text.dropWhile (!isBlank ·) ≠ []) :
    (text.dropWhile (!isBlank ·)).head?.any isBlank = true := by
  have hhead := List.head?_dropWhile_not (!isBlank ·) text
  cases htail : text.dropWhile (!isBlank ·) with
  | nil => exact absurd htail hne
  | cons c tail =>
    rw [htail] at hhead
    simpa using hhead

/-- **The seam behind the keyword.** -/
theorem Trimmed.parted_of_splitStatement? (h : Trimmed text)
    (hsplit : splitStatement? text = some (word, argument, offset)) :
    (argument = [] ∧ text = word ∨ Trimmed argument ∧ Parted text word argument) ∧
      ∃ before, text = before ++ argument ∧ before.length = offset := by
  have happend := cutWord_append text
  have hsuffix := rest_cutWord_suffix text
  simp only [splitStatement?] at hsplit
  split at hsplit
  · exact absurd hsplit.symm (Option.some_ne_none _)
  · next word hrest _ =>
    simp only [Option.some.injEq, Prod.mk.injEq] at hsplit
    obtain ⟨rfl, rfl, rfl⟩ := hsplit
    refine ⟨.inl ⟨rfl, ?_⟩, text, (List.append_nil text).symm, rfl⟩
    rw [hrest, List.append_nil] at happend
    have htrimmed : Trimmed ([] ++ (cutWord text).word ++ (cutWord text).gap) := by
      rwa [List.nil_append, happend]
    have hgap : (cutWord text).gap = [] := (htrimmed.ends_eq_nil fun c => isBlank_of_mem_gap).2
    rw [hgap, List.append_nil] at happend
    exact happend.symm
  · next hne =>
    rw [dropLastBreak?_of_unbroken fun hmem => h.unbroken (hsuffix.subset hmem)] at hsplit
    simp only [Option.map_some, Option.some.injEq, Prod.mk.injEq] at hsplit
    obtain ⟨rfl, rfl, rfl⟩ := hsplit
    refine ⟨.inr ⟨h.of_suffix hsuffix hne head?_rest_cutWord, ?_⟩,
      _, happend.symm, List.length_append⟩
    have htail : text.dropWhile (!isBlank ·) ≠ [] := by
      intro hnil
      exact hne (by rw [cutWord, hnil]; rfl)
    have hparted := parted_append (text.takeWhile (!isBlank ·)) (head?_any_isBlank_dropWhile htail)
    rwa [List.takeWhile_append_dropWhile] at hparted

/-- **The seam behind the name.** -/
theorem parted_of_splitName? (hsplit : splitName? text = some (name, rest, offset))
    (hne : rest ≠ []) : Parted text name rest := by
  unfold splitName? at hsplit
  split at hsplit
  · exact absurd hsplit.symm (Option.some_ne_none _)
  · next c tail =>
    dsimp only at hsplit
    split at hsplit
    · next hends =>
      simp only [Option.some.injEq, Prod.mk.injEq] at hsplit
      obtain ⟨rfl, rfl, -⟩ := hsplit
      have hblank : ((c :: tail).dropWhile isNameChar).head?.any isBlank = true := by
        cases hrest : (c :: tail).dropWhile isNameChar with
        | nil => exact absurd (by rw [hrest]; rfl) hne
        | cons d more =>
          rw [hrest, Bool.and_eq_true] at hends
          simpa using hends.2
      have hparted := parted_append ((c :: tail).takeWhile isNameChar) hblank
      rwa [List.takeWhile_append_dropWhile] at hparted
    · exact absurd hsplit.symm (Option.some_ne_none _)

end Text

/-! ## Expressions in a text -/

/-- **The span is cut from a text** that begins at the given place: it lies in its line, and as far
behind its start as the column says. -/
def Span.CutFrom (s : Span) (text : List Char) (line column : Int) : Prop :=
  s.line = line ∧ ∃ offset : Nat, s.column = column + offset ∧
    s.text.toList = (text.drop offset).take s.text.length

/-- What an expression passes over are blanks. -/
theorem isBlank_of_isGap {c : Char} (h : isGap c = true) : Text.isBlank c = true := by
  rw [isGap, Bool.or_eq_true, beq_iff_eq, beq_iff_eq] at h
  obtain rfl | rfl := h <;> decide

section Cut

variable {span : Span} {text rest : List Char} {line column : Int} {allowCompare : Bool} {t : Tree}

theorem Span.Exact.cutFrom (h : span.Exact text line column) : span.CutFrom text line column := by
  refine ⟨h.line_eq, span.start, h.column_eq, ?_⟩
  have hlength : span.text.length = span.stop - span.start := by
    have := h.stop_le
    rw [h.text_eq, String.length_ofList, List.length_take, List.length_drop]
    omega
  rw [hlength, h.text_eq, String.toList_ofList]

/-- What is cut from the end of a text is cut from the text. -/
theorem Span.CutFrom.append {before : List Char}
    (h : span.CutFrom rest line (column + (before.length : Nat))) :
    span.CutFrom (before ++ rest) line column := by
  obtain ⟨hline, offset, hcolumn, htext⟩ := h
  refine ⟨hline, before.length + offset, ?_, ?_⟩
  · rw [hcolumn, Int.natCast_add, Int.add_assoc]
  · rw [← List.drop_drop, List.drop_left, htext]

/-- **An expression without blanks around it** is covered by its tree: what a tree leaves out are
spaces and tabs at the ends. -/
theorem text_of_parseExpression (h : Text.Trimmed text)
    (hparse : parseExpression text line column allowCompare = .ok t) :
    t.text = String.ofList text := by
  obtain ⟨-, hlaid⟩ := parseExpression_laid hparse
  have hexact := hlaid.exact t t.self_mem_preorder
  have hblank : ∀ c ∈ text.take t.span.start ++ text.drop t.span.stop, Text.isBlank c = true := by
    intro c hc
    obtain rfl | rfl := hlaid.outside c hc <;> decide
  have hcut : text.take t.span.start ++ (text.drop t.span.start).take (t.span.stop - t.span.start) ++
      text.drop t.span.stop = text := by
    have hdrop : text.drop t.span.stop =
        (text.drop t.span.start).drop (t.span.stop - t.span.start) := by
      rw [List.drop_drop, Nat.add_sub_cancel' hexact.start_lt_stop.le]
    rw [hdrop, List.append_assoc, List.take_append_drop, List.take_append_drop]
  obtain ⟨hstart, hstop⟩ := Text.Trimmed.ends_eq_nil (hcut.symm ▸ h) hblank
  rw [hstart, hstop, List.nil_append, List.append_nil] at hcut
  rw [Tree.text, hexact.text_eq, hcut]

/-- **A token that is alone in a text** without blanks around it is all of it. -/
theorem spelled_of_tokensOf {token : Token} (h : Text.Trimmed text)
    (htokens : tokensOf line column text = .ok [token]) :
    Lexeme.Spelled token.kind text ∧ token.text = String.ofList text := by
  obtain ⟨d, hd, rfl, hrow⟩ :=
    Decomposition.exists_munched_of_tiled (tokensOf_eq_ok_iff.1 htokens)
  cases d with
  | last gap => exact absurd hrow.symm (List.cons_ne_nil _ _)
  | piece gap kind lexeme below =>
    obtain ⟨rfl, hbelow⟩ := List.cons.inj hrow
    cases below with
    | piece => exact absurd hbelow (List.cons_ne_nil _ _)
    | last gap' =>
      obtain ⟨hgap, hspelled, -, hgap'⟩ := hd
      simp only [Decomposition.text, ← List.append_assoc] at h ⊢
      obtain ⟨rfl, rfl⟩ := h.ends_eq_nil fun c hc =>
        isBlank_of_isGap (List.forall_mem_append.2 ⟨hgap, hgap'⟩ c hc)
      rw [List.nil_append, List.append_nil]
      exact ⟨hspelled, rfl⟩

end Cut

/-- **All that is in an expression** is cut from the argument that it is read from. -/
theorem Argument.Reads.cutFrom {a : Argument} {t : Tree} (h : a.Reads t) :
    ∀ n ∈ t.preorder, n.span.CutFrom a.text a.line a.column := by
  obtain ⟨before, rest, allowCompare, htext, hparse⟩ := h
  intro n hn
  rw [htext]
  exact ((parseExpression_laid hparse).2.exact n hn).cutFrom.append

/-! ## The forms of arguments -/

/-- **What an argument is read as.** -/
inductive ArgumentForm where
  /-- Taken as it stands. -/
  | label
  /-- One string, of which the contents are taken. -/
  | path
  /-- A name, and an expression behind it. -/
  | binding
  | value
  /-- An expression that may be left out. -/
  | flag
  /-- There may be none. -/
  | nothing
  deriving DecidableEq

/-- The form of a keyword's argument. -/
def Keyword.form : Keyword → ArgumentForm
  | scenario | group | inclusion => .label
  | load => .path
  | bind | param => .binding
  | json | setting .followRedirects => .flag
  | step kind => if kind.hasTarget then .value else .nothing
  | _ => .value

namespace ArgumentForm

open Text

/-- **The label, the name and the expression** that an argument comes to, and where each is in it. -/
inductive Sets : ArgumentForm → List Char → Option String → Option String → Option Tree → Prop
  | label (argument : List Char) : Sets .label argument (some (String.ofList argument)) none none
  | path {mark : Char} {contents : List Char} (quote : isQuote mark = true)
      (inside : StringBody mark contents) :
      Sets .path (mark :: (contents ++ [mark])) (some (String.ofList contents)) none none
  | binding {argument name rest : List Char} {value : Tree} (isName : IsName name)
      (parted : Parted argument name rest) (text_eq : value.text = String.ofList rest) :
      Sets .binding argument none (some (String.ofList name)) (some value)
  | value {argument : List Char} {value : Tree} (ne_nil : argument ≠ [])
      (text_eq : value.text = String.ofList argument) : Sets .value argument none none (some value)
  | flag {argument : List Char} {value : Tree} (ne_nil : argument ≠ [])
      (text_eq : value.text = String.ofList argument) : Sets .flag argument none none (some value)
  | flagAlone : Sets .flag [] none none none
  | nothing : Sets .nothing [] none none none

end ArgumentForm

open ArgumentForm

namespace Argument

theorem sets_name (a : Argument) (k : Keyword) :
    Yields (fun label => Sets .label a.text (some label) none none) (a.name k) := by
  unfold name
  split
  · exact .error _
  · exact .ok (.label a.text)

theorem sets_absent (a : Argument) (k : Keyword) :
    Yields (fun _ => Sets .nothing a.text none none none) (a.absent k) := by
  unfold absent
  split
  · next hnil => exact .ok (List.isEmpty_iff.1 hnil ▸ .nothing)
  · exact .error _

variable {a : Argument} (h : a.text = [] ∨ Text.Trimmed a.text) (k : Keyword)

include h

theorem trimmed (hne : ¬a.text.isEmpty = true) : Text.Trimmed a.text :=
  h.resolve_left fun hnil => hne (List.isEmpty_iff.2 hnil)

theorem sets_value (allowCompare : Bool) :
    Yields (fun t => Sets .value a.text none none (some t)) (a.value k allowCompare) := by
  unfold value
  split
  · exact .error _
  · next hne =>
    have htrimmed := trimmed h hne
    exact fun t ht => .value htrimmed.ne_nil (text_of_parseExpression htrimmed ht)

theorem sets_optionalValue :
    Yields (fun value? => Sets .flag a.text none none value?) a.optionalValue := by
  unfold optionalValue
  split
  · next hnil => exact .ok (List.isEmpty_iff.1 hnil ▸ .flagAlone)
  · next hne =>
    have htrimmed := trimmed h hne
    intro value? hvalue
    obtain ⟨t, ht, rfl⟩ := map_eq_ok.1 hvalue
    exact .flag htrimmed.ne_nil (text_of_parseExpression htrimmed ht)

theorem sets_quotedPath :
    Yields (fun label => Sets .path a.text (some label) none none) a.quotedPath := by
  unfold quotedPath
  split
  · exact .error _
  · next hne =>
    have htrimmed := trimmed h hne
    split
    · exact .error _
    · exact .error _
    · next path more htokens =>
      split
      · next hkind =>
        split
        · obtain ⟨hspelled, htext⟩ := spelled_of_tokensOf htrimmed htokens
          rw [hkind] at hspelled
          obtain ⟨mark, contents, hquote, hinside, hquoted⟩ := hspelled.exists_quoted
          refine .ok ?_
          rw [htext, String.toList_ofList, hquoted, List.drop_one, List.tail_cons,
            List.dropLast_concat]
          exact .path hquote hinside
        · exact .error _
      · exact .error _

theorem sets_binding :
    Yields (fun bound => Sets .binding a.text none (some bound.1) (some bound.2))
      (a.binding k) := by
  unfold binding
  split
  · exact .error _
  · next hne =>
    have htrimmed := trimmed h hne
    split
    · exact .error _
    · exact .error _
    · next name rest offset hrest hsplit =>
      obtain ⟨before, hbefore, -⟩ := exists_append_of_splitName? hsplit
      have hparted := Text.parted_of_splitName? hsplit hrest
      have htrimmed' : Text.Trimmed rest :=
        htrimmed.of_suffix ⟨before, hbefore.symm⟩ hrest hparted.head?_isBlank
      intro bound hbound
      obtain ⟨value, hvalue, rfl⟩ := map_eq_ok.1 hbound
      exact .binding (Text.isName_of_splitName? hsplit) hparted
        (text_of_parseExpression htrimmed' hvalue)

end Argument

/-- **What a keyword makes of its argument** is of the keyword's form. -/
theorem Keyword.sets_read (k : Keyword) {a : Argument} (h : a.text = [] ∨ Text.Trimmed a.text) :
    Yields (fun c => k.form.Sets a.text c.label? c.boundName? c.expr?) (k.read a) := by
  cases k with
  | scenario => exact .ok (.label a.text)
  | group | inclusion => exact (a.sets_name _).map fun label hlabel => hlabel
  | load => exact (Argument.sets_quotedPath h).map fun label hlabel => hlabel
  | bind | param => exact (Argument.sets_binding h _).map fun bound hbound => hbound
  | endpoint | name | method | body =>
    exact (Argument.sets_value h _ false).map fun value hvalue => hvalue
  | expect => exact (Argument.sets_value h _ true).map fun value hvalue => hvalue
  | json => exact (Argument.sets_optionalValue h).map fun value hvalue => hvalue
  | setting key =>
    cases key with
    | followRedirects =>
      refine Yields.map ?_ fun choice hchoice => hchoice
      exact (Argument.sets_optionalValue h).map fun value hvalue => hvalue
    | _ =>
      refine Yields.map ?_ fun choice hchoice => hchoice
      exact (Argument.sets_value h _ false).map fun value hvalue => hvalue
  | step kind =>
    rw [read, form]
    split
    · exact (Argument.sets_value h _ false).map fun value hvalue => hvalue
    · exact (a.sets_absent _).map fun _ hnone => hnone

/-! ## Lines -/

/-- **A statement keeps all of its line.** -/
structure Statement.FaithfulTo (s : Statement) (l : ScriptLine) (k : Keyword) : Prop where
  word_eq : s.word = k.word
  depth_eq : s.depth = l.depth
  line_eq : s.line = l.line
  column_eq : s.column = l.column
  /-- The line is the keyword, or the keyword and the argument with blanks between them. -/
  text_eq : s.argument = "" ∧ l.text = k.word ∨
    s.argument ≠ "" ∧ Text.Parted l.text.toList k.word.toList s.argument.toList
  /-- The label, the name and the expression are what the form of the keyword asks for. -/
  sets : k.form.Sets s.argument.toList s.command.label? s.command.boundName? s.command.expr?
  /-- Every node and token of the expression is found in the line at its column. -/
  cut : ∀ value ∈ s.command.expr?, ∀ n ∈ value.preorder,
    n.span.CutFrom l.text.toList l.line l.column

/-- **Nothing of a line is lost**, and all of it is where it is said to be. -/
theorem classify_faithful {l : ScriptLine} {s : Statement} (htext : Text.Trimmed l.text.toList)
    (h : classify l = .ok s) : ∃ k, s.FaithfulTo l k := by
  obtain ⟨word, argument, offset, k, command, hsplit, hword, hread, rfl⟩ :=
    exists_read_of_classify h
  obtain ⟨hparts, before, hbefore, rfl⟩ := htext.parted_of_splitStatement? hsplit
  have hargument : argument = [] ∨ Text.Trimmed argument :=
    hparts.imp And.left And.left
  have hsupplied := k.supplied_read _ command hread
  refine ⟨k, hsupplied.word_eq, rfl, rfl, rfl, ?_, ?_, fun value hvalue n hn => ?_⟩
  · rw [hword, String.toList_ofList, String.toList_ofList]
    rcases hparts with ⟨rfl, hline⟩ | ⟨htrimmed, hparted⟩
    · exact .inl ⟨rfl, String.toList_inj.1 (by rw [hline, String.toList_ofList])⟩
    · refine .inr ⟨fun hempty => htrimmed.ne_nil ?_, hparted⟩
      simpa using congrArg String.toList hempty
  · rw [String.toList_ofList]
    exact k.sets_read hargument command hread
  · rw [hbefore]
    exact ((hsupplied.reads value hvalue).cutFrom n hn).append

/-- Blanks of several sorts at both seams, and spaces inside the expression. -/
theorem classify_faithful_binding :
    Text.Trimmed "set\t\u00a0x\u2003 f( a ).g(@) ~ 'b'".toList ∧
      ∃ s, classify ⟨1, "set\t\u00a0x\u2003 f( a ).g(@) ~ 'b'", 7, 5⟩ = .ok s ∧
        s.command.expr?.map (fun value => (value.text, value.span.column)) =
          some ("f( a ).g(@) ~ 'b'", 13) ∧
        ∃ k, s.FaithfulTo ⟨1, "set\t\u00a0x\u2003 f( a ).g(@) ~ 'b'", 7, 5⟩ k := by
  have htext : Text.Trimmed "set\t\u00a0x\u2003 f( a ).g(@) ~ 'b'".toList := by decide +kernel
  have hrun : (classify ⟨1, "set\t\u00a0x\u2003 f( a ).g(@) ~ 'b'", 7, 5⟩).toOption.map
      (fun s => s.command.expr?.map fun value => (value.text, value.span.column)) =
        some (some ("f( a ).g(@) ~ 'b'", 13)) := by decide +kernel
  obtain ⟨s, hs, hvalue⟩ := Option.map_eq_some_iff.1 hrun
  have hclassify := toOption_eq_some.1 hs
  exact ⟨htext, s, hclassify, hvalue, classify_faithful htext hclassify⟩

end ScenarioScript
