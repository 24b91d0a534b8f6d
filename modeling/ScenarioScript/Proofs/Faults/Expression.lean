import ScenarioScript.Proofs.Expression.Derivation
import ScenarioScript.Proofs.Expression.Tiling
import ScenarioScript.Proofs.Faults.Local

/-!
# Proofs/Faults/Expression — an expression fails for its text

Neither the lexer nor the descent refers to anything but the text, so every failure of an expression
is a fault of the text.  It lies at the lexeme that is being read, at a token, or at the end, and so
on the line, not before the text and not behind its end (`at_parseExpression`).
-/

namespace ScenarioScript

open Outcome

/-! ## Lexemes and tokens -/

namespace Lexeme

theorem isLocal_of_head {c : Char} {tail : List Char} {cause : Cause} {read : Nat}
    (h : head c tail = .fault cause read) : cause.isLocal = true := by
  unfold head numberHead at h
  repeat' split at h
  all_goals first
    | exact (Head.fault.inj h).1 ▸ rfl
    | simp at h

end Lexeme

section Tokens

variable {line column : Int} {offset : Nat} {text : List Char}

theorem isLocal_of_readTokens {cause : Cause}
    (h : (readTokens line column offset text).fault = some cause) : cause.isLocal = true := by
  fun_induction readTokens line column offset text with
  | case1 => exact absurd h.symm (Option.some_ne_none cause)
  | case2 offset c tail text rest hhead _ ih => exact ih h
  | case3 offset c tail kind text rest hhead _ reading ih => exact ih h
  | case4 offset c tail cause' read hhead =>
    exact Option.some.inj h ▸ Lexeme.isLocal_of_head hhead

/-- **The last lexeme begins in the text**, or at its end. -/
theorem start_readTokens_le (line column : Int) (offset : Nat) (text : List Char) :
    (readTokens line column offset text).start ≤ offset + text.length := by
  fun_induction readTokens line column offset text with
  | case1 => exact Nat.le_refl _
  | case2 offset c tail text rest hhead _ ih =>
    rw [← Lexeme.append_of_head_gap hhead, List.length_append]
    omega
  | case3 offset c tail kind text rest hhead _ reading ih =>
    rw [← (Lexeme.append_of_head_lexeme hhead).1, List.length_append]
    exact Nat.le_trans ih (Nat.le_of_eq (Nat.add_assoc ..))
  | case4 => exact Nat.le_add_right _ _

theorem onLine_of_le {start : Nat} (h : start ≤ text.length) :
    OnLine line column (column + text.length) line (column + start) :=
  ⟨rfl, by omega, by omega⟩

/-- **A text that has no tokens** has a fault where a lexeme begins. -/
theorem at_tokensOf (line column : Int) (text : List Char) :
    FailsOnly (Failure.At (OnLine line column (column + text.length)))
      (tokensOf line column text) := by
  simp only [tokensOf]
  split
  · next cause hfault =>
    refine .at (isLocal_of_readTokens hfault) (onLine_of_le ?_)
    simpa using start_readTokens_le line column 0 text
  · exact .ok _

/-- **A token** begins in the text. -/
theorem onLine_of_mem_tokensOf {row : List Token} (h : tokensOf line column text = .ok row) :
    ∀ t ∈ row, OnLine line column (column + text.length) t.line t.column := by
  intro t ht
  have htiled := tokensOf_eq_ok_iff.1 h
  have hspan : t.span = (Source.ofText text line column).span t.start t.stop :=
    htiled.span_token [] t ht
  have hline : t.line = line := congrArg Span.line hspan
  have hcolumn : t.column = column + t.start := congrArg Span.column hspan
  obtain ⟨before, behind, rfl⟩ := List.append_of_mem ht
  obtain ⟨a, b, rfl, -, -, hstart⟩ := htiled.cut_before (List.cons_ne_nil t behind)
  rw [hline, hcolumn]
  refine onLine_of_le ?_
  rw [rowStart_cons] at hstart
  rw [List.length_append]
  omega

end Tokens

/-! ## The descent -/

section Descent

variable {P : Int → Int → Prop} {src : Source} {c d : Cursor} {t opening : Token}

/-- What is ahead stands at positions of the given sort, and so does the end. -/
structure Cursor.Stands (P : Int → Int → Prop) (src : Source) (c : Cursor) : Prop where
  ahead : ∀ t ∈ c.ahead, P t.line t.column
  ending : P src.ending.line src.ending.column

/-- A halt for a fault at a position of the given sort. -/
def Halt.At (P : Int → Int → Prop) (h : Halt) : Prop := h.failure.At P

namespace Cursor.Stands

theorem current (h : c.Stands P src) : P (c.current src).line (c.current src).column := by
  obtain ⟨ahead, lastStop⟩ := c
  cases ahead with
  | nil => exact h.ending
  | cons t ahead => exact h.ahead t List.mem_cons_self

/-- **Further on** there is nothing else ahead. -/
theorem of_append {row : List Token} (h : c.Stands P src) (hahead : c.ahead = row ++ d.ahead) :
    d.Stands P src where
  ahead t ht := h.ahead t (hahead ▸ List.mem_append_right row ht)
  ending := h.ending

/-- **Behind a token** there is nothing else ahead, either. -/
theorem of_cons (h : c.Stands P src) (hahead : c.ahead = t :: d.ahead) : d.Stands P src where
  ahead u hu := h.ahead u (hahead ▸ List.mem_cons_of_mem t hu)
  ending := h.ending

theorem accept? {kind : TokenKind} (h : c.Stands P src) (haccept : c.accept? kind = some (t, d)) :
    P t.line t.column ∧ d.Stands P src := by
  obtain ⟨-, hahead, -⟩ := Cursor.of_accept? haccept
  exact ⟨h.ahead t (hahead ▸ List.mem_cons_self), h.of_cons hahead⟩

theorem next (h : c.Stands P src) : (c.next src).Stands P src := by
  obtain ⟨ahead, lastStop⟩ := c
  cases ahead with
  | nil => exact ⟨h.ahead, h.ending⟩
  | cons t ahead => exact h.of_cons rfl

theorem at_haltFor {cause : Cause} (h : c.Stands P src) (hlocal : cause.isLocal = true) :
    (c.haltFor src cause).At P :=
  .fault hlocal h.current

theorem at_unexpected (h : c.Stands P src) : (c.unexpected src).At P := by
  refine h.at_haltFor ?_
  unfold whyUnexpected
  repeat' split
  all_goals rfl

theorem at_unclosed (h : c.Stands P src) (hopening : P opening.line opening.column) :
    (c.unclosed src opening).At P := by
  unfold unclosed
  split
  · exact .fault rfl hopening
  · exact h.at_unexpected

end Cursor.Stands

namespace Descent

mutual

theorem at_concat {c : Cursor} (hc : c.Stands P src) :
    FailsOnly (Halt.At P) (pairs (concat src c)) := by
  rw [pairs_concat]
  refine (at_chain hc).bind fun first hfirst => ?_
  have := length_of_pairs hfirst
  obtain ⟨g, hg, -⟩ := exists_chain_of_ok hfirst
  exact at_concatRest _ first.1 (hc.of_append hg)
termination_by 6 * c.ahead.length + 2

theorem at_concatRest (start : Nat) (left : Tree) {c : Cursor} (hc : c.Stands P src) :
    FailsOnly (Halt.At P) (pairs (concatRest src start left c)) := by
  rw [pairs_concatRest]
  split
  · exact .ok _
  · next tilde c₁ htilde =>
    have := Cursor.length_of_accept? htilde
    obtain ⟨-, hc₁⟩ := hc.accept? htilde
    refine (at_chain hc₁).bind fun right hright => ?_
    have := length_of_pairs hright
    obtain ⟨g, hg, -⟩ := exists_chain_of_ok hright
    exact at_concatRest _ _ (hc₁.of_append hg)
termination_by 6 * c.ahead.length + 2

theorem at_chain {c : Cursor} (hc : c.Stands P src) :
    FailsOnly (Halt.At P) (pairs (chain src c)) := by
  rw [pairs_chain]
  refine (at_primary hc).bind fun base hbase => ?_
  have := length_of_pairs hbase
  obtain ⟨g, hg, -⟩ := exists_primary_of_ok hbase
  exact (at_methods (hc.of_append hg)).map
termination_by 6 * c.ahead.length + 1

theorem at_methods {c : Cursor} (hc : c.Stands P src) :
    FailsOnly (Halt.At P) (pairs (methods src c)) := by
  rw [pairs_methods]
  split
  · exact .ok _
  · next point c₁ hpoint =>
    have := Cursor.length_of_accept? hpoint
    obtain ⟨-, hc₁⟩ := hc.accept? hpoint
    split
    · exact .error (hc₁.at_haltFor rfl)
    · next name c₂ hname =>
      have := Cursor.length_of_accept? hname
      obtain ⟨-, hc₂⟩ := hc₁.accept? hname
      split
      · exact .error (hc₂.at_haltFor rfl)
      · next opening c₃ hopen =>
        have := Cursor.length_of_accept? hopen
        obtain ⟨hopening, hc₃⟩ := hc₂.accept? hopen
        refine (at_args true hopening hc₃).bind fun list hlist => ?_
        have := length_of_pairs hlist
        obtain ⟨g, hg, -⟩ := exists_args_of_ok hlist
        exact (at_methods (hc₃.of_append hg)).map
termination_by 6 * c.ahead.length

theorem at_primary {c : Cursor} (hc : c.Stands P src) :
    FailsOnly (Halt.At P) (pairs (primary src c)) := by
  obtain hahead | ⟨t, ahead, hahead⟩ : c.ahead = [] ∨ ∃ t ahead, c.ahead = t :: ahead := by
    cases c.ahead with
    | nil => exact .inl rfl
    | cons t ahead => exact .inr ⟨t, ahead, rfl⟩
  · rw [pairs_primary_nil src hahead]
    exact .error hc.at_unexpected
  · have hlength : ahead.length < c.ahead.length := by
      rw [hahead]
      exact Nat.lt_succ_self _
    have ht : P t.line t.column := hc.ahead t (hahead ▸ List.mem_cons_self)
    have hpast : (Cursor.past t ahead).Stands P src := hc.of_cons hahead
    rw [pairs_primary_cons src hahead]
    split
    · exact .ok _
    · exact .ok _
    · exact .ok _
    · exact .ok _
    · split
      · exact .ok _
      · next opening c₁ hopen =>
        have : c₁.ahead.length < ahead.length := Cursor.length_of_accept? hopen
        obtain ⟨hopening, hc₁⟩ := hpast.accept? hopen
        by_cases hadjacent : opening.start = t.stop
        · rw [if_pos hadjacent]
          exact (at_args false hopening hc₁).map
        · rw [if_neg hadjacent]
          exact .ok _
    · refine (at_concat hpast).bind fun inner hinner => ?_
      obtain ⟨g, hg, -⟩ := exists_concat_of_ok hinner
      split
      · exact .error ((hpast.of_append hg).at_unclosed ht)
      · exact .ok _
    · exact .error (hc.at_haltFor rfl)
    · exact .error hc.at_unexpected
termination_by 6 * c.ahead.length

theorem at_args (inMethod : Bool) {opening : Token} (hopening : P opening.line opening.column)
    {c : Cursor} (hc : c.Stands P src) :
    FailsOnly (Halt.At P) (pairs (args src inMethod opening c)) := by
  rw [pairs_args]
  split
  · exact .ok _
  · exact (at_argsRest inMethod hopening hc).map
termination_by 6 * c.ahead.length + 5

theorem at_argsRest (inMethod : Bool) {opening : Token} (hopening : P opening.line opening.column)
    {c : Cursor} (hc : c.Stands P src) :
    FailsOnly (Halt.At P) (pairs (argsRest src inMethod opening c)) := by
  rw [pairs_argsRest]
  refine (at_argument inMethod hc).bind fun first hfirst => ?_
  have := length_of_pairs hfirst
  obtain ⟨g, hg, -⟩ := exists_argument_of_ok hfirst
  have hfirst' := hc.of_append hg
  split
  · next comma c₁ hcomma =>
    have := Cursor.length_of_accept? hcomma
    exact (at_argsRest inMethod hopening (hfirst'.accept? hcomma).2).map
  · split
    · exact .ok _
    · exact .error (hfirst'.at_unclosed hopening)
termination_by 6 * c.ahead.length + 4

theorem at_argument (inMethod : Bool) {c : Cursor} (hc : c.Stands P src) :
    FailsOnly (Halt.At P) (pairs (argument src inMethod c)) := by
  rw [pairs_argument]
  split
  · exact .ok _
  · exact at_concat hc
termination_by 6 * c.ahead.length + 3

end

theorem stands_concat (hc : c.Stands P src) :
    Yields (fun r => r.2.Stands P src) (pairs (concat src c)) := by
  intro r hr
  obtain ⟨g, hg, -⟩ := exists_concat_of_ok hr
  exact hc.of_append hg

theorem stands_compare (hc : c.Stands P src) :
    Yields (fun r => r.2.Stands P src) (compare src c) := by
  rw [compare_eq]
  refine (stands_concat hc).bind fun left _ hleft => ?_
  split
  · refine (stands_concat hleft.next).bind fun right _ hright => ?_
    split
    · exact .error _
    · exact .ok hright
  · exact .ok hleft

theorem at_compare (hc : c.Stands P src) : FailsOnly (Halt.At P) (compare src c) := by
  rw [compare_eq]
  refine (at_concat hc).bind fun left hleft => ?_
  have hnext := (stands_concat hc left hleft).next
  split
  · refine (at_concat hnext).bind fun right hright => ?_
    split
    · exact .error ((stands_concat hnext right hright).at_haltFor rfl)
    · exact .ok _
  · exact .ok _

/-- **Reading a whole expression halts** for a fault at a token, or at the end. -/
theorem at_whole (allowCompare : Bool) (hc : c.Stands P src) :
    FailsOnly (Halt.At P) (whole src allowCompare c) := by
  rw [whole_eq]
  split
  · exact .error (hc.at_haltFor rfl)
  · have hread : FailsOnly (Halt.At P)
        (if allowCompare then compare src c else pairs (concat src c)) ∧
          Yields (fun r => r.2.Stands P src)
            (if allowCompare then compare src c else pairs (concat src c)) := by
      split
      · exact ⟨at_compare hc, stands_compare hc⟩
      · exact ⟨at_concat hc, stands_concat hc⟩
    refine hread.1.bind fun r hr => ?_
    split
    · exact .ok _
    · exact .error (hread.2 r hr).at_unexpected

end Descent

end Descent

/-- **An expression fails** for a fault of its text, in the text or at its end. -/
theorem at_parseExpression (text : List Char) (line column : Int) (allowCompare : Bool) :
    FailsOnly (Failure.At (OnLine line column (column + text.length)))
      (parseExpression text line column allowCompare) := by
  unfold parseExpression
  split
  · next failure htokens => exact .error (at_tokensOf line column text failure htokens)
  · next tokens htokens =>
    have hstart : Cursor.Stands (OnLine line column (column + text.length))
        (.ofText text line column) ⟨tokens, 0⟩ :=
      ⟨onLine_of_mem_tokensOf htokens, onLine_of_le (Nat.le_refl _)⟩
    split
    · next halt hwhole => exact .error (Descent.at_whole allowCompare hstart halt hwhole)
    · exact .ok _

end ScenarioScript
