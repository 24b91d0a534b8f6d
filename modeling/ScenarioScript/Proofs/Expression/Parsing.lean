import ScenarioScript.Proofs.Expression.Derivation
import ScenarioScript.Proofs.Expression.Placement

/-!
# Proofs/Expression/Parsing — from a text to the tree of its only derivation

The tokens of a text are never the token for its end (`endless_tokensOf`), so the laws of the
descent hold of every text.

* `parseExpression_eq_ok_tree` — the trees of texts are the trees of derivations, spans included;
* `parseExpression_eq_ok_iff` — a text has a tree exactly if its tokens have a derivation, and the
  tree has the shape of the derivation;
* `parseExpression_spec` — the same with what goes with it: there is one derivation at most, and
  comparisons and current values stand nowhere but in their places.
-/

namespace ScenarioScript

open Grammar

/-! ## No lexeme is the end -/

namespace Lexeme

theorem kind_ne_eof_of_cutOperator {c : Char} {tail text rest : List Char} {kind : TokenKind}
    (h : cutOperator c tail = some (kind, text, rest)) : kind ≠ .eof := by
  unfold cutOperator at h
  split at h <;> simp at h <;> obtain ⟨rfl, -, -⟩ := h <;> decide

theorem kind_ne_eof_of_ofWord (word : List Char) : TokenKind.ofWord word ≠ .eof := by
  unfold TokenKind.ofWord
  split
  · decide
  · split <;> decide

theorem kind_ne_eof_of_head {c : Char} {tail text rest : List Char} {kind : TokenKind}
    (h : head c tail = .lexeme kind text rest) : kind ≠ .eof := by
  unfold head at h
  split at h
  · simp at h
  split at h
  · split at h
    · obtain ⟨rfl, -, -⟩ := Head.lexeme.injEq .. ▸ h
      decide
    · simp at h
  split at h
  · exact (eq_of_numberHead h).1 ▸ by decide
  split at h
  · exact (eq_of_numberHead h).1 ▸ by decide
  split at h
  · obtain ⟨rfl, -, -⟩ := Head.lexeme.injEq .. ▸ h
    exact kind_ne_eof_of_ofWord _
  split at h
  · next k op after hop =>
    obtain ⟨rfl, -, -⟩ := Head.lexeme.injEq .. ▸ h
    exact kind_ne_eof_of_cutOperator hop
  · simp at h

end Lexeme

theorem endless_readTokens (line column : Int) (offset : Nat) (text : List Char) :
    Descent.Endless (readTokens line column offset text).tokens := by
  fun_induction readTokens line column offset text with
  | case1 => exact List.forall_mem_nil _
  | case2 offset c tail text rest hhead _ ih => exact ih
  | case3 offset c tail kind text rest hhead _ reading ih =>
    exact List.forall_mem_cons.2 ⟨Lexeme.kind_ne_eof_of_head hhead, ih⟩
  | case4 => exact List.forall_mem_nil _

/-- **The tokens of a text** do not contain the token for its end. -/
theorem endless_tokensOf {line column : Int} {text : List Char} {tokens : List Token}
    (h : tokensOf line column text = .ok tokens) : Descent.Endless tokens := by
  simp only [tokensOf] at h
  split at h
  · simp at h
  · obtain rfl := Except.ok.inj h
    exact endless_readTokens line column 0 text

theorem tokenize_eq_ok_iff {line column : Int} {text : List Char} {tokens : List Token} :
    tokenize line column text = .ok (tokens ++ [.endOf line column text.length]) ↔
      tokensOf line column text = .ok tokens := by
  rw [tokenize, Outcome.map_eq_ok]
  refine ⟨fun ⟨row, hrow, happend⟩ => ?_, fun h => ⟨tokens, h, rfl⟩⟩
  rw [hrow, List.append_cancel_right happend]

/-! ## The tree of a text -/

variable {text : List Char} {line column : Int} {allowCompare : Bool}

theorem parseExpression_eq_ok {tree : Tree} :
    parseExpression text line column allowCompare = .ok tree ↔
      ∃ tokens, tokensOf line column text = .ok tokens ∧
        ∃ d, Descent.whole (.ofText text line column) allowCompare ⟨tokens, 0⟩ = .ok (tree, d) := by
  unfold parseExpression
  cases htokens : tokensOf line column text with
  | error failure => simp
  | ok tokens =>
    cases hwhole : Descent.whole (.ofText text line column) allowCompare ⟨tokens, 0⟩ with
    | error halt => simp [hwhole]
    | ok read => simp [hwhole, Prod.ext_iff]

/-- **Soundness**: the tree of a text has the shape of a derivation of its tokens. -/
theorem exists_whole_of_parseExpression {tree : Tree}
    (h : parseExpression text line column allowCompare = .ok tree) :
    ∃ tokens, tokensOf line column text = .ok tokens ∧
      ∃ g : Whole allowCompare, g.tokens = tokens ∧ g.shape = tree.shape := by
  obtain ⟨tokens, htokens, d, hwhole⟩ := parseExpression_eq_ok.1 h
  obtain ⟨g, hg, hshape⟩ := Descent.exists_whole_of_ok rfl (endless_tokensOf htokens) hwhole
  exact ⟨tokens, htokens, g, hg.symm, hshape.symm⟩

/-- **Completeness**: where the tokens of a text have a derivation, the text has the tree of the
derivation. -/
theorem parseExpression_tokens (g : Whole allowCompare)
    (htokens : tokensOf line column text = .ok g.tokens) :
    parseExpression text line column allowCompare = .ok (g.tree (.ofText text line column)) :=
  parseExpression_eq_ok.2
    ⟨g.tokens, htokens, _, Descent.whole_complete g 0 rfl (endless_tokensOf htokens)⟩

/-- **The trees of texts are the trees of derivations**, spans included.  Soundness finds the
derivation; that its tree is the one that was read follows from completeness. -/
theorem parseExpression_eq_ok_tree {tree : Tree} :
    parseExpression text line column allowCompare = .ok tree ↔
      ∃ g : Whole allowCompare, tokensOf line column text = .ok g.tokens ∧
        g.tree (.ofText text line column) = tree := by
  constructor
  · intro h
    obtain ⟨_, htokens, g, rfl, -⟩ := exists_whole_of_parseExpression h
    exact ⟨g, htokens, Except.ok.inj ((parseExpression_tokens g htokens).symm.trans h)⟩
  · rintro ⟨g, htokens, rfl⟩
    exact parseExpression_tokens g htokens

/-- **Exactly the grammar**: a text has a tree of some shape exactly if its tokens derive it. -/
theorem parseExpression_eq_ok_iff {s : Shape} :
    (∃ tree, parseExpression text line column allowCompare = .ok tree ∧ tree.shape = s) ↔
      ∃ g : Whole allowCompare, g.shape = s ∧
        tokenize line column text = .ok (g.tokens ++ [.endOf line column text.length]) := by
  simp only [tokenize_eq_ok_iff]
  constructor
  · rintro ⟨tree, htree, rfl⟩
    obtain ⟨_, htokens, g, rfl, hshape⟩ := exists_whole_of_parseExpression htree
    exact ⟨g, hshape, htokens⟩
  · rintro ⟨g, rfl, htokens⟩
    have htree := parseExpression_tokens g htokens
    obtain ⟨_, hrow, e, rfl, hshape⟩ := exists_whole_of_parseExpression htree
    obtain rfl : g = e := Whole.eq_of_tokens (Except.ok.inj (htokens.symm.trans hrow))
    exact ⟨_, htree, hshape.symm⟩

/-- **The parser and its grammar.**  A text has a tree exactly if the row of its tokens, up to the
token for the end, has a derivation, and the shape of the tree is the one the derivation makes; no
row of tokens has two derivations; comparisons and current values stand in their places only. -/
theorem parseExpression_spec (text : List Char) (line column : Int) (allowCompare : Bool) :
    (∀ s : Shape,
      (∃ tree, parseExpression text line column allowCompare = .ok tree ∧ tree.shape = s) ↔
        ∃ g : Whole allowCompare, g.shape = s ∧
          tokenize line column text = .ok (g.tokens ++ [.endOf line column text.length])) ∧
    (∀ g e : Whole allowCompare, g.tokens = e.tokens → g = e) ∧
    ∀ tree, parseExpression text line column allowCompare = .ok tree →
      tree.WellPlaced allowCompare := by
  refine ⟨fun s => parseExpression_eq_ok_iff, fun g e => Whole.eq_of_tokens, fun tree htree => ?_⟩
  obtain ⟨_, _, g, _, hshape⟩ := exists_whole_of_parseExpression htree
  exact wellPlaced_of_shape hshape.symm

end ScenarioScript
