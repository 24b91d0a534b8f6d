import ScenarioScript.Proofs.Expression.Parsing

/-!
# Proofs/Expression/Usability — what is taken from a tree is there

Of a tree one takes the name of a variable, call or method, which is its first child, the arguments
of a call or method, and the methods of a chain, which are all children but the first.

`usable_of_parseExpression` says that in the tree of a text every node has what is taken from it.
-/

namespace ScenarioScript

namespace Tree

/-- **The node has what is taken from it**: a variable has a name, a call or method a name and
arguments, and a chain has nothing but methods behind the value that they are called on. -/
def Usable : Tree → Prop
  | node .var _ children => ∃ name, children = [leaf name]
  | node .call _ children | node .method _ children =>
    ∃ name span arguments, children = [leaf name, node .args span arguments]
  | node .chain _ children =>
    ∃ value calls, children = value :: calls ∧ ∀ m ∈ calls, m.label? = some .method
  | _ => True

/-- And so has every node below. -/
def UsableThroughout (t : Tree) : Prop := ∀ n ∈ t.preorder, n.Usable

theorem Usable.withSpan {t : Tree} (h : t.Usable) (span : Span) : (t.withSpan span).Usable := by
  cases t with
  | leaf token => exact h
  | node label own children => cases label <;> exact h

theorem usableThroughout_leaf (token : Token) : (leaf token).UsableThroughout :=
  forall_mem_preorder_leaf trivial

/-- A node over a name and arguments behind it. -/
theorem usableThroughout_applied {label : Label} {span own : Span} {name : Token}
    {arguments : List Tree} (hlabel : label = .call ∨ label = .method)
    (h : ∀ a ∈ arguments, a.UsableThroughout) :
    (node label span [leaf name, node .args own arguments]).UsableThroughout := by
  have husable : (node label span [leaf name, node .args own arguments]).Usable := by
    obtain rfl | rfl := hlabel
    all_goals exact ⟨name, own, arguments, rfl⟩
  exact forall_mem_preorder_node husable
    (Grammar.forall_mem_pair (usableThroughout_leaf name) (forall_mem_preorder_node trivial h))

end Tree

namespace Grammar

open ScenarioScript.Tree

variable {src : Source}

theorem Calls.label?_of_mem (c : Calls) : ∀ m ∈ c.trees src, m.label? = some .method := by
  cases c with
  | none => exact List.forall_mem_nil _
  | call _ _ _ _ more => exact List.forall_mem_cons.2 ⟨rfl, more.label?_of_mem⟩

mutual

theorem Concat.usable : (c : Concat) → (c.tree src).UsableThroughout
  | .mk first joined => joined.usable first.usable

theorem Joined.usable : (j : Joined) → {row : List Token} → {left : Tree} →
    left.UsableThroughout → (j.treeOn src row left).UsableThroughout
  | .none, _, _, hleft => hleft
  | .join _ right more, _, _, hleft =>
    more.usable (forall_mem_preorder_node trivial (forall_mem_pair hleft right.usable))

theorem Chain.usable : (c : Chain) → (c.tree src).UsableThroughout
  | .mk base .none => base.usable
  | .mk base (.call point name opening args more) => by
      have husable : (Chain.tree src (.mk base (.call point name opening args more))).Usable :=
        ⟨_, _, rfl, (Calls.call point name opening args more).label?_of_mem⟩
      exact forall_mem_preorder_node husable (List.forall_mem_cons.2
        ⟨base.usable, (Calls.call point name opening args more).usable⟩)

theorem Calls.usable : (c : Calls) → ∀ m ∈ c.trees src, m.UsableThroughout
  | .none => List.forall_mem_nil _
  | .call _ name opening args more => by
      obtain ⟨own, arguments, hargs, h⟩ := args.usable opening.token
      refine List.forall_mem_cons.2 ⟨?_, more.usable⟩
      rw [hargs]
      exact usableThroughout_applied (.inr rfl) h

theorem Primary.usable : (p : Primary) → (p.tree src).UsableThroughout
  | .literal t label hl => by
      have husable : (Primary.tree src (.literal t label hl)).Usable := by
        unfold literalLabel? at hl
        repeat' split at hl
        all_goals cases hl
        all_goals trivial
      exact forall_mem_preorder_node husable fun m hm =>
        List.mem_singleton.1 hm ▸ usableThroughout_leaf t
  | .var name => forall_mem_preorder_node ⟨name.token, rfl⟩ fun m hm =>
    List.mem_singleton.1 hm ▸ usableThroughout_leaf name.token
  | .call name opening _ args => by
      obtain ⟨own, arguments, hargs, h⟩ := args.usable opening.token
      rw [Primary.tree, hargs]
      exact usableThroughout_applied (.inl rfl) h
  | .paren _ inner _ => by
      have hinner := inner.usable
      refine forall_mem_preorder_withSpan hinner (Usable.withSpan (hinner _ ?_) _)
      cases inner.tree src <;> exact List.mem_cons_self

theorem Args.usable {inMethod : Bool} : (a : Args inMethod) → (opening : Token) →
    ∃ span arguments, a.tree src opening = .node .args span arguments ∧
      ∀ m ∈ arguments, m.UsableThroughout
  | .none _, _ => ⟨_, [], rfl, List.forall_mem_nil _⟩
  | .some list, _ => ⟨_, list.trees src, rfl, list.usable⟩

theorem ArgList.usable {inMethod : Bool} : (l : ArgList inMethod) →
    ∀ m ∈ l.trees src, m.UsableThroughout
  | .last argument _ => List.forall_mem_singleton.2 argument.usable
  | .more argument _ list => List.forall_mem_cons.2 ⟨argument.usable, list.usable⟩

theorem Argument.usable {inMethod : Bool} : (a : Argument inMethod) →
    (a.tree src).UsableThroughout
  | .value c => c.usable
  | .current t => forall_mem_preorder_node trivial fun _ hm =>
    List.mem_singleton.1 hm ▸ usableThroughout_leaf t.token

end

theorem Whole.usable {allowCompare : Bool} : (g : Whole allowCompare) →
    (g.tree src).UsableThroughout
  | .value c => c.usable
  | .compare left op _ right => forall_mem_preorder_node trivial
    (List.forall_mem_cons.2 ⟨left.usable, forall_mem_pair (usableThroughout_leaf op) right.usable⟩)

end Grammar

/-- **In the tree of a text**, every node has what is taken from it. -/
theorem usable_of_parseExpression {text : List Char} {line column : Int} {allowCompare : Bool}
    {tree : Tree} (h : parseExpression text line column allowCompare = .ok tree) :
    tree.UsableThroughout := by
  obtain ⟨g, -, rfl⟩ := parseExpression_eq_ok_tree.1 h
  exact g.usable

end ScenarioScript
