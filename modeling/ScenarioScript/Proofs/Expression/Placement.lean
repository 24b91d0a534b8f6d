import ScenarioScript.Proofs.Expression.Grammar

/-!
# Proofs/Expression/Placement — where comparisons and current values stand

The grammar has a comparison only as a whole expression, and the current value only as an argument
of a method.  `WellPlaced` says so of a syntax tree, node by node, and `wellPlaced_of_shape` says
that every tree with a derivation is like that.
-/

namespace ScenarioScript

namespace Shape

/-- The label of a node; a token has none. -/
def label? : Shape → Option Label
  | leaf _ => none
  | node label _ => some label

/-- The shapes directly below. -/
def children : Shape → List Shape
  | leaf _ => []
  | node _ children => children

mutual

/-- The shape and all shapes below it. -/
def preorder : Shape → List Shape
  | leaf token => [leaf token]
  | node label children => node label children :: preorderAll children

/-- All shapes of a row and below it. -/
def preorderAll : List Shape → List Shape
  | [] => []
  | s :: ss => preorder s ++ preorderAll ss

end

end Shape

namespace Tree

theorem label?_shape (t : Tree) : t.shape.label? = t.label? := by cases t <;> rfl

theorem children_shape (t : Tree) : t.shape.children = t.children.map shape := by
  cases t with
  | leaf token => rfl
  | node label span children => exact shapes_eq_map children

mutual

theorem preorder_shape : ∀ t : Tree, t.shape.preorder = t.preorder.map shape
  | leaf _ => rfl
  | node label span children => by
      rw [shape, Shape.preorder, preorderAll_shapes children, preorder, List.map_cons, shape]

theorem preorderAll_shapes : ∀ ts : List Tree,
    Shape.preorderAll (shapes ts) = (preorderAll ts).map shape
  | [] => rfl
  | t :: ts => by
      rw [shapes, Shape.preorderAll, preorder_shape t, preorderAll_shapes ts, preorderAll,
        List.map_append]

end

theorem self_mem_preorder (t : Tree) : t ∈ t.preorder := by
  cases t <;> exact List.mem_cons_self

/-- What is in a child is in the node. -/
theorem mem_preorder_of_mem_children {t m n : Tree} (hm : m ∈ t.children) (hn : n ∈ m.preorder) :
    n ∈ t.preorder := by
  cases t with
  | leaf token => exact absurd hm List.not_mem_nil
  | node label span children =>
    rw [preorder, preorderAll_eq_flatMap]
    exact List.mem_cons_of_mem _ (List.mem_flatMap.2 ⟨m, hm, hn⟩)

/-- **What holds of a node and throughout its children** holds throughout the node. -/
theorem forall_mem_preorder_node {P : Tree → Prop} {label : Label} {span : Span}
    {children : List Tree} (hroot : P (node label span children))
    (hbelow : ∀ m ∈ children, ∀ n ∈ m.preorder, P n) :
    ∀ n ∈ (node label span children).preorder, P n := by
  intro n hn
  rcases List.mem_cons.1 hn with rfl | hn
  · exact hroot
  · rw [preorderAll_eq_flatMap] at hn
    obtain ⟨m, hm, hn⟩ := List.mem_flatMap.1 hn
    exact hbelow m hm n hn

theorem forall_mem_preorder_leaf {P : Tree → Prop} {token : Token} (h : P (leaf token)) :
    ∀ n ∈ (leaf token).preorder, P n := fun _ hn =>
  List.mem_singleton.1 hn ▸ h

/-- Parentheses change nothing below the node that they are put around. -/
theorem forall_mem_preorder_withSpan {P : Tree → Prop} {t : Tree} {span : Span}
    (h : ∀ n ∈ t.preorder, P n) (hroot : P (t.withSpan span)) :
    ∀ n ∈ (t.withSpan span).preorder, P n := by
  cases t with
  | leaf token => exact h
  | node label own children =>
    exact forall_mem_preorder_node hroot fun _ hm n hn => h n (mem_preorder_of_mem_children hm hn)

/-- **Where comparisons and current values stand** in a syntax tree: a comparison at the root and
nowhere else, and there only where it is allowed; a current value only directly below the arguments
of a method. -/
structure WellPlaced (allowCompare : Bool) (t : Tree) : Prop where
  compare_root : t.label? = some .compare → allowCompare = true
  compare_below : ∀ n ∈ t.preorder, ∀ m ∈ n.children, m.label? ≠ some .compare
  current_root : t.label? ≠ some .current ∧ ∀ m ∈ t.children, m.label? ≠ some .current
  current_below : ∀ n ∈ t.preorder, ∀ a ∈ n.children, ∀ v ∈ a.children,
    v.label? = some .current → a.label? = some .args ∧ n.label? = some .method

end Tree

namespace Grammar

/-! ## Shapes without stray nodes -/

/-- A node below which nothing is out of place, as far as two levels tell. -/
def Proper (n : Shape) : Prop :=
  (∀ m ∈ n.children, m.label? ≠ some .compare) ∧
    ∀ a ∈ n.children, ∀ v ∈ a.children,
      v.label? = some .current → a.label? = some .args ∧ n.label? = some .method

/-- What can stand among the arguments of a method. -/
structure Part (s : Shape) : Prop where
  not_compare : s.label? ≠ some .compare
  children_not_current : ∀ m ∈ s.children, m.label? ≠ some .current
  proper : ∀ n ∈ s.preorder, Proper n

/-- **What can stand anywhere** in an expression: the same without the current value. -/
structure Operand (s : Shape) : Prop extends Part s where
  not_current : s.label? ≠ some .current

theorem mem_preorderAll {n : Shape} {ss : List Shape} :
    n ∈ Shape.preorderAll ss ↔ ∃ s ∈ ss, n ∈ s.preorder := by
  induction ss with
  | nil => simp [Shape.preorderAll]
  | cons s ss ih => simp [Shape.preorderAll, ih]

/-- **A node is proper throughout** if it is itself and what is below it is. -/
theorem proper_preorder {label : Label} {children : List Shape} (h : Proper (.node label children))
    (hbelow : ∀ m ∈ children, ∀ n ∈ m.preorder, Proper n) :
    ∀ n ∈ (Shape.node label children).preorder, Proper n := by
  intro n hn
  rw [Shape.preorder, List.mem_cons] at hn
  rcases hn with rfl | hn
  · exact h
  · obtain ⟨m, hm, hn⟩ := mem_preorderAll.1 hn
    exact hbelow m hm n hn

theorem forall_mem_pair {α : Type} {p : α → Prop} {a b : α} (ha : p a) (hb : p b) :
    ∀ m ∈ [a, b], p m := by
  rw [List.forall_mem_cons, List.forall_mem_singleton]
  exact ⟨ha, hb⟩

theorem operand_leaf (t : Token) : Operand (.leaf t) where
  not_compare := nofun
  not_current := nofun
  children_not_current := nofun
  proper := fun n hn => by
    obtain rfl := List.mem_singleton.1 hn
    exact ⟨nofun, nofun⟩

/-- A node of parts, none of which is the current value. -/
theorem part_node {label : Label} {children : List Shape} (hlabel : label ≠ .compare)
    (h : ∀ m ∈ children, Operand m) : Part (.node label children) where
  not_compare := fun e => hlabel (Option.some.inj e)
  children_not_current := fun m hm => (h m hm).not_current
  proper := proper_preorder
    ⟨fun m hm => (h m hm).not_compare,
      fun a ha v hv hcurrent => absurd hcurrent ((h a ha).children_not_current v hv)⟩
    fun m hm => (h m hm).proper

theorem operand_node {label : Label} {children : List Shape} (hcompare : label ≠ .compare)
    (hcurrent : label ≠ .current) (h : ∀ m ∈ children, Operand m) :
    Operand (.node label children) :=
  { part_node hcompare h with not_current := fun e => hcurrent (Option.some.inj e) }

/-- **A method** may have the current value among its arguments. -/
theorem operand_method (t : Token) {arguments : List Shape} (h : ∀ v ∈ arguments, Part v) :
    Operand (.node .method [.leaf t, .node .args arguments]) where
  not_compare := nofun
  not_current := nofun
  children_not_current := forall_mem_pair nofun nofun
  proper := by
    have hargs : Proper (.node .args arguments) :=
      ⟨fun v hv => (h v hv).not_compare,
        fun v hv w hw hcurrent => absurd hcurrent ((h v hv).children_not_current w hw)⟩
    exact proper_preorder
      ⟨forall_mem_pair nofun nofun, forall_mem_pair nofun fun _ _ _ => ⟨rfl, rfl⟩⟩
      (forall_mem_pair (operand_leaf t).proper (proper_preorder hargs fun v hv => (h v hv).proper))

theorem literal_ne {t : Token} {label : Label} (h : literalLabel? t = some label) :
    label ≠ .compare ∧ label ≠ .current := by
  unfold literalLabel? at h
  constructor
  all_goals
    rintro rfl
    repeat' split at h
    all_goals simp at h

mutual

theorem Concat.operand : (g : Concat) → Operand g.shape
  | .mk first joined => joined.operand first.operand

theorem Joined.operand : (g : Joined) → {left : Shape} → Operand left → Operand (g.fold left)
  | .none, _, h => h
  | .join _ right more, _, h =>
    more.operand (operand_node (by decide) (by decide) (forall_mem_pair h right.operand))

theorem Chain.operand : (g : Chain) → Operand g.shape
  | .mk base .none => base.operand
  | .mk base (.call point name opening args more) =>
    operand_node (by decide) (by decide) fun m hm => by
      rcases List.mem_cons.1 hm with rfl | hm
      · exact base.operand
      · exact (Calls.call point name opening args more).operand m hm

theorem Calls.operand : (g : Calls) → ∀ m ∈ g.shapes, Operand m
  | .none, m, hm => absurd hm List.not_mem_nil
  | .call _ name _ args more, m, hm => by
      rcases List.mem_cons.1 hm with rfl | hm
      · obtain ⟨arguments, hargs, h⟩ := args.part
        rw [hargs]
        exact operand_method name.token fun v hv => (h v hv).1
      · exact more.operand m hm

theorem Primary.operand : (g : Primary) → Operand g.shape
  | .literal t _ h => operand_node (literal_ne h).1 (literal_ne h).2 fun m hm =>
    List.mem_singleton.1 hm ▸ operand_leaf t
  | .var name => operand_node (by decide) (by decide) fun m hm =>
    List.mem_singleton.1 hm ▸ operand_leaf name.token
  | .call name _ _ args => by
      obtain ⟨arguments, hargs, h⟩ := args.part
      have hoperand : Operand args.shape := by
        rw [hargs]
        exact operand_node (by decide) (by decide) fun v hv =>
          { (h v hv).1 with not_current := (h v hv).2 rfl }
      exact operand_node (by decide) (by decide)
        (forall_mem_pair (operand_leaf name.token) hoperand)
  | .paren _ inner _ => inner.operand

theorem Args.part {inMethod : Bool} : (g : Args inMethod) →
    ∃ arguments, g.shape = .node .args arguments ∧
      ∀ v ∈ arguments, Part v ∧ (inMethod = false → v.label? ≠ some .current)
  | .none _ => ⟨[], rfl, nofun⟩
  | .some list => ⟨list.shapes, rfl, list.part⟩

theorem ArgList.part {inMethod : Bool} : (g : ArgList inMethod) →
    ∀ v ∈ g.shapes, Part v ∧ (inMethod = false → v.label? ≠ some .current)
  | .last argument _, v, hv => List.mem_singleton.1 hv ▸ argument.part
  | .more argument _ list, v, hv => by
      rcases List.mem_cons.1 hv with rfl | hv
      · exact argument.part
      · exact list.part v hv

theorem Argument.part {inMethod : Bool} : (g : Argument inMethod) →
    Part g.shape ∧ (inMethod = false → g.shape.label? ≠ some .current)
  | .value c => ⟨c.operand.toPart, fun _ => c.operand.not_current⟩
  | .current t => ⟨part_node (by decide) fun m hm => List.mem_singleton.1 hm ▸ operand_leaf t.token,
      nofun⟩

end

/-- The whole expression may be a comparison of two operands. -/
theorem Whole.proper {allowCompare : Bool} : (g : Whole allowCompare) →
    (g.shape.label? = some .compare → allowCompare = true) ∧ g.shape.label? ≠ some .current ∧
      (∀ m ∈ g.shape.children, m.label? ≠ some .current) ∧ ∀ n ∈ g.shape.preorder, Proper n
  | .value c =>
    ⟨fun h => absurd h c.operand.not_compare, c.operand.not_current,
      c.operand.children_not_current, c.operand.proper⟩
  | .compare left op _ right => by
      have hall : ∀ m ∈ [left.shape, .leaf op, right.shape], Operand m :=
        List.forall_mem_cons.2 ⟨left.operand, forall_mem_pair (operand_leaf op) right.operand⟩
      have hnode : Proper (.node .compare [left.shape, .leaf op, right.shape]) :=
        ⟨fun m hm => (hall m hm).not_compare,
          fun a ha v hv hcurrent => absurd hcurrent ((hall a ha).children_not_current v hv)⟩
      exact ⟨fun _ => rfl, nofun, fun m hm => (hall m hm).not_current,
        proper_preorder hnode fun m hm => (hall m hm).proper⟩

/-- **Every tree with a derivation** has comparisons and current values in their places only. -/
theorem wellPlaced_of_shape {allowCompare : Bool} {t : Tree} {g : Whole allowCompare}
    (h : t.shape = g.shape) : t.WellPlaced allowCompare := by
  obtain ⟨hroot, hcurrent, hchildren, hproper⟩ := h ▸ g.proper
  have hnode : ∀ n ∈ t.preorder, Proper n.shape := fun n hn =>
    hproper n.shape (t.preorder_shape ▸ List.mem_map_of_mem hn)
  have hmem : ∀ {n m : Tree}, m ∈ n.children → m.shape ∈ n.shape.children := fun {n m} hm =>
    n.children_shape ▸ List.mem_map_of_mem hm
  simp only [Tree.label?_shape] at hroot hcurrent
  refine ⟨hroot, fun n hn m hm => ?_, ⟨hcurrent, fun m hm => ?_⟩, fun n hn a ha v hv hlabel => ?_⟩
  · rw [← m.label?_shape]
    exact (hnode n hn).1 m.shape (hmem hm)
  · rw [← m.label?_shape]
    exact hchildren m.shape (hmem hm)
  · rw [← a.label?_shape, ← n.label?_shape]
    exact (hnode n hn).2 a.shape (hmem ha) v.shape (hmem hv) (v.label?_shape.trans hlabel)

end Grammar

end ScenarioScript
