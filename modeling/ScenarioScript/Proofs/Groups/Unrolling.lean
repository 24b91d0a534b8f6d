import Mathlib.Data.List.Chain
import ScenarioScript.Group.Expansion
import ScenarioScript.Proofs.Outcome

/-!
# Proofs/Groups/Unrolling — how the expansion of a group goes

To expand a group is to go through its items, and into the groups that these include.

* `steps_expandGroup` — the steps that come of it are steps of groups;
* `expandGroup_eq_error` — it fails where the first inclusion is met that cannot be followed, and the
  trace of the failure is the row of inclusions that led there (`Unrolls`);
* `isExpansion_expandGroup` — so it fails for want of a group, or for a cycle of groups.
-/

namespace ScenarioScript

open Outcome

variable {groups : OrderedMap String Group} {expanding : List String} {own failing : Inclusion}
  {around : List Inclusion} {cause : Cause}

/-! ## The ways in which an expansion can go -/

/-- The steps that an item stands for in a group that is included at `origin`. -/
def GroupItem.expand (groups : OrderedMap String Group) (expanding : List String)
    (origin : Location) (item : GroupItem) : Except Diagnostic (List Step) :=
  match item with
  | .step s => .ok [s]
  | .inclusion i => (expandGroup groups i.name i.origin expanding).mapError (·.addFrame origin)

/-- The refusal of an inclusion, before it has left the statement. -/
def Inclusion.refusal (i : Inclusion) (cause : Cause) : Diagnostic :=
  { cause, line := some i.line, column := some i.column, path := i.path }

theorem expandGroup_of_mem (h : own.name ∈ expanding) :
    expandGroup groups own.name own.origin expanding =
      .error (own.refusal (.includeCycle (expanding ++ [own.name]))) := by
  rw [expandGroup]
  exact dif_pos h

theorem expandGroup_of_unknown (hnew : own.name ∉ expanding) (hget : groups.get? own.name = none) :
    expandGroup groups own.name own.origin expanding =
      .error (own.refusal (.unknownGroup own.name)) := by
  rw [expandGroup]
  refine (dif_neg hnew).trans ?_
  split
  · rfl
  · next group hget' => exact absurd (hget'.symm.trans hget) (Option.some_ne_none group)

theorem expandGroup_of_get? {name : String} {group : Group} (hnew : name ∉ expanding)
    (hget : groups.get? name = some group) (origin : Location) :
    expandGroup groups name origin expanding =
      (group.items.mapM (GroupItem.expand groups (expanding ++ [name]) origin)).map
        List.flatten := by
  rw [expandGroup]
  refine (dif_neg hnew).trans ?_
  split
  · next hget' => exact absurd (hget.symm.trans hget') (Option.some_ne_none group)
  · next group' hget' =>
    obtain rfl := Option.some.inj (hget.symm.trans hget')
    have hitems : ∀ f : GroupItem → Except Diagnostic (List Step),
        (∀ item, f item = item.expand groups (expanding ++ [name]) origin) →
          (group.items.mapM f >>= fun parts => .ok parts.flatten) =
            (group.items.mapM (GroupItem.expand groups (expanding ++ [name]) origin)).map
              List.flatten := by
      intro f hf
      rw [funext hf]
      cases group.items.mapM (GroupItem.expand groups (expanding ++ [name]) origin) <;> rfl
    refine hitems _ fun item => ?_
    cases item <;> rfl

/-- **An expansion that comes to an item** has one group more in the middle of being expanded, out of
finitely many. -/
theorem unvisited_of_get? {name : String} {group : Group} (hnew : name ∉ expanding)
    (hget : groups.get? name = some group) :
    unvisited groups.keys (expanding ++ [name]) < unvisited groups.keys expanding :=
  unvisited_lt ((groups.isSome_get? name).1 (by simp [hget])) hnew

/-! ## Where steps come from -/

/-- **The steps that a group stands for** are steps of groups. -/
theorem steps_expandGroup {P : Step → Prop}
    (h : ∀ name group, groups.get? name = some group → ∀ step, .step step ∈ group.items → P step)
    (name : String) (origin : Location) (expanding : List String) :
    Yields (fun steps => ∀ step ∈ steps, P step) (expandGroup groups name origin expanding) := by
  by_cases hnew : name ∈ expanding
  · rw [expandGroup, dif_pos hnew]
    exact .error _
  cases hget : groups.get? name with
  | none =>
    intro steps hsteps
    rw [expandGroup, dif_neg hnew] at hsteps
    split at hsteps
    · exact absurd hsteps error_ne_ok
    · next group hget' => exact absurd (hget'.symm.trans hget) (Option.some_ne_none group)
  | some group =>
    have hfewer := unvisited_of_get? hnew hget
    rw [expandGroup_of_get? hnew hget]
    refine Yields.map (Yields.mapM (Q := fun steps => ∀ step ∈ steps, P step) fun item hitem => ?_)
      fun parts hparts step hstep => ?_
    · cases item with
      | step step => exact .ok (List.forall_mem_singleton.2 (h name group hget step hitem))
      | inclusion i => exact (steps_expandGroup h i.name i.origin (expanding ++ [name])).mapError
    · obtain ⟨part, hpart, hstep⟩ := List.mem_flatten.1 hstep
      exact hparts part hpart step hstep
termination_by unvisited groups.keys expanding

/-! ## The inclusions that a failure has travelled through -/

/-- Is the fault one of bringing in a group? -/
def Cause.isExpansion : Cause → Bool
  | unknownGroup _ | includeCycle _ => true
  | _ => false

/-- **Expanding what an inclusion brings in comes to one that cannot be followed**: `failing`, for
the given cause.  The inclusions `around` it are being followed then, from the one that directly
encloses it to `own`, which is where it began; where that fails itself there are none. -/
inductive Unrolls (groups : OrderedMap String Group) :
    List String → Inclusion → Inclusion → List Inclusion → Cause → Prop where
  /-- There is no group of the name. -/
  | unknown {expanding : List String} {own : Inclusion} (hnew : own.name ∉ expanding)
      (hget : groups.get? own.name = none) :
      Unrolls groups expanding own own [] (.unknownGroup own.name)
  /-- The group is in the middle of being expanded. -/
  | cycle {expanding : List String} {own : Inclusion} (hmem : own.name ∈ expanding) :
      Unrolls groups expanding own own [] (.includeCycle (expanding ++ [own.name]))
  /-- An inclusion in the group leads there, the first one that does not succeed. -/
  | within {expanding : List String} {own inner failing : Inclusion} {around : List Inclusion}
      {cause : Cause} {group : Group} {before after : List GroupItem}
      (hnew : own.name ∉ expanding) (hget : groups.get? own.name = some group)
      (hitems : group.items = before ++ .inclusion inner :: after)
      (hbefore : ∀ item ∈ before, ∃ steps,
        item.expand groups (expanding ++ [own.name]) own.origin = .ok steps)
      (hinner : Unrolls groups (expanding ++ [own.name]) inner failing around cause) :
      Unrolls groups expanding own failing (around ++ [own]) cause

/-- The refusal of an inclusion that was met on the way through others. -/
def Inclusion.traced (i : Inclusion) (cause : Cause) (around : List Inclusion) : Diagnostic :=
  { i.refusal cause with frames := around.map Inclusion.origin }

/-- **The failure of an expansion**: the inclusion that cannot be followed, with a frame for each one
around it, innermost first.  The recursion is that of expanding. -/
theorem unrolls_of_error (own : Inclusion) (expanding : List String) {d : Diagnostic}
    (h : expandGroup groups own.name own.origin expanding = .error d) :
    ∃ failing around cause, Unrolls groups expanding own failing around cause ∧
      d = failing.traced cause around := by
  by_cases hnew : own.name ∈ expanding
  · rw [expandGroup_of_mem hnew] at h
    exact ⟨own, [], _, .cycle hnew, (Except.error.inj h).symm⟩
  cases hget : groups.get? own.name with
  | none =>
    rw [expandGroup_of_unknown hnew hget] at h
    exact ⟨own, [], _, .unknown hnew hget, (Except.error.inj h).symm⟩
  | some group =>
    have hfewer := unvisited_of_get? hnew hget
    rw [expandGroup_of_get? hnew hget, map_eq_error, mapM_eq_error] at h
    obtain ⟨before, item, after, hitems, hbefore, hitem⟩ := h
    cases item with
    | step step => exact absurd hitem.symm error_ne_ok
    | inclusion inner =>
      obtain ⟨e, he, rfl⟩ := mapError_eq_error.1 hitem
      obtain ⟨failing, around, cause, hinner, rfl⟩ :=
        unrolls_of_error inner (expanding ++ [own.name]) he
      refine ⟨failing, around ++ [own], cause, .within hnew hget hitems hbefore hinner, ?_⟩
      simp [Inclusion.traced, Inclusion.refusal, Diagnostic.addFrame]
termination_by unvisited groups.keys expanding

theorem Unrolls.error (h : Unrolls groups expanding own failing around cause) :
    expandGroup groups own.name own.origin expanding = .error (failing.traced cause around) := by
  induction h with
  | unknown hnew hget => exact expandGroup_of_unknown hnew hget
  | cycle hmem => exact expandGroup_of_mem hmem
  | @within expanding own inner failing around cause group before after hnew hget hitems hbefore _ ih =>
    rw [expandGroup_of_get? hnew hget, map_eq_error, mapM_eq_error]
    refine ⟨before, .inclusion inner, after, hitems, hbefore, ?_⟩
    rw [GroupItem.expand, ih]
    simp [Inclusion.traced, Inclusion.refusal, Diagnostic.addFrame, Except.mapError]

/-- **An expansion fails** exactly if it comes to an inclusion that cannot be followed. -/
theorem expandGroup_eq_error {d : Diagnostic} :
    expandGroup groups own.name own.origin expanding = .error d ↔
      ∃ failing around cause, Unrolls groups expanding own failing around cause ∧
        d = failing.traced cause around := by
  constructor
  · exact unrolls_of_error own expanding
  · rintro ⟨failing, around, cause, h, rfl⟩
    exact h.error

/-- **What is said of it**: that the group is not known, or the names of the inclusions as they were
come to, which then end with one of them once more. -/
theorem Unrolls.cause_eq (h : Unrolls groups expanding own failing around cause) :
    (groups.get? failing.name = none ∧ cause = .unknownGroup failing.name) ∨
      failing.name ∈ expanding ++ (around.map Inclusion.name).reverse ∧
        cause = .includeCycle (expanding ++ ((failing :: around).map Inclusion.name).reverse) := by
  induction h with
  | unknown hnew hget => exact .inl ⟨hget, rfl⟩
  | cycle hmem => exact .inr ⟨List.mem_append_left _ hmem, rfl⟩
  | within _ _ _ _ _ ih => simpa using ih

theorem Unrolls.isExpansion (h : Unrolls groups expanding own failing around cause) :
    cause.isExpansion = true := by
  obtain ⟨-, rfl⟩ | ⟨-, rfl⟩ := h.cause_eq <;> rfl

/-- **An expansion fails** for want of a group, or for a cycle of groups. -/
theorem isExpansion_expandGroup (groups : OrderedMap String Group) (own : Inclusion)
    (expanding : List String) :
    FailsOnly (fun d => d.cause.isExpansion = true)
      (expandGroup groups own.name own.origin expanding) := by
  intro d h
  obtain ⟨failing, around, cause, hunrolls, rfl⟩ := expandGroup_eq_error.1 h
  exact hunrolls.isExpansion

/-- **Each inclusion stands in the group** that the one around it includes. -/
theorem Unrolls.linked (h : Unrolls groups expanding own failing around cause) :
    (failing :: around).getLast? = some own ∧ (failing :: around).IsChain fun inner outer =>
      ∃ group, groups.get? outer.name = some group ∧ .inclusion inner ∈ group.items := by
  induction h with
  | unknown | cycle => exact ⟨rfl, List.isChain_singleton _⟩
  | @within expanding own inner failing around cause group before after hnew hget hitems hbefore _ ih =>
    obtain ⟨hlast, hchain⟩ := ih
    rw [← List.cons_append]
    refine ⟨List.getLast?_concat, ?_⟩
    refine hchain.append (List.isChain_singleton own) fun last hmem next hnext => ?_
    obtain rfl := Option.some.inj (hlast.symm.trans hmem)
    obtain rfl : own = next := Option.some.inj hnext
    exact ⟨group, hget, hitems ▸ List.mem_append_right before List.mem_cons_self⟩

end ScenarioScript
