import ScenarioScript.Proofs.Containment.Failing
import ScenarioScript.Proofs.Containment.Holdings
import ScenarioScript.Proofs.Scope.Written

/-!
# Proofs/Groups/Standing — where the items of groups are written

A set has the groups that its script opens and those that it loads.  Each of their items is written
in one place: in the block of a group, in the script that is read or in one that is reached from it.

* `items_meaning` — what the groups of an outline hold, given what those hold that it loads;
* `items_readScript` — every item of a group in the set of a script stands in some script.
-/

namespace ScenarioScript

open Relation Outcome Outline

variable {Q : GroupItem → Prop}

/-- The items of the groups of a set are all of one sort. -/
def ScenarioSet.Items (Q : GroupItem → Prop) (s : ScenarioSet) : Prop :=
  s.groups.All fun group => ∀ item ∈ group.items, Q item

namespace ScenarioSet

variable {s loaded : ScenarioSet}

theorem items_empty : ScenarioSet.Items Q {} := OrderedMap.all_empty

theorem Items.merge (h : s.Items Q) (hloaded : loaded.Items Q) : (s.merge loaded).Items Q :=
  OrderedMap.All.update h hloaded

end ScenarioSet

/-! ## The groups of an outline -/

namespace Outline

variable {path : Option String} {groups : OrderedMap String Group} {site : Site}
  {set result : ScenarioSet} {item : GroupItem}

/-- What a member of a group is in it. -/
def Member.item? (path : Option String) : Member .group → Option GroupItem
  | step block => (block.meaning path).map .step
  | inclusion mark group => some (.inclusion ⟨group, mark.line, mark.column, path⟩)

theorem Member.items_of_apply {m : Member .group} {g g' : Group}
    (h : m.apply path groups g = some g') :
    ∃ item, m.item? path = some item ∧ g'.items = g.items ++ [item] := by
  cases m with
  | step block =>
    obtain ⟨step, hstep, hadd⟩ := Option.bind_eq_some_iff.1 h
    obtain rfl := Option.some.inj hadd
    exact ⟨.step step, Option.map_eq_some_iff.2 ⟨step, hstep, rfl⟩, rfl⟩
  | inclusion mark group =>
    obtain rfl := Option.some.inj h
    exact ⟨_, rfl, rfl⟩

theorem items_fill {members : List (Member .group)} {g g' : Group}
    (hg : ∀ item ∈ g.items, Q item)
    (hmembers : ∀ m ∈ members, ∀ item, m.item? path = some item → Q item)
    (h : Holder.fill path groups members g = some g') : ∀ item ∈ g'.items, Q item := by
  induction members generalizing g with
  | nil =>
    obtain rfl := Option.some.inj h
    exact hg
  | cons m members ih =>
    obtain ⟨hm, hmembers⟩ := List.forall_mem_cons.1 hmembers
    rw [Holder.fill, List.foldlM_cons] at h
    obtain ⟨g₁, happly, hrest⟩ := Option.bind_eq_some_iff.1 h
    obtain ⟨item, hitem, hitems⟩ := Member.items_of_apply happly
    exact ih (hitems ▸ forall_mem_concat hg (hm item hitem)) hmembers hrest

/-- **An item is written in an outline**: it is what a member of a group comes to be. -/
def Writes (path : Option String) (o : Outline) (item : GroupItem) : Prop :=
  ∃ mark label members, .block .group mark label members ∈ o ∧
    ∃ m ∈ members, Member.item? path m = some item

theorem Writes.mono {o o' : Outline} (h : o.Writes path item) (hsub : o ⊆ o') :
    o'.Writes path item := by
  obtain ⟨mark, label, members, hmem, hm⟩ := h
  exact ⟨mark, label, members, hsub hmem, hm⟩

theorem Entry.items_of_apply {e : Entry} (hset : set.Items Q)
    (hload : ∀ mark target loaded, e = .load mark target →
      (site.load target (.loadedFrom site.path mark.position)).outcome = .ok loaded →
        loaded.Items Q)
    (hwrites : ∀ item, Writes site.path [e] item → Q item)
    (h : e.apply site set = some result) : result.Items Q := by
  cases e with
  | setting mark choice =>
    obtain ⟨config, -, rfl⟩ := Option.map_eq_some_iff.1 h
    exact hset
  | load mark target =>
    obtain ⟨loaded, hloaded, rfl⟩ := Option.map_eq_some_iff.1 h
    exact hset.merge (hload mark target loaded rfl (toOption_eq_some.1 hloaded))
  | block holder mark label members =>
    obtain ⟨body, hfill, rfl⟩ := Option.map_eq_some_iff.1 h
    cases holder with
    | scenario => exact hset
    | group =>
      refine OrderedMap.All.insert hset (items_fill (List.forall_mem_nil _) ?_ hfill)
      exact fun m hm item hitem =>
        hwrites item ⟨mark, label, members, List.mem_singleton_self _, m, hm, hitem⟩
  | _ =>
    obtain rfl := Option.some.inj h
    exact hset

/-- **The groups of an outline** hold what is written in it, what was there before, and what comes
with the sets that are loaded. -/
theorem items_meaning {o : Outline} (hset : set.Items Q)
    (hload : ∀ mark target loaded, .load mark target ∈ o →
      (site.load target (.loadedFrom site.path mark.position)).outcome = .ok loaded →
        loaded.Items Q)
    (hwrites : ∀ item, o.Writes site.path item → Q item)
    (h : o.meaning site set = some result) : result.Items Q := by
  induction o generalizing set with
  | nil =>
    obtain rfl := Option.some.inj h
    exact hset
  | cons e o ih =>
    rw [meaning, List.foldlM_cons] at h
    obtain ⟨set₁, happly, hrest⟩ := Option.bind_eq_some_iff.1 h
    have hset₁ : set₁.Items Q := by
      refine Entry.items_of_apply hset (fun mark target loaded heq => ?_) (fun item hitem => ?_)
        happly
      · exact hload mark target loaded (heq ▸ List.mem_cons_self)
      · exact hwrites item (hitem.mono (List.cons_subset_cons e (List.nil_subset o)))
    refine ih hset₁ (fun mark target loaded hmem => ?_) (fun item hitem => ?_) hrest
    · exact hload mark target loaded (List.mem_cons_of_mem e hmem)
    · exact hwrites item (hitem.mono (List.subset_cons_self e o))

end Outline

/-! ## The groups of a script -/

variable {env : Environment} {s inner : Script} {item : GroupItem}

theorem Draft.says_of_mem_statementsOf {unit : Option Int} {text : String} {statement : Statement}
    {statements : List Statement} (h : statementsOf unit text = .ok statements)
    (hmem : statement ∈ statements) : Says unit text statement := by
  obtain ⟨lines, hlines, hmap⟩ := bind_eq_ok.1 h
  obtain ⟨line, hline, hclassify⟩ := exists_of_mem_of_mapM hmap hmem
  exact ⟨lines, hlines, line, hline, hclassify⟩

/-- **A load that succeeds** enters the script that it reads. -/
theorem IsLoadOf.exists_enters {load : Traced ScenarioSet} {loaded : ScenarioSet}
    (h : IsLoadOf (env.site s.loading s.path) env.unit s.text load)
    (hok : load.outcome = .ok loaded) :
    ∃ inner, Enters env s inner ∧
      (readScript env inner.loading inner.path inner.text).outcome = .ok loaded := by
  obtain ⟨-, -, -, -, -, hfails⟩ | ⟨d, hfails, -⟩ | ⟨inner, origin, henters, houtcome⟩ :=
    h.outcome_cases
  · exact absurd (hok.symm.trans hfails) nofun
  · exact absurd (hok.symm.trans hfails) nofun
  · exact ⟨inner, henters, mapError_eq_ok.1 (houtcome.symm.trans hok)⟩

/-- **An item of a group stands in a script**: the script can be read to its end, and the item is
written in the outline that its text has. -/
def Script.Writes (env : Environment) (s : Script) (item : GroupItem) : Prop :=
  ∃ o : Outline, env.Reads s.loading s.path s.text o ∧ o.Writes (s.path.map Path.render) item

/-- The groups that a part of a script makes hold what is written there, and what is written in the
scripts that are entered. -/
theorem items_of_says {o : Outline} {set : ScenarioSet}
    (hinner : ∀ inner, Enters env s inner →
      Yields (ScenarioSet.Items fun item => ∃ last, ReflTransGen (Enters env) inner last ∧
        last.Writes env item) (readScript env inner.loading inner.path inner.text).outcome)
    (hsaid : ∀ statement ∈ o.statements, Says env.unit s.text statement)
    (hmeaning : o.meaning (env.site s.loading s.path) {} = some set) :
    set.Items fun item => o.Writes (s.path.map Path.render) item ∨
      ∃ last, ReflTransGen (Enters env) s last ∧ last.Writes env item := by
  refine items_meaning ScenarioSet.items_empty (fun mark target loaded hmem hload => ?_)
    (fun item hwrites => .inl hwrites) hmeaning
  have hstatement : mark.statement (.load target) 0 ∈ o.statements :=
    List.mem_flatMap.2 ⟨_, hmem, List.mem_singleton_self _⟩
  have hisLoad : IsLoadOf (env.site s.loading s.path) env.unit s.text _ :=
    ⟨_, target, hsaid _ hstatement, rfl, rfl⟩
  obtain ⟨inner, henters, hread⟩ := hisLoad.exists_enters hload
  intro entry hentry item hitem
  obtain ⟨last, hreached, hwrites⟩ := hinner inner henters loaded hread entry hentry item hitem
  exact .inr ⟨last, hreached.head henters, hwrites⟩

/-- **Every item of a group** in the set of a script stands in a script that is reached from it.  The
induction is on entering, which ends. -/
theorem items_readScript (env : Environment) (s : Script) :
    Yields (ScenarioSet.Items fun item => ∃ last, ReflTransGen (Enters env) s last ∧
      last.Writes env item) (readScript env s.loading s.path s.text).outcome := by
  induction s using (wellFounded_enters env).induction with
  | _ s ih =>
    intro set hset
    obtain ⟨o, hstatements, hmeaning⟩ := outcome_readScript_eq_ok.1 hset
    intro entry hentry item hitem
    have hitems := items_of_says ih (fun _ => Draft.says_of_mem_statementsOf hstatements) hmeaning
    obtain hwrites | hlast := hitems entry hentry item hitem
    · exact ⟨s, .refl, o, ⟨hstatements, set, hmeaning⟩, hwrites⟩
    · exact hlast

/-- **Every item of a group that a part of a script makes** is written in that part, or stands in a
script that is reached. -/
theorem items_part {o : Outline} {set : ScenarioSet}
    (hsaid : ∀ statement ∈ o.statements, Says env.unit s.text statement)
    (hmeaning : o.meaning (env.site s.loading s.path) {} = some set) :
    set.Items fun item => o.Writes (s.path.map Path.render) item ∨
      ∃ last, ReflTransGen (Enters env) s last ∧ last.Writes env item :=
  items_of_says (fun inner _ => items_readScript env inner) hsaid hmeaning

end ScenarioScript
