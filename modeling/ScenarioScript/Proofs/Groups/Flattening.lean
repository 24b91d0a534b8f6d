import Mathlib.Logic.Relation
import ScenarioScript.Proofs.Groups.Unrolling

/-!
# Proofs/Groups/Flattening — what the expansion of a group comes to

The groups of a script are a graph with an edge from a group to each group it includes, and to
expand a group is to walk that graph depth first.  The relations here describe the outcome without
the walk.

* `Flattens` — the steps that a row of items stands for: every inclusion is replaced by the steps of
  what it includes;
* `Leads` — a **route** into the graph: which item to follow in each of the groups come to.  Routes
  in the order of their items (a route comes before those that go on from it) are the inclusions in
  the order in which the walk meets them;
* `Stuck` — a route that cannot be followed further, for want of a group or for a cycle.

`expandGroup_flattens` says all there is to say: **an expansion succeeds exactly if the graph is
complete and without cycles from the group on**, it then gives what the group flattens to, and
otherwise it fails at the first stuck route.  That success excludes cycles is an induction on
`Flattens` (`Grounded`); that nothing else can go wrong follows the recursion of expanding.
-/

namespace ScenarioScript

open Outcome Relation

variable {groups : OrderedMap String Group} {name : String} {expanding : List String}
  {items : List GroupItem} {steps : List Step}

/-! ## Flattening -/

/-- **A group includes another** if one of its items names it. -/
def Includes (groups : OrderedMap String Group) (name other : String) : Prop :=
  ∃ group i, groups.get? name = some group ∧ .inclusion i ∈ group.items ∧ i.name = other

/-- **The items stand for the steps**: a step for itself, an inclusion for what the items of its
group stand for, in the order in which they are written. -/
inductive Flattens (groups : OrderedMap String Group) : List GroupItem → List Step → Prop
  | nil : Flattens groups [] []
  | step {step : Step} {items : List GroupItem} {steps : List Step}
      (below : Flattens groups items steps) : Flattens groups (.step step :: items) (step :: steps)
  | inclusion {i : Inclusion} {group : Group} {items : List GroupItem} {within steps : List Step}
      (get_eq : groups.get? i.name = some group) (inside : Flattens groups group.items within)
      (below : Flattens groups items steps) :
      Flattens groups (.inclusion i :: items) (within ++ steps)

/-- There is one row of steps at most that items stand for. -/
theorem Flattens.unique {steps' : List Step} (h : Flattens groups items steps)
    (h' : Flattens groups items steps') : steps = steps' := by
  induction h generalizing steps' with
  | nil =>
    cases h'
    rfl
  | step _ ih =>
    cases h' with
    | step below => rw [ih below]
  | inclusion get_eq _ _ ihinside ihbelow =>
    cases h' with
    | inclusion get_eq' inside below =>
      obtain rfl := Option.some.inj (get_eq.symm.trans get_eq')
      rw [ihinside inside, ihbelow below]

/-- Items flatten to what they are expanded to, if that is so of the groups they include. -/
theorem flattens_of_mapM {origin : Location} {parts : List (List Step)}
    (h : ∀ i : Inclusion, ∀ part, expandGroup groups i.name i.origin expanding = .ok part →
      ∃ group, groups.get? i.name = some group ∧ Flattens groups group.items part)
    (hparts : items.mapM (GroupItem.expand groups expanding origin) = .ok parts) :
    Flattens groups items parts.flatten := by
  induction items generalizing parts with
  | nil =>
    obtain rfl : [] = parts := Except.ok.inj hparts
    exact .nil
  | cons item items ih =>
    obtain ⟨part, row, hpart, hrow, rfl⟩ := mapM_cons_eq_ok.1 hparts
    rw [List.flatten_cons]
    cases item with
    | step step =>
      obtain rfl : [step] = part := Except.ok.inj hpart
      exact .step (ih hrow)
    | inclusion i =>
      obtain ⟨inner, hinner, hinside⟩ := h i part (mapError_eq_ok.1 hpart)
      exact .inclusion hinner hinside (ih hrow)

/-- **What an expansion gives** is what the items flatten to.  The recursion is that of
expanding. -/
theorem flattens_of_expandGroup {name : String} {origin : Location} {expanding : List String}
    {steps : List Step} (h : expandGroup groups name origin expanding = .ok steps) :
    name ∉ expanding ∧
      ∃ group, groups.get? name = some group ∧ Flattens groups group.items steps := by
  by_cases hnew : name ∈ expanding
  · rw [expandGroup, dif_pos hnew] at h
    exact absurd h error_ne_ok
  cases hget : groups.get? name with
  | none =>
    rw [expandGroup, dif_neg hnew] at h
    split at h
    · exact absurd h error_ne_ok
    · next group hget' => exact absurd (hget'.symm.trans hget) (Option.some_ne_none group)
  | some group =>
    have hfewer := unvisited_of_get? hnew hget
    rw [expandGroup_of_get? hnew hget, map_eq_ok] at h
    obtain ⟨parts, hparts, rfl⟩ := h
    exact ⟨hnew, group, rfl,
      flattens_of_mapM (fun i part hpart => (flattens_of_expandGroup hpart).2) hparts⟩
termination_by unvisited groups.keys expanding

/-! ## Groups from which all can be followed -/

/-- **Every way out of the group comes to an end**, and no group is missing on it. -/
inductive Grounded (groups : OrderedMap String Group) : String → Prop
  | intro {name : String} (known : (groups.get? name).isSome = true)
      (below : ∀ other, Includes groups name other → Grounded groups other) : Grounded groups name

theorem Grounded.known (h : Grounded groups name) : (groups.get? name).isSome = true := by
  cases h with
  | intro known _ => exact known

theorem Grounded.of_items {group : Group} (hget : groups.get? name = some group)
    (h : ∀ i, .inclusion i ∈ group.items → Grounded groups i.name) : Grounded groups name := by
  refine .intro (by rw [hget]; rfl) ?_
  rintro other ⟨group', i, hget', hi, rfl⟩
  obtain rfl := Option.some.inj (hget.symm.trans hget')
  exact h i hi

/-- **What flattens is grounded.** -/
theorem Flattens.grounded (h : Flattens groups items steps) :
    ∀ i, .inclusion i ∈ items → Grounded groups i.name := by
  induction h with
  | nil => exact fun i hi => absurd hi List.not_mem_nil
  | step _ ih => exact fun i hi => ih i ((List.mem_cons.1 hi).resolve_left nofun)
  | inclusion get_eq _ _ ihinside ihbelow =>
    intro i hi
    obtain hhead | hi := List.mem_cons.1 hi
    · obtain rfl := GroupItem.inclusion.inj hhead
      exact .of_items get_eq ihinside
    · exact ihbelow i hi

theorem Grounded.reached {other : String} (h : Grounded groups name)
    (hreach : ReflTransGen (Includes groups) name other) : Grounded groups other := by
  induction hreach with
  | refl => exact h
  | tail _ hedge ih =>
    cases ih with
    | intro _ below => exact below _ hedge

/-- **No way leads back** to a grounded group. -/
theorem Grounded.acyclic (h : Grounded groups name) : ¬ TransGen (Includes groups) name name := by
  induction h with
  | @intro name _ _ ih =>
    intro hcycle
    obtain ⟨other, hedge, hback⟩ := TransGen.head'_iff.1 hcycle
    exact ih other hedge (.tail' hback hedge)

/-- **An expansion succeeds** where no group is missing and no way leads back.  The groups in the
middle of being expanded lead to the one at hand, so it is none of them. -/
theorem exists_expandGroup_of_acyclic {name : String} {expanding : List String}
    (hgraph : ∀ other, ReflTransGen (Includes groups) name other →
      (groups.get? other).isSome = true ∧ ¬ TransGen (Includes groups) other other)
    (hexpanding : ∀ outer ∈ expanding, TransGen (Includes groups) outer name) (origin : Location) :
    ∃ steps, expandGroup groups name origin expanding = .ok steps := by
  have hnew : name ∉ expanding := fun hmem => (hgraph name .refl).2 (hexpanding name hmem)
  obtain ⟨group, hget⟩ := Option.isSome_iff_exists.1 (hgraph name .refl).1
  have hfewer := unvisited_of_get? hnew hget
  have hitem : ∀ item ∈ group.items, ∃ part,
      item.expand groups (expanding ++ [name]) origin = .ok part := by
    rintro (step | i) hmem
    · exact ⟨[step], rfl⟩
    · have hedge : Includes groups name i.name := ⟨group, i, hget, hmem, rfl⟩
      have houter : ∀ outer ∈ expanding ++ [name], TransGen (Includes groups) outer i.name := by
        rw [List.forall_mem_append, List.forall_mem_singleton]
        exact ⟨fun outer hmem => (hexpanding outer hmem).tail hedge, .single hedge⟩
      obtain ⟨part, hpart⟩ := exists_expandGroup_of_acyclic
        (fun other hreach => hgraph other (.head hedge hreach)) houter i.origin
      exact ⟨part, mapError_eq_ok.2 hpart⟩
  obtain ⟨parts, hparts⟩ := exists_mapM_eq_ok_iff.2 hitem
  exact ⟨parts.flatten, by rw [expandGroup_of_get? hnew hget, hparts]; rfl⟩
termination_by unvisited groups.keys expanding

/-! ## Routes -/

/-- **A route into the graph** from a group: the number of the item to follow in each group come to,
and the inclusions that these items are. -/
inductive Leads (groups : OrderedMap String Group) : String → List Nat → List Inclusion → Prop
  | stay (name : String) : Leads groups name [] []
  | follow {name : String} {group : Group} {k : Nat} {i : Inclusion} {route : List Nat}
      {path : List Inclusion} (get_eq : groups.get? name = some group)
      (item_eq : group.items[k]? = some (.inclusion i)) (below : Leads groups i.name route path) :
      Leads groups name (k :: route) (i :: path)

/-- **The groups come by cannot be followed further**: the last of them is not known, or was come by
before. -/
def Stuck (groups : OrderedMap String Group) (names : List String) : Prop :=
  ∃ before last, names = before ++ [last] ∧ (groups.get? last = none ∨ last ∈ before)

theorem stuck_concat_iff {before : List String} {last : String} :
    Stuck groups (before ++ [last]) ↔ groups.get? last = none ∨ last ∈ before := by
  constructor
  · rintro ⟨before', last', happend, h⟩
    obtain ⟨rfl, hlast⟩ := List.append_inj' happend rfl
    obtain rfl := List.singleton_inj.1 hlast
    exact h
  · exact fun h => ⟨before, last, rfl, h⟩

/-- The groups that a route comes by form a row of edges. -/
theorem Leads.isChain {route : List Nat} {path : List Inclusion}
    (h : Leads groups name route path) :
    (name :: path.map Inclusion.name).IsChain (Includes groups) := by
  induction h with
  | stay name => exact List.isChain_singleton name
  | @follow name group k i route path get_eq item_eq _ ih =>
    exact .cons_cons ⟨group, i, get_eq, List.mem_of_getElem? item_eq, rfl⟩ ih

/-- **No route is stuck** in what is expanded with success. -/
theorem Leads.not_stuck {route : List Nat} {path : List Inclusion} {origin : Location}
    (h : Leads groups name route path)
    (hok : ∃ steps, expandGroup groups name origin expanding = .ok steps) :
    ¬ Stuck groups (expanding ++ name :: path.map Inclusion.name) := by
  induction h generalizing expanding origin with
  | stay name =>
    obtain ⟨steps, hsteps⟩ := hok
    obtain ⟨hnew, group, hget, -⟩ := flattens_of_expandGroup hsteps
    rw [List.map_nil, stuck_concat_iff, hget]
    exact fun h => h.elim nofun hnew
  | @follow name group k i route path get_eq item_eq _ ih =>
    obtain ⟨steps, hsteps⟩ := hok
    obtain ⟨hnew, -⟩ := flattens_of_expandGroup hsteps
    rw [expandGroup_of_get? hnew get_eq, map_eq_ok] at hsteps
    obtain ⟨parts, hparts, rfl⟩ := hsteps
    obtain ⟨part, hpart⟩ :=
      exists_mapM_eq_ok_iff.1 ⟨parts, hparts⟩ _ (List.mem_of_getElem? item_eq)
    have hinner := ih ⟨part, mapError_eq_ok.1 hpart⟩
    rwa [List.append_assoc, List.singleton_append] at hinner

/-! ## The first stuck route -/

variable {own failing : Inclusion} {around : List Inclusion} {cause : Cause}

/-- **The first stuck route** from a group while others are being expanded: it is stuck, and none
that is stuck comes before it. -/
structure FirstStuck (groups : OrderedMap String Group) (expanding : List String) (name : String)
    (route : List Nat) (path : List Inclusion) : Prop where
  leads : Leads groups name route path
  stuck : Stuck groups (expanding ++ name :: path.map Inclusion.name)
  first : ∀ route' path', Leads groups name route' path' →
    Stuck groups (expanding ++ name :: path'.map Inclusion.name) → ¬ List.Lex (· < ·) route' route

/-- A group that cannot be followed itself is where the first stuck route ends. -/
theorem FirstStuck.stay (h : groups.get? name = none ∨ name ∈ expanding) :
    FirstStuck groups expanding name [] [] :=
  ⟨.stay name, stuck_concat_iff.2 h, fun _ _ _ _ => nofun⟩

/-- **The first item that fails** is where the first stuck route goes on: in what succeeds before it
nothing is stuck. -/
theorem FirstStuck.follow {group : Group} {inner : Inclusion} {before after : List GroupItem}
    {origin : Location} {route : List Nat} {path : List Inclusion} (hnew : name ∉ expanding)
    (hget : groups.get? name = some group)
    (hitems : group.items = before ++ .inclusion inner :: after)
    (hbefore : ∀ item ∈ before, ∃ steps,
      item.expand groups (expanding ++ [name]) origin = .ok steps)
    (h : FirstStuck groups (expanding ++ [name]) inner.name route path) :
    FirstStuck groups expanding name (before.length :: route) (inner :: path) := by
  have hitem : group.items[before.length]? = some (.inclusion inner) := by
    rw [hitems, List.getElem?_append_right (Nat.le_refl _), Nat.sub_self, List.getElem?_cons_zero]
  refine ⟨.follow hget hitem h.leads, ?_, ?_⟩
  · rw [List.map_cons, List.append_cons]
    exact h.stuck
  · intro route' path' hleads hstuck hlex
    cases hleads with
    | stay =>
      rw [List.map_nil, stuck_concat_iff, hget] at hstuck
      exact hstuck.elim nofun hnew
    | @follow _ group' k i route' path' get_eq item_eq below =>
      obtain rfl := Option.some.inj (hget.symm.trans get_eq)
      rw [List.append_cons, List.map_cons] at hstuck
      cases hlex with
      | rel hlt =>
        rw [hitems, List.getElem?_append_left hlt] at item_eq
        obtain ⟨steps, hsteps⟩ := hbefore _ (List.mem_of_getElem? item_eq)
        exact below.not_stuck ⟨steps, mapError_eq_ok.1 hsteps⟩ hstuck
      | cons hlex =>
        obtain rfl := GroupItem.inclusion.inj (Option.some.inj (hitem.symm.trans item_eq))
        exact h.first route' path' below hstuck hlex

/-- **A failing expansion has followed the first stuck route.** -/
theorem Unrolls.exists_route (h : Unrolls groups expanding own failing around cause) :
    ∃ route path, own :: path = (failing :: around).reverse ∧
      FirstStuck groups expanding own.name route path := by
  induction h with
  | unknown _ hget => exact ⟨[], [], rfl, .stay (.inl hget)⟩
  | cycle hmem => exact ⟨[], [], rfl, .stay (.inr hmem)⟩
  | @within expanding own inner failing around cause group before after hnew hget hitems hbefore _
      ih =>
    obtain ⟨route, path, hpath, hfirst⟩ := ih
    refine ⟨_, inner :: path, ?_, .follow hnew hget hitems hbefore hfirst⟩
    rw [hpath]
    simp

/-- The groups that are in the middle of being expanded are different ones. -/
theorem Unrolls.nodup (h : Unrolls groups expanding own failing around cause)
    (hnodup : expanding.Nodup) : (expanding ++ (around.map Inclusion.name).reverse).Nodup := by
  induction h with
  | unknown | cycle => simpa using hnodup
  | @within expanding own _ _ _ _ _ _ _ hnew _ _ _ _ ih =>
    have hconcat : (expanding ++ [own.name]).Nodup :=
      List.nodup_append.2 ⟨hnodup, by simp, by simpa using fun a ha => by rintro rfl; exact hnew ha⟩
    simpa using ih hconcat

/-- **The failure of an expansion** is that of the inclusion at which the first stuck route ends. -/
theorem exists_route_of_error {origin : Location} {d : Diagnostic}
    (h : expandGroup groups name origin [] = .error d) :
    ∃ route path before last place, FirstStuck groups [] name route path ∧
      name :: path.map Inclusion.name = before ++ [last] ∧ before.Nodup ∧
      (groups.get? last = none ∧ d.cause = .unknownGroup last ∨
        last ∈ before ∧ d.cause = .includeCycle (before ++ [last])) ∧
      place = (path.getLast?.map Inclusion.origin).getD origin ∧
      d.line = some place.line ∧ d.column = some place.column ∧ d.path = place.path := by
  cases hget : groups.get? name with
  | none =>
    rw [expandGroup, dif_neg List.not_mem_nil] at h
    split at h
    · obtain rfl := Except.error.inj h
      exact ⟨[], [], [], name, origin, .stay (.inl hget), rfl, List.nodup_nil, .inl ⟨hget, rfl⟩, rfl,
        rfl, rfl, rfl⟩
    · next group hget' => exact absurd (hget'.symm.trans hget) (Option.some_ne_none group)
  | some group =>
    rw [expandGroup_of_get? List.not_mem_nil hget, map_eq_error, mapM_eq_error] at h
    obtain ⟨before, item, after, hitems, hbefore, hitem⟩ := h
    cases item with
    | step step => exact absurd hitem.symm error_ne_ok
    | inclusion inner =>
      obtain ⟨e, he, rfl⟩ := mapError_eq_error.1 hitem
      obtain ⟨failing, around, cause, hunrolls, rfl⟩ := unrolls_of_error inner _ he
      obtain ⟨route, path, hpath, hfirst⟩ := hunrolls.exists_route
      refine ⟨_, inner :: path, _, failing.name, failing.origin,
        .follow List.not_mem_nil hget hitems hbefore hfirst, ?_,
        hunrolls.nodup (List.pairwise_singleton _ name), ?_, ?_, rfl, rfl, rfl⟩
      · rw [hpath]
        simp
      · obtain ⟨hget, rfl⟩ | ⟨hmem, rfl⟩ := hunrolls.cause_eq
        · exact .inl ⟨hget, rfl⟩
        · refine .inr ⟨hmem, ?_⟩
          simp [Inclusion.traced, Inclusion.refusal]
      · rw [hpath, List.getLast?_reverse]
        rfl

/-- **An expansion is the flattening of the graph of groups.**

* It gives steps exactly if the group is known and its items flatten to them.
* It gives steps at all exactly if all groups reached from the group are known and no way leads from
  one of them back to it.
* Otherwise it fails at the first stuck route: where the last inclusion of the route stands (at the
  origin if there is none), because that group is not known, or with the chain of the groups come by,
  of which the last alone came before, and once. -/
theorem expandGroup_flattens (groups : OrderedMap String Group) (name : String)
    (origin : Location) :
    (∀ steps, expandGroup groups name origin [] = .ok steps ↔
      ∃ group, groups.get? name = some group ∧ Flattens groups group.items steps) ∧
    ((∃ steps, expandGroup groups name origin [] = .ok steps) ↔
      ∀ other, ReflTransGen (Includes groups) name other →
        (groups.get? other).isSome = true ∧ ¬ TransGen (Includes groups) other other) ∧
    ∀ d, expandGroup groups name origin [] = .error d →
      ∃ route path before last place, FirstStuck groups [] name route path ∧
        name :: path.map Inclusion.name = before ++ [last] ∧ before.Nodup ∧
        (before ++ [last]).IsChain (Includes groups) ∧
        (groups.get? last = none ∧ d.cause = .unknownGroup last ∨
          last ∈ before ∧ d.cause = .includeCycle (before ++ [last])) ∧
        place = (path.getLast?.map Inclusion.origin).getD origin ∧
        d.line = some place.line ∧ d.column = some place.column ∧ d.path = place.path := by
  have hgrounded : ∀ {group : Group} {steps : List Step}, groups.get? name = some group →
      Flattens groups group.items steps → ∀ other, ReflTransGen (Includes groups) name other →
        (groups.get? other).isSome = true ∧ ¬ TransGen (Includes groups) other other := by
    intro group steps hget hflat other hreach
    have hother := (Grounded.of_items hget hflat.grounded).reached hreach
    exact ⟨hother.known, hother.acyclic⟩
  refine ⟨fun steps => ⟨fun h => (flattens_of_expandGroup h).2, ?_⟩, ⟨?_, fun hgraph =>
    exists_expandGroup_of_acyclic hgraph (List.forall_mem_nil _) origin⟩, ?_⟩
  · rintro ⟨group, hget, hflat⟩
    obtain ⟨steps', hsteps'⟩ :=
      exists_expandGroup_of_acyclic (hgrounded hget hflat) (List.forall_mem_nil _) origin
    obtain ⟨-, group', hget', hflat'⟩ := flattens_of_expandGroup hsteps'
    obtain rfl := Option.some.inj (hget.symm.trans hget')
    rwa [hflat.unique hflat']
  · rintro ⟨steps, hsteps⟩
    obtain ⟨-, group, hget, hflat⟩ := flattens_of_expandGroup hsteps
    exact hgrounded hget hflat
  · intro d hd
    obtain ⟨route, path, before, last, place, hfirst, hnames, hnodup, hrest⟩ :=
      exists_route_of_error hd
    exact ⟨route, path, before, last, place, hfirst, hnames, hnodup, hnames ▸ hfirst.leads.isChain,
      hrest⟩

/-- Two groups that include the same third one, a group that includes both of them, and a group that
includes itself. -/
def sampleGroups : OrderedMap String Group where
  entries :=
    [("home", ⟨"home", [.step { kind := .visit }], 1, none⟩),
      ("blog", ⟨"blog", [.inclusion ⟨"home", 4, 5, none⟩, .step { kind := .click }], 3, none⟩),
      ("shop", ⟨"shop", [.inclusion ⟨"home", 7, 5, none⟩], 6, none⟩),
      ("both", ⟨"both", [.inclusion ⟨"blog", 9, 5, none⟩, .inclusion ⟨"shop", 10, 5, none⟩], 8,
        none⟩),
      ("loop", ⟨"loop", [.step { kind := .reload }, .inclusion ⟨"loop", 13, 5, none⟩], 11, none⟩)]
  nodup_keys := by decide

/-- A group that is come to twice is expanded twice and is no cycle; a group that includes itself
is one. -/
theorem expandGroup_sampleGroups :
    expandGroup sampleGroups "both" (.includedFrom none ⟨15, 5⟩) [] =
        .ok [{ kind := .visit }, { kind := .click }, { kind := .visit }] ∧
      ∃ route path, FirstStuck sampleGroups [] "loop" route path := by
  have hblog : Flattens sampleGroups [.inclusion ⟨"home", 4, 5, none⟩, .step { kind := .click }]
      ([{ kind := .visit }] ++ [{ kind := .click }]) :=
    .inclusion rfl (.step .nil) (.step .nil)
  have hshop : Flattens sampleGroups [.inclusion ⟨"home", 7, 5, none⟩]
      ([{ kind := .visit }] ++ []) :=
    .inclusion rfl (.step .nil) .nil
  have hboth : Flattens sampleGroups
      [.inclusion ⟨"blog", 9, 5, none⟩, .inclusion ⟨"shop", 10, 5, none⟩]
      ([{ kind := .visit }, { kind := .click }] ++ ([{ kind := .visit }] ++ [])) :=
    .inclusion rfl hblog (.inclusion rfl hshop .nil)
  have hloop : expandGroup sampleGroups "loop" (.includedFrom none ⟨15, 5⟩) [] = .error
      { cause := .includeCycle ["loop", "loop"], line := some 13, column := some 5,
        frames := [.includedFrom none ⟨15, 5⟩] } := by
    rw [expandGroup_of_get? List.not_mem_nil rfl, map_eq_error, mapM_eq_error]
    refine ⟨[.step { kind := .reload }], .inclusion ⟨"loop", 13, 5, none⟩, [], rfl, ?_, ?_⟩
    · exact List.forall_mem_singleton.2 ⟨_, rfl⟩
    · rw [GroupItem.expand, List.nil_append, expandGroup_of_mem (List.mem_singleton.2 rfl)]
      rfl
  obtain ⟨route, path, -, -, -, hfirst, -⟩ :=
    (expandGroup_flattens sampleGroups "loop" _).2.2 _ hloop
  exact ⟨((expandGroup_flattens sampleGroups "both" _).1 _).2 ⟨_, rfl, hboth⟩, route, path,
    hfirst⟩

end ScenarioScript
