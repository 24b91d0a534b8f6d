import Mathlib.Computability.StateTransition
import ScenarioScript.Proofs.Naming.Keys

/-!
# Proofs/Naming/Set — the keys of a set

`ScenarioSet.nameAnonymous` gives every scenario its key at once.  A reader of scripts that changes
its scenarios in place does it one by one: it keeps the keys that are taken, tries those of a place
in turn until one is free, and counts that one as taken from then on.

* `Keying.Sound.next` — the keys that are counted as taken, beyond the labels, are of places that
  are passed, so that they are in nobody's way;
* `Keying.exists_mem_eval` — it comes to an end, with the scenarios of `nameAnonymous`;
* `ScenarioSet.keyed_nameAnonymous` — keys of scenarios without a label are found again, and are
  different from each other and from every label.
-/

namespace ScenarioScript

open StateTransition

/-- A scenario with the key of its place, if it has no label. -/
def Scenario.keyedAt (labels : List String) (place : Nat) (scenario : Scenario) : Scenario :=
  if scenario.anonymous then { scenario with key := anonymousKey labels place } else scenario

namespace Scenario

variable {labels : List String} {place : Nat} {scenario : Scenario}

theorem keyedAt_of_labelled (h : scenario.anonymous = false) :
    scenario.keyedAt labels place = scenario := by
  rw [keyedAt, h, if_neg Bool.false_ne_true]

theorem keyedAt_of_anonymous (h : scenario.anonymous = true) :
    scenario.keyedAt labels place = { scenario with key := anonymousKey labels place } := by
  rw [keyedAt, if_pos h]

@[simp] theorem anonymous_keyedAt :
    (scenario.keyedAt labels place).anonymous = scenario.anonymous := by
  unfold keyedAt
  split <;> rfl

end Scenario

/-! ## One scenario after the other -/

/-- **The naming of scenarios underway**: those that are passed, those ahead, the keys that are
taken, and the turn of the key that is tried next for the first of those ahead. -/
structure Keying where
  passed : List Scenario := []
  ahead : List Scenario
  taken : List String
  turn : Nat := 1

namespace Keying

/-- The labels are taken before any scenario is passed. -/
def start (s : ScenarioSet) : Keying where
  ahead := s.scenarios
  taken := s.labels

/-- The key that is tried next. -/
def key (k : Keying) : String := trialKey (k.passed.length + 1) k.turn

/-- **One step**: a scenario with a label is passed, a key that is taken is left for the next one,
and a free key is given and taken. -/
def next? (k : Keying) : Option Keying :=
  match k.ahead with
  | [] => none
  | scenario :: ahead =>
    if scenario.anonymous = false then
      some { k with passed := k.passed ++ [scenario], ahead, turn := 1 }
    else if k.key ∈ k.taken then
      some { k with turn := k.turn + 1 }
    else
      some { passed := k.passed ++ [{ scenario with key := k.key }], ahead,
             taken := k.key :: k.taken }

variable {s : ScenarioSet} {k k' : Keying}

/-- **What a step does.** -/
theorem next?_cases (h : k.next? = some k') :
    ∃ scenario ahead, k.ahead = scenario :: ahead ∧
      (scenario.anonymous = false ∧
          k' = { k with passed := k.passed ++ [scenario], ahead, turn := 1 } ∨
        scenario.anonymous = true ∧ k.key ∈ k.taken ∧ k' = { k with turn := k.turn + 1 } ∨
        scenario.anonymous = true ∧ k.key ∉ k.taken ∧
          k' = { passed := k.passed ++ [{ scenario with key := k.key }], ahead,
                 taken := k.key :: k.taken }) := by
  rw [next?] at h
  split at h
  · exact absurd h nofun
  · next scenario ahead hahead =>
    refine ⟨scenario, ahead, hahead, ?_⟩
    split at h
    · next hlabelled => exact .inl ⟨hlabelled, (Option.some.inj h).symm⟩
    · next hlabelled =>
      have hanonymous := Bool.eq_true_of_not_eq_false hlabelled
      split at h
      · next htaken => exact .inr (.inl ⟨hanonymous, htaken, (Option.some.inj h).symm⟩)
      · next hfree => exact .inr (.inr ⟨hanonymous, hfree, (Option.some.inj h).symm⟩)

theorem ahead_of_next?_eq_none (h : k.next? = none) : k.ahead = [] := by
  rw [next?] at h
  split at h
  · assumption
  · split at h
    · exact absurd h nofun
    · split at h <;> exact absurd h nofun

/-- **What holds all along the naming** of the scenarios of a set. -/
structure Sound (s : ScenarioSet) (k : Keying) : Prop where
  /-- Those that are passed have their keys, and the rest is still ahead. -/
  scenarios_eq : s.nameAnonymous.scenarios =
    k.passed ++ k.ahead.mapIdx fun i => Scenario.keyedAt s.labels (k.passed.length + i + 1)
  labels_subset : s.labels ⊆ k.taken
  /-- What is taken and no label is a key of a place that is passed. -/
  taken : ∀ key ∈ k.taken,
    key ∈ s.labels ∨ ∃ place ≤ k.passed.length, KeyAmong s.labels place key
  one_le_turn : 1 ≤ k.turn
  /-- The turns that are over were those of labels. -/
  tried : ∀ turn, 1 ≤ turn → turn < k.turn → trialKey (k.passed.length + 1) turn ∈ s.labels

theorem sound_start (s : ScenarioSet) : (start s).Sound s where
  scenarios_eq := by
    simp only [start, List.nil_append, List.length_nil, Nat.zero_add]
    rfl
  labels_subset := fun _ => id
  taken := fun _ => .inl
  one_le_turn := le_rfl
  tried := fun _ hpos hlt => absurd hlt (not_lt.2 hpos)

namespace Sound

/-- **A key that is tried is taken only if it is a label**: those given before are of other
places. -/
theorem key_mem_taken_iff (h : k.Sound s) : k.key ∈ k.taken ↔ k.key ∈ s.labels := by
  refine ⟨fun htaken => ?_, fun hlabel => h.labels_subset hlabel⟩
  rcases h.taken _ htaken with hlabel | ⟨place, hplace, hkey⟩
  · exact hlabel
  · obtain ⟨turn, hturn, heq⟩ := hkey.exists_trialKey
    have := (trialKey_injective h.one_le_turn hturn heq).1
    omega

/-- The turn at which a key is tried is not behind that of the first free one. -/
theorem turn_le (h : k.Sound s) {turn : Nat} (hturn : 1 ≤ turn)
    (hfree : trialKey (k.passed.length + 1) turn ∉ s.labels) : k.turn ≤ turn := by
  by_contra hlt
  exact hfree (h.tried turn hturn (by omega))

theorem turn_le_length (h : k.Sound s) : k.turn ≤ s.labels.length + 1 := by
  obtain ⟨turn, hturn, hle, -, hfree, -⟩ := exists_anonymousKey_eq s.labels (k.passed.length + 1)
  exact (h.turn_le hturn hfree).trans hle

/-- **A free key is the key of the place.** -/
theorem key_eq_anonymousKey (h : k.Sound s) (hfree : k.key ∉ s.labels) :
    k.key = anonymousKey s.labels (k.passed.length + 1) := by
  obtain ⟨turn, hturn, -, hkey, hfirst, hbefore⟩ :=
    exists_anonymousKey_eq s.labels (k.passed.length + 1)
  have hle := h.turn_le hturn hfirst
  have hge : turn ≤ k.turn := by
    by_contra hlt
    exact hfree (hbefore k.turn h.one_le_turn (by omega))
  rw [hkey, key, le_antisymm hle hge]

/-- What is left over when the first scenario ahead has been given its key. -/
theorem scenarios_eq_append (h : k.Sound s) {scenario keyed : Scenario} {ahead : List Scenario}
    (hahead : k.ahead = scenario :: ahead)
    (hkeyed : scenario.keyedAt s.labels (k.passed.length + 1) = keyed) :
    s.nameAnonymous.scenarios = k.passed ++ [keyed] ++
      ahead.mapIdx fun i =>
        Scenario.keyedAt s.labels ((k.passed ++ [keyed]).length + i + 1) := by
  rw [h.scenarios_eq, hahead, List.mapIdx_cons, Nat.add_zero, hkeyed, List.append_assoc,
    List.singleton_append, List.length_append, List.length_singleton]
  refine congrArg (k.passed ++ keyed :: ·) (congrArg₂ _ (funext fun i => ?_) rfl)
  rw [Nat.add_assoc k.passed.length 1 i, Nat.add_comm 1 i]

/-- What is taken is still of a place that is passed when more are passed. -/
theorem taken_of_le (h : k.Sound s) {count : Nat} (hcount : k.passed.length ≤ count) {key : String}
    (hkey : key ∈ k.taken) : key ∈ s.labels ∨ ∃ place ≤ count, KeyAmong s.labels place key :=
  (h.taken key hkey).imp_right fun ⟨place, hplace, hamong⟩ =>
    ⟨place, hplace.trans hcount, hamong⟩

/-- **A step keeps to it.** -/
theorem next (h : k.Sound s) (hnext : k.next? = some k') : k'.Sound s := by
  obtain ⟨scenario, ahead, hahead, ⟨hlabelled, rfl⟩ | ⟨hanonymous, htaken, rfl⟩ |
    ⟨hanonymous, hfree, rfl⟩⟩ := next?_cases hnext
  · exact ⟨h.scenarios_eq_append hahead (Scenario.keyedAt_of_labelled hlabelled),
      h.labels_subset, fun key hkey => h.taken_of_le (by simp) hkey, le_rfl,
      fun _ hpos hlt => absurd hlt (not_lt.2 hpos)⟩
  · refine ⟨h.scenarios_eq, h.labels_subset, h.taken, Nat.le_add_left .., fun turn hpos hlt => ?_⟩
    rcases (Nat.lt_succ_iff.1 hlt).eq_or_lt with rfl | hlt
    · exact h.key_mem_taken_iff.1 htaken
    · exact h.tried turn hpos hlt
  · rw [h.key_mem_taken_iff] at hfree
    have hkey := h.key_eq_anonymousKey hfree
    refine ⟨h.scenarios_eq_append hahead ?_, List.subset_cons_of_subset _ h.labels_subset,
      List.forall_mem_cons.2 ⟨.inr ⟨k.passed.length + 1, by simp, ?_⟩,
        fun key hmem => h.taken_of_le (by simp) hmem⟩, le_rfl,
      fun _ hpos hlt => absurd hlt (not_lt.2 hpos)⟩
    · rw [Scenario.keyedAt_of_anonymous hanonymous, hkey]
    · exact hkey ▸ keyAmong_anonymousKey s.labels _

/-- **A step comes nearer to the end**: it passes a scenario, or a key that is a label. -/
theorem progress (h : k.Sound s) (hnext : k.next? = some k') :
    k'.ahead.length < k.ahead.length ∨ k'.ahead.length = k.ahead.length ∧
      s.labels.length + 1 - k'.turn < s.labels.length + 1 - k.turn := by
  have hle := (h.next hnext).turn_le_length
  obtain ⟨scenario, ahead, hahead, ⟨-, rfl⟩ | ⟨-, -, rfl⟩ | ⟨-, -, rfl⟩⟩ := next?_cases hnext
  · exact .inl (by simp [hahead])
  · exact .inr ⟨rfl, by simp only at hle ⊢; omega⟩
  · exact .inl (by simp [hahead])

end Sound

/-- **The naming comes to an end**, from wherever it may stand, with the scenarios of
`nameAnonymous`. -/
theorem exists_mem_eval {k : Keying} (h : k.Sound s) :
    ∃ stop ∈ eval next? k, stop.passed = s.nameAnonymous.scenarios := by
  match hnext : k.next? with
  | none =>
    refine ⟨k, mem_eval.2 ⟨.refl, hnext⟩, ?_⟩
    rw [h.scenarios_eq, ahead_of_next?_eq_none hnext, List.mapIdx_nil, List.append_nil]
  | some k' =>
    obtain ⟨stop, hstop, hpassed⟩ := exists_mem_eval (h.next hnext)
    exact ⟨stop, reaches_eval (.single hnext) ▸ hstop, hpassed⟩
termination_by (k.ahead.length, s.labels.length + 1 - k.turn)
decreasing_by
  rcases h.progress hnext with hlt | ⟨heq, hlt⟩
  · exact .left _ _ hlt
  · rw [heq]
    exact .right _ hlt

end Keying

/-! ## The keys of a set -/

/-- **The scenarios of a set are keyed**: what is done to them, and what it comes to. -/
structure ScenarioSet.Keyed (s keyed : ScenarioSet) : Prop where
  /-- Giving keys to one scenario after the other comes to an end, and comes to the same. -/
  in_turn : ∃ stop ∈ eval Keying.next? (.start s), stop.passed = keyed.scenarios
  groups_eq : keyed.groups = s.groups
  bindings_eq : keyed.bindings = s.bindings
  config_eq : keyed.config = s.config
  length_eq : keyed.scenarios.length = s.scenarios.length
  /-- A scenario with a label stays as it is. -/
  labelled : ∀ (i : Nat) scenario, s.scenarios[i]? = some scenario →
    scenario.anonymous = false → keyed.scenarios[i]? = some scenario
  /-- A scenario without one is given a key, and is what it was but for that. -/
  anonymous : ∀ (i : Nat) scenario, s.scenarios[i]? = some scenario →
    scenario.anonymous = true →
      ∃ key, KeyAmong s.labels (i + 1) key ∧ keyed.scenarios[i]? = some { scenario with key }
  /-- Its key is no other scenario's. -/
  apart : ∀ (i j : Nat) scenario other, keyed.scenarios[i]? = some scenario →
    keyed.scenarios[j]? = some other → scenario.anonymous = true → scenario.key = other.key → i = j
  /-- Its key does not depend on the scenarios around it, but for their labels. -/
  independent : ∀ (t : ScenarioSet) (i : Nat) scenario other,
    (∀ key, key ∈ t.labels ↔ key ∈ s.labels) → keyed.scenarios[i]? = some scenario →
    t.nameAnonymous.scenarios[i]? = some other → scenario.anonymous = true →
    other.anonymous = true → other.key = scenario.key
  /-- It is found under its key. -/
  found : ∀ scenario ∈ keyed.scenarios, scenario.anonymous = true →
    keyed.scenario? scenario.key = some scenario
  nodup : s.labels.Nodup → (keyed.scenarios.map (·.key)).Nodup

namespace ScenarioSet

variable {s : ScenarioSet} {i j : Nat} {scenario other : Scenario}

theorem getElem?_nameAnonymous (s : ScenarioSet) (i : Nat) :
    s.nameAnonymous.scenarios[i]? = s.scenarios[i]?.map (Scenario.keyedAt s.labels (i + 1)) :=
  List.getElem?_mapIdx

theorem key_mem_labels (h : scenario ∈ s.scenarios) (hlabelled : scenario.anonymous = false) :
    scenario.key ∈ s.labels :=
  List.mem_map_of_mem (List.mem_filter.2 ⟨h, by rw [hlabelled, Bool.not_false]⟩)

/-- The key of a scenario without a label is that of its place. -/
theorem keyAmong_of_getElem? (h : s.nameAnonymous.scenarios[i]? = some scenario)
    (hanonymous : scenario.anonymous = true) : KeyAmong s.labels (i + 1) scenario.key := by
  rw [getElem?_nameAnonymous] at h
  obtain ⟨before, -, rfl⟩ := Option.map_eq_some_iff.1 h
  rw [Scenario.anonymous_keyedAt] at hanonymous
  rw [Scenario.keyedAt_of_anonymous hanonymous]
  exact keyAmong_anonymousKey s.labels (i + 1)

/-- A scenario with a label was there as it is. -/
theorem getElem?_of_labelled (h : s.nameAnonymous.scenarios[i]? = some scenario)
    (hlabelled : scenario.anonymous = false) : s.scenarios[i]? = some scenario := by
  rw [getElem?_nameAnonymous] at h
  obtain ⟨before, hbefore, rfl⟩ := Option.map_eq_some_iff.1 h
  rw [Scenario.anonymous_keyedAt] at hlabelled
  rw [Scenario.keyedAt_of_labelled hlabelled, hbefore]

/-- **A key that was given is no other scenario's**: not that of a label, and not that of another
place. -/
theorem index_eq_of_key_eq (h : s.nameAnonymous.scenarios[i]? = some scenario)
    (hother : s.nameAnonymous.scenarios[j]? = some other) (hanonymous : scenario.anonymous = true)
    (hkey : scenario.key = other.key) : i = j := by
  have hgiven := keyAmong_of_getElem? h hanonymous
  cases hlabelled : other.anonymous with
  | false =>
    have hmem := List.mem_of_getElem? (getElem?_of_labelled hother hlabelled)
    exact absurd (hkey ▸ key_mem_labels hmem hlabelled) hgiven.notMem
  | true => exact Nat.succ.inj (hgiven.place_eq (hkey ▸ keyAmong_of_getElem? hother hlabelled))

/-- What is found under a key is a scenario with that key. -/
theorem mem_and_key_eq_of_scenario? {key : String} (h : s.scenario? key = some scenario) :
    scenario ∈ s.scenarios ∧ scenario.key = key := by
  rw [scenario?] at h
  exact ⟨List.mem_of_find?_eq_some h, by simpa using List.find?_some h⟩

/-- **A scenario without a label is found** under the key it was given. -/
theorem scenario?_nameAnonymous (h : scenario ∈ s.nameAnonymous.scenarios)
    (hanonymous : scenario.anonymous = true) :
    s.nameAnonymous.scenario? scenario.key = some scenario := by
  obtain ⟨i, hi⟩ := List.getElem?_of_mem h
  have hfound : (s.nameAnonymous.scenario? scenario.key).isSome :=
    List.find?_isSome.2 ⟨scenario, h, beq_self_eq_true _⟩
  obtain ⟨other, hother⟩ := Option.isSome_iff_exists.1 hfound
  obtain ⟨hmem, hkey⟩ := mem_and_key_eq_of_scenario? hother
  obtain ⟨j, hj⟩ := List.getElem?_of_mem hmem
  obtain rfl := index_eq_of_key_eq hi hj hanonymous hkey.symm
  rw [hother, ← hj, hi]

/-- **All keys are different** if all labels are. -/
theorem nodup_nameAnonymous (h : s.labels.Nodup) :
    (s.nameAnonymous.scenarios.map (·.key)).Nodup := by
  have hlabels : s.scenarios.Pairwise fun a b =>
      a.anonymous = false → b.anonymous = false → a.key ≠ b.key := by
    simpa [labels, List.Nodup, List.pairwise_map, List.pairwise_filter] using h
  rw [List.Nodup, List.pairwise_map, List.pairwise_iff_getElem]
  intro i j hi hj hlt hkey
  have hati := List.getElem?_eq_getElem hi
  have hatj := List.getElem?_eq_getElem hj
  cases hlabelled : s.nameAnonymous.scenarios[i].anonymous with
  | true => exact hlt.ne (index_eq_of_key_eq hati hatj hlabelled hkey)
  | false =>
    cases hlabelled' : s.nameAnonymous.scenarios[j].anonymous with
    | true => exact hlt.ne' (index_eq_of_key_eq hatj hati hlabelled' hkey.symm)
    | false =>
      obtain ⟨hi', hati⟩ := List.getElem?_eq_some_iff.1 (getElem?_of_labelled hati hlabelled)
      obtain ⟨hj', hatj⟩ := List.getElem?_eq_some_iff.1 (getElem?_of_labelled hatj hlabelled')
      refine List.pairwise_iff_getElem.1 hlabels i j hi' hj' hlt ?_ ?_ ?_
      · rw [hati, hlabelled]
      · rw [hatj, hlabelled']
      · rw [hati, hatj, hkey]

/-- **Keys are without ambiguity**, whatever labels there are. -/
theorem keyed_nameAnonymous (s : ScenarioSet) : s.Keyed s.nameAnonymous where
  in_turn := Keying.exists_mem_eval (Keying.sound_start s)
  groups_eq := rfl
  bindings_eq := rfl
  config_eq := rfl
  length_eq := List.length_mapIdx
  labelled := fun i scenario hat hlabelled => by
    rw [getElem?_nameAnonymous, hat, Option.map_some, Scenario.keyedAt_of_labelled hlabelled]
  anonymous := fun i scenario hat hanonymous => by
    refine ⟨_, keyAmong_anonymousKey s.labels (i + 1), ?_⟩
    rw [getElem?_nameAnonymous, hat, Option.map_some, Scenario.keyedAt_of_anonymous hanonymous]
  apart := fun i j scenario other => index_eq_of_key_eq
  independent := fun t i scenario other hlabels hscenario hother hanonymous hanonymous' =>
    (keyAmong_of_getElem? hother hanonymous').unique hlabels
      (keyAmong_of_getElem? hscenario hanonymous)
  found := fun scenario => scenario?_nameAnonymous
  nodup := nodup_nameAnonymous

/-- Labels may look like keys of a place, before it or behind it. -/
example :
    (nameAnonymous
      { scenarios := [⟨"#2", .empty, {}, [], none, false, 1, none⟩,
          ⟨"", .empty, {}, [], none, true, 2, none⟩, ⟨"#2-2", .empty, {}, [], none, false, 3, none⟩,
          ⟨"", .empty, {}, [], none, true, 4, none⟩] }).scenarios.map (·.key) =
      ["#2", "#2-3", "#2-2", "#4"] := by
  decide +kernel

end ScenarioSet

end ScenarioScript
