import ScenarioScript.Config.Typed
import ScenarioScript.Proofs.Outcome
import ScenarioScript.ScenarioSet

/-!
# Proofs/Merging/Sets — what merging does to maps, settings and sets

To merge is to let what was defined elsewhere come behind what there is.  So it makes no difference
whether something more is defined before the merge, in what comes in, or after it, in the result.

* `OrderedMap.update_insert`, `OrderedMap.update_assoc` — an entry more, a map more;
* `Config.apply_merged`, `Config.merged_assoc` — a setting more, a level more;
* `Config.update_eq_merged` — settings that are folded in, one after the other, are merged;
* `ScenarioSet.merge_assoc`, `ScenarioSet.merge_empty`, `ScenarioSet.empty_merge` — **sets are a
  monoid** under merging.
-/

namespace ScenarioScript

/-! ## Ordered maps -/

namespace OrderedMap

variable {κ α : Type} [DecidableEq κ]

theorem putEntry_putEntry (k : κ) (a a' : α) (entries : List (κ × α)) :
    putEntry k a' (putEntry k a entries) = putEntry k a' entries := by
  induction entries with
  | nil => simp [putEntry]
  | cons e rest ih =>
    obtain ⟨key, value⟩ := e
    by_cases h : key = k <;> simp [putEntry, h, ih]

/-- Values for two keys can be put in either order once one of the keys has its place. -/
theorem putEntry_comm {k l : κ} (hne : k ≠ l) (a b : α) {entries : List (κ × α)}
    (hmem : k ∈ entries.map Prod.fst) :
    putEntry k a (putEntry l b entries) = putEntry l b (putEntry k a entries) := by
  induction entries with
  | nil => exact absurd hmem List.not_mem_nil
  | cons e rest ih =>
    obtain ⟨key, value⟩ := e
    by_cases hk : key = k
    · subst hk
      simp [putEntry, hne]
    · by_cases hl : key = l
      · subst hl
        simp [putEntry, hk]
      · have hrest : k ∈ rest.map Prod.fst := by simpa [Ne.symm hk] using hmem
        simp [putEntry, hk, hl, ih hrest]

theorem insert_insert (m : OrderedMap κ α) (k : κ) (a a' : α) :
    (m.insert k a).insert k a' = m.insert k a' :=
  ext (putEntry_putEntry k a a' m.entries)

theorem insert_comm {m : OrderedMap κ α} {k l : κ} (hne : k ≠ l) (a b : α) (hmem : k ∈ m.keys) :
    (m.insert l b).insert k a = (m.insert k a).insert l b :=
  ext (putEntry_comm hne a b hmem)

/-- A value for a key that has its place can be put before all the others come in. -/
theorem foldl_insert_comm {m : OrderedMap κ α} {k : κ} (a : α) (hmem : k ∈ m.keys)
    {entries : List (κ × α)} (hnew : k ∉ entries.map Prod.fst) :
    (entries.foldl (fun m e => m.insert e.1 e.2) m).insert k a =
      entries.foldl (fun m e => m.insert e.1 e.2) (m.insert k a) := by
  induction entries generalizing m with
  | nil => rfl
  | cons e rest ih =>
    obtain ⟨hne, hrest⟩ := not_or.1 (mt List.mem_cons.2 hnew)
    rw [List.foldl_cons, List.foldl_cons, ih ((mem_keys_insert ..).2 (.inr hmem)) hrest,
      insert_comm hne a e.2 hmem]

theorem foldl_putEntry (m : OrderedMap κ α) (k : κ) (a : α) {entries : List (κ × α)}
    (hnodup : (entries.map Prod.fst).Nodup) :
    (putEntry k a entries).foldl (fun m e => m.insert e.1 e.2) m =
      (entries.foldl (fun m e => m.insert e.1 e.2) m).insert k a := by
  induction entries generalizing m with
  | nil => rfl
  | cons e rest ih =>
    obtain ⟨key, value⟩ := e
    obtain ⟨hnew, hrest⟩ := List.nodup_cons.1 hnodup
    by_cases h : key = k
    · subst h
      rw [putEntry, if_pos rfl, List.foldl_cons, List.foldl_cons,
        foldl_insert_comm a ((mem_keys_insert ..).2 (.inl rfl)) hnew, insert_insert]
    · rw [putEntry, if_neg h, List.foldl_cons, List.foldl_cons, ih _ hrest]

/-- **An entry more** may be put into the map that comes in, or into the result. -/
theorem update_insert (m n : OrderedMap κ α) (k : κ) (a : α) :
    m.update (n.insert k a) = (m.update n).insert k a :=
  foldl_putEntry m k a n.nodup_keys

@[simp] theorem update_empty (m : OrderedMap κ α) : m.update empty = m := rfl

theorem update_foldl_insert (m n : OrderedMap κ α) (entries : List (κ × α)) :
    m.update (entries.foldl (fun m e => m.insert e.1 e.2) n) =
      entries.foldl (fun m e => m.insert e.1 e.2) (m.update n) := by
  induction entries generalizing n with
  | nil => rfl
  | cons e rest ih => rw [List.foldl_cons, List.foldl_cons, ih, update_insert]

/-- **A map more** may be taken into the map that comes in, or into the result. -/
theorem update_assoc (m n p : OrderedMap κ α) : (m.update n).update p = m.update (n.update p) :=
  (update_foldl_insert m n p.entries).symm

/-- Entries whose keys are new come behind those there are. -/
theorem entries_foldl_insert {m : OrderedMap κ α} {entries : List (κ × α)}
    (h : ((m.entries ++ entries).map Prod.fst).Nodup) :
    (entries.foldl (fun m e => m.insert e.1 e.2) m).entries = m.entries ++ entries := by
  induction entries generalizing m with
  | nil => exact (List.append_nil _).symm
  | cons e entries ih =>
    have hnew : e.1 ∉ m.entries.map Prod.fst := by
      rw [List.map_append, List.nodup_append] at h
      exact fun hmem => h.2.2 e.1 hmem e.1 List.mem_cons_self rfl
    have hput : (m.insert e.1 e.2).entries = m.entries ++ [e] := putEntry_of_not_mem e.2 hnew
    rw [List.foldl_cons, ih (by simpa [hput] using h), hput, List.append_assoc]
    rfl

@[simp] theorem empty_update (m : OrderedMap κ α) : (empty : OrderedMap κ α).update m = m :=
  ext (entries_foldl_insert m.nodup_keys)

end OrderedMap

/-! ## Settings -/

namespace Config

@[simp] theorem merged_empty (c : Config) : c.merged {} = c := by
  simp [merged]

@[simp] theorem empty_merged (c : Config) : ({} : Config).merged c = c := by
  simp [merged]

theorem merged_assoc (c inner innermost : Config) :
    (c.merged inner).merged innermost = c.merged (inner.merged innermost) := by
  simp [merged, Option.or_assoc]

/-- **Settings that are all taken over** are those of the source, whatever was there. -/
theorem foldl_takeOver (source c : Config) : Slot.all.foldl (Slot.takeOver source) c = source := by
  simp only [Slot.all, List.foldl_cons, List.foldl_nil, Slot.takeOver]

/-- **To fold settings in** is to have them inside: what is in force there is known before the first
setting is written over. -/
theorem update_eq_merged (c inner : Config) : c.update inner = c.merged inner :=
  foldl_takeOver (c.merged inner) c

/-- **A setting more** may be taken into the inner settings or into what is in force there. -/
theorem apply_merged (c inner : Config) (setting : Setting) :
    (c.merged inner).apply setting = (inner.apply setting).map c.merged := by
  cases setting with
  | header value => simp [apply, merged, Except.map]
  | followRedirects value =>
    simp only [apply]
    cases flagValue (Setting.followRedirects value).key.word value <;> rfl
  | warmup value =>
    simp only [apply]
    cases warmupValue (Setting.warmup value).key.word value <;> rfl
  | samples value =>
    simp only [apply]
    cases countValue (Setting.samples value).key.word value <;> rfl
  | _ => rfl

end Config

/-! ## Sets -/

namespace ScenarioSet

@[simp] theorem merge_empty (s : ScenarioSet) : s.merge {} = s := by
  simp [merge]

@[simp] theorem empty_merge (s : ScenarioSet) : ({} : ScenarioSet).merge s = s := by
  simp [merge]

/-- **A set more** may be taken into the set that comes in, or into the result. -/
theorem merge_assoc (s t u : ScenarioSet) : (s.merge t).merge u = s.merge (t.merge u) := by
  simp [merge, OrderedMap.update_assoc, Config.merged_assoc]

theorem merge_bind (s t : ScenarioSet) (name : String) (value : Tree) :
    (s.merge t).bind name value = s.merge (t.bind name value) := by
  simp [merge, bind, OrderedMap.update_insert]

end ScenarioSet

end ScenarioScript
