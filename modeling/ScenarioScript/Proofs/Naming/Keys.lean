import Mathlib.Data.List.Nodup
import Mathlib.Order.Nat
import ScenarioScript.ScenarioSet.Naming

/-!
# Proofs/Naming/Keys — the key of a scenario without a label

The keys that are tried for a place are `#3`, `#3-2`, `#3-3`, … in turn.  Numerals tell numbers
apart, and `-` is no digit, so that a key tells both its place and its turn:

* `trialKey_injective` — keys that are tried for two places, or at two turns, are never the same;
* `exists_anonymousKey_eq` — the key that is taken is the first that is no label, and there is one:
  labels cannot hold more keys than there are labels;
* `keyAmong_anonymousKey` — so it is `#3` where that is no label, and `#3-k` with the least `k` that
  is free where it is one.
-/

namespace ScenarioScript

/-! ## Keys in turn -/

/-- **The key that is tried at a turn** for a place: the number of the turn is left out of the
first. -/
def trialKey (place turn : Nat) : String :=
  if turn ≤ 1 then s!"#{place}" else s!"#{place}-{turn}"

@[simp] theorem trialKey_one (place : Nat) : trialKey place 1 = s!"#{place}" := if_pos le_rfl

theorem trialKey_of_two_le {turn : Nat} (place : Nat) (h : 2 ≤ turn) :
    trialKey place turn = s!"#{place}-{turn}" := if_neg (by omega)

/-- What stands behind the place in a key. -/
def trialTail (turn : Nat) : List Char :=
  if turn ≤ 1 then [] else '-' :: Nat.toDigits 10 turn

theorem toList_trialKey (place turn : Nat) :
    (trialKey place turn).toList = '#' :: (Nat.toDigits 10 place ++ trialTail turn) := by
  unfold trialKey trialTail
  split
  · simp; rfl
  · simp; rfl

/-- What stands behind a place begins with no digit. -/
theorem isDigit_head?_trialTail (turn : Nat) : ∀ c ∈ (trialTail turn).head?, c.isDigit = false := by
  unfold trialTail
  split
  · exact nofun
  · intro c hc
    obtain rfl := Option.some.inj hc
    decide

/-- Digits end where something else follows them. -/
theorem takeWhile_isDigit_toDigits_append (n : Nat) {rest : List Char}
    (h : ∀ c ∈ rest.head?, c.isDigit = false) :
    (Nat.toDigits 10 n ++ rest).takeWhile Char.isDigit = Nat.toDigits 10 n := by
  have hdigits : ∀ c ∈ Nat.toDigits 10 n, c.isDigit = true := fun c hc =>
    Nat.isDigit_of_mem_toDigits (by decide) (by decide) hc
  rw [List.takeWhile_append_of_pos hdigits]
  cases rest with
  | nil => simp
  | cons c rest =>
    rw [List.takeWhile_cons_of_neg (by simpa using h c rfl), List.append_nil]

theorem toDigits_injective {n m : Nat} (h : Nat.toDigits 10 n = Nat.toDigits 10 m) : n = m := by
  rw [← Nat.ofDigitChars_ten_toDigits (n := n), h, Nat.ofDigitChars_ten_toDigits]

theorem trialTail_injective {turn turn' : Nat} (hturn : 1 ≤ turn) (hturn' : 1 ≤ turn')
    (h : trialTail turn = trialTail turn') : turn = turn' := by
  unfold trialTail at h
  split at h <;> split at h
  · omega
  · exact absurd h nofun
  · exact absurd h nofun
  · exact toDigits_injective (List.cons.inj h).2

/-- **A key tells its place and its turn.** -/
theorem trialKey_injective {place place' turn turn' : Nat} (hturn : 1 ≤ turn) (hturn' : 1 ≤ turn')
    (h : trialKey place turn = trialKey place' turn') : place = place' ∧ turn = turn' := by
  have hlists : Nat.toDigits 10 place ++ trialTail turn =
      Nat.toDigits 10 place' ++ trialTail turn' := by
    have := congrArg String.toList h
    rw [toList_trialKey, toList_trialKey] at this
    exact (List.cons.inj this).2
  have hplaces : Nat.toDigits 10 place = Nat.toDigits 10 place' := by
    rw [← takeWhile_isDigit_toDigits_append place (isDigit_head?_trialTail turn), hlists,
      takeWhile_isDigit_toDigits_append place' (isDigit_head?_trialTail turn')]
  rw [hplaces] at hlists
  exact ⟨toDigits_injective hplaces,
    trialTail_injective hturn hturn' (List.append_cancel_left hlists)⟩

/-! ## The first free key -/

variable {labels : List String} {place turn : Nat} {key : String}

/-- The candidates for a place are the keys of its first turns. -/
theorem candidateKeys_eq_map (labels : List String) (place : Nat) :
    candidateKeys labels place =
      (List.range (labels.length + 1)).map fun n => trialKey place (n + 1) := by
  rw [candidateKeys, List.range_succ_eq_map, List.map_cons, List.map_map]
  refine congrArg₂ _ (trialKey_one place).symm (List.map_congr_left fun n _ => ?_)
  exact (trialKey_of_two_le place (by omega)).symm

theorem nodup_candidateKeys (labels : List String) (place : Nat) :
    (candidateKeys labels place).Nodup := by
  rw [candidateKeys_eq_map]
  refine List.nodup_range.map fun n m h => ?_
  exact Nat.succ.inj (trialKey_injective (by omega) (by omega) h).2

/-- **One candidate is no label**: there are more of them than labels. -/
theorem exists_candidateKey_notMem (labels : List String) (place : Nat) :
    ∃ key ∈ candidateKeys labels place, key ∉ labels := by
  by_contra hall
  push Not at hall
  have hlength := (nodup_candidateKeys labels place).length_le_of_subset hall
  rw [candidateKeys_eq_map, List.length_map, List.length_range] at hlength
  omega

/-- **The key of a place** is the first of those that are tried in turn that is no label. -/
theorem exists_anonymousKey_eq (labels : List String) (place : Nat) :
    ∃ turn, 1 ≤ turn ∧ turn ≤ labels.length + 1 ∧
      anonymousKey labels place = trialKey place turn ∧ trialKey place turn ∉ labels ∧
      ∀ earlier, 1 ≤ earlier → earlier < turn → trialKey place earlier ∈ labels := by
  have hsome : ((candidateKeys labels place).find? (· ∉ labels)).isSome :=
    List.find?_isSome.2 (by simpa using exists_candidateKey_notMem labels place)
  obtain ⟨key, hfind⟩ := Option.isSome_iff_exists.1 hsome
  have hkey : anonymousKey labels place = key := by rw [anonymousKey, hfind, Option.getD_some]
  obtain ⟨hfree, i, hi, hat, hbefore⟩ := List.find?_eq_some_iff_getElem.1 hfind
  simp only [candidateKeys_eq_map, List.getElem_map, List.getElem_range, List.length_map,
    List.length_range] at hi hat hbefore
  refine ⟨i + 1, by omega, hi, hkey.trans hat.symm, ?_, fun earlier hpos hlt => ?_⟩
  · rw [hat]
    exact of_decide_eq_true hfree
  · simpa [Nat.sub_add_cancel hpos] using hbefore (earlier - 1) (by omega)

/-- **The key of a place among labels**: its bare number if that is no label, and else the first
free key with a number behind it, counted from two. -/
inductive KeyAmong (labels : List String) (place : Nat) : String → Prop
  | bare (free : s!"#{place}" ∉ labels) : KeyAmong labels place s!"#{place}"
  | suffixed (held : s!"#{place}" ∈ labels) (k : Nat) (two_le : 2 ≤ k)
      (free : s!"#{place}-{k}" ∉ labels)
      (least : ∀ j, 2 ≤ j → j < k → s!"#{place}-{j}" ∈ labels) :
      KeyAmong labels place s!"#{place}-{k}"

/-- **The key of a place** is its key among the labels. -/
theorem keyAmong_anonymousKey (labels : List String) (place : Nat) :
    KeyAmong labels place (anonymousKey labels place) := by
  obtain ⟨turn, hturn, -, hkey, hfree, hbefore⟩ := exists_anonymousKey_eq labels place
  rw [hkey]
  rcases hturn.eq_or_lt with rfl | htwo
  · rw [trialKey_one] at hfree ⊢
    exact .bare hfree
  · rw [trialKey_of_two_le place htwo] at hfree ⊢
    refine .suffixed (trialKey_one place ▸ hbefore 1 le_rfl htwo) turn htwo hfree fun j hj hlt => ?_
    rw [← trialKey_of_two_le place hj]
    exact hbefore j (by omega) hlt

namespace KeyAmong

variable {labels' : List String} {key' : String}

theorem notMem (h : KeyAmong labels place key) : key ∉ labels := by
  cases h with
  | bare free => exact free
  | suffixed _ _ _ free _ => exact free

theorem exists_trialKey (h : KeyAmong labels place key) :
    ∃ turn, 1 ≤ turn ∧ key = trialKey place turn := by
  cases h with
  | bare => exact ⟨1, le_rfl, (trialKey_one place).symm⟩
  | suffixed _ k two_le => exact ⟨k, by omega, (trialKey_of_two_le place two_le).symm⟩

/-- **Keys of different places are different**, whatever the labels are. -/
theorem place_eq {place' : Nat} (h : KeyAmong labels place key) (h' : KeyAmong labels' place' key) :
    place = place' := by
  obtain ⟨turn, hturn, rfl⟩ := h.exists_trialKey
  obtain ⟨turn', hturn', heq⟩ := h'.exists_trialKey
  exact (trialKey_injective hturn hturn' heq).1

/-- **There is one key for a place**, and it depends on nothing but which keys are labels. -/
theorem unique (hlabels : ∀ key, key ∈ labels ↔ key ∈ labels') (h : KeyAmong labels place key)
    (h' : KeyAmong labels' place key') : key = key' := by
  cases h with
  | bare free =>
    cases h' with
    | bare => rfl
    | suffixed held => exact absurd ((hlabels _).2 held) free
  | suffixed held k two_le free least =>
    cases h' with
    | bare free' => exact absurd ((hlabels _).1 held) free'
    | suffixed _ k' two_le' free' least' =>
      rcases lt_trichotomy k k' with hlt | rfl | hlt
      · exact absurd ((hlabels _).2 (least' k two_le hlt)) free
      · rfl
      · exact absurd ((hlabels _).1 (least k' two_le' hlt)) free'

end KeyAmong

end ScenarioScript
