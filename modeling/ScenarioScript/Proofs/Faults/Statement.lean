import ScenarioScript.Config.Typed
import ScenarioScript.Proofs.Faults.Expression
import ScenarioScript.Statement.Classify

/-!
# Proofs/Faults/Statement — how a statement by itself can fail

What a statement says is in its argument, and so are its faults: they lie where the argument does, or
at its end (`Keyword.at_read`).  A setting that wants its value at once is refused where the value
stands; besides it can meet a count that is too long to be read (`Config.fails_apply`).
-/

namespace ScenarioScript

open Outcome

/-! ## Arguments -/

/-- The tree stands at a position of the given sort. -/
def Tree.StandsAt (P : Int → Int → Prop) (t : Tree) : Prop := P t.span.line t.span.column

namespace Argument

variable (a : Argument)

/-- **The positions of an argument**: those of its characters, and the one behind its end. -/
def Place : Int → Int → Prop := OnLine a.line a.column (a.column + a.text.length)

theorem place_start : a.Place a.line a.column := ⟨rfl, Int.le_refl _, by omega⟩

/-- **What stands behind something in an argument** has its place in the argument. -/
theorem place_of_behind {before rest : List Char} (h : a.text = before ++ rest) {line column : Int}
    (hplace : Place ⟨rest, a.line, a.column + before.length⟩ line column) : a.Place line column := by
  obtain ⟨hline, hfirst, hlast⟩ := hplace
  have hlength : a.text.length = before.length + rest.length := by rw [h, List.length_append]
  dsimp only at hline hfirst hlast
  exact ⟨hline, by omega, by omega⟩

/-- A fault of the argument lies at its beginning. -/
theorem at_refuse {α : Type} {cause : Cause} (h : cause.isLocal = true) :
    FailsOnly (Failure.At a.Place) (a.refuse cause : Except Failure α) :=
  .at h a.place_start

theorem at_expression (allowCompare : Bool) :
    FailsOnly (Failure.At a.Place) (a.expression allowCompare) :=
  at_parseExpression _ _ _ _

theorem at_name (k : Keyword) : FailsOnly (Failure.At a.Place) (a.name k) := by
  unfold name
  split
  · exact a.at_refuse rfl
  · exact .ok _

theorem at_value (k : Keyword) (allowCompare : Bool) :
    FailsOnly (Failure.At a.Place) (a.value k allowCompare) := by
  unfold value
  split
  · exact a.at_refuse rfl
  · exact a.at_expression allowCompare

theorem at_optionalValue : FailsOnly (Failure.At a.Place) a.optionalValue := by
  unfold optionalValue
  split
  · exact .ok _
  · exact (a.at_expression false).map

theorem at_quotedPath : FailsOnly (Failure.At a.Place) a.quotedPath := by
  unfold quotedPath
  split
  · exact a.at_refuse rfl
  split
  · next failure htokens => exact .error (at_tokensOf _ _ _ failure htokens)
  · exact a.at_refuse rfl
  · next path more htokens =>
    split
    · split
      · exact .ok _
      · next extra rest =>
        exact .at rfl (onLine_of_mem_tokensOf htokens extra
          (List.mem_cons_of_mem path List.mem_cons_self))
    · exact a.at_refuse rfl

/-- **Behind a name** the rest of a text begins where it is said to begin. -/
theorem exists_append_of_splitName? {text name rest : List Char} {offset : Nat}
    (h : splitName? text = some (name, rest, offset)) :
    ∃ before, text = before ++ rest ∧ before.length = offset := by
  unfold splitName? at h
  split at h
  · exact absurd h.symm (Option.some_ne_none _)
  · next c tail =>
    dsimp only at h
    split at h
    · simp only [Option.some.injEq, Prod.mk.injEq] at h
      obtain ⟨-, rfl, rfl⟩ := h
      have hsuffix : ((c :: tail).dropWhile isNameChar).dropWhile Text.isBlank <:+ c :: tail :=
        (List.dropWhile_suffix _).trans (List.dropWhile_suffix _)
      obtain ⟨before, hbefore⟩ := hsuffix
      refine ⟨before, hbefore.symm, ?_⟩
      rw [← congrArg List.length hbefore, List.length_append]
      omega
    · exact absurd h.symm (Option.some_ne_none _)

theorem at_binding (k : Keyword) : FailsOnly (Failure.At a.Place) (a.binding k) := by
  unfold binding
  split
  · exact a.at_refuse rfl
  split
  · exact a.at_refuse rfl
  · exact a.at_refuse rfl
  · next name rest offset _ hsplit =>
    obtain ⟨before, htext, rfl⟩ := exists_append_of_splitName? hsplit
    exact ((Argument.at_expression _ false).mono fun _ h =>
      h.mono fun _ _ => a.place_of_behind htext).map

theorem at_absent (k : Keyword) : FailsOnly (Failure.At a.Place) (a.absent k) := by
  unfold absent
  split
  · exact .ok _
  · exact a.at_refuse rfl

end Argument

/-! ## Commands -/

theorem SettingKey.at_read (key : SettingKey) (a : Argument) :
    FailsOnly (Failure.At a.Place) (key.read a) := by
  cases key with
  | followRedirects => exact a.at_optionalValue.map
  | _ => exact (a.at_value _ false).map

/-- **A command fails** for a fault of its argument. -/
theorem Keyword.at_read (k : Keyword) (a : Argument) :
    FailsOnly (Failure.At a.Place) (k.read a) := by
  cases k with
  | scenario => exact .ok _
  | group | inclusion => exact (a.at_name _).map
  | load => exact a.at_quotedPath.map
  | bind | param => exact (a.at_binding _).map
  | endpoint | name | method | body => exact (a.at_value _ false).map
  | expect => exact (a.at_value _ true).map
  | json => exact a.at_optionalValue.map
  | setting key => exact (key.at_read a).map
  | step kind =>
    rw [read]
    split
    · exact (a.at_value _ false).map
    · exact (a.at_absent _).map

/-! ## Values that are read at once -/

/-- **A count that is too long**: a number of nothing but decimal digits, more of them than can be
read. -/
structure Tree.CountTooLong (value : Tree) : Prop where
  number : value.label? = some .number
  decimal : ∀ c ∈ value.text.toList, Text.isDecimal c = true
  long : digitLimit < value.text.toList.length

/-- **A failure of a setting** whose value stands at a position of the given sort: a fault there, or a
count that is too long. -/
inductive Failure.OfSetting (P : Int → Int → Prop) (setting : Setting) : Failure → Prop where
  | here {failure : Failure} (h : failure.At P) : OfSetting P setting failure
  | tooLong {value : Tree} (hsetting : setting = .samples value) (hlong : value.CountTooLong) :
      OfSetting P setting .numeralTooLong

variable {P : Int → Int → Prop}

theorem at_refuseValue {α : Type} (word : String) (wanted : Wanted) {value : Tree}
    (h : value.StandsAt P) : FailsOnly (Failure.At P) (refuseValue word wanted value : Except _ α) :=
  .at rfl h

theorem fails_countValue (word : String) {value : Tree} (h : value.StandsAt P) :
    FailsOnly (Failure.OfSetting P (.samples value)) (countValue word value) := by
  simp only [countValue]
  split
  · next hdigits =>
    split
    · exact .ok _
    · next hlong =>
      exact .error (.tooLong rfl
        ⟨hdigits.1, List.all_eq_true.1 hdigits.2.2, Nat.lt_of_not_le hlong⟩)
  · exact (at_refuseValue word .wholeNumber h).mono fun _ => .here

theorem at_warmupValue (word : String) {value : Tree} (h : value.StandsAt P) :
    FailsOnly (Failure.At P) (warmupValue word value) := by
  unfold warmupValue
  split
  · split
    · exact .ok _
    · exact at_refuseValue word .warmupMode h
  · exact at_refuseValue word .warmupMode h

theorem at_flagValue (word : String) {value : Option Tree} (h : ∀ t ∈ value, t.StandsAt P) :
    FailsOnly (Failure.At P) (flagValue word value) := by
  unfold flagValue
  split
  · exact .ok _
  · next value =>
    split
    · exact .ok _
    · exact at_refuseValue word .truthValue (h value rfl)

/-- **A setting fails** for a fault of its value, or for its length. -/
theorem Config.fails_apply (c : Config) {setting : Setting}
    (h : ∀ t ∈ setting.value?, t.StandsAt P) :
    FailsOnly (Failure.OfSetting P setting) (c.apply setting) := by
  cases setting with
  | followRedirects value => exact ((at_flagValue _ h).map).mono fun _ => .here
  | warmup value => exact ((at_warmupValue _ (h value rfl)).map).mono fun _ => .here
  | samples value => exact (fails_countValue _ (h value rfl)).map
  | _ => exact .ok _

end ScenarioScript
