/-!
# Indexing — places in a list, counted from either end

A place is an integer: from 0 on it counts from the front, and below 0 it counts from the end, with
-1 for the last element.
-/

namespace ScenarioScript

/-- The element at a place counted from the front, or from the end when it is negative. -/
def elementAt? {α : Type} (items : List α) (place : Int) : Option α :=
  if 0 ≤ place then items[place.toNat]?
  else if 0 ≤ items.length + place then items[(items.length + place).toNat]?
  else none

@[simp] theorem elementAt?_natCast {α : Type} (items : List α) (n : Nat) :
    elementAt? items n = items[n]? := by
  simp [elementAt?]

/-- **Place -1 is the last element.** -/
theorem elementAt?_neg_one {α : Type} (items : List α) :
    elementAt? items (-1) = items.getLast? := by
  cases items with
  | nil => simp [elementAt?]
  | cons a rest =>
    have h : (((a :: rest).length : Int) + -1).toNat = rest.length := by
      simp only [List.length_cons]
      omega
    have hn : (0 : Int) ≤ ((a :: rest).length : Int) + -1 := by
      simp only [List.length_cons]
      omega
    rw [elementAt?, if_neg (by decide), if_pos hn, h, List.getLast?_eq_getElem?]
    simp

end ScenarioScript
