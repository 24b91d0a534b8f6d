import Mathlib.Data.List.Forall2
import ScenarioScript.Proofs.Faults.Line

/-!
# Proofs/Layout/Idle — blank lines and comments

Lines that do not count can be put in and taken out anywhere.  Two rows of lines are **apart by idle
lines** (`IdleApart`) if one comes of the other so, which is to say that the lines that count are the
same in both (`idleApart_iff`).

What is scanned of such rows is the same but for the numbers of the lines (`SameScan`), and where the
numbers differ, they are those of **the same line** in either row (`SameNumber`):

* `enter_uniform` — what an indentation says does not depend on the number of its line;
* `scanLines_idleApart` — the induction, on how the two rows are apart;
* `scan_idleApart` — idle lines do not matter to texts.
-/

namespace ScenarioScript

namespace Layout

variable {raw idle : List Char} {lines lines' below below' : List (List Char)}

/-! ## Rows that are apart by idle lines -/

/-- The lines that count. -/
def counting (lines : List (List Char)) : List (List Char) := lines.filter (!isIdle ·)

/-- **Rows that are apart by idle lines.** -/
inductive IdleApart : List (List Char) → List (List Char) → Prop
  | nil : IdleApart [] []
  | both (raw : List Char) {below below' : List (List Char)} (h : IdleApart below below') :
      IdleApart (raw :: below) (raw :: below')
  | putIn {idle : List Char} {below below' : List (List Char)} (hidle : isIdle idle = true)
      (h : IdleApart below below') : IdleApart below (idle :: below')
  | takenOut {idle : List Char} {below below' : List (List Char)} (hidle : isIdle idle = true)
      (h : IdleApart below below') : IdleApart (idle :: below) below'

theorem counting_cons_of_idle (h : isIdle idle = true) : counting (idle :: below) = counting below :=
  List.filter_cons_of_neg (by simp [h])

theorem counting_cons (h : isIdle raw = false) : counting (raw :: below) = raw :: counting below :=
  List.filter_cons_of_pos (by simp [h])

/-- **Lines that do not count** can be put in all at once. -/
theorem IdleApart.putIn_append {row : List (List Char)} (hrow : ∀ line ∈ row, isIdle line = true)
    (h : IdleApart below below') : IdleApart below (row ++ below') := by
  induction row with
  | nil => exact h
  | cons idle row ih =>
    obtain ⟨hidle, hrow⟩ := List.forall_mem_cons.1 hrow
    exact .putIn hidle (ih hrow)

theorem IdleApart.counting_eq (h : IdleApart lines lines') : counting lines = counting lines' := by
  induction h with
  | nil => rfl
  | both raw _ ih =>
    cases hidle : isIdle raw with
    | true => rw [counting_cons_of_idle hidle, counting_cons_of_idle hidle, ih]
    | false => rw [counting_cons hidle, counting_cons hidle, ih]
  | putIn hidle _ ih => rw [counting_cons_of_idle hidle, ih]
  | takenOut hidle _ ih => rw [counting_cons_of_idle hidle, ih]

/-- **Rows are apart by idle lines** exactly if the same lines count in both. -/
theorem idleApart_iff : IdleApart lines lines' ↔ counting lines = counting lines' := by
  refine ⟨IdleApart.counting_eq, fun h => ?_⟩
  induction lines generalizing lines' with
  | nil =>
    have hidle : ∀ line ∈ lines', isIdle line = true := by
      simpa [counting] using List.filter_eq_nil_iff.1 h.symm
    exact List.append_nil lines' ▸ IdleApart.nil.putIn_append hidle
  | cons raw below ih =>
    cases hidle : isIdle raw with
    | true => exact .takenOut hidle (ih (counting_cons_of_idle hidle ▸ h))
    | false =>
      rw [counting_cons hidle, eq_comm, counting, List.filter_eq_cons_iff] at h
      obtain ⟨row, below', rfl, hrow, -, hbelow⟩ := h
      have hrow : ∀ line ∈ row, isIdle line = true := by simpa using hrow
      exact ((ih hbelow.symm).both raw).putIn_append hrow

/-! ## The same line in either row -/

/-- **The same line** stands at the two places: it counts, and so do the same lines above it. -/
structure SameLine (lines lines' : List (List Char)) (n n' : Nat) : Prop where
  line : ∃ raw, lines[n]? = some raw ∧ lines'[n']? = some raw ∧ isIdle raw = false
  above : counting (lines.take n) = counting (lines'.take n')

namespace SameLine

variable {n n' : Nat}

theorem head (h : isIdle raw = false) (below below' : List (List Char)) :
    SameLine (raw :: below) (raw :: below') 0 0 :=
  ⟨⟨raw, rfl, rfl, h⟩, rfl⟩

theorem both (raw : List Char) (h : SameLine below below' n n') :
    SameLine (raw :: below) (raw :: below') (n + 1) (n' + 1) :=
  ⟨h.line, ((idleApart_iff.2 h.above).both raw).counting_eq⟩

theorem putIn (hidle : isIdle idle = true) (h : SameLine below below' n n') :
    SameLine below (idle :: below') n (n' + 1) :=
  ⟨h.line, ((idleApart_iff.2 h.above).putIn hidle).counting_eq⟩

theorem takenOut (hidle : isIdle idle = true) (h : SameLine below below' n n') :
    SameLine (idle :: below) below' (n + 1) n' :=
  ⟨h.line, ((idleApart_iff.2 h.above).takenOut hidle).counting_eq⟩

end SameLine

/-- **Numbers of the same line**, if the rows are numbered from `first` and `first'` on. -/
def SameNumber (lines lines' : List (List Char)) (first first' : Int) (number number' : Int) : Prop :=
  ∃ n n' : Nat, number = first + n ∧ number' = first' + n' ∧ SameLine lines lines' n n'

namespace SameNumber

variable {first first' number number' : Int}

theorem head (h : isIdle raw = false) (below below' : List (List Char)) (first first' : Int) :
    SameNumber (raw :: below) (raw :: below') first first' first first' :=
  ⟨0, 0, by simp, by simp, .head h below below'⟩

theorem both (raw : List Char) (h : SameNumber below below' (first + 1) (first' + 1) number number') :
    SameNumber (raw :: below) (raw :: below') first first' number number' := by
  obtain ⟨n, n', rfl, rfl, hline⟩ := h
  exact ⟨n + 1, n' + 1, by omega, by omega, hline.both raw⟩

theorem putIn (hidle : isIdle idle = true)
    (h : SameNumber below below' first (first' + 1) number number') :
    SameNumber below (idle :: below') first first' number number' := by
  obtain ⟨n, n', rfl, rfl, hline⟩ := h
  exact ⟨n, n' + 1, rfl, by omega, hline.putIn hidle⟩

theorem takenOut (hidle : isIdle idle = true)
    (h : SameNumber below below' (first + 1) first' number number') :
    SameNumber (idle :: below) below' first first' number number' := by
  obtain ⟨n, n', rfl, rfl, hline⟩ := h
  exact ⟨n + 1, n', by omega, rfl, hline.takenOut hidle⟩

end SameNumber

/-! ## The same but for the numbers of lines -/

/-- **The same statement** on another line. -/
structure Moved (P : Int → Int → Prop) (l l' : ScriptLine) : Prop where
  depth : l.depth = l'.depth
  text : l.text = l'.text
  column : l.column = l'.column
  line : P l.line l'.line

/-- **The same is scanned**, but for the numbers of lines: the same statements, or the same fault in
the same column. -/
inductive SameScan (P : Int → Int → Prop) :
    Except Failure (List ScriptLine) → Except Failure (List ScriptLine) → Prop
  | ok {statements statements' : List ScriptLine} (h : List.Forall₂ (Moved P) statements statements') :
      SameScan P (.ok statements) (.ok statements')
  | error {cause : Cause} {line line' : Int} (h : P line line') (column : Int) :
      SameScan P (.error (.atPosition cause line column)) (.error (.atPosition cause line' column))

namespace SameScan

variable {P Q : Int → Int → Prop} {r r' : Except Failure (List ScriptLine)} {l l' : ScriptLine}

theorem mono (h : SameScan P r r') (hPQ : ∀ {a b}, P a b → Q a b) : SameScan Q r r' := by
  cases h with
  | ok h => exact .ok (h.imp fun _ _ hl => ⟨hl.depth, hl.text, hl.column, hPQ hl.line⟩)
  | error h column => exact .error (hPQ h) column

/-- A statement above. -/
theorem cons (hl : Moved P l l') (h : SameScan P r r') :
    SameScan P (r.map (l :: ·)) (r'.map (l' :: ·)) := by
  cases h with
  | ok h => exact .ok (.cons hl h)
  | error h column => exact .error h column

end SameScan

variable {above margin : Margin} {indent : List Char} {number : Int}

/-- **What an indentation says** does not depend on the number of its line, which only names the place
of a fault in it. -/
theorem enter_uniform (h : above.Positive) (indent : List Char) :
    (∃ margin, ∀ number, above.enter indent number = .ok margin) ∨
      ∃ cause column, ∀ number, above.enter indent number = .error (.atPosition cause number column) := by
  by_cases htab : '\t' ∈ indent
  · exact .inr ⟨_, _, fun number => by rw [Margin.enter, if_pos htab]⟩
  by_cases hnil : indent.length = 0
  · exact .inl ⟨_, fun number => by rw [Margin.enter, if_neg htab, if_pos hnil]⟩
  have hunit : above.unit.getD indent.length ≠ 0 := by
    cases hunit : above.unit with
    | none => exact fun hzero => hnil (Int.natCast_eq_zero.1 hzero)
    | some unit => exact Int.ne_of_gt (h unit hunit)
  by_cases hmod : Int.fmod indent.length (above.unit.getD indent.length) ≠ 0
  · exact .inr ⟨_, _, fun number => by
      rw [Margin.enter, if_neg htab, if_neg hnil, if_neg hunit, if_pos hmod]⟩
  by_cases hdeep : Int.fdiv indent.length (above.unit.getD indent.length) > above.depth + 1
  · exact .inr ⟨_, _, fun number => by
      rw [Margin.enter, if_neg htab, if_neg hnil, if_neg hunit, if_neg hmod, if_pos hdeep]⟩
  · exact .inl ⟨_, fun number => by
      rw [Margin.enter, if_neg htab, if_neg hnil, if_neg hunit, if_neg hmod, if_neg hdeep]⟩

/-- A line that counts stands above what is scanned below it. -/
theorem scanLines_of_enter (hidle : isIdle raw = false)
    (h : above.enter (indentOf raw) number = .ok margin) :
    scanLines above number (raw :: below) = (scanLines margin (number + 1) below).map
      (⟨margin.depth, String.ofList (Text.trim raw), number, (indentOf raw).length + 1⟩ :: ·) := by
  simp only [scanLines, hidle, Bool.false_eq_true, if_false, h]
  cases scanLines margin (number + 1) below <;> rfl

theorem scanLines_of_enter_error (hidle : isIdle raw = false) {failure : Failure}
    (h : above.enter (indentOf raw) number = .error failure) :
    scanLines above number (raw :: below) = .error failure := by
  simp only [scanLines, hidle, Bool.false_eq_true, if_false, h]

/-- **Idle lines do not matter** to what is scanned.  The induction is on how the rows are apart; what
is carried down both rows is the margin, which no idle line changes. -/
theorem scanLines_idleApart (h : IdleApart lines lines') (habove : above.Positive)
    (first first' : Int) :
    SameScan (SameNumber lines lines' first first') (scanLines above first lines)
      (scanLines above first' lines') := by
  induction h generalizing above first first' with
  | nil => exact .ok .nil
  | @both raw below below' _ ih =>
    cases hidle : isIdle raw with
    | true =>
      rw [scanLines_idle hidle, scanLines_idle hidle]
      exact (ih habove _ _).mono (.both raw)
    | false =>
      have hhead := SameNumber.head hidle below below' first first'
      obtain ⟨margin, henter⟩ | ⟨cause, column, henter⟩ := enter_uniform habove (indentOf raw)
      · have hbelow := ih (positive_of_enter habove (henter first)) (first + 1) (first' + 1)
        rw [scanLines_of_enter hidle (henter _), scanLines_of_enter hidle (henter _)]
        exact (hbelow.mono (.both raw)).cons ⟨rfl, rfl, rfl, hhead⟩
      · rw [scanLines_of_enter_error hidle (henter _), scanLines_of_enter_error hidle (henter _)]
        exact .error hhead column
  | putIn hidle _ ih =>
    rw [scanLines_idle hidle]
    exact (ih habove _ _).mono (.putIn hidle)
  | takenOut hidle _ ih =>
    rw [scanLines_idle hidle]
    exact (ih habove _ _).mono (.takenOut hidle)

/-- **Idle lines do not matter**, to no text: whatever blank lines and comments are put in and taken
out, there are the same statements, or there is the same fault, in the same columns of the same
lines. -/
theorem scan_idleApart {unit : Option Int} (hunit : ∀ n ∈ unit, 0 < n) {text text' : String}
    (h : IdleApart (Text.splitLines text.toList) (Text.splitLines text'.toList)) :
    SameScan (SameNumber (Text.splitLines text.toList) (Text.splitLines text'.toList) 1 1)
      (scan unit text) (scan unit text') :=
  have habove : Margin.Positive ⟨unit, 0⟩ := hunit
  scanLines_idleApart h habove 1 1

/-- **The physical lines of two texts** are apart by idle lines, and the same is scanned of both. -/
def ScannedAlike (unit : Option Int) (text text' : String) : Prop :=
  IdleApart (Text.splitLines text.toList) (Text.splitLines text'.toList) ∧
    SameScan (SameNumber (Text.splitLines text.toList) (Text.splitLines text'.toList) 1 1)
      (scan unit text) (scan unit text')

/-- Idle lines, with a tab and at odd widths, among two statements; and a fault behind a comment that
would have set another unit. -/
theorem scan_idleApart_comments :
    (ScannedAlike none "a\n  b" "   # c\na\n\t\n\t# d\n  b" ∧
      scan none "a\n  b" = .ok [⟨0, "a", 1, 1⟩, ⟨1, "b", 2, 3⟩] ∧
      scan none "   # c\na\n\t\n\t# d\n  b" = .ok [⟨0, "a", 2, 1⟩, ⟨1, "b", 5, 3⟩]) ∧
    ScannedAlike none "a\n   # c\n  b\n   d" "a\n  b\n   d" ∧
      scan none "a\n   # c\n  b\n   d" = .error (.atPosition (.unevenIndent 3 2) 4 4) ∧
      scan none "a\n  b\n   d" = .error (.atPosition (.unevenIndent 3 2) 3 4) := by
  have halike (text text' : String) (h : counting (Text.splitLines text.toList) =
      counting (Text.splitLines text'.toList)) : ScannedAlike none text text' :=
    ⟨idleApart_iff.2 h, scan_idleApart (fun _ hn => absurd hn (Option.not_mem_none _))
      (idleApart_iff.2 h)⟩
  exact ⟨⟨halike _ _ (by decide +kernel), by decide +kernel, by decide +kernel⟩,
    halike _ _ (by decide +kernel), by decide +kernel, by decide +kernel⟩

end Layout

end ScenarioScript
