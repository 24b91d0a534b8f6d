import ScenarioScript.Layout
import ScenarioScript.Proofs.Outcome

/-!
# Proofs/Layout/Standing — how statements stand on the lines of a text

A statement is **that of a physical line** (`ScriptLine.Of`): its text is the line without the blanks
around it, and its column follows the indentation, which holds no tab.  Every statement of a text is
that of one of its lines (`exists_of_mem_scanLines`).

Where indentation has a width, the statements **stand** on the lines (`Stands`): each line that counts
holds the next one, indented by so many units as the statement is deep, and at most one deeper than
the statement above.  Lines are laid out exactly if statements stand on them (`stands_of_scanLines`,
`scanLines_of_stands`); the unit is the one that is given or else the first indentation there is
(`unitOf`).
-/

namespace ScenarioScript

open Outcome

/-- **The statement of a physical line** with the given number. -/
structure ScriptLine.Of (l : ScriptLine) (number : Int) (raw : List Char) : Prop where
  counts : Layout.isIdle raw = false
  untabbed : '\t' ∉ Layout.indentOf raw
  text : l.text = String.ofList (Text.trim raw)
  line : l.line = number
  column : l.column = (Layout.indentOf raw).length + 1

theorem ScriptLine.Of.toList_text {l : ScriptLine} {number : Int} {raw : List Char}
    (h : l.Of number raw) : l.text.toList = Text.trim raw := by
  rw [h.text, String.toList_ofList]

namespace Layout

variable {above margin : Margin} {indent raw : List Char} {number : Int} {lines : List (List Char)}
  {statements : List ScriptLine}

/-! ## Indentation -/

theorem indentOf_append {body : List Char} (hindent : ∀ c ∈ indent, c = ' ' ∨ c = '\t')
    (hbody : ∀ c ∈ body.head?, c ≠ ' ' ∧ c ≠ '\t') : indentOf (indent ++ body) = indent := by
  have hstop : body.takeWhile (fun c => c == ' ' || c == '\t') = [] := by
    cases body with
    | nil => rfl
    | cons c body => simp [hbody c rfl]
  rw [indentOf, List.takeWhile_append_of_pos, hstop, List.append_nil]
  simpa using hindent

theorem indentOf_prefix_self (raw : List Char) : indentOf raw <+: raw := List.takeWhile_prefix _

theorem indentOf_append_drop (raw : List Char) :
    indentOf raw ++ raw.drop (indentOf raw).length = raw :=
  List.prefix_iff_eq_append.1 (indentOf_prefix_self raw)

theorem mem_indentOf {c : Char} (h : c ∈ indentOf raw) : c = ' ' ∨ c = '\t' := by
  simpa using List.all_eq_true.1 List.all_takeWhile c h

/-- **Behind the indentation** there is neither a space nor a tab. -/
theorem head?_drop_indentOf : ∀ c ∈ (raw.drop (indentOf raw).length).head?, c ≠ ' ' ∧ c ≠ '\t' := by
  intro c hc
  have hdrop : raw.drop (indentOf raw).length = raw.dropWhile fun c => c == ' ' || c == '\t' :=
    List.append_cancel_left ((indentOf_append_drop raw).trans List.takeWhile_append_dropWhile.symm)
  have hnot := List.head?_dropWhile_not (fun c => c == ' ' || c == '\t') raw
  rw [← hdrop, Option.mem_def.1 hc] at hnot
  simpa using hnot

/-! ## Single steps -/

/-- **What an indentation can say**: there is none, or it is a whole number of units, and not too
deep. -/
theorem enter_eq_ok (h : above.enter indent number = .ok margin) :
    '\t' ∉ indent ∧ (indent = [] ∧ margin = { above with depth := 0 } ∨
      ∃ unit, unit = above.unit.getD indent.length ∧ indent ≠ [] ∧ unit ≠ 0 ∧
        Int.fmod indent.length unit = 0 ∧ Int.fdiv indent.length unit ≤ above.depth + 1 ∧
        margin = ⟨some unit, Int.fdiv indent.length unit⟩) := by
  simp only [Margin.enter] at h
  split at h
  · exact absurd h error_ne_ok
  · next htab =>
    refine ⟨htab, ?_⟩
    split at h
    · next hnil => exact .inl ⟨List.length_eq_zero_iff.1 hnil, (Except.ok.inj h).symm⟩
    · next hne =>
      split at h
      · exact absurd h error_ne_ok
      · next hunit =>
        split at h
        · exact absurd h error_ne_ok
        · next hmod =>
          split at h
          · exact absurd h error_ne_ok
          · next hdeep =>
            exact .inr ⟨_, rfl, fun hnil => hne (by rw [hnil, List.length_nil]), hunit,
              Decidable.not_not.1 hmod, Int.not_lt.1 hdeep, (Except.ok.inj h).symm⟩

/-- **A line that counts** adds its statement to those of the lines below it. -/
theorem scanLines_cons_eq_ok (h : isIdle raw = false) :
    scanLines above number (raw :: lines) = .ok statements ↔
      ∃ margin below, above.enter (indentOf raw) number = .ok margin ∧
        scanLines margin (number + 1) lines = .ok below ∧
        statements = ⟨margin.depth, String.ofList (Text.trim raw), number,
          (indentOf raw).length + 1⟩ :: below := by
  rw [scanLines, h, if_neg Bool.false_ne_true]
  dsimp only
  cases above.enter (indentOf raw) number with
  | error failure => simp
  | ok margin =>
    cases hbelow : scanLines margin (number + 1) lines with
    | error failure => simp [hbelow]
    | ok below => simp [hbelow, eq_comm]

/-- **Every statement** is that of one of the lines. -/
theorem exists_of_mem_scanLines (h : scanLines above number lines = .ok statements) :
    ∀ l ∈ statements, ∃ n raw, lines[n]? = some raw ∧ l.Of (number + (n : Nat)) raw := by
  induction lines generalizing above number statements with
  | nil =>
    obtain rfl := Except.ok.inj h
    exact List.forall_mem_nil _
  | cons raw lines ih =>
    have hbelow : ∀ {above statements}, scanLines above (number + 1) lines = .ok statements →
        ∀ l ∈ statements, ∃ n line, (raw :: lines)[n]? = some line ∧ l.Of (number + (n : Nat)) line := by
      intro above statements h l hl
      obtain ⟨n, line, hline, hof⟩ := ih h l hl
      have hnumber : number + 1 + (n : Nat) = number + (n + 1 : Nat) := by omega
      exact ⟨n + 1, line, hline, hnumber ▸ hof⟩
    cases hidle : isIdle raw with
    | true => exact hbelow (scanLines_idle hidle above number lines ▸ h)
    | false =>
      obtain ⟨margin, below, henter, hrest, rfl⟩ := (scanLines_cons_eq_ok hidle).1 h
      have hof : ScriptLine.Of ⟨margin.depth, String.ofList (Text.trim raw), number,
          (indentOf raw).length + 1⟩ (number + (0 : Nat)) raw :=
        ⟨hidle, (enter_eq_ok henter).1, rfl, by simp, rfl⟩
      exact List.forall_mem_cons.2 ⟨⟨0, raw, rfl, hof⟩, hbelow hrest⟩

/-! ## The unit -/

/-- Does the line hold a statement with some indentation? -/
def isIndented (line : List Char) : Bool := !isIdle line && !(indentOf line).isEmpty

/-- **The unit of the lines**: the one that is given, or else the first indentation of a statement.
Where nothing is indented, any will do. -/
def unitOf (unit : Option Int) (lines : List (List Char)) : Nat :=
  match unit with
  | some n => n.toNat
  | none =>
    match lines.find? isIndented with
    | some line => (indentOf line).length
    | none => 1

/-- **Where indentation has a width**, the unit is one. -/
theorem unitOf_pos {unit : Option Int} (h : ∀ n ∈ unit, 0 < n) (lines : List (List Char)) :
    0 < unitOf unit lines := by
  cases unit with
  | some n => exact Int.pos_iff_toNat_pos.1 (h n rfl)
  | none =>
    simp only [unitOf]
    split
    · next line hline =>
      have hindented := List.find?_some hline
      simp only [isIndented, Bool.and_eq_true, Bool.not_eq_true', List.isEmpty_eq_false_iff]
        at hindented
      exact List.length_pos_iff.2 hindented.2
    · exact Nat.one_pos

/-- **What is known of the unit** below a statement: it is the width of a level, unless nothing has
been indented yet. -/
def Knows (width : Nat) (unit : Option Int) (above : Nat) : Prop :=
  unit = some (width : Int) ∨ unit = none ∧ above = 0

variable {width above depth : Nat} {unit : Option Int}

theorem knows_zero (h : ∀ n ∈ unit, n = width) : Knows width unit 0 := by
  cases unit with
  | none => exact .inr ⟨rfl, rfl⟩
  | some n => exact .inl (congrArg some (h n rfl))

/-- **A statement is entered** at its depth, if it is no more than one level further in. -/
theorem enter_of_length (hwidth : 0 < width) (hunit : Knows width unit above)
    (htab : '\t' ∉ indent) (hlength : indent.length = width * depth) (hstep : depth ≤ above + 1)
    (number : Int) :
    ∃ unit', Knows width unit' depth ∧ Margin.enter ⟨unit, above⟩ indent number = .ok ⟨unit', depth⟩ := by
  cases depth with
  | zero =>
    refine ⟨unit, hunit.imp_right fun h => ⟨h.1, rfl⟩, ?_⟩
    obtain rfl := List.length_eq_zero_iff.1 (hlength.trans (Nat.mul_zero width))
    exact Margin.enter_nil _ number
  | succ n =>
    have hpos : indent.length ≠ 0 := hlength ▸ Nat.pos_iff_ne_zero.1 (Nat.mul_pos hwidth n.succ_pos)
    -- without a unit this is the first indentation, so it stands one level in
    have hgetD : unit.getD (indent.length : Int) = width := by
      obtain rfl | ⟨rfl, rfl⟩ := hunit
      · rfl
      · obtain rfl : n = 0 := by omega
        simp [hlength]
    have hmod : Int.fmod (indent.length : Int) width = 0 := by
      rw [hlength, Int.natCast_mul]
      exact Int.mul_fmod_right _ _
    have hdiv : Int.fdiv (indent.length : Int) width = (n + 1 : Nat) := by
      rw [hlength, Int.natCast_mul]
      exact Int.mul_fdiv_cancel_left _ (by omega)
    have hzero : ¬(width : Int) = 0 := by omega
    have hdeep : ¬((n + 1 : Nat) : Int) > above + 1 := by omega
    refine ⟨some width, .inl rfl, ?_⟩
    simp only [Margin.enter, if_neg htab, if_neg hpos, hgetD, if_neg hzero, hmod, hdiv, if_neg hdeep,
      ne_eq, not_true_eq_false, if_false]

/-- **An indentation that is accepted** is one unit for each level. -/
theorem length_of_enter (hunit : ∀ n ∈ unit, n = width) (hwidth : 0 < width)
    (hfirst : unit = none → indent ≠ [] → indent.length = width)
    (h : Margin.enter ⟨unit, above⟩ indent number = .ok margin) :
    ∃ depth : Nat, margin.depth = depth ∧ indent.length = width * depth ∧ depth ≤ above + 1 ∧
      margin.unit = if indent = [] then unit else some (width : Int) := by
  obtain ⟨-, ⟨rfl, rfl⟩ | ⟨n, hn, hne, -, hmod, hdeep, rfl⟩⟩ := enter_eq_ok h
  · exact ⟨0, rfl, rfl, Nat.zero_le _, rfl⟩
  · have hn : n = width := by
      cases unit with
      | some m => exact hn.trans (hunit m rfl)
      | none => exact hn.trans (congrArg Nat.cast (hfirst rfl hne))
    subst hn
    obtain ⟨depth, hdepth⟩ : width ∣ indent.length :=
      Int.natCast_dvd_natCast.1 (Int.dvd_of_fmod_eq_zero hmod)
    have hdiv : Int.fdiv (indent.length : Int) width = depth := by
      rw [hdepth, Int.natCast_mul]
      exact Int.mul_fdiv_cancel_left _ (by omega)
    refine ⟨depth, hdiv, hdepth, ?_, ?_⟩
    · dsimp only at hdeep
      omega
    · rw [if_neg hne]

/-! ## Statements on lines -/

/-- **The statements stand on the lines**, which are numbered from `number` on, below a statement of
depth `above`: each line that counts holds the next statement, indented in units of the width. -/
inductive Stands (width : Nat) : Nat → Int → List (List Char) → List ScriptLine → Prop
  | nil {above : Nat} {number : Int} : Stands width above number [] []
  | idle {above : Nat} {number : Int} {raw : List Char} {lines : List (List Char)}
      {statements : List ScriptLine} (hidle : isIdle raw = true)
      (below : Stands width above (number + 1) lines statements) :
      Stands width above number (raw :: lines) statements
  | line {above depth : Nat} {number : Int} {raw : List Char} {lines : List (List Char)}
      {l : ScriptLine} {statements : List ScriptLine} (hof : l.Of number raw)
      (hdepth : l.depth = depth) (hlength : (indentOf raw).length = width * depth)
      (hstep : depth ≤ above + 1) (below : Stands width depth (number + 1) lines statements) :
      Stands width above number (raw :: lines) (l :: statements)

/-- **Lines are laid out** if statements stand on them. -/
theorem scanLines_of_stands (hwidth : 0 < width) (hunit : Knows width unit above)
    (h : Stands width above number lines statements) :
    scanLines ⟨unit, above⟩ number lines = .ok statements := by
  induction h generalizing unit with
  | nil => rfl
  | idle hidle _ ih => rw [scanLines_idle hidle, ih hunit]
  | @line _ _ number raw _ l _ hof hdepth hlength hstep _ ih =>
    obtain ⟨unit', hunit', henter⟩ :=
      enter_of_length hwidth hunit hof.untabbed hlength hstep number
    refine (scanLines_cons_eq_ok hof.counts).2 ⟨_, _, henter, ih hunit', ?_⟩
    obtain ⟨depth, text, line, column⟩ := l
    obtain ⟨-, -, rfl, rfl, rfl⟩ := hof
    rw [← hdepth]

/-- **Lines that are laid out** have statements standing on them, in the unit of the lines. -/
theorem stands_of_scanLines (hunit : ∀ n ∈ unit, 0 < n) (habove : unit = none → above = 0)
    (h : scanLines ⟨unit, above⟩ number lines = .ok statements) :
    Stands (unitOf unit lines) above number lines statements := by
  induction lines generalizing unit above number statements with
  | nil =>
    obtain rfl := Except.ok.inj h
    exact .nil
  | cons raw lines ih =>
    -- a line without indentation leaves the unit to the lines below
    have hskip : isIdle raw = true ∨ indentOf raw = [] →
        unitOf unit (raw :: lines) = unitOf unit lines := by
      intro hraw
      cases unit with
      | some n => rfl
      | none =>
        have hindented : ¬isIndented raw = true := by
          obtain hraw | hraw := hraw <;> simp [isIndented, hraw]
        simp only [unitOf, List.find?_cons_of_neg hindented]
    cases hidle : isIdle raw with
    | true =>
      rw [scanLines_idle hidle] at h
      exact .idle hidle (hskip (.inl hidle) ▸ ih hunit habove h)
    | false =>
      obtain ⟨margin, below, henter, hbelow, rfl⟩ := (scanLines_cons_eq_ok hidle).1 h
      have hfirst : unit = none → indentOf raw ≠ [] →
          (indentOf raw).length = unitOf unit (raw :: lines) := by
        rintro rfl hne
        have hindented : isIndented raw = true := by simp [isIndented, hidle, hne]
        simp only [unitOf, List.find?_cons_of_pos hindented]
      have hgiven : ∀ n ∈ unit, n = unitOf unit (raw :: lines) := by
        intro n hn
        obtain rfl := Option.mem_def.1 hn
        exact (Int.toNat_of_nonneg (Int.le_of_lt (hunit n rfl))).symm
      have hwidth := unitOf_pos hunit (raw :: lines)
      obtain ⟨depth, hdepth, hlength, hstep, hmargin⟩ := length_of_enter hgiven hwidth hfirst henter
      have hof : ScriptLine.Of ⟨margin.depth, String.ofList (Text.trim raw), number,
          (indentOf raw).length + 1⟩ number raw :=
        ⟨hidle, (enter_eq_ok henter).1, rfl, rfl, rfl⟩
      refine .line hof hdepth hlength hstep ?_
      obtain ⟨unit', _⟩ := margin
      obtain rfl : _ = (depth : Int) := hdepth
      obtain rfl : unit' = _ := hmargin
      by_cases hnil : indentOf raw = []
      · rw [if_pos hnil] at hbelow
        have hzero : depth = 0 := by
          rw [hnil, List.length_nil] at hlength
          exact (Nat.mul_eq_zero.1 hlength.symm).resolve_left (Nat.pos_iff_ne_zero.1 hwidth)
        exact hskip (.inr hnil) ▸ ih hunit (fun _ => hzero) hbelow
      · rw [if_neg hnil] at hbelow
        have hknown : ∀ n ∈ some ((unitOf unit (raw :: lines) : Nat) : Int), 0 < n := fun n hn =>
          Option.some.inj hn ▸ Int.natCast_pos.2 hwidth
        have hstands := ih hknown (fun hnone => absurd hnone (Option.some_ne_none _)) hbelow
        exact hstands

end Layout

end ScenarioScript
