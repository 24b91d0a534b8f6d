import ScenarioScript.Proofs.Form.Command

/-!
# Proofs/Layout/Rewriting — laying statements out and scanning them

Rows of statements and the texts that they are written to determine one another (`scan_laidOut`):
rows that go in by single steps are scanned as they were written, and whatever is scanned are such
rows, on lines that follow one another, with columns that are a whole number of units to the right.

So the unit of a text can be chosen anew.  When a text is **reindented** (`reindent`), the same
statements stand on the same lines, and only their columns differ.
-/

namespace ScenarioScript

open Text

namespace ScriptLine

/-- **What a statement says**, and how deep it stands. -/
def row (l : ScriptLine) : Row := ⟨l.depth.toNat, l.text.toList⟩

/-- The statement as it stands in units of the given width. -/
def reindented (width : Nat) (l : ScriptLine) : ScriptLine :=
  { l with column := width * l.depth + 1 }

/-- **The statement of a line can be written** again. -/
theorem Of.writable {l : ScriptLine} {number : Int} {raw : List Char} (h : l.Of number raw)
    (hbreak : ∀ c ∈ raw, isLineBreak c = false) : l.row.Writable := by
  refine ⟨h.tidy hbreak, ?_⟩
  rw [row, h.toList_text]
  exact (Layout.isIdle_eq_false_iff.1 h.counts).2

end ScriptLine

namespace Layout

variable {width old new above : Nat} {number : Int} {raw : List Char} {lines : List (List Char)}
  {statements : List ScriptLine}

/-! ## What stands on lines is laid out -/

/-- **Statements as they are laid out** in units of the given width. -/
structure LaidOut (width : Nat) (statements : List ScriptLine) : Prop where
  writable : ∀ l ∈ statements, l.row.Writable
  stepwise : Row.Stepwise 0 (statements.map ScriptLine.row)
  depth : ∀ l ∈ statements, 0 ≤ l.depth
  column : ∀ l ∈ statements, l.column = width * l.depth + 1
  ascending : (statements.map ScriptLine.line).Pairwise (· < ·)

namespace Stands

theorem writable (hbreak : ∀ raw ∈ lines, ∀ c ∈ raw, isLineBreak c = false)
    (h : Stands width above number lines statements) : ∀ l ∈ statements, l.row.Writable := by
  induction h with
  | nil => exact List.forall_mem_nil _
  | idle _ _ ih => exact ih (List.forall_mem_cons.1 hbreak).2
  | line hof _ _ _ _ ih =>
    obtain ⟨hraw, hlines⟩ := List.forall_mem_cons.1 hbreak
    exact List.forall_mem_cons.2 ⟨hof.writable hraw, ih hlines⟩

theorem stepwise (h : Stands width above number lines statements) :
    Row.Stepwise above (statements.map ScriptLine.row) := by
  induction h with
  | nil => exact .singleton _
  | idle _ _ ih => exact ih
  | @line _ depth _ _ _ l _ _ hdepth _ hstep _ ih =>
    have hrow : l.row.depth = depth := by rw [ScriptLine.row, hdepth, Int.toNat_natCast]
    exact List.isChain_cons_cons.2 ⟨hrow ▸ hstep, hrow ▸ ih⟩

theorem column (h : Stands width above number lines statements) :
    ∀ l ∈ statements, 0 ≤ l.depth ∧ l.column = width * l.depth + 1 := by
  induction h with
  | nil => exact List.forall_mem_nil _
  | idle _ _ ih => exact ih
  | line hof hdepth hlength _ _ ih =>
    refine List.forall_mem_cons.2 ⟨⟨hdepth ▸ Int.natCast_nonneg _, ?_⟩, ih⟩
    rw [hof.column, hlength, hdepth, Int.natCast_mul]

theorem le_line (h : Stands width above number lines statements) :
    ∀ l ∈ statements, number ≤ l.line := by
  induction h with
  | nil => exact List.forall_mem_nil _
  | idle _ _ ih => exact fun l hl => Int.le_of_lt (ih l hl)
  | line hof _ _ _ _ ih =>
    exact List.forall_mem_cons.2 ⟨Int.le_of_eq hof.line.symm, fun l hl => Int.le_of_lt (ih l hl)⟩

theorem ascending (h : Stands width above number lines statements) :
    (statements.map ScriptLine.line).Pairwise (· < ·) := by
  induction h with
  | nil => exact .nil
  | idle _ _ ih => exact ih
  | line hof _ _ _ below ih =>
    refine List.pairwise_cons.2 ⟨List.forall_mem_map.2 fun l hl => ?_, ih⟩
    exact hof.line ▸ below.le_line l hl

/-- **What stands on lines** is laid out. -/
theorem laidOut (hbreak : ∀ raw ∈ lines, ∀ c ∈ raw, isLineBreak c = false)
    (h : Stands width 0 number lines statements) : LaidOut width statements where
  writable := h.writable hbreak
  stepwise := h.stepwise
  depth l hl := (h.column l hl).1
  column l hl := (h.column l hl).2
  ascending := h.ascending

end Stands

/-! ## Other units -/

/-- **A line in another unit**: where there is a statement, its indentation is as many units as
before. -/
def reindentLine (old new : Nat) (raw : List Char) : List Char :=
  if isIdle raw then raw
  else List.replicate (new * ((indentOf raw).length / old)) ' ' ++ raw.drop (indentOf raw).length

/-- **A text in another unit**, line by line. -/
def reindent (old new : Nat) (text : String) : String :=
  String.ofList ((splitLines text.toList).flatMap fun raw => reindentLine old new raw ++ ['\n'])

/-- **The statement of a line** is that of the line in another unit, too. -/
theorem of_reindentLine {l : ScriptLine} {depth : Nat} (hold : 0 < old) (hof : l.Of number raw)
    (hdepth : l.depth = depth) (hlength : (indentOf raw).length = old * depth) :
    (l.reindented new).Of number (reindentLine old new raw) ∧
      (indentOf (reindentLine old new raw)).length = new * depth := by
  have hdiv : (indentOf raw).length / old = depth := by
    rw [hlength, Nat.mul_div_cancel_left depth hold]
  have hline : reindentLine old new raw =
      List.replicate (new * depth) ' ' ++ raw.drop (indentOf raw).length := by
    rw [reindentLine, hof.counts, if_neg Bool.false_ne_true, hdiv]
  have hindent : indentOf (reindentLine old new raw) = List.replicate (new * depth) ' ' :=
    hline ▸ indentOf_append (fun c hc => .inl (List.eq_of_mem_replicate hc)) head?_drop_indentOf
  have htrim : trim (reindentLine old new raw) = trim raw := by
    rw [hline, Text.trim_append, trim_drop_indentOf]
    exact fun c hc => List.eq_of_mem_replicate hc ▸ by decide
  have hwidth : (indentOf (reindentLine old new raw)).length = new * depth := by
    rw [hindent, List.length_replicate]
  refine ⟨⟨?_, ?_, htrim ▸ hof.text, hof.line, ?_⟩, hwidth⟩
  · rw [isIdle_eq_false_iff, htrim]
    exact isIdle_eq_false_iff.1 hof.counts
  · rw [hindent]
    exact fun h => absurd (List.eq_of_mem_replicate h) (by decide)
  · rw [hwidth, ScriptLine.reindented, hdepth, Int.natCast_mul]

theorem Stands.reindent (hold : 0 < old) (h : Stands old above number lines statements) :
    Stands new above number (lines.map (reindentLine old new))
      (statements.map (·.reindented new)) := by
  induction h with
  | nil => exact .nil
  | @idle _ _ raw _ _ hidle _ ih =>
    have hsame : reindentLine old new raw = raw := by rw [reindentLine, if_pos hidle]
    exact .idle (hsame.symm ▸ hidle) ih
  | line hof hdepth hlength hstep _ ih =>
    obtain ⟨hof', hlength'⟩ := of_reindentLine hold hof hdepth hlength
    exact .line hof' hdepth hlength' hstep ih

/-- **The lines of a text in another unit** are its lines in that unit. -/
theorem splitLines_reindent (old new : Nat) (text : String) :
    splitLines (reindent old new text).toList =
      (splitLines text.toList).map (reindentLine old new) := by
  rw [reindent, String.toList_ofList]
  generalize hlines : splitLines text.toList = lines
  have hbreak : ∀ raw ∈ lines, ∀ c ∈ raw, isLineBreak c = false :=
    hlines ▸ not_isLineBreak_of_mem_splitLines text.toList
  clear hlines
  induction lines with
  | nil => rfl
  | cons raw lines ih =>
    obtain ⟨hraw, hlines⟩ := List.forall_mem_cons.1 hbreak
    have hline : ∀ c ∈ reindentLine old new raw, isLineBreak c = false := by
      intro c hc
      rw [reindentLine] at hc
      split at hc
      · exact hraw c hc
      · obtain hspace | hc := List.mem_append.1 hc
        · exact List.eq_of_mem_replicate hspace ▸ by decide
        · exact hraw c (List.mem_of_mem_drop hc)
    rw [List.flatMap_cons, List.append_assoc, List.singleton_append, splitLines_append hline,
      ih hlines, List.map_cons]

/-- **A text in another unit** has the same statements on the same lines. -/
theorem scan_reindent {unit : Option Int} {text : String} (hold : 0 < old) (hnew : 0 < new)
    (hunit : ∀ n ∈ unit, n = new)
    (h : Stands old 0 1 (splitLines text.toList) statements) :
    scan unit (reindent old new text) = .ok (statements.map (·.reindented new)) := by
  rw [scan, splitLines_reindent]
  exact scanLines_of_stands hnew (knows_zero hunit) (h.reindent hold)

/-! ## Writing and scanning -/

/-- **Writing statements and scanning them** undo each other.  Rows that go in by single steps are
scanned as they were written, whether the unit is given or not; what is scanned is laid out in the
unit of the lines, and stays as it is in any other unit. -/
theorem scan_laidOut :
    (∀ (width : Nat) (unit : Option Int) (rows : List Row), 0 < width → (∀ n ∈ unit, n = width) →
      (∀ r ∈ rows, r.Writable) → Row.Stepwise 0 rows →
      scan unit (String.ofList (['\n'].intercalate (rows.map (·.line width)))) =
        .ok (Row.scannedFrom width 1 rows)) ∧
    ∀ (unit : Option Int) (text : String) (statements : List ScriptLine), (∀ n ∈ unit, 0 < n) →
      scan unit text = .ok statements →
      ∃ width, width = unitOf unit (splitLines text.toList) ∧ 0 < width ∧ LaidOut width statements ∧
        ∀ (new : Nat) (unit' : Option Int), 0 < new → (∀ n ∈ unit', n = new) →
          scan unit' (reindent width new text) = .ok (statements.map (·.reindented new)) := by
  refine ⟨fun width unit rows hwidth hunit => scan_rows hwidth hunit, ?_⟩
  intro unit text statements hunit hscan
  have hwidth := unitOf_pos hunit (splitLines text.toList)
  have hstands := stands_of_scanLines hunit (fun _ => rfl) hscan
  exact ⟨_, rfl, hwidth, hstands.laidOut (not_isLineBreak_of_mem_splitLines text.toList),
    fun new unit' hnew hunit' => scan_reindent hwidth hnew hunit' hstands⟩

/-- Two statements, in steps of two columns and in steps of four. -/
theorem scan_laidOut_pair :
    scan none "a\n  b" = .ok [⟨0, "a", 1, 1⟩, ⟨1, "b", 2, 3⟩] ∧
    LaidOut 2 [⟨0, "a", 1, 1⟩, ⟨1, "b", 2, 3⟩] ∧
    scan (some 4) "a\n    b\n" = .ok [⟨0, "a", 1, 1⟩, ⟨1, "b", 2, 5⟩] := by
  have hletter : ∀ c, isBlank c = false → ∀ d ∈ [c], isBlank d = false := fun c hc =>
    List.forall_mem_cons.2 ⟨hc, List.forall_mem_nil _⟩
  have hrows : ∀ r ∈ [Row.mk 0 ['a'], Row.mk 1 ['b']], r.Writable :=
    List.forall_mem_cons.2 ⟨⟨.of_word (by decide) (hletter 'a' (by decide)), by decide⟩,
      List.forall_mem_cons.2 ⟨⟨.of_word (by decide) (hletter 'b' (by decide)), by decide⟩,
        List.forall_mem_nil _⟩⟩
  have htext : String.ofList (['\n'].intercalate
      ([Row.mk 0 ['a'], Row.mk 1 ['b']].map (·.line 2))) = "a\n  b" := by decide
  have hscan : scan none "a\n  b" = .ok [⟨0, "a", 1, 1⟩, ⟨1, "b", 2, 3⟩] :=
    htext ▸ scan_laidOut.1 2 none _ (by decide) nofun hrows
      (List.isChain_cons_cons.2 ⟨by decide, List.isChain_cons_cons.2 ⟨by decide, .singleton _⟩⟩)
  obtain ⟨width, hwidth, -, hlaid, hreindent⟩ := scan_laidOut.2 none _ _ nofun hscan
  obtain rfl : width = 2 := hwidth.trans (by decide)
  have hagain : reindent 2 4 "a\n  b" = "a\n    b\n" := by decide
  exact ⟨hscan, hlaid, hagain ▸ hreindent 4 (some 4) (by decide) fun n hn => (Option.some.inj hn).symm⟩

end Layout

end ScenarioScript
