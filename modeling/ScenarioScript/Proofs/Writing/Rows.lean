import Mathlib.Data.List.Chain
import ScenarioScript.Proofs.Faults.Line

/-!
# Proofs/Writing/Rows — texts written line by line

A text that is put together from lines is taken apart into them again.  A line can be written if what
it says is **tidy**: not empty, without a blank at its ends, and without a line break.

* `splitLines_intercalate` — lines with a line feed between them are the lines of the text;
* `Layout.scan_rows` — **rows of statements**, indented by their depth, are scanned as they were laid
  out, whether the unit is given or not.
-/

namespace ScenarioScript

namespace Text

/-- **A text that can stand on a line of its own.** -/
structure Tidy (text : List Char) : Prop where
  ne_nil : text ≠ []
  head : ∀ c ∈ text.head?, isBlank c = false
  last : ∀ c ∈ text.getLast?, isBlank c = false
  unbroken : ∀ c ∈ text, isLineBreak c = false

variable {text line gap : List Char}

/-- **Visible characters** are no blanks. -/
theorem isBlank_of_visible {c : Char} (h : 0x21 ≤ c.toNat) (h' : c.toNat ≤ 0x7E) :
    isBlank c = false := by
  have hascending : blanks.Ascending := by decide
  rw [isBlank, ← Bool.not_eq_true, Ranges.contains_iff hascending]
  rintro ⟨r, hr, hlo, hhi⟩
  have hall : ∀ r ∈ blanks, r.2 ≤ 0x20 ∨ 0x7F ≤ r.1 := by decide
  have := hall r hr
  omega

theorem isLineBreak_of_isBlank {c : Char} (h : isBlank c = false) : isLineBreak c = false :=
  Bool.not_eq_true _ ▸ fun hbreak => absurd (h.symm.trans (isBlank_of_isLineBreak hbreak)) nofun

/-- **A text without a blank** is tidy. -/
theorem Tidy.of_word (hne : text ≠ []) (h : ∀ c ∈ text, isBlank c = false) : Tidy text where
  ne_nil := hne
  head c hc := h c (List.mem_of_mem_head? hc)
  last c hc := h c (List.mem_of_getLast? hc)
  unbroken c hc := isLineBreak_of_isBlank (h c hc)

/-- A text between two characters is tidy if these are no blanks and it is not broken. -/
theorem tidy_enclosed {first last : Char} (hfirst : isBlank first = false)
    (hlast : isBlank last = false) (h : ∀ c ∈ text, isLineBreak c = false) :
    Tidy (first :: (text ++ [last])) where
  ne_nil := List.cons_ne_nil _ _
  head c hc := Option.some.inj hc ▸ hfirst
  last c hc := by
    rw [← List.cons_append, List.getLast?_concat] at hc
    exact Option.some.inj hc ▸ hlast
  unbroken := List.forall_mem_cons.2 ⟨isLineBreak_of_isBlank hfirst,
    List.forall_mem_append.2 ⟨h, List.forall_mem_singleton.2 (isLineBreak_of_isBlank hlast)⟩⟩

/-- The digits of a number are no blanks. -/
theorem isBlank_of_mem_toDigits {n : Nat} {c : Char} (h : c ∈ Nat.toDigits 10 n) :
    isBlank c = false := by
  have hdigit : 48 ≤ c.toNat ∧ c.toNat ≤ 57 :=
    Char.isDigit_iff_toNat.1 (Nat.isDigit_of_mem_toDigits (by decide) (by decide) h)
  exact isBlank_of_visible (by omega) (by omega)

/-! ## Trimming what is tidy -/

theorem dropWhile_isBlank_of_head (h : ∀ c ∈ text.head?, isBlank c = false) :
    text.dropWhile isBlank = text := by
  cases text with
  | nil => rfl
  | cons c rest => simp [h c rfl]

theorem trimEnd_of_last (h : ∀ c ∈ text.getLast?, isBlank c = false) : trimEnd text = text := by
  rw [trimEnd, dropWhile_isBlank_of_head, List.reverse_reverse]
  rwa [List.head?_reverse]

/-- **Blanks in front of a tidy text** are what trimming takes off, and nothing else. -/
theorem Tidy.trim_append (h : Tidy text) (hgap : ∀ c ∈ gap, isBlank c = true) :
    trim (gap ++ text) = text := by
  rw [Text.trim_append hgap, trim, trimStart, dropWhile_isBlank_of_head h.head,
    trimEnd_of_last h.last]

/-! ## Lines and their breaks -/

/-- **A line and its break** are taken off the text together. -/
theorem splitLines_append (h : ∀ c ∈ line, isLineBreak c = false) (rest : List Char) :
    splitLines (line ++ '\n' :: rest) = line :: splitLines rest := by
  induction line with
  | nil => rw [List.nil_append, splitLines, if_pos (by decide)]; simp
  | cons c line ih =>
    obtain ⟨hc, hline⟩ := List.forall_mem_cons.1 h
    have hreturn : c ≠ '\r' := by
      rintro rfl
      exact absurd hc (by decide)
    rw [List.cons_append, splitLines, if_neg (by simp [hc]), ih hline]
    simp [hreturn]

theorem splitLines_of_unbroken (hne : line ≠ []) (h : ∀ c ∈ line, isLineBreak c = false) :
    splitLines line = [line] := by
  induction line with
  | nil => exact absurd rfl hne
  | cons c line ih =>
    obtain ⟨hc, hline⟩ := List.forall_mem_cons.1 h
    have hreturn : c ≠ '\r' := by
      rintro rfl
      exact absurd hc (by decide)
    rw [splitLines, if_neg (by simp [hc])]
    · cases line with
      | nil => rfl
      | cons d line => rw [ih (List.cons_ne_nil d line) hline]
    · simp [hreturn]

/-- **Lines with a line feed between them** are the lines of the text. -/
theorem splitLines_intercalate {lines : List (List Char)}
    (h : ∀ line ∈ lines, line ≠ [] ∧ ∀ c ∈ line, isLineBreak c = false) :
    splitLines (['\n'].intercalate lines) = lines := by
  induction lines with
  | nil => rfl
  | cons line lines ih =>
    obtain ⟨⟨hne, hline⟩, hlines⟩ := List.forall_mem_cons.1 h
    cases lines with
    | nil =>
      rw [List.intercalate_singleton]
      exact splitLines_of_unbroken hne hline
    | cons next lines =>
      rw [List.intercalate_cons_cons, List.append_assoc, List.singleton_append,
        splitLines_append hline, ih hlines]

end Text

/-! ## Rows -/

open Text

/-- **A statement to be written**: how deep it stands, and what it says. -/
structure Row where
  depth : Nat
  text : List Char

namespace Row

/-- **Can the row be written?**  What it says is tidy, and no comment. -/
structure Writable (r : Row) : Prop where
  tidy : Tidy r.text
  noComment : r.text.head? ≠ some '#'

/-- The row as a line, indented in units of the given width. -/
def line (width : Nat) (r : Row) : List Char := List.replicate (width * r.depth) ' ' ++ r.text

/-- The row as it is scanned on the line with the given number. -/
def scanned (width : Nat) (number : Int) (r : Row) : ScriptLine :=
  ⟨r.depth, String.ofList r.text, number, (width * r.depth : Nat) + 1⟩

/-- Rows as they are scanned on lines that are numbered from `number` on. -/
def scannedFrom (width : Nat) (number : Int) : List Row → List ScriptLine
  | [] => []
  | r :: rows => r.scanned width number :: scannedFrom width (number + 1) rows

/-- **The rows go in by single steps** behind a row of the given depth. -/
def Stepwise (depth : Nat) (rows : List Row) : Prop :=
  (depth :: rows.map Row.depth).IsChain fun above below => below ≤ above + 1

end Row

namespace Layout

variable {width : Nat} {unit : Option Int} {r : Row} {rows : List Row} {above : Nat}

theorem indentOf_line (h : r.Writable) : indentOf (r.line width) =
    List.replicate (width * r.depth) ' ' := by
  refine indentOf_append (fun c hc => .inl (List.eq_of_mem_replicate hc)) fun c hc => ?_
  have hblank : isBlank c = false := h.tidy.head c hc
  constructor <;> · rintro rfl; exact absurd hblank (by decide)

theorem trim_line (h : r.Writable) : trim (r.line width) = r.text :=
  h.tidy.trim_append fun c hc => List.eq_of_mem_replicate hc ▸ by decide

theorem isIdle_line (h : r.Writable) : isIdle (r.line width) = false := by
  rw [isIdle_eq_false_iff, trim_line h]
  exact ⟨h.tidy.ne_nil, h.noComment⟩

/-- **A row at the left edge**, alone, is a statement at top level, whatever the unit. -/
theorem scan_row {text : List Char} (h : Row.Writable ⟨0, text⟩) (unit : Option Int) :
    scan unit (String.ofList text) = .ok [⟨0, String.ofList text, 1, 1⟩] := by
  have hidle : isIdle text = false := @isIdle_line 0 _ h
  have hindent : indentOf text = [] := @indentOf_line 0 _ h
  have htrim : trim text = text := @trim_line 0 _ h
  rw [scan, String.toList_ofList, splitLines_of_unbroken h.tidy.ne_nil h.tidy.unbroken]
  simp [scanLines, hidle, hindent, htrim]

/-- **Rows stand on the lines** that they are written to. -/
theorem stands_rows (hrows : ∀ r ∈ rows, r.Writable) (hsteps : Row.Stepwise above rows)
    (number : Int) :
    Stands width above number (rows.map (·.line width)) (Row.scannedFrom width number rows) := by
  induction rows generalizing above number with
  | nil => exact .nil
  | cons r rows ih =>
    obtain ⟨hr, hrows⟩ := List.forall_mem_cons.1 hrows
    obtain ⟨hstep, hsteps⟩ := List.isChain_cons_cons.1 hsteps
    have hindent : (indentOf (r.line width)).length = width * r.depth := by
      rw [indentOf_line hr, List.length_replicate]
    have htab : '\t' ∉ indentOf (r.line width) := by
      rw [indentOf_line hr]
      exact fun h => absurd (List.eq_of_mem_replicate h) (by decide)
    have hof : (r.scanned width number).Of number (r.line width) :=
      ⟨isIdle_line hr, htab, by rw [trim_line hr]; rfl, rfl, by rw [hindent]; rfl⟩
    exact .line hof rfl hindent hstep (ih hrows hsteps (number + 1))

/-- **Rows of statements** are scanned as they were laid out. -/
theorem scan_rows (hwidth : 0 < width) (hunit : ∀ n ∈ unit, n = width)
    (hrows : ∀ r ∈ rows, r.Writable) (hsteps : Row.Stepwise 0 rows) :
    scan unit (String.ofList (['\n'].intercalate (rows.map (·.line width)))) =
      .ok (Row.scannedFrom width 1 rows) := by
  have hlines : ∀ line ∈ rows.map (·.line width),
      line ≠ [] ∧ ∀ c ∈ line, isLineBreak c = false := by
    refine List.forall_mem_map.2 fun r hr => ⟨?_, List.forall_mem_append.2 ⟨fun c hc => ?_,
      (hrows r hr).tidy.unbroken⟩⟩
    · exact List.append_ne_nil_of_right_ne_nil _ (hrows r hr).tidy.ne_nil
    · exact List.eq_of_mem_replicate hc ▸ by decide
  rw [scan, String.toList_ofList, splitLines_intercalate hlines]
  exact scanLines_of_stands hwidth (knows_zero hunit) (stands_rows hrows hsteps 1)

end Layout

end ScenarioScript
