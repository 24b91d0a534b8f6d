import ScenarioScript.Proofs.Form.Command

/-!
# Proofs/Layout/Columns — where the text of a statement begins

The column of a statement is the one behind the indentation, which is made of spaces and tabs; its
text is what is left of the line without any blanks.  A line can have other blanks between the two
(`gapOf`), and then the text begins further to the right than its column says.

`column_of_mem_scan` — **a statement begins at its column** exactly if there is no such gap.
-/

namespace ScenarioScript

open Text

namespace Text

/-- **What trimming takes off** are the blanks at both ends. -/
theorem exists_append_trim (text : List Char) : ∃ behind, (∀ c ∈ behind, isBlank c = true) ∧
    text = text.takeWhile isBlank ++ (trim text ++ behind) := by
  refine ⟨((trimStart text).reverse.takeWhile isBlank).reverse,
    fun c hc => List.all_eq_true.1 List.all_takeWhile c (List.mem_reverse.1 hc), ?_⟩
  rw [trim, trimEnd, ← List.reverse_append, List.takeWhile_append_dropWhile, List.reverse_reverse,
    trimStart, List.takeWhile_append_dropWhile]

end Text

/-- **The statement begins at its column** of the physical line, and what is in front of it are blanks
without a tab. -/
def ScriptLine.BeginsIn (l : ScriptLine) (raw : List Char) : Prop :=
  ∃ n : Nat, l.column = n + 1 ∧ l.text.toList <+: raw.drop n ∧
    ∀ c ∈ raw.take n, isBlank c = true ∧ c ≠ '\t'

namespace Layout

/-- **The blanks behind the indentation** of a line: they begin with neither a space nor a tab. -/
def gapOf (raw : List Char) : List Char := (raw.drop (indentOf raw).length).takeWhile isBlank

variable {l : ScriptLine} {number : Int} {raw : List Char}

/-- **The line of a statement**, piece by piece. -/
theorem exists_append_text (h : l.Of number raw) : ∃ behind, (∀ c ∈ behind, isBlank c = true) ∧
    raw = indentOf raw ++ (gapOf raw ++ (l.text.toList ++ behind)) := by
  obtain ⟨behind, hbehind, hrest⟩ := exists_append_trim (raw.drop (indentOf raw).length)
  rw [trim_drop_indentOf, ← h.toList_text] at hrest
  exact ⟨behind, hbehind, hrest ▸ (indentOf_append_drop raw).symm⟩

/-- **A text is where its column says** exactly if nothing but indentation is in front of it. -/
theorem beginsIn_iff (h : l.Of number raw) : l.BeginsIn raw ↔ gapOf raw = [] := by
  obtain ⟨behind, -, hraw⟩ := exists_append_text h
  have hdrop : raw.drop (indentOf raw).length = gapOf raw ++ (l.text.toList ++ behind) :=
    List.append_cancel_left ((indentOf_append_drop raw).trans hraw)
  constructor
  · rintro ⟨n, hcolumn, hprefix, -⟩
    obtain rfl : n = (indentOf raw).length := by
      have := h.column
      omega
    rw [hdrop] at hprefix
    -- the text begins with no blank, and a gap would begin with one
    have hne : l.text.toList ≠ [] := h.toList_text ▸ (isIdle_eq_false_iff.1 h.counts).1
    obtain ⟨c, text, htext⟩ := List.exists_cons_of_ne_nil hne
    have hhead : isBlank c = false := by
      refine @head?_trim raw c ?_
      rw [← h.toList_text, htext]
      rfl
    cases hgap : gapOf raw with
    | nil => rfl
    | cons d gap =>
      have hblank : isBlank d = true :=
        List.all_eq_true.1 List.all_takeWhile d (show d ∈ gapOf raw from hgap ▸ List.mem_cons_self)
      rw [hgap, htext] at hprefix
      obtain ⟨rfl, -⟩ := List.cons_prefix_cons.1 hprefix
      exact absurd hblank (by rw [hhead]; nofun)
  · intro hgap
    refine ⟨_, h.column, ?_, fun c hc => ?_⟩
    · rw [hdrop, hgap]
      exact List.prefix_append _ _
    · have hmem : c ∈ indentOf raw := by
        rwa [← List.prefix_iff_eq_take.1 (indentOf_prefix_self raw)] at hc
      exact ⟨isBlank_of_mem_indentOf hmem, fun htab => h.untabbed (htab ▸ hmem)⟩

/-- **Where the statements of a text begin.**  Each comes from a physical line, that begins with its
indentation, made of spaces, and with a gap; its column is the one behind the indentation, and it
begins there exactly if the gap is empty. -/
theorem column_of_mem_scan {unit : Option Int} {text : String} {lines : List ScriptLine}
    (h : scan unit text = .ok lines) : ∀ l ∈ lines, ∃ (n width : Nat) (raw behind : List Char),
      (splitLines text.toList)[n]? = some raw ∧ l.line = n + 1 ∧ l.column = width + 1 ∧
      raw = List.replicate width ' ' ++ (gapOf raw ++ (l.text.toList ++ behind)) ∧
      (∀ c ∈ gapOf raw ++ behind, isBlank c = true) ∧ (l.BeginsIn raw ↔ gapOf raw = []) := by
  intro l hl
  obtain ⟨n, raw, hraw, hof⟩ := exists_of_mem_scanLines h l hl
  obtain ⟨behind, hbehind, happend⟩ := exists_append_text hof
  have hindent : indentOf raw = List.replicate (indentOf raw).length ' ' :=
    List.eq_replicate_of_mem fun c hc =>
      (mem_indentOf hc).resolve_right fun htab => hof.untabbed (htab ▸ hc)
  refine ⟨n, _, raw, behind, hraw, hof.line.trans (Int.add_comm _ _), hof.column, hindent ▸ happend,
    fun c hc => ?_, beginsIn_iff hof⟩
  obtain hc | hc := List.mem_append.1 hc
  · exact List.all_eq_true.1 List.all_takeWhile c hc
  · exact hbehind c hc

theorem scan_wideBlank : scan none "\u00a0a" = .ok [⟨0, "a", 1, 1⟩] := by decide +kernel

/-- A wide blank in front of a statement is no indentation. -/
theorem column_of_mem_scan_wideBlank :
    scan none "\u00a0a" = .ok [⟨0, "a", 1, 1⟩] ∧ ∃ (n : Nat) (raw : List Char),
      (splitLines "\u00a0a".toList)[n]? = some raw ∧ gapOf raw = ['\u00a0'] ∧
      ¬ ScriptLine.BeginsIn ⟨0, "a", 1, 1⟩ raw := by
  obtain ⟨n, width, raw, behind, hraw, hline, -, -, -, hbegins⟩ :=
    column_of_mem_scan scan_wideBlank _ (List.mem_singleton_self _)
  obtain rfl : n = 0 := by
    dsimp only at hline
    omega
  obtain rfl : ['\u00a0', 'a'] = raw := Option.some.inj hraw
  have hgap : gapOf ['\u00a0', 'a'] = ['\u00a0'] := by decide
  exact ⟨scan_wideBlank, 0, _, hraw, hgap,
    fun h => absurd (hgap.symm.trans (hbegins.1 h)) (List.cons_ne_nil _ _)⟩

/-- **Not every statement begins at its column.** -/
theorem not_beginsIn_of_mem_scan :
    ¬ ∀ (unit : Option Int) (text : String) (lines : List ScriptLine), (∀ n ∈ unit, 0 < n) →
      scan unit text = .ok lines → ∀ l ∈ lines, ∃ (n : Nat) (raw : List Char),
        (splitLines text.toList)[n]? = some raw ∧ l.line = n + 1 ∧ l.BeginsIn raw := by
  intro hall
  obtain ⟨n, raw, hraw, hline, width, hcolumn, hprefix, -⟩ :=
    hall none _ _ nofun scan_wideBlank _ (List.mem_singleton_self _)
  obtain rfl : n = 0 := by
    dsimp only at hline
    omega
  obtain rfl : ['\u00a0', 'a'] = raw := Option.some.inj hraw
  obtain rfl : width = 0 := by
    dsimp only at hcolumn
    omega
  exact absurd hprefix (by decide)

end Layout

end ScenarioScript
