import ScenarioScript.Proofs.Faults.Statement
import ScenarioScript.Proofs.Layout.Standing

/-!
# Proofs/Faults/Line — how a line can fail

Where indentation has a width, a text can only be laid out badly for a fault of it (`at_scan`).  The
lines that come of it begin with a character that is no blank and hold no line break
(`clean_of_mem_scan`), so each of them has a first word with an argument behind it, if there is more
(`exists_splitStatement`), and all that can be wrong with it is a fault (`at_classify`).

Such a fault lies in the text, or at the end of a line (`PlaceIn`), and so does all that is read of a
line (`placeIn_of_mem_scan`).
-/

namespace ScenarioScript

open Outcome

/-! ## Blanks and words -/

namespace Text

theorem head?_dropWhile_isBlank {text : List Char} :
    ∀ c ∈ (text.dropWhile isBlank).head?, isBlank c = false := by
  intro c hc
  have h := List.head?_dropWhile_not isBlank text
  rw [Option.mem_def.1 hc] at h
  simpa using h

theorem mem_of_mem_trim {text : List Char} {c : Char} (h : c ∈ trim text) : c ∈ text := by
  have hend : c ∈ trimStart text := by
    rw [trim, trimEnd, List.mem_reverse] at h
    exact List.mem_reverse.1 ((List.dropWhile_sublist isBlank).mem h)
  exact (List.dropWhile_sublist isBlank).mem hend

/-- Trimming the end leaves the beginning alone. -/
theorem trimEnd_prefix_self (text : List Char) : trimEnd text <+: text := by
  have h := List.reverse_prefix.2 (List.dropWhile_suffix isBlank (l := text.reverse))
  rwa [List.reverse_reverse] at h

/-- **Blanks in front** are taken off. -/
theorem trim_append {gap : List Char} (h : ∀ c ∈ gap, isBlank c = true) (text : List Char) :
    trim (gap ++ text) = trim text := by
  rw [trim, trimStart, List.dropWhile_append_of_pos h]
  rfl

theorem length_trim_le (text : List Char) : (trim text).length ≤ text.length :=
  Nat.le_trans (trimEnd_prefix_self _).length_le (List.dropWhile_suffix _).length_le

/-- **A trimmed text** does not begin with a blank. -/
theorem head?_trim {text : List Char} : ∀ c ∈ (trim text).head?, isBlank c = false := by
  intro c hc
  obtain ⟨rest, hrest⟩ := trimEnd_prefix_self (trimStart text)
  have hhead : (trimEnd (trimStart text)).head? = some c := hc
  have hstart : (trimStart text).head? = some c := by
    rw [← hrest, List.head?_append, hhead]
    rfl
  exact head?_dropWhile_isBlank c hstart

/-- A text that does not begin with a blank begins with a word. -/
theorem word_cutWord_ne_nil {text : List Char} (hne : text ≠ [])
    (hhead : ∀ c ∈ text.head?, isBlank c = false) : (cutWord text).word ≠ [] := by
  cases text with
  | nil => exact absurd rfl hne
  | cons c rest =>
    simp [cutWord, hhead c rfl]

/-- **Behind a word and its gap** there is no blank. -/
theorem head?_rest_cutWord {text : List Char} :
    ∀ c ∈ (cutWord text).rest.head?, isBlank c = false :=
  head?_dropWhile_isBlank

theorem rest_cutWord_suffix (text : List Char) : (cutWord text).rest <:+ text :=
  (List.dropWhile_suffix _).trans (List.dropWhile_suffix _)

end Text

/-! ## Lines as they are scanned -/

/-- **A place in physical lines** that are numbered from `first` on: a column of a line that is neither
blank nor a comment, or the one behind its end. -/
def PlaceIn (lines : List (List Char)) (first line column : Int) : Prop :=
  ∃ n raw, lines[n]? = some raw ∧ Layout.isIdle raw = false ∧ line = first + (n : Nat) ∧
    1 ≤ column ∧ column ≤ raw.length + 1

/-- **A place in a text.** -/
def PlaceOf (text : String) : Int → Int → Prop := PlaceIn (Text.splitLines text.toList) 1

/-- **The positions of a line**: those of its characters, and the one behind its end. -/
def ScriptLine.Place (l : ScriptLine) : Int → Int → Prop :=
  OnLine l.line l.column (l.column + l.text.toList.length)

/-- **A line begins with its first word** and ends with the physical line. -/
structure ScriptLine.Clean (l : ScriptLine) : Prop where
  ne_nil : l.text.toList ≠ []
  head : ∀ c ∈ l.text.toList.head?, Text.isBlank c = false
  unbroken : ∀ c ∈ l.text.toList, Text.isLineBreak c = false

/-- **The statement of a line** begins with its first word. -/
theorem ScriptLine.Of.clean {l : ScriptLine} {number : Int} {raw : List Char} (h : l.Of number raw)
    (hbreak : ∀ c ∈ raw, Text.isLineBreak c = false) : l.Clean := by
  constructor <;> rw [h.toList_text]
  · exact (Layout.isIdle_eq_false_iff.1 h.counts).1
  · exact Text.head?_trim
  · exact fun c hc => hbreak c (Text.mem_of_mem_trim hc)

namespace Layout

/-- Indentation has a width, as far as it is known. -/
def Margin.Positive (m : Margin) : Prop := ∀ unit ∈ m.unit, 0 < unit

variable {above margin : Margin} {indent : List Char} {number : Int}

/-- **Where there is a width**, an indentation can only be faulty, in it or behind it. -/
theorem at_enter (h : above.Positive) (indent : List Char) (line : Int) :
    FailsOnly (Failure.At (OnLine line 1 (indent.length + 1))) (above.enter indent line) := by
  simp only [Margin.enter]
  split
  · next htab =>
    have hindex : indent.idxOf '\t' < indent.length := List.idxOf_lt_length_of_mem htab
    exact .at rfl ⟨rfl, by omega, by omega⟩
  split
  · exact .ok _
  · next hwidth =>
    split
    · next hzero =>
      cases hunit : above.unit with
      | none =>
        rw [hunit, Option.getD_none] at hzero
        exact absurd (Int.natCast_eq_zero.1 hzero) hwidth
      | some unit =>
        rw [hunit, Option.getD_some] at hzero
        exact absurd (h unit hunit) (hzero ▸ Int.lt_irrefl 0)
    have hbehind : OnLine line 1 (indent.length + 1) line (indent.length + 1) :=
      ⟨rfl, by omega, Int.le_refl _⟩
    split
    · exact .at rfl hbehind
    split
    · exact .at rfl hbehind
    · exact .ok _

/-- **There still is a width** after an indentation. -/
theorem positive_of_enter (h : above.Positive) (henter : above.enter indent number = .ok margin) :
    margin.Positive := by
  obtain ⟨-, ⟨-, rfl⟩ | ⟨unit, hunit, hne, -, -, -, rfl⟩⟩ := enter_eq_ok henter
  · exact h
  · intro n hn
    obtain rfl := Option.some.inj hn
    cases habove : above.unit with
    | none => exact hunit ▸ habove ▸ Int.natCast_pos.2 (List.length_pos_iff.2 hne)
    | some n => exact hunit ▸ habove ▸ h n habove

/-! ### The places of physical lines -/

section Places

variable {raw : List Char} {below : List (List Char)} {first line column : Int}

/-- **A place in a line** that counts, among the lines there are. -/
theorem placeIn_of_onLine {last : Nat} (hlast : last ≤ raw.length) (hidle : ¬isIdle raw = true)
    (h : OnLine first 1 (last + 1) line column) : PlaceIn (raw :: below) first line column := by
  obtain ⟨rfl, hone, hcolumn⟩ := h
  exact ⟨0, raw, rfl, Bool.not_eq_true _ ▸ hidle, by omega, hone, by omega⟩

/-- A place in the lines below. -/
theorem placeIn_cons (h : PlaceIn below (first + 1) line column) :
    PlaceIn (raw :: below) first line column := by
  obtain ⟨n, raw', hraw, hidle, rfl, hcolumn⟩ := h
  exact ⟨n + 1, raw', hraw, hidle, by omega, hcolumn⟩

theorem isBlank_of_mem_indentOf {c : Char} (h : c ∈ indentOf raw) : Text.isBlank c = true := by
  obtain rfl | rfl := mem_indentOf h <;> decide

theorem trim_drop_indentOf (raw : List Char) :
    Text.trim (raw.drop (indentOf raw).length) = Text.trim raw := by
  have hblank : ∀ c ∈ indentOf raw, Text.isBlank c = true := fun c => isBlank_of_mem_indentOf
  rw [← Text.trim_append hblank, indentOf_append_drop]

theorem length_indentOf_le (raw : List Char) : (indentOf raw).length ≤ raw.length :=
  (indentOf_prefix_self raw).length_le

/-- **Indentation and text** of a line are no longer than the line. -/
theorem length_indentOf_add_le (raw : List Char) :
    (indentOf raw).length + (Text.trim raw).length ≤ raw.length := by
  have htrim : (Text.trim raw).length ≤ raw.length - (indentOf raw).length := by
    rw [← trim_drop_indentOf, ← List.length_drop]
    exact Text.length_trim_le _
  have hindent := length_indentOf_le raw
  omega

end Places

/-- **Lines are laid out**, or there is a fault in one of them. -/
theorem at_scanLines (h : above.Positive) (number : Int) (lines : List (List Char)) :
    FailsOnly (Failure.At (PlaceIn lines number)) (scanLines above number lines) := by
  induction lines generalizing above number with
  | nil => exact .ok _
  | cons line below ih =>
    simp only [scanLines]
    split
    · exact (ih h (number + 1)).mono fun _ hfailure => hfailure.mono fun _ _ => placeIn_cons
    · next hidle =>
      split
      · next failure hmargin =>
        have hfailure := at_enter h (indentOf line) number failure hmargin
        exact .error (hfailure.mono fun _ _ => placeIn_of_onLine (length_indentOf_le line) hidle)
      · next margin hmargin =>
        split
        · next failure hbelow =>
          have hfailure := ih (positive_of_enter h hmargin) (number + 1) failure hbelow
          exact .error (hfailure.mono fun _ _ => placeIn_cons)
        · exact .ok _

variable {unit : Option Int} {text : String}

/-- **A text is laid out**, or there is a fault in it. -/
theorem at_scan (h : ∀ width ∈ unit, 0 < width) (text : String) :
    FailsOnly (Failure.At (PlaceOf text)) (scan unit text) :=
  have habove : Margin.Positive ⟨unit, 0⟩ := h
  at_scanLines habove _ _

theorem inText_scan (h : ∀ width ∈ unit, 0 < width) (text : String) :
    FailsOnly Failure.InText (scan unit text) :=
  (at_scan h text).mono fun _ => Failure.At.inText

/-- **What is in a line of a text** is in the text. -/
theorem placeIn_of_mem_scan {lines : List ScriptLine} (h : scan unit text = .ok lines) :
    ∀ l ∈ lines, ∀ line column, l.Place line column → PlaceOf text line column := by
  rintro l hl line column ⟨rfl, hfirst, hlast⟩
  obtain ⟨n, raw, hraw, hof⟩ := exists_of_mem_scanLines h l hl
  have hlength := length_indentOf_add_le raw
  rw [hof.column] at hfirst hlast
  rw [hof.toList_text] at hlast
  exact ⟨n, raw, hraw, hof.counts, hof.line, by omega, by omega⟩

/-- **The lines of a text** begin with their first word, and hold no line break. -/
theorem clean_of_mem_scan {lines : List ScriptLine} (h : scan unit text = .ok lines) :
    ∀ l ∈ lines, l.Clean := by
  intro l hl
  obtain ⟨n, raw, hraw, hof⟩ := exists_of_mem_scanLines h l hl
  exact hof.clean (Text.not_isLineBreak_of_mem_splitLines text.toList raw (List.mem_of_getElem? hraw))

end Layout

/-! ## Lines and their words -/

theorem dropLastBreak?_of_unbroken {text : List Char} (h : '\n' ∉ text) :
    dropLastBreak? text = some text := by
  have hlast : text.getLast? ≠ some '\n' := fun hlast => h (List.mem_of_getLast? hlast)
  rw [dropLastBreak?, if_neg fun hmem => h (List.dropLast_subset _ hmem), if_neg hlast]

/-- **A line has a first word** and an argument, and the argument has a first word as well, if it is
not empty. -/
theorem ScriptLine.Clean.exists_splitStatement {l : ScriptLine} (h : l.Clean) :
    ∃ word argument offset, splitStatement? l.text.toList = some (word, argument, offset) ∧
      word ≠ [] ∧ (argument ≠ [] → (Text.cutWord argument).word ≠ []) := by
  have hword := Text.word_cutWord_ne_nil h.ne_nil h.head
  obtain ⟨c, word, hcut⟩ := List.exists_cons_of_ne_nil hword
  have hbreak : '\n' ∉ (Text.cutWord l.text.toList).rest := fun hmem =>
    absurd (h.unbroken _ ((Text.rest_cutWord_suffix _).subset hmem)) (by decide)
  cases hrest : (Text.cutWord l.text.toList).rest with
  | nil =>
    have hsplit : splitStatement? l.text.toList = some (c :: word, [], l.text.toList.length) := by
      simp only [splitStatement?, hcut, hrest]
    exact ⟨_, _, _, hsplit, List.cons_ne_nil _ _, fun hne => absurd rfl hne⟩
  | cons d rest =>
    have hsplit : splitStatement? l.text.toList = some (c :: word, d :: rest,
        (c :: word).length + (Text.cutWord l.text.toList).gap.length) := by
      simp only [splitStatement?, hcut, hrest]
      rw [dropLastBreak?_of_unbroken (hrest ▸ hbreak)]
      rfl
    have hbegins : ∀ c ∈ (d :: rest).head?, Text.isBlank c = false :=
      hrest ▸ Text.head?_rest_cutWord
    exact ⟨_, _, _, hsplit, List.cons_ne_nil _ _, fun hne => Text.word_cutWord_ne_nil hne hbegins⟩

theorem length_of_dropLastBreak? {text kept : List Char} (h : dropLastBreak? text = some kept) :
    kept.length ≤ text.length := by
  unfold dropLastBreak? at h
  split at h
  · exact absurd h.symm (Option.some_ne_none _)
  split at h
  · obtain rfl := Option.some.inj h
    exact (List.dropLast_sublist text).length_le
  · obtain rfl := Option.some.inj h
    exact Nat.le_refl _

theorem length_of_splitStatement? {text word argument : List Char} {offset : Nat}
    (h : splitStatement? text = some (word, argument, offset)) :
    offset + argument.length ≤ text.length := by
  have happend := congrArg List.length (Text.cutWord_append text)
  simp only [List.length_append] at happend
  simp only [splitStatement?] at h
  split at h
  · exact absurd h.symm (Option.some_ne_none _)
  · simp only [Option.some.injEq, Prod.mk.injEq] at h
    obtain ⟨-, rfl, rfl⟩ := h
    exact Nat.le_refl _
  · obtain ⟨kept, hkept, hsplit⟩ := Option.map_eq_some_iff.1 h
    simp only [Prod.mk.injEq] at hsplit
    obtain ⟨-, rfl, rfl⟩ := hsplit
    have := length_of_dropLastBreak? hkept
    omega

theorem ScriptLine.place_start (l : ScriptLine) : l.Place l.line l.column :=
  ⟨rfl, Int.le_refl _, by omega⟩

/-- **The argument of a line** has its place in the line. -/
theorem place_of_splitStatement? {l : ScriptLine} {word argument : List Char} {offset : Nat}
    (h : splitStatement? l.text.toList = some (word, argument, offset)) {line column : Int}
    (hplace : Argument.Place ⟨argument, l.line, l.column + offset⟩ line column) :
    l.Place line column := by
  have hlength := length_of_splitStatement? h
  obtain ⟨hline, hfirst, hlast⟩ := hplace
  dsimp only at hline hfirst hlast
  exact ⟨hline, by omega, by omega⟩

/-- **A line that is not understood** has a fault, in the line or at its end. -/
theorem at_classify {l : ScriptLine} (h : l.Clean) :
    FailsOnly (Failure.At l.Place) (classify l) := by
  obtain ⟨word, argument, offset, hsplit, -⟩ := h.exists_splitStatement
  simp only [classify, hsplit]
  split
  · exact .at rfl l.place_start
  · exact ((Keyword.at_read _ _).mono fun _ h => h.mono fun _ _ =>
      place_of_splitStatement? hsplit).map

theorem inText_classify {l : ScriptLine} (h : l.Clean) : FailsOnly Failure.InText (classify l) :=
  (at_classify h).mono fun _ => Failure.At.inText

end ScenarioScript
