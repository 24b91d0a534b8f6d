import ScenarioScript.Text.Ranges

/-!
# Text/Blank — blanks, trimming, and the first word of a text

Blanks are the white space of every script, line breaks included.  Two operations rest on them:

* `trim` takes the blanks off both ends (`trim_eq_nil_iff`: nothing is left of a text of blanks
  alone, and only of such a text);
* `cutWord` splits a text after its first word (`cutWord_append`: nothing is lost).
-/

namespace ScenarioScript.Text

/-- **The blanks**: tab to carriage return, the information separators, and the spaces. -/
def blanks : Ranges :=
  [(0x09, 0x0D), (0x1C, 0x20), (0x85, 0x85), (0xA0, 0xA0), (0x1680, 0x1680), (0x2000, 0x200A),
    (0x2028, 0x2029), (0x202F, 0x202F), (0x205F, 0x205F), (0x3000, 0x3000)]

/-- Is the character a blank? -/
def isBlank (c : Char) : Bool := blanks.contains c.toNat

/-! ## Trimming -/

/-- The text without the blanks at its start. -/
def trimStart (text : List Char) : List Char := text.dropWhile isBlank

/-- The text without the blanks at its end. -/
def trimEnd (text : List Char) : List Char := (text.reverse.dropWhile isBlank).reverse

/-- The text without the blanks at its two ends. -/
def trim (text : List Char) : List Char := trimEnd (trimStart text)

@[simp] theorem trim_nil : trim [] = [] := rfl

theorem trimStart_eq_nil_iff {text : List Char} :
    trimStart text = [] ↔ ∀ c ∈ text, isBlank c = true := by
  induction text with
  | nil => simp [trimStart]
  | cons c rest ih =>
    unfold trimStart at ih ⊢
    by_cases hc : isBlank c = true <;> simp [hc, ih]

theorem trimEnd_eq_nil_iff {text : List Char} :
    trimEnd text = [] ↔ ∀ c ∈ text, isBlank c = true := by
  have h := @trimStart_eq_nil_iff text.reverse
  simp only [trimStart, List.mem_reverse] at h
  rw [trimEnd, List.reverse_eq_nil_iff, h]

/-- **A text of blanks alone** is the one of which trimming leaves nothing. -/
theorem trim_eq_nil_iff {text : List Char} :
    trim text = [] ↔ ∀ c ∈ text, isBlank c = true := by
  rw [trim, trimEnd_eq_nil_iff]
  refine ⟨fun h c hc => ?_, fun h c hc => h c ((List.dropWhile_sublist isBlank).mem hc)⟩
  rw [← List.takeWhile_append_dropWhile (p := isBlank) (l := text), List.mem_append] at hc
  exact hc.elim (List.all_eq_true.1 List.all_takeWhile c) (h c)

/-! ## The first word -/

/-- A text cut after its first word: the word, the blanks behind it, and what follows them. -/
structure Cut where
  word : List Char
  gap : List Char
  rest : List Char
  deriving DecidableEq, Repr

/-- Cut a text after its longest start without a blank. -/
def cutWord (text : List Char) : Cut :=
  let tail := text.dropWhile (!isBlank ·)
  ⟨text.takeWhile (!isBlank ·), tail.takeWhile isBlank, tail.dropWhile isBlank⟩

/-- **Nothing is lost**: the three parts make up the text. -/
theorem cutWord_append (text : List Char) :
    (cutWord text).word ++ (cutWord text).gap ++ (cutWord text).rest = text := by
  simp [cutWord, List.takeWhile_append_dropWhile]

theorem not_isBlank_of_mem_word {text : List Char} {c : Char} (h : c ∈ (cutWord text).word) :
    isBlank c = false := by
  simpa using List.all_eq_true.1 List.all_takeWhile c h

theorem isBlank_of_mem_gap {text : List Char} {c : Char} (h : c ∈ (cutWord text).gap) :
    isBlank c = true :=
  List.all_eq_true.1 List.all_takeWhile c h

end ScenarioScript.Text
