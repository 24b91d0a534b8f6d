import ScenarioScript.Text.Blank

/-!
# Text/Lines — the physical lines of a text

A line ends at a line break or at the end of the text; a carriage return and the line feed right
behind it are one break.  `not_isLineBreak_of_mem_splitLines`: no line holds a break.
-/

namespace ScenarioScript.Text

/-- **The line breaks**: line feed, carriage return, tabulations and separators that end a line. -/
def lineBreaks : List Char :=
  ['\n', '\r', '\x0b', '\x0c', '\x1c', '\x1d', '\x1e', '\u0085', '\u2028', '\u2029']

/-- Does the character end a line? -/
def isLineBreak (c : Char) : Bool := lineBreaks.contains c

/-- The physical lines of a text, without their breaks.  A break at the very end begins no further
line. -/
def splitLines : List Char → List (List Char)
  | [] => []
  | '\r' :: '\n' :: rest => [] :: splitLines rest
  | c :: rest =>
    if isLineBreak c then [] :: splitLines rest
    else
      match splitLines rest with
      | [] => [[c]]
      | line :: lines => (c :: line) :: lines

/-- **A line holds no break.** -/
theorem not_isLineBreak_of_mem_splitLines (text : List Char) :
    ∀ line ∈ splitLines text, ∀ c ∈ line, isLineBreak c = false := by
  fun_induction splitLines text with
  | case1 => simp
  | case2 rest ih => simpa using ih
  | case3 c rest _ hc ih => simpa using ih
  | case4 c rest _ hc hrest ih => simpa using hc
  | case5 c rest _ hc line lines hrest ih =>
    rw [hrest] at ih
    simp only [List.mem_cons, forall_eq_or_imp] at ih ⊢
    exact ⟨⟨by simpa using hc, ih.1⟩, ih.2⟩

/-- Every line break is a blank. -/
theorem isBlank_of_isLineBreak {c : Char} (h : isLineBreak c = true) : isBlank c = true := by
  have hall : lineBreaks.all isBlank = true := by decide
  exact List.all_eq_true.1 hall c (List.contains_iff_mem.1 h)

end ScenarioScript.Text
