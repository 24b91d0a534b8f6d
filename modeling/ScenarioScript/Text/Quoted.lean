import ScenarioScript.Text.Printable

/-!
# Text/Quoted — texts shown in quotes

A text inside a message stands between quotes, with every character visible: the quote in use, the
backslash and the characters that do not show are written as escapes.

* `quoteMark` — the quote is `'`, unless that would have to be escaped and `"` would not;
* `escape` — one character as it is written between the marks.
-/

namespace ScenarioScript.Text

/-- A number in lower-case hexadecimal, filled with zeros up to `width` digits. -/
def hexadecimal (width n : Nat) : List Char :=
  let digits := Nat.toDigits 16 n
  List.replicate (width - digits.length) '0' ++ digits

/-- **The numeric escape** of a character: two, four or eight digits, as few as will do. -/
def numericEscape (c : Char) : List Char :=
  if c.toNat ≤ 0xFF then '\\' :: 'x' :: hexadecimal 2 c.toNat
  else if c.toNat ≤ 0xFFFF then '\\' :: 'u' :: hexadecimal 4 c.toNat
  else '\\' :: 'U' :: hexadecimal 8 c.toNat

/-- A character as it is written between two marks. -/
def escape (mark c : Char) : List Char :=
  if c = mark || c = '\\' then ['\\', c]
  else if c = '\n' then ['\\', 'n']
  else if c = '\r' then ['\\', 'r']
  else if c = '\t' then ['\\', 't']
  else if isPrintable c then [c]
  else numericEscape c

/-- **The choice of quote**: single, unless the text holds a single quote and no double one. -/
def quoteMark (text : List Char) : Char :=
  if text.contains '\'' && !text.contains '"' then '"' else '\''

/-- The text between quotes, every character visible. -/
def quote (text : String) : String :=
  let mark := quoteMark text.toList
  String.ofList (mark :: text.toList.flatMap (escape mark) ++ [mark])

/-- **A plain text** is put between single quotes as it stands. -/
theorem quote_plain {text : String}
    (h : ∀ c ∈ text.toList, isPrintable c = true ∧ c ≠ '\'' ∧ c ≠ '\\') :
    (quote text).toList = '\'' :: text.toList ++ ['\''] := by
  have hmark : quoteMark text.toList = '\'' := by
    have : '\'' ∉ text.toList := fun hm => (h _ hm).2.1 rfl
    simp [quoteMark, this]
  have hesc : text.toList.flatMap (escape '\'') = text.toList := by
    have : ∀ cs : List Char, (∀ c ∈ cs, isPrintable c = true ∧ c ≠ '\'' ∧ c ≠ '\\') →
        cs.flatMap (escape '\'') = cs := by
      intro cs
      induction cs with
      | nil => simp
      | cons c cs ih =>
        intro hcs
        obtain ⟨⟨hp, hq, hb⟩, hrest⟩ := List.forall_mem_cons.1 hcs
        have hn : c ≠ '\n' := by rintro rfl; revert hp; decide
        have hr : c ≠ '\r' := by rintro rfl; revert hp; decide
        have ht : c ≠ '\t' := by rintro rfl; revert hp; decide
        simp [escape, hq, hb, hn, hr, ht, hp, ih hrest]
    exact this _ h
  simp [quote, hmark, hesc]

end ScenarioScript.Text
