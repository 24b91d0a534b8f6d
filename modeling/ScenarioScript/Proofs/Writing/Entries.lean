import ScenarioScript.Proofs.Writing.Rows

/-!
# Proofs/Writing/Entries — statements written and understood again

A statement is written as its keyword and, behind a space, its argument.  `classify_entry` says that
a line written so is understood as the keyword makes it of the argument, and `classify_word` that a
keyword alone is understood as the keyword makes it of nothing.
-/

namespace ScenarioScript

namespace Text

/-- **A word, a space and more** are cut behind the word. -/
theorem cutWord_entry {word argument : List Char} (hword : ∀ c ∈ word, isBlank c = false)
    (hargument : Tidy argument) :
    cutWord (word ++ ' ' :: argument) = ⟨word, [' '], argument⟩ := by
  have hspace : isBlank ' ' = true := by decide
  have hall : ∀ c ∈ word, (!isBlank c) = true := fun c hc => by rw [hword c hc]; rfl
  obtain ⟨c, rest, rfl⟩ := List.exists_cons_of_ne_nil hargument.ne_nil
  have hc : isBlank c = false := hargument.head c rfl
  simp [cutWord, List.takeWhile_append_of_pos hall, List.dropWhile_append_of_pos hall, hspace, hc]

/-- **A word, a space and a tidy text** are tidy. -/
theorem Tidy.entry {word argument : List Char} (hne : word ≠ [])
    (hword : ∀ c ∈ word, isBlank c = false) (hargument : Tidy argument) :
    Tidy (word ++ ' ' :: argument) where
  ne_nil := List.append_ne_nil_of_left_ne_nil hne _
  head c hc := by
    obtain ⟨d, more, rfl⟩ := List.exists_cons_of_ne_nil hne
    exact hword c (Option.some.inj hc ▸ List.mem_cons_self)
  last c hc := by
    refine hargument.last c ?_
    rwa [List.getLast?_append_of_ne_nil _ (List.cons_ne_nil _ _),
      List.getLast?_cons_of_ne_nil hargument.ne_nil] at hc
  unbroken := List.forall_mem_append.2 ⟨fun c hc => isLineBreak_of_isBlank (hword c hc),
    List.forall_mem_cons.2 ⟨by decide, hargument.unbroken⟩⟩

theorem cutWord_word {word : List Char} (hword : ∀ c ∈ word, isBlank c = false) :
    cutWord word = ⟨word, [], []⟩ := by
  have hall : ∀ c ∈ word, (!isBlank c) = true := fun c hc => by rw [hword c hc]; rfl
  have htake : (word ++ []).takeWhile (!isBlank ·) = word ++ [] :=
    List.takeWhile_append_of_pos hall
  have hdrop : (word ++ []).dropWhile (!isBlank ·) = [] := List.dropWhile_append_of_pos hall
  rw [List.append_nil] at htake hdrop
  simp [cutWord, htake, hdrop]

end Text

open Text

variable {word argument : List Char}

theorem splitStatement?_entry (hne : word ≠ []) (hword : ∀ c ∈ word, isBlank c = false)
    (hargument : Tidy argument) :
    splitStatement? (word ++ ' ' :: argument) = some (word, argument, word.length + 1) := by
  have hbreak : '\n' ∉ argument := fun h => absurd (hargument.unbroken _ h) (by decide)
  obtain ⟨d, more, rfl⟩ := List.exists_cons_of_ne_nil hne
  obtain ⟨c, rest, rfl⟩ := List.exists_cons_of_ne_nil hargument.ne_nil
  simp only [splitStatement?, cutWord_entry hword hargument, dropLastBreak?_of_unbroken hbreak]
  rfl

theorem splitStatement?_word (hne : word ≠ []) (hword : ∀ c ∈ word, isBlank c = false) :
    splitStatement? word = some (word, [], word.length) := by
  obtain ⟨d, more, rfl⟩ := List.exists_cons_of_ne_nil hne
  simp only [splitStatement?, cutWord_word hword]

/-- **A keyword's word** is a word: it is not empty, and there is no blank in it. -/
theorem Keyword.isWord_word (k : Keyword) :
    k.word.toList ≠ [] ∧ ∀ c ∈ k.word.toList, isBlank c = false := by
  have hall : ∀ k ∈ Keyword.all, k.word.toList ≠ [] ∧ k.word.toList.all (!isBlank ·) = true := by
    decide
  obtain ⟨hne, hword⟩ := hall k (Keyword.mem_all k)
  exact ⟨hne, fun c hc => by simpa using List.all_eq_true.1 hword c hc⟩

variable (k : Keyword) (depth line column : Int)

/-- **A keyword and its argument** are understood as the keyword makes it of the argument. -/
theorem classify_entry (h : Tidy argument) :
    classify ⟨depth, String.ofList (k.word.toList ++ ' ' :: argument), line, column⟩ =
      (k.read ⟨argument, line, column + (k.word.toList.length + 1 : Nat)⟩).map fun command =>
        ⟨command, String.ofList argument, depth, line, column⟩ := by
  obtain ⟨hne, hword⟩ := k.isWord_word
  simp only [classify, String.toList_ofList, splitStatement?_entry hne hword h,
    String.ofList_toList, Keyword.ofWord?_word, Argument.written]

/-- **A keyword alone** is understood as the keyword makes it of nothing. -/
theorem classify_word :
    classify ⟨depth, k.word, line, column⟩ =
      (k.read ⟨[], line, column + k.word.toList.length⟩).map fun command =>
        ⟨command, "", depth, line, column⟩ := by
  obtain ⟨hne, hword⟩ := k.isWord_word
  simp only [classify, splitStatement?_word hne hword, String.ofList_toList,
    Keyword.ofWord?_word, Argument.written, String.ofList_nil]

end ScenarioScript
