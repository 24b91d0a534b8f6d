import ScenarioScript.Proofs.Expression.Spelling

/-!
# Proofs/Expression/Tiling — gaps and lexemes tile a text

`Tiled line column offset text row` says that a text which begins at the offset falls into gaps and
lexemes without remainder, and that the lexemes are the tokens of the row.  It is what reading finds
(`tokensOf_eq_ok_iff`), and unlike reading it can be cut.

* `Tiled.cut_before`, `Tiled.cut_behind` — **a tiled text can be cut** where a token starts and
  where a token stops, and both pieces are tiled by their part of the row;
* `Tiled.exists_slice` — the tokens of any part of the row are read from one piece of the text;
* `Tiled.span_token` — a token is the text between its offsets.

That a text can be cut behind a lexeme rests on `head_cut`: how far a lexeme reaches is decided by
the character behind it, and a text that ends there has none that could make the lexeme go on.
-/

namespace ScenarioScript

namespace Lexeme

open ScenarioScript.Text

/-! ## Cutting what follows a lexeme -/

variable {kept rest : List Char}

/-- What is left of a text that has been cut still begins as it did, if anything is left. -/
theorem eq_nil_or_cons_of_cut (h : kept <+: rest) :
    kept = [] ∨ ∃ c more less, kept = c :: less ∧ rest = c :: more ∧ less <+: more := by
  obtain ⟨dropped, rfl⟩ := h
  cases kept with
  | nil => exact .inl rfl
  | cons c less => exact .inr ⟨c, less ++ dropped, less, rfl, rfl, List.prefix_append _ _⟩

theorem any_head?_of_cut {p : Char → Bool} (h : kept <+: rest)
    (hkept : kept.head?.any p = true) : rest.head?.any p = true := by
  obtain rfl | ⟨c, more, less, rfl, rfl, -⟩ := eq_nil_or_cons_of_cut h
  · simp at hkept
  · exact hkept

theorem ne_cons_of_cut {c : Char} (h : kept <+: rest) (hrest : ∀ more, rest ≠ c :: more)
    (more : List Char) : kept ≠ c :: more := by
  rintro rfl
  obtain ⟨dropped, rfl⟩ := h
  exact hrest (more ++ dropped) rfl

theorem takeWhile_eq_nil_of_cut {p : Char → Bool} (h : kept <+: rest)
    (hrest : rest.takeWhile p = []) : kept.takeWhile p = [] := by
  obtain rfl | ⟨c, more, less, rfl, rfl, -⟩ := eq_nil_or_cons_of_cut h
  · rfl
  · rw [List.takeWhile_cons] at hrest ⊢
    split at hrest
    · exact absurd hrest (List.cons_ne_nil _ _)
    · next hc => rw [if_neg hc]

theorem takeWhile_dropWhile_eq_nil (p : Char → Bool) (text : List Char) :
    (text.dropWhile p).takeWhile p = [] := by
  induction text with
  | nil => rfl
  | cons c text ih =>
    rw [List.dropWhile_cons]
    split
    · exact ih
    · next hc => rw [List.takeWhile_cons, if_neg hc]

/-- **A longest start stays the longest** when what follows it is cut. -/
theorem span_cut {p : Char → Bool} {text : List Char} (h : kept <+: text.dropWhile p) :
    (text.takeWhile p ++ kept).takeWhile p = text.takeWhile p ∧
      (text.takeWhile p ++ kept).dropWhile p = kept := by
  have hkept : kept.takeWhile p = [] :=
    takeWhile_eq_nil_of_cut h (takeWhile_dropWhile_eq_nil p text)
  have hall : ∀ c ∈ text.takeWhile p, p c = true := fun c hc =>
    List.all_eq_true.1 List.all_takeWhile c hc
  refine ⟨by rw [List.takeWhile_append_of_pos hall, hkept, List.append_nil], ?_⟩
  rw [List.dropWhile_append_of_pos hall]
  have hsplit := List.takeWhile_append_dropWhile (p := p) (l := kept)
  rwa [hkept, List.nil_append] at hsplit

/-- A string ends at its quote, whatever follows. -/
theorem cutString_cut {mark : Char} (hmark : mark ≠ '\\') {text body : List Char}
    (h : cutString mark text = some (body, rest)) (kept : List Char) :
    cutString mark (body ++ kept) = some (body, kept) := by
  fun_induction cutString mark text generalizing body with
  | case1 => simp at h
  | case2 c tail ih =>
    obtain ⟨⟨b, r⟩, hb, hpair⟩ := Option.map_eq_some_iff.1 h
    obtain ⟨rfl, rfl⟩ := Prod.mk.injEq .. ▸ hpair
    rw [List.cons_append, List.cons_append, cutString, ih hb]
    rfl
  | case3 tail _ =>
    obtain ⟨rfl, rfl⟩ := Prod.mk.injEq .. ▸ Option.some.inj h
    rw [List.singleton_append, cutString, if_pos rfl]
    exact fun _ _ e _ => absurd e hmark
  | case4 c tail hescape hc ih =>
    obtain ⟨⟨b, r⟩, hb, hpair⟩ := Option.map_eq_some_iff.1 h
    obtain ⟨rfl, rfl⟩ := Prod.mk.injEq .. ▸ hpair
    rw [List.cons_append, cutString, if_neg hc, ih hb]
    · rfl
    · rintro d more rfl -
      cases tail with
      | nil => simp [cutString] at hb
      | cons e tail => exact hescape e tail rfl rfl

/-- A fraction, or the lack of one, is the same when what follows is cut. -/
theorem cutFraction_cut {text fraction : List Char} (h : cutFraction text = (fraction, rest))
    (hkept : kept <+: rest) : cutFraction (fraction ++ kept) = (fraction, kept) := by
  unfold cutFraction at h
  split at h
  · next tail =>
    split at h
    · next hdigits =>
      obtain ⟨rfl, rfl⟩ := Prod.mk.injEq .. ▸ h
      obtain rfl | ⟨c, more, less, rfl, hmore, hless⟩ := eq_nil_or_cons_of_cut hkept
      · rfl
      · obtain ⟨rfl, rfl⟩ := List.cons.inj hmore
        rw [List.nil_append, cutFraction]
        simp only [takeWhile_eq_nil_of_cut hless hdigits]
    · next digits hne =>
      obtain ⟨rfl, rfl⟩ := Prod.mk.injEq .. ▸ h
      obtain ⟨htake, hdrop⟩ := span_cut hkept
      rw [List.cons_append, cutFraction]
      simp only [htake, hdrop]
  · next htext =>
    obtain ⟨rfl, rfl⟩ := Prod.mk.injEq .. ▸ h
    rw [List.nil_append, cutFraction]
    exact ne_cons_of_cut hkept htext

/-- A number is the same when what follows is cut. -/
theorem cutNumber_cut {text : List Char} (hkept : kept <+: (cutNumber text).2) :
    cutNumber ((cutNumber text).1 ++ kept) = ((cutNumber text).1, kept) := by
  have hfraction : cutFraction ((cutFraction (text.dropWhile isDigit)).1 ++ kept) =
      ((cutFraction (text.dropWhile isDigit)).1, kept) := cutFraction_cut rfl hkept
  have hbehind : (cutFraction (text.dropWhile isDigit)).1 ++ kept <+: text.dropWhile isDigit := by
    have happend := (List.prefix_append_right_inj (cutFraction (text.dropWhile isDigit)).1).2 hkept
    rwa [cutNumber, append_cutFraction] at happend
  obtain ⟨htake, hdrop⟩ := span_cut hbehind
  simp only [cutNumber, List.append_assoc, htake, hdrop, hfraction]

/-- No name follows a number that has been cut, if none followed it before. -/
theorem numberHead_cut {sign digits text : List Char} {kind : TokenKind}
    (h : numberHead sign (cutNumber text) = .lexeme kind (sign ++ digits) rest)
    (hkept : kept <+: rest) :
    numberHead sign (cutNumber (digits ++ kept)) = .lexeme kind (sign ++ digits) kept := by
  obtain ⟨rfl, hdigits, rfl⟩ := eq_of_numberHead h
  obtain rfl := List.append_cancel_left hdigits
  rw [cutNumber_cut hkept]
  obtain rfl | ⟨c, more, less, rfl, hrest, -⟩ := eq_nil_or_cons_of_cut hkept
  · rfl
  · by_cases hc : isWordStart c = true
    · simp [numberHead, hrest, hc] at h
    · simp [numberHead, hc]

/-- A text that begins with a digit begins with a number. -/
theorem cutNumber_ne_nil {text : List Char} (h : text.head?.any isDigit = true) :
    (cutNumber text).1 ≠ [] := by
  cases text with
  | nil => simp at h
  | cons c text =>
    have hc : isDigit c = true := by simpa using h
    simp [cutNumber, hc]

/-- Of two operators, one of which begins the other, it is the same one that is taken. -/
theorem cutOperator_cut {c : Char} {text : List Char} {kind : TokenKind}
    (h : cutOperator c (text ++ rest) = some (kind, c :: text, rest)) (hkept : kept <+: rest) :
    cutOperator c (text ++ kept) = some (kind, c :: text, kept) := by
  unfold cutOperator at h
  split at h
  all_goals
    simp only [Option.some.injEq, Prod.mk.injEq, List.cons.injEq, reduceCtorEq] at h
  all_goals
    obtain ⟨rfl, ⟨-, rfl⟩, -⟩ := h
  case h_5 hlonger | h_6 hlonger =>
    rw [List.nil_append, cutOperator]
    exact fun more => ne_cons_of_cut hkept hlonger more
  all_goals rfl

theorem numberHead_ne_gap (sign : List Char) (cut : List Char × List Char) (text rest : List Char) :
    numberHead sign cut ≠ .gap text rest := by
  unfold numberHead
  repeat' split
  all_goals simp

/-- **Only spaces and tabs** are taken off as a gap. -/
theorem isGap_of_head_gap {c : Char} {tail text : List Char} (h : head c tail = .gap text rest) :
    ∀ d ∈ text, isGap d = true := by
  have hc : isGap c = true := by
    unfold head at h
    split at h
    · assumption
    · repeat' split at h
      all_goals first
        | exact absurd h (numberHead_ne_gap _ _ _ _)
        | simp at h
  obtain ⟨rfl, -⟩ := eq_of_head_gap h
  exact List.forall_mem_cons.2 ⟨hc, List.all_eq_true.1 List.all_takeWhile⟩

/-- **A gap stays a gap** when what follows is cut. -/
theorem head_cut_gap {c : Char} {tail text : List Char} (h : head c tail = .gap (c :: text) rest)
    (hkept : kept <+: rest) : head c (text ++ kept) = .gap (c :: text) kept := by
  have hc : isGap c = true := isGap_of_head_gap h c List.mem_cons_self
  obtain ⟨htext, rfl⟩ := eq_of_head_gap h
  obtain rfl := (List.cons.inj htext).2
  obtain ⟨htake, hdrop⟩ := span_cut hkept
  rw [head, if_pos hc, htake, hdrop]

/-- **A lexeme stays the same** when what follows is cut. -/
theorem head_cut {c : Char} {tail text : List Char} {kind : TokenKind}
    (h : head c tail = .lexeme kind (c :: text) rest) (hkept : kept <+: rest) :
    head c (text ++ kept) = .lexeme kind (c :: text) kept := by
  obtain ⟨happend, -⟩ := append_of_head_lexeme h
  obtain rfl : text ++ rest = tail := (List.cons.inj happend).2
  unfold head at h ⊢
  split at h
  · simp at h
  next hgap =>
  rw [if_neg hgap]
  split at h
  · next hquote =>
    rw [if_pos hquote]
    split at h
    · next body after hcut =>
      obtain ⟨rfl, hbody, rfl⟩ := Head.lexeme.injEq .. ▸ h
      obtain rfl := (List.cons.inj hbody).2
      have hmark : c ≠ '\\' := by
        rintro rfl
        exact absurd hquote (by decide)
      rw [cutString_cut hmark hcut]
    · simp at h
  next hquote =>
  rw [if_neg hquote]
  split at h
  · next hdigit =>
    rw [if_pos hdigit]
    exact numberHead_cut h hkept
  next hdigit =>
  rw [if_neg hdigit]
  split at h
  · next hminus =>
    obtain ⟨rfl, hhead⟩ : c = '-' ∧ ((text ++ rest).head?.any isDigit) = true := by
      simpa using hminus
    have hne : text ≠ [] := fun e => by
      obtain ⟨-, hdigits, -⟩ := eq_of_numberHead h
      exact cutNumber_ne_nil hhead ((List.cons.inj hdigits).2.symm.trans e)
    have hhead' : ((text ++ kept).head?.any isDigit) = true := by
      obtain ⟨d, text, rfl⟩ := List.exists_cons_of_ne_nil hne
      exact hhead
    rw [if_pos (by simpa using hhead')]
    exact numberHead_cut h hkept
  next hminus =>
  have hminus' : ¬ (c = '-' && (text ++ kept).head?.any isDigit) = true := fun h => by
    obtain ⟨hc, hhead⟩ := by simpa only [Bool.and_eq_true] using h
    have happend : text ++ kept <+: text ++ rest := (List.prefix_append_right_inj text).2 hkept
    exact hminus (by rw [hc, any_head?_of_cut happend hhead, Bool.and_self])
  rw [if_neg hminus']
  split at h
  · next hword =>
    obtain ⟨rfl, htext, hrest⟩ := Head.lexeme.injEq .. ▸ h
    obtain ⟨htake, hdrop⟩ := span_cut (p := isWord) (hrest ▸ hkept)
    rw [(List.cons.inj htext).2] at htake hdrop
    simp only [if_pos hword, htake, hdrop, (List.cons.inj htext).2]
  next hword =>
  rw [if_neg hword]
  split at h
  · next k op after hop =>
    obtain ⟨rfl, rfl, rfl⟩ := Head.lexeme.injEq .. ▸ h
    rw [cutOperator_cut hop hkept]
  · simp at h

/-- What is taken off as a gap begins with the first character. -/
theorem exists_of_head_gap {c : Char} {tail text : List Char} (h : head c tail = .gap text rest) :
    ∃ gap, text = c :: gap ∧ tail = gap ++ rest := by
  obtain ⟨rfl, -⟩ := eq_of_head_gap h
  exact ⟨_, rfl, ((List.cons.inj (append_of_head_gap h)).2).symm⟩

/-- What is taken off as a lexeme begins with the first character. -/
theorem exists_of_head_lexeme {c : Char} {tail text : List Char} {kind : TokenKind}
    (h : head c tail = .lexeme kind text rest) :
    ∃ more, text = c :: more ∧ tail = more ++ rest := by
  obtain ⟨happend, hne⟩ := append_of_head_lexeme h
  obtain ⟨d, more, rfl⟩ := List.exists_cons_of_ne_nil hne
  obtain ⟨rfl, htail⟩ := List.cons.inj happend
  exact ⟨more, rfl, htail.symm⟩

end Lexeme

/-! ## Tiled texts -/

open Lexeme

/-- **Gaps and lexemes tile a text** that begins at the given offset, and the lexemes are the tokens
of the row.  Line and column are the place of offset zero. -/
inductive Tiled (line column : Int) : Nat → List Char → List Token → Prop
  | done (offset : Nat) : Tiled line column offset [] []
  | gap {offset : Nat} {c : Char} {gap rest : List Char} {row : List Token}
      (head_eq : head c (gap ++ rest) = .gap (c :: gap) rest)
      (below : Tiled line column (offset + (c :: gap).length) rest row) :
      Tiled line column offset (c :: gap ++ rest) row
  | lexeme {offset : Nat} {kind : TokenKind} {c : Char} {more rest : List Char} {row : List Token}
      (head_eq : head c (more ++ rest) = .lexeme kind (c :: more) rest)
      (below : Tiled line column (offset + (c :: more).length) rest row) :
      Tiled line column offset (c :: more ++ rest)
        (.ofLexeme line column offset kind (c :: more) :: row)

variable {line column : Int} {offset : Nat} {text : List Char} {row : List Token}

theorem tiled_readTokens (h : (readTokens line column offset text).fault = none) :
    Tiled line column offset text (readTokens line column offset text).tokens := by
  fun_induction readTokens line column offset text with
  | case1 offset => exact .done offset
  | case2 offset c tail text rest hhead _ ih =>
    obtain ⟨gap, rfl, rfl⟩ := exists_of_head_gap hhead
    exact .gap hhead (ih h)
  | case3 offset c tail kind text rest hhead _ reading ih =>
    obtain ⟨more, rfl, rfl⟩ := exists_of_head_lexeme hhead
    exact .lexeme hhead (ih h)
  | case4 => simp at h

theorem Tiled.readTokens_eq (h : Tiled line column offset text row) :
    (readTokens line column offset text).fault = none ∧
      (readTokens line column offset text).tokens = row := by
  induction h with
  | done offset => simp
  | gap head_eq below ih => rwa [List.cons_append, readTokens_of_gap head_eq]
  | lexeme head_eq below ih =>
    rw [List.cons_append, readTokens_of_lexeme head_eq]
    exact ⟨ih.1, congrArg _ ih.2⟩

/-- **A text has tokens exactly if it is tiled**, and they are the tokens of the tiling. -/
theorem tokensOf_eq_ok_iff :
    tokensOf line column text = .ok row ↔ Tiled line column 0 text row := by
  constructor
  · intro h
    simp only [tokensOf] at h
    split at h
    · simp at h
    · next hfault => exact Except.ok.inj h ▸ tiled_readTokens hfault
  · intro h
    obtain ⟨hfault, htokens⟩ := h.readTokens_eq
    simp only [tokensOf, hfault, htokens]

namespace Tiled

/-! ## Cutting a tiled text -/

/-- **Cut before a token**: what comes before the cut is tiled by the tokens before. -/
theorem cut_before {before behind : List Token}
    (h : Tiled line column offset text (before ++ behind)) (hne : behind ≠ []) :
    ∃ a b, text = a ++ b ∧ Tiled line column offset a before ∧
      Tiled line column (offset + a.length) b behind ∧ rowStart behind = offset + a.length := by
  generalize hrow : before ++ behind = row at h
  induction h generalizing before with
  | done offset => exact absurd (List.append_eq_nil_iff.1 hrow).2 hne
  | @gap offset c gap rest row head_eq below ih =>
    obtain ⟨a, b, rfl, ha, hb, hstart⟩ := ih hrow
    rw [Nat.add_assoc, ← List.length_append] at hb hstart
    exact ⟨c :: gap ++ a, b, by rw [List.append_assoc],
      .gap (head_cut_gap head_eq (List.prefix_append a b)) ha, hb, hstart⟩
  | @lexeme offset kind c more rest row head_eq below ih =>
    cases before with
    | nil =>
      obtain rfl : behind = _ := hrow
      exact ⟨[], _, rfl, .done offset, .lexeme head_eq below, rfl⟩
    | cons t before =>
      obtain ⟨rfl, hbelow⟩ := List.cons.inj hrow
      obtain ⟨a, b, rfl, ha, hb, hstart⟩ := ih hbelow
      rw [Nat.add_assoc, ← List.length_append] at hb hstart
      exact ⟨c :: more ++ a, b, by rw [List.append_assoc],
        .lexeme (head_cut head_eq (List.prefix_append a b)) ha, hb, hstart⟩

/-- **Cut behind a token**: what comes before the cut is tiled by the tokens up to that one. -/
theorem cut_behind {before behind : List Token}
    (h : Tiled line column offset text (before ++ behind)) (hne : before ≠ []) :
    ∃ a b, text = a ++ b ∧ Tiled line column offset a before ∧
      Tiled line column (offset + a.length) b behind ∧ rowStop 0 before = offset + a.length := by
  generalize hrow : before ++ behind = row at h
  induction h generalizing before with
  | done offset => exact absurd (List.append_eq_nil_iff.1 hrow).1 hne
  | @gap offset c gap rest row head_eq below ih =>
    obtain ⟨a, b, rfl, ha, hb, hstop⟩ := ih hne hrow
    rw [Nat.add_assoc, ← List.length_append] at hb hstop
    exact ⟨c :: gap ++ a, b, by rw [List.append_assoc],
      .gap (head_cut_gap head_eq (List.prefix_append a b)) ha, hb, hstop⟩
  | @lexeme offset kind c more rest row head_eq below ih =>
    obtain ⟨t, before, rfl⟩ := List.exists_cons_of_ne_nil hne
    obtain ⟨rfl, rfl⟩ := List.cons.inj hrow
    by_cases hlast : before = []
    · subst hlast
      have hpiece : Tiled line column offset (c :: more ++ [])
          [.ofLexeme line column offset kind (c :: more)] :=
        .lexeme (head_cut head_eq (List.nil_prefix)) (.done _)
      rw [List.append_nil] at hpiece
      exact ⟨c :: more, rest, rfl, hpiece, below, rfl⟩
    · obtain ⟨a, b, rfl, ha, hb, hstop⟩ := ih hlast rfl
      rw [Nat.add_assoc, ← List.length_append] at hb hstop
      refine ⟨c :: more ++ a, b, by rw [List.append_assoc],
        .lexeme (head_cut head_eq (List.prefix_append a b)) ha, hb, ?_⟩
      rw [rowStop_cons, rowStop_of_ne_nil hlast, hstop]

/-- What is tiled by no token at all is a gap. -/
theorem isGap_of_mem (h : Tiled line column offset text []) : ∀ c ∈ text, isGap c = true := by
  generalize hrow : [] = row at h
  induction h with
  | done offset => exact List.forall_mem_nil _
  | gap head_eq below ih =>
    exact List.forall_mem_append.2 ⟨isGap_of_head_gap head_eq, ih hrow⟩
  | lexeme head_eq below ih => exact absurd hrow (List.cons_ne_nil _ _).symm

/-! ## The place of a part of the row -/

/-- A text that is tiled by any token at all is not empty. -/
theorem text_ne_nil (h : Tiled line column offset text row) (hne : row ≠ []) : text ≠ [] := by
  cases h with
  | done => exact absurd rfl hne
  | gap | lexeme => exact List.cons_ne_nil _ _

/-- **A part of the row is read from one piece of the text**, which begins where its first token
starts and ends where its last one stops. -/
theorem exists_slice {before part behind : List Token}
    (h : Tiled line column offset text (before ++ part ++ behind)) (hne : part ≠ []) :
    ∃ a b d, text = a ++ b ++ d ∧ Tiled line column offset a before ∧
      Tiled line column (offset + a.length) b part ∧
      Tiled line column (offset + a.length + b.length) d behind ∧
      rowStart part = offset + a.length ∧ rowStop 0 part = offset + a.length + b.length := by
  rw [List.append_assoc] at h
  obtain ⟨a, text, rfl, ha, htext, hstart⟩ := h.cut_before (List.append_ne_nil_of_left_ne_nil hne _)
  obtain ⟨b, d, rfl, hb, hd, hstop⟩ := htext.cut_behind hne
  rw [rowStart_append hne] at hstart
  exact ⟨a, b, d, (List.append_assoc a b d).symm, ha, hb, hd, hstart, hstop⟩

/-- The tokens lie in the text. -/
theorem bounds (h : Tiled line column offset text row) :
    ∀ t ∈ row, offset ≤ t.start ∧ t.stop ≤ offset + text.length := by
  intro t ht
  obtain ⟨before, behind, rfl⟩ := List.append_of_mem ht
  rw [← List.singleton_append, ← List.append_assoc] at h
  obtain ⟨a, b, d, rfl, -, -, -, hstart, hstop⟩ := h.exists_slice (List.cons_ne_nil t [])
  rw [rowStart_cons] at hstart
  rw [rowStop_cons, rowStop_nil] at hstop
  simp only [List.length_append]
  omega

theorem rowStart_lt_rowStop (h : Tiled line column offset text row) (hne : row ≠ []) :
    rowStart row < rowStop 0 row := by
  rw [← List.nil_append row, ← List.append_nil ([] ++ row)] at h
  obtain ⟨a, b, d, -, -, hb, -, hstart, hstop⟩ := h.exists_slice hne
  have := List.length_pos_iff.2 (hb.text_ne_nil hne)
  omega

theorem le_rowStart (h : Tiled line column offset text row) (hne : row ≠ []) :
    offset ≤ rowStart row := by
  rw [← List.nil_append row] at h
  obtain ⟨a, b, -, -, -, hstart⟩ := h.cut_before hne
  omega

/-- **A token is the text between its offsets**, in the text that the tiled one is the end of. -/
theorem span_token (before : List Char) (h : Tiled line column before.length text row) :
    ∀ t ∈ row, t.span = (Source.ofText (before ++ text) line column).span t.start t.stop := by
  generalize hoffset : before.length = offset at h
  induction h generalizing before with
  | done offset => exact List.forall_mem_nil _
  | @gap offset c gap rest row head_eq below ih =>
    rw [← List.append_assoc]
    exact ih _ (by rw [List.length_append, hoffset])
  | @lexeme offset kind c more rest row head_eq below ih =>
    refine List.forall_mem_cons.2 ⟨?_, ?_⟩
    · subst hoffset
      simp [Token.span, Token.ofLexeme, Source.span, Source.ofText]
    · rw [← List.append_assoc]
      exact ih _ (by rw [List.length_append, hoffset])

/-- The span of a single token is its own. -/
theorem spanOf_singleton (h : Tiled line column 0 text row) {t : Token} (ht : t ∈ row) :
    (Source.ofText text line column).spanOf [t] = t.span :=
  (span_token [] h t ht).symm

end Tiled

end ScenarioScript
