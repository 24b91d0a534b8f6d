import Mathlib.Data.List.Forall2
import ScenarioScript.Proofs.Expression.Tiling
import ScenarioScript.Proofs.Outcome

/-!
# Proofs/Expression/Munch — what a lexeme is, and that it is the longest

The classes of lexemes are described here without a scanner.  `Spelled kind text` says that the text
is a lexeme of that kind, and `Maximal kind text rest` that it cannot be made longer by what follows
it.  `head_eq_lexeme_iff`: **the head of a text is the one lexeme that is spelled and maximal**.

A `Decomposition` cuts a text into gaps and lexemes.

* `Decomposition.munched_unique` — no text has two decompositions that are `Munched`;
* `tokenize_eq_ok_iff_munched` — **a text has tokens exactly if it has a munched decomposition**,
  and they are its lexemes at their places, with the token for the end behind them.

The converse half of `head_eq_lexeme_iff` needs to know that the first characters of the classes are
different ones; that no letter is a digit is read off the tables (`isWordStart_of_isDigit`).
-/

namespace ScenarioScript

namespace Text

/-! ## No digit begins a name -/

/-- What is found in ranges lies in one of them. -/
theorem Ranges.exists_of_contains {ranges : Ranges} {n : Nat} (h : ranges.contains n = true) :
    ∃ r ∈ ranges, r.1 ≤ n ∧ n ≤ r.2 := by
  induction ranges with
  | nil => simp [contains] at h
  | cons r later ih =>
    by_cases hn : n < r.1
    · simp [contains, hn] at h
    · simp only [contains, hn, if_false, Bool.or_eq_true, decide_eq_true_eq] at h
      obtain hlast | hlater := h
      · exact ⟨r, List.mem_cons_self, Nat.not_lt.1 hn, hlast⟩
      · obtain ⟨s, hs, hbounds⟩ := ih hlater
        exact ⟨s, List.mem_cons_of_mem r hs, hbounds⟩

/-- The digits of either kind. -/
def digitRanges : Ranges := decimalZeros.map (fun first => (first, first + 9)) ++ markedDigits

theorem exists_of_isDigit {c : Char} (h : isDigit c = true) :
    ∃ r ∈ digitRanges, r.1 ≤ c.toNat ∧ c.toNat ≤ r.2 := by
  rw [isDigit, Bool.or_eq_true] at h
  rcases h with hdecimal | hmarked
  · rw [isDecimal, decimalValue?, Option.isSome_map, List.find?_isSome] at hdecimal
    obtain ⟨first, hfirst, hc⟩ := hdecimal
    rw [Bool.and_eq_true, decide_eq_true_eq, decide_eq_true_eq] at hc
    exact ⟨(first, first + 9), List.mem_append_left _ (List.mem_map_of_mem hfirst), by omega⟩
  · obtain ⟨r, hr, hbounds⟩ := Ranges.exists_of_contains hmarked
    exact ⟨r, List.mem_append_right _ hr, hbounds⟩

/-- **The tables of digits and of letters lie apart.**  Ranges are compared, not characters: there
are too many of those. -/
theorem digitRanges_apart :
    (digitRanges.all fun d => foreignLetters.all fun r => Nat.blt r.2 d.1 || Nat.blt d.2 r.1) =
      true := by
  decide +kernel

/-- **No digit** may begin a name. -/
theorem isWordStart_of_isDigit {c : Char} (h : isDigit c = true) : isWordStart c = false := by
  by_cases hc : c.toNat < 0x80
  · exact of_ascii (P := fun c => isDigit c = true → isWordStart c = false) (by decide +kernel) hc h
  · rw [← Bool.not_eq_true, isWordStart, isLetter, if_neg hc, Bool.or_eq_true, beq_iff_eq]
    rintro (hletter | rfl)
    · obtain ⟨r, hr, hlo, hhi⟩ := Ranges.exists_of_contains hletter
      obtain ⟨d, hd, hlo', hhi'⟩ := exists_of_isDigit h
      have hapart := List.all_eq_true.1 (List.all_eq_true.1 digitRanges_apart d hd) r hr
      rw [Bool.or_eq_true, Nat.blt_eq, Nat.blt_eq] at hapart
      omega
    · exact absurd hc (by decide)

end Text

namespace Lexeme

open ScenarioScript.Text

/-! ## The classes of lexemes -/

/-- **What may stand between the quotes** of a string: characters other than the quote and the
backslash, and pairs of a backslash and any character. -/
inductive StringBody (mark : Char) : List Char → Prop
  | nil : StringBody mark []
  | plain {c : Char} {body : List Char} (ne_mark : c ≠ mark) (ne_backslash : c ≠ '\\')
      (below : StringBody mark body) : StringBody mark (c :: body)
  | pair (c : Char) {body : List Char} (below : StringBody mark body) :
      StringBody mark ('\\' :: c :: body)

/-- One digit or more. -/
def Digits (text : List Char) : Prop := text ≠ [] ∧ ∀ c ∈ text, isDigit c = true

/-- Nothing, or a point and one digit or more. -/
def Fraction (text : List Char) : Prop := text = [] ∨ ∃ digits, Digits digits ∧ text = '.' :: digits

/-- **The twelve operators.** -/
def operators : List (TokenKind × List Char) :=
  [(.eq, ['=', '=']), (.neq, ['!', '=']), (.lte, ['<', '=']), (.gte, ['>', '=']), (.lt, ['<']),
    (.gt, ['>']), (.tilde, ['~']), (.lpar, ['(']), (.rpar, [')']), (.dot, ['.']), (.comma, [',']),
    (.atSign, ['@'])]

/-- **The text is a lexeme** of the kind. -/
inductive Spelled : TokenKind → List Char → Prop
  | string {mark : Char} {body : List Char} (quote : isQuote mark = true)
      (inside : StringBody mark body) : Spelled .string (mark :: (body ++ [mark]))
  | number {sign digits fraction : List Char} (minus : sign = [] ∨ sign = ['-'])
      (whole : Digits digits) (part : Fraction fraction) :
      Spelled .number (sign ++ (digits ++ fraction))
  | trueWord : Spelled .trueWord ['t', 'r', 'u', 'e']
  | falseWord : Spelled .falseWord ['f', 'a', 'l', 's', 'e']
  | ident {c : Char} {more : List Char} (start : isWordStart c = true)
      (word : ∀ d ∈ more, isWord d = true) (ne_true : c :: more ≠ ['t', 'r', 'u', 'e'])
      (ne_false : c :: more ≠ ['f', 'a', 'l', 's', 'e']) : Spelled .ident (c :: more)
  | operator {kind : TokenKind} {text : List Char} (mem : (kind, text) ∈ operators) :
      Spelled kind text

theorem Spelled.ne_nil {kind : TokenKind} {text : List Char} (h : Spelled kind text) :
    text ≠ [] := by
  cases h with
  | string | trueWord | falseWord | ident => exact List.cons_ne_nil _ _
  | number _ hdigits =>
    exact List.append_ne_nil_of_right_ne_nil _ (List.append_ne_nil_of_left_ne_nil hdigits.1 _)
  | operator hmem =>
    have hall : ∀ op ∈ operators, op.2 ≠ [] := by decide
    exact hall _ hmem

/-- Does the text begin with a point and a digit? -/
def startsFraction : List Char → Bool
  | '.' :: c :: _ => isDigit c
  | _ => false

/-- **The lexeme cannot be made longer** by what follows it, nor be spoilt as a number. -/
def Maximal (kind : TokenKind) (text rest : List Char) : Prop :=
  match kind with
  | .ident | .trueWord | .falseWord => rest.head?.any isWord = false
  | .number =>
    rest.head?.any isDigit = false ∧ rest.head?.any isWordStart = false ∧
      ('.' ∈ text ∨ startsFraction rest = false)
  | .lt | .gt => rest.head? ≠ some '='
  | _ => True

/-! ## Scanners and classes -/

section Scanners

variable {p : Char → Bool} {text taken rest fraction number : List Char}

/-- **A longest start** is known by what follows it. -/
theorem takeWhile_and_dropWhile_eq_iff :
    text.takeWhile p = taken ∧ text.dropWhile p = rest ↔
      taken ++ rest = text ∧ (∀ c ∈ taken, p c = true) ∧ rest.head?.any p = false := by
  constructor
  · rintro ⟨rfl, rfl⟩
    refine ⟨List.takeWhile_append_dropWhile, List.all_eq_true.1 List.all_takeWhile, ?_⟩
    have hnil := takeWhile_dropWhile_eq_nil p text
    cases hrest : text.dropWhile p with
    | nil => rfl
    | cons c more =>
      rw [hrest, List.takeWhile_cons] at hnil
      split at hnil
      · exact absurd hnil (List.cons_ne_nil _ _)
      · next hc => simpa using hc
  · rintro ⟨rfl, htaken, hrest⟩
    rw [List.takeWhile_append_of_pos htaken, List.dropWhile_append_of_pos htaken]
    cases rest with
    | nil => simp
    | cons c more => simp_all

/-- A string is cut behind the first of its quotes that no backslash shields. -/
theorem cutString_eq_some_iff {mark : Char} (hmark : mark ≠ '\\') {taken : List Char} :
    cutString mark text = some (taken, rest) ↔
      ∃ body, StringBody mark body ∧ taken = body ++ [mark] ∧ taken ++ rest = text := by
  constructor
  · intro h
    refine (fun ⟨body, hbody, htaken⟩ => ⟨body, hbody, htaken, append_of_cutString h⟩ :
      (∃ body, StringBody mark body ∧ taken = body ++ [mark]) → _) ?_
    fun_induction cutString mark text generalizing taken with
    | case1 => simp at h
    | case2 c tail ih =>
      obtain ⟨⟨b, r⟩, hb, hpair⟩ := Option.map_eq_some_iff.1 h
      obtain ⟨rfl, rfl⟩ := Prod.mk.injEq .. ▸ hpair
      obtain ⟨body, hbody, rfl⟩ := ih hb
      exact ⟨'\\' :: c :: body, .pair c hbody, rfl⟩
    | case3 tail _ =>
      obtain ⟨rfl, rfl⟩ := Prod.mk.injEq .. ▸ Option.some.inj h
      exact ⟨[], .nil, rfl⟩
    | case4 c tail hescape hc ih =>
      obtain ⟨⟨b, r⟩, hb, hpair⟩ := Option.map_eq_some_iff.1 h
      obtain ⟨rfl, rfl⟩ := Prod.mk.injEq .. ▸ hpair
      obtain ⟨body, hbody, rfl⟩ := ih hb
      refine ⟨c :: body, .plain hc ?_ hbody, rfl⟩
      -- a backslash here is the last character, and no quote comes behind it
      rintro rfl
      cases tail with
      | nil => simp [cutString] at hb
      | cons d tail => exact hescape d tail rfl rfl
  · rintro ⟨body, hbody, rfl, rfl⟩
    induction hbody with
    | nil =>
      rw [List.nil_append, List.singleton_append, cutString, if_pos rfl]
      exact fun _ _ e _ => absurd e hmark
    | @plain c body hc hbackslash _ ih =>
      rw [List.cons_append, List.cons_append, cutString, if_neg hc, ih]
      · rfl
      · exact fun _ _ e _ => absurd e hbackslash
    | @pair c body _ ih =>
      simp only [List.cons_append, cutString, ih]
      rfl

theorem startsFraction_point (tail : List Char) :
    startsFraction ('.' :: tail) = tail.head?.any isDigit := by
  cases tail <;> rfl

theorem startsFraction_eq_false (h : ∀ tail, text ≠ '.' :: tail) : startsFraction text = false := by
  unfold startsFraction
  split
  · exact absurd rfl (h _)
  · rfl

/-- **A fraction** is cut off where there is one. -/
theorem cutFraction_eq_iff :
    cutFraction text = (fraction, rest) ↔
      fraction ++ rest = text ∧
        (fraction = [] ∧ startsFraction rest = false ∨
          ∃ digits, Digits digits ∧ fraction = '.' :: digits ∧ rest.head?.any isDigit = false) := by
  constructor
  · intro h
    refine ⟨by simpa [h] using append_cutFraction text, ?_⟩
    unfold cutFraction at h
    split at h
    · next tail =>
      have hspan := takeWhile_and_dropWhile_eq_iff.1
        (⟨rfl, rfl⟩ : tail.takeWhile isDigit = _ ∧ tail.dropWhile isDigit = _)
      split at h
      · next hnil =>
        obtain ⟨rfl, rfl⟩ := Prod.mk.injEq .. ▸ h
        rw [hnil, List.nil_append] at hspan
        exact .inl ⟨rfl, by rw [startsFraction_point, ← hspan.1]; exact hspan.2.2⟩
      · next hne =>
        obtain ⟨rfl, rfl⟩ := Prod.mk.injEq .. ▸ h
        exact .inr ⟨_, ⟨hne, hspan.2.1⟩, rfl, hspan.2.2⟩
    · next hpoint =>
      obtain ⟨rfl, rfl⟩ := Prod.mk.injEq .. ▸ h
      exact .inl ⟨rfl, startsFraction_eq_false hpoint⟩
  · rintro ⟨rfl, ⟨rfl, hstarts⟩ | ⟨digits, ⟨hne, hdigits⟩, rfl, hrest⟩⟩
    · rw [List.nil_append]
      unfold cutFraction
      split
      · next tail =>
        rw [startsFraction_point] at hstarts
        have hnil : tail.takeWhile isDigit = [] :=
          (takeWhile_and_dropWhile_eq_iff.2 ⟨rfl, List.forall_mem_nil _, hstarts⟩).1
        rw [hnil]
      · rfl
    · obtain ⟨htake, hdrop⟩ := takeWhile_and_dropWhile_eq_iff.2 ⟨rfl, hdigits, hrest⟩
      obtain ⟨d, digits, rfl⟩ := List.exists_cons_of_ne_nil hne
      simp only [List.cons_append] at htake hdrop
      simp only [List.cons_append, cutFraction, htake, hdrop]

/-- **A number** is cut off at the head of a text that begins with a digit. -/
theorem cutNumber_eq_iff (h : text.head?.any isDigit = true) :
    cutNumber text = (number, rest) ↔
      number ++ rest = text ∧
        (∃ digits fraction, Digits digits ∧ Fraction fraction ∧ number = digits ++ fraction) ∧
        rest.head?.any isDigit = false ∧ ('.' ∈ number ∨ startsFraction rest = false) := by
  constructor
  · intro hcut
    obtain ⟨happend, hdigits, hbehind⟩ := takeWhile_and_dropWhile_eq_iff.1
      (⟨rfl, rfl⟩ : text.takeWhile isDigit = _ ∧ text.dropWhile isDigit = _)
    have hne : text.takeWhile isDigit ≠ [] := by
      intro hnil
      rw [hnil, List.nil_append] at happend
      rw [happend, h] at hbehind
      exact absurd hbehind nofun
    have hfraction : cutFraction (text.dropWhile isDigit) =
        ((cutFraction (text.dropWhile isDigit)).1, rest) := by
      simp only [cutNumber, Prod.mk.injEq] at hcut
      rw [← hcut.2]
    refine ⟨by simpa [hcut] using append_cutNumber text, ?_⟩
    obtain rfl : text.takeWhile isDigit ++ (cutFraction (text.dropWhile isDigit)).1 = number := by
      simp only [cutNumber, Prod.mk.injEq] at hcut
      exact hcut.1
    obtain ⟨hbelow, ⟨hnil, hstarts⟩ | ⟨digits, hmore, hpoint, hrest⟩⟩ :=
      cutFraction_eq_iff.1 hfraction
    · rw [hnil, List.nil_append] at hbelow
      exact ⟨⟨_, _, ⟨hne, hdigits⟩, .inl hnil, rfl⟩, hbelow ▸ hbehind, .inr hstarts⟩
    · refine ⟨⟨_, _, ⟨hne, hdigits⟩, .inr ⟨digits, hmore, hpoint⟩, rfl⟩, hrest, .inl ?_⟩
      rw [hpoint]
      exact List.mem_append_right _ List.mem_cons_self
  · rintro ⟨rfl, ⟨digits, fraction, ⟨hne, hdigits⟩, hfraction, rfl⟩, hrest, hpoint⟩
    have hbehind : (fraction ++ rest).head?.any isDigit = false := by
      obtain rfl | ⟨more, -, rfl⟩ := hfraction
      · exact hrest
      · show isDigit '.' = false
        decide
    have hcut : cutFraction (fraction ++ rest) = (fraction, rest) := by
      refine cutFraction_eq_iff.2 ⟨rfl, ?_⟩
      obtain rfl | ⟨more, hmore, rfl⟩ := hfraction
      · refine .inl ⟨rfl, hpoint.resolve_left fun hmem => ?_⟩
        rw [List.append_nil] at hmem
        exact absurd (hdigits _ hmem) (by decide)
      · exact .inr ⟨more, hmore, rfl, hrest⟩
    obtain ⟨htake, hdrop⟩ := takeWhile_and_dropWhile_eq_iff.2 ⟨rfl, hdigits, hbehind⟩
    simp only [cutNumber, List.append_assoc, htake, hdrop, hcut]

theorem numberHead_eq_lexeme_iff {sign : List Char} {cut : List Char × List Char}
    {kind : TokenKind} :
    numberHead sign cut = .lexeme kind text rest ↔
      kind = .number ∧ text = sign ++ cut.1 ∧ rest = cut.2 ∧
        rest.head?.any isWordStart = false := by
  constructor
  · intro h
    obtain ⟨hkind, htext, rfl⟩ := eq_of_numberHead h
    refine ⟨hkind, htext, rfl, ?_⟩
    unfold numberHead at h
    split at h
    · next c more hrest =>
      split at h
      · simp at h
      · next hc => simpa [hrest] using hc
    · next hrest => rw [hrest]; rfl
  · rintro ⟨rfl, rfl, rfl, hrest⟩
    unfold numberHead
    split
    · next c more hcut =>
      rw [hcut] at hrest
      rw [if_neg (by simpa using hrest), hcut]
    · next hcut => rw [hcut]

/-- **An operator** is taken where one of the twelve stands, the longer one of two. -/
theorem cutOperator_eq_some_iff {c : Char} {tail : List Char} {kind : TokenKind} :
    cutOperator c tail = some (kind, text, rest) ↔
      text ++ rest = c :: tail ∧ (kind, text) ∈ operators ∧ Maximal kind text rest := by
  constructor
  · intro h
    refine ⟨(append_of_cutOperator h).1, ?_⟩
    unfold cutOperator at h
    split at h
    all_goals
      simp only [Option.some.injEq, Prod.mk.injEq, reduceCtorEq] at h
    all_goals
      obtain ⟨rfl, rfl, rfl⟩ := h
      refine ⟨by decide, ?_⟩
    case h_5 hlonger | h_6 hlonger =>
      intro hhead
      obtain ⟨more, hrest⟩ := List.head?_eq_some_iff.1 hhead
      exact hlonger more hrest
    all_goals exact trivial
  · rintro ⟨happend, hmem, hmaximal⟩
    simp only [operators, List.mem_cons, Prod.mk.injEq, List.not_mem_nil, or_false] at hmem
    rcases hmem with ⟨rfl, rfl⟩ | ⟨rfl, rfl⟩ | ⟨rfl, rfl⟩ | ⟨rfl, rfl⟩ | ⟨rfl, rfl⟩ | ⟨rfl, rfl⟩ |
      ⟨rfl, rfl⟩ | ⟨rfl, rfl⟩ | ⟨rfl, rfl⟩ | ⟨rfl, rfl⟩ | ⟨rfl, rfl⟩ | ⟨rfl, rfl⟩
    all_goals
      rw [List.cons_append] at happend
      obtain ⟨rfl, rfl⟩ := List.cons.inj happend
    case inr.inr.inr.inr.inl | inr.inr.inr.inr.inr.inl =>
      rw [List.nil_append, cutOperator]
      rintro more rfl
      exact hmaximal rfl
    all_goals rfl

end Scanners

/-! ## The head of a text -/

section Head

variable {c : Char} {tail text rest more : List Char} {kind : TokenKind}

/-- What begins a name or a number begins nothing else. -/
theorem plain_of_isWord (h : isWord c = true) : isGap c = false ∧ isQuote c = false ∧ c ≠ '-' := by
  refine ⟨?_, ?_, ?_⟩
  · rw [← Bool.not_eq_true, isGap, Bool.or_eq_true, beq_iff_eq, beq_iff_eq]
    rintro (rfl | rfl)
    all_goals exact absurd h (by decide)
  · rw [← Bool.not_eq_true, isQuote, Bool.or_eq_true, beq_iff_eq, beq_iff_eq]
    rintro (rfl | rfl)
    all_goals exact absurd h (by decide)
  · rintro rfl
    exact absurd h (by decide)

/-- What begins an operator begins nothing else. -/
theorem plain_of_operators : ∀ op ∈ operators, ∀ c, op.2.head? = some c →
    isGap c = false ∧ isQuote c = false ∧ isDigit c = false ∧ c ≠ '-' ∧ isWordStart c = false := by
  have hall : ∀ op ∈ operators, op.2.head?.all (fun c => !isGap c && !isQuote c && !isDigit c &&
      c != '-' && !isWordStart c) = true := by decide
  intro op hop c hc
  have hplain := hall op hop
  simpa [hc, and_assoc] using hplain

/-- A word is a truth value or a name. -/
theorem spelled_ofWord (hc : isWordStart c = true) (hmore : ∀ d ∈ more, isWord d = true) :
    Spelled (.ofWord (c :: more)) (c :: more) := by
  unfold TokenKind.ofWord
  split
  · next htrue => exact htrue ▸ .trueWord
  · next htrue =>
    split
    · next hfalse => exact hfalse ▸ .falseWord
    · next hfalse => exact .ident hc hmore htrue hfalse

theorem maximal_ofWord {word : List Char} :
    Maximal (.ofWord word) word rest ↔ rest.head?.any isWord = false := by
  unfold TokenKind.ofWord
  repeat' split
  all_goals rfl

theorem head_of_word (hc : isWordStart c = true) (hmore : ∀ d ∈ more, isWord d = true)
    (hrest : rest.head?.any isWord = false) :
    head c (more ++ rest) = .lexeme (.ofWord (c :: more)) (c :: more) rest := by
  obtain ⟨hgap, hquote, hminus⟩ := plain_of_isWord (isWord_of_isWordStart hc)
  have hdigit : isDigit c = false := by
    rw [← Bool.not_eq_true]
    intro h
    rw [isWordStart_of_isDigit h] at hc
    exact absurd hc nofun
  obtain ⟨htake, hdrop⟩ := takeWhile_and_dropWhile_eq_iff.2 ⟨rfl, hmore, hrest⟩
  simp only [head, hgap, hquote, hdigit, hminus, hc, htake, hdrop, decide_false, Bool.false_and,
    Bool.false_eq_true, if_false, if_true]

/-- **What is taken off is a lexeme**, and there is no longer one. -/
theorem spelled_of_head (h : head c tail = .lexeme kind text rest) :
    Spelled kind text ∧ Maximal kind text rest := by
  unfold head at h
  split at h
  · simp at h
  split at h
  · next hquote =>
    split at h
    · next body after hcut =>
      obtain ⟨rfl, rfl, rfl⟩ := Head.lexeme.injEq .. ▸ h
      have hmark : c ≠ '\\' := by
        rintro rfl
        exact absurd hquote (by decide)
      obtain ⟨body, hbody, rfl, -⟩ := (cutString_eq_some_iff hmark).1 hcut
      exact ⟨.string hquote hbody, trivial⟩
    · simp at h
  split at h
  · next hdigit =>
    have hhead : (c :: tail).head?.any isDigit = true := hdigit
    generalize hcut : cutNumber (c :: tail) = cut at h
    obtain ⟨number, after⟩ := cut
    obtain ⟨rfl, rfl, rfl, hword⟩ := numberHead_eq_lexeme_iff.1 h
    obtain ⟨-, ⟨digits, fraction, hdigits, hfraction, rfl⟩, hrest, hpoint⟩ :=
      (cutNumber_eq_iff hhead).1 hcut
    exact ⟨.number (.inl rfl) hdigits hfraction, hrest, hword, hpoint⟩
  split at h
  · next hminus =>
    obtain ⟨rfl, hdigit⟩ : c = '-' ∧ (tail.head?.any isDigit) = true := by simpa using hminus
    generalize hcut : cutNumber tail = cut at h
    obtain ⟨number, after⟩ := cut
    obtain ⟨rfl, rfl, rfl, hword⟩ := numberHead_eq_lexeme_iff.1 h
    obtain ⟨-, ⟨digits, fraction, hdigits, hfraction, rfl⟩, hrest, hpoint⟩ :=
      (cutNumber_eq_iff hdigit).1 hcut
    exact ⟨.number (.inr rfl) hdigits hfraction, hrest, hword,
      hpoint.imp_left (List.mem_append_right _)⟩
  split at h
  · next hword =>
    obtain ⟨rfl, rfl, rfl⟩ := Head.lexeme.injEq .. ▸ h
    obtain ⟨-, hmore, hrest⟩ := takeWhile_and_dropWhile_eq_iff.1
      (⟨rfl, rfl⟩ : tail.takeWhile isWord = _ ∧ tail.dropWhile isWord = _)
    exact ⟨spelled_ofWord hword hmore, maximal_ofWord.2 hrest⟩
  split at h
  · next k op after hop =>
    obtain ⟨rfl, rfl, rfl⟩ := Head.lexeme.injEq .. ▸ h
    obtain ⟨-, hmem, hmaximal⟩ := cutOperator_eq_some_iff.1 hop
    exact ⟨.operator hmem, hmaximal⟩
  · simp at h

/-- **A lexeme that cannot be made longer is taken off.** -/
theorem head_of_spelled (hspelled : Spelled kind text) (hmaximal : Maximal kind text rest)
    (happend : text ++ rest = c :: tail) : head c tail = .lexeme kind text rest := by
  cases hspelled with
  | @string mark body hquote hbody =>
    rw [List.cons_append] at happend
    obtain ⟨rfl, rfl⟩ := List.cons.inj happend
    have hgap : isGap mark = false := by
      rw [isQuote, Bool.or_eq_true, beq_iff_eq, beq_iff_eq] at hquote
      obtain rfl | rfl := hquote
      all_goals decide
    have hmark : mark ≠ '\\' := by
      rintro rfl
      exact absurd hquote (by decide)
    have hcut : cutString mark (body ++ [mark] ++ rest) = some (body ++ [mark], rest) :=
      (cutString_eq_some_iff hmark).2 ⟨body, hbody, rfl, rfl⟩
    simp only [head, hgap, hquote, hcut, Bool.false_eq_true, if_false, if_true]
  | @number sign digits fraction hsign hdigits hfraction =>
    obtain ⟨hrest, hword, hpoint⟩ := hmaximal
    have hhead : (digits ++ fraction ++ rest).head?.any isDigit = true := by
      obtain ⟨d, digits, rfl⟩ := List.exists_cons_of_ne_nil hdigits.1
      exact hdigits.2 d List.mem_cons_self
    have hcut : cutNumber (digits ++ fraction ++ rest) = (digits ++ fraction, rest) := by
      refine (cutNumber_eq_iff hhead).2
        ⟨rfl, ⟨digits, fraction, hdigits, hfraction, rfl⟩, hrest, ?_⟩
      refine hpoint.imp_left fun hmem => (List.mem_append.1 hmem).resolve_left fun hmem => ?_
      obtain rfl | rfl := hsign
      all_goals simp at hmem
    obtain rfl | rfl := hsign
    · rw [List.nil_append] at happend ⊢
      have hdigit : isDigit c = true := by simpa [happend] using hhead
      obtain ⟨hgap, hquote, -⟩ := plain_of_isWord (isWord_of_isDigit hdigit)
      rw [happend] at hcut
      simp only [head, hgap, hquote, hdigit, Bool.false_eq_true, if_false, if_true]
      exact numberHead_eq_lexeme_iff.2 ⟨rfl, by rw [hcut]; rfl, by rw [hcut], hword⟩
    · rw [List.append_assoc, List.singleton_append] at happend
      obtain ⟨rfl, rfl⟩ := List.cons.inj happend
      have hgap : isGap '-' = false := by decide
      have hquote : isQuote '-' = false := by decide
      have hdigit : isDigit '-' = false := by decide
      simp only [head, hgap, hquote, hdigit, hhead, hcut, decide_true, Bool.and_self,
        Bool.false_eq_true, if_false, if_true]
      exact numberHead_eq_lexeme_iff.2 ⟨rfl, rfl, rfl, hword⟩
  | trueWord | falseWord =>
    rw [List.cons_append] at happend
    obtain ⟨rfl, rfl⟩ := List.cons.inj happend
    exact head_of_word (by decide) (List.all_eq_true.1 (by decide)) hmaximal
  | @ident d more hstart hmore htrue hfalse =>
    rw [List.cons_append] at happend
    obtain ⟨rfl, rfl⟩ := List.cons.inj happend
    rw [head_of_word hstart hmore hmaximal, TokenKind.ofWord, if_neg htrue, if_neg hfalse]
  | operator hmem =>
    have hcut : cutOperator c tail = some (kind, text, rest) :=
      cutOperator_eq_some_iff.2 ⟨happend, hmem, hmaximal⟩
    obtain ⟨d, more, rfl⟩ := List.exists_cons_of_ne_nil (append_of_cutOperator hcut).2
    obtain ⟨rfl, -⟩ := List.cons.inj happend
    obtain ⟨hgap, hquote, hdigit, hminus, hword⟩ := plain_of_operators _ hmem d rfl
    simp only [head, hgap, hquote, hdigit, hminus, hword, hcut, decide_false, Bool.false_and,
      Bool.false_eq_true, if_false]

/-- **The head of a text is the lexeme that is spelled there and maximal.** -/
theorem head_eq_lexeme_iff :
    head c tail = .lexeme kind text rest ↔
      text ++ rest = c :: tail ∧ Spelled kind text ∧ Maximal kind text rest :=
  ⟨fun h => ⟨(append_of_head_lexeme h).1, spelled_of_head h⟩,
    fun ⟨happend, hspelled, hmaximal⟩ => head_of_spelled hspelled hmaximal happend⟩

/-- No lexeme begins as a gap does. -/
theorem head?_of_spelled (hspelled : Spelled kind text) (hmaximal : Maximal kind text rest) :
    (text ++ rest).head?.any isGap = false := by
  cases happend : text ++ rest with
  | nil => rfl
  | cons c tail =>
    have hhead := head_of_spelled hspelled hmaximal happend
    rw [← Bool.not_eq_true]
    intro hgap
    rw [head, if_pos (show isGap c = true from hgap)] at hhead
    cases hhead

end Head

end Lexeme

/-! ## Decompositions -/

open Lexeme

/-- **A text cut into gaps and lexemes**: a gap before each lexeme and one behind the last. -/
inductive Decomposition where
  | last (gap : List Char)
  | piece (gap : List Char) (kind : TokenKind) (lexeme : List Char) (below : Decomposition)
  deriving DecidableEq, Repr

namespace Decomposition

/-- The text that was cut. -/
def text : Decomposition → List Char
  | .last gap => gap
  | .piece gap _ lexeme below => gap ++ (lexeme ++ below.text)

/-- The lexemes, each with its kind. -/
def lexemes : Decomposition → List (TokenKind × List Char)
  | .last _ => []
  | .piece _ kind lexeme below => (kind, lexeme) :: below.lexemes

/-- **The lexemes as tokens**, if the text begins at the given offset. -/
def tokens (line column : Int) : Nat → Decomposition → List Token
  | _, .last _ => []
  | offset, .piece gap kind lexeme below =>
    .ofLexeme line column (offset + gap.length) kind lexeme ::
      tokens line column (offset + gap.length + lexeme.length) below

/-- **Gaps are spaces and tabs**, and every lexeme is spelled as one of its kind and maximal before
what follows it. -/
def Munched : Decomposition → Prop
  | .last gap => ∀ c ∈ gap, isGap c = true
  | .piece gap kind lexeme below =>
    (∀ c ∈ gap, isGap c = true) ∧ Spelled kind lexeme ∧ Maximal kind lexeme below.text ∧
      below.Munched

/-- The decomposition with a longer first gap. -/
def indent (more : List Char) : Decomposition → Decomposition
  | .last gap => .last (more ++ gap)
  | .piece gap kind lexeme below => .piece (more ++ gap) kind lexeme below

@[simp] theorem text_indent (more : List Char) (d : Decomposition) :
    (d.indent more).text = more ++ d.text := by
  cases d <;> simp [indent, text]

theorem tokens_indent (line column : Int) (offset : Nat) (more : List Char) (d : Decomposition) :
    (d.indent more).tokens line column offset = d.tokens line column (offset + more.length) := by
  cases d <;> simp [indent, tokens, Nat.add_assoc]

theorem Munched.indent {more : List Char} (hmore : ∀ c ∈ more, isGap c = true)
    {d : Decomposition} (h : d.Munched) : (d.indent more).Munched := by
  cases d with
  | last gap => exact List.forall_mem_append.2 ⟨hmore, h⟩
  | piece gap kind lexeme below => exact ⟨List.forall_mem_append.2 ⟨hmore, h.1⟩, h.2⟩

variable {line column : Int} {offset : Nat}

/-- A gap in front of what does not begin with one tiles the text as it stands. -/
theorem tiled_gap {gap rest : List Char} {row : List Token} (hgap : ∀ c ∈ gap, isGap c = true)
    (hrest : rest.head?.any isGap = false)
    (h : Tiled line column (offset + gap.length) rest row) :
    Tiled line column offset (gap ++ rest) row := by
  cases gap with
  | nil => exact h
  | cons c gap =>
    obtain ⟨hc, hgap⟩ := List.forall_mem_cons.1 hgap
    obtain ⟨htake, hdrop⟩ := takeWhile_and_dropWhile_eq_iff.2 ⟨rfl, hgap, hrest⟩
    exact .gap (by rw [head, if_pos hc, htake, hdrop]) h

/-- **What is munched is what reading finds.** -/
theorem Munched.tiled {d : Decomposition} (h : d.Munched) (offset : Nat) :
    Tiled line column offset d.text (d.tokens line column offset) := by
  induction d generalizing offset with
  | last gap =>
    have hgap : Tiled line column offset (gap ++ []) [] := tiled_gap h rfl (.done _)
    rwa [List.append_nil] at hgap
  | piece gap kind lexeme below ih =>
    obtain ⟨hgap, hspelled, hmaximal, hbelow⟩ := h
    refine tiled_gap hgap (head?_of_spelled hspelled hmaximal) ?_
    obtain ⟨c, more, rfl⟩ := List.exists_cons_of_ne_nil hspelled.ne_nil
    exact .lexeme (head_of_spelled hspelled hmaximal rfl) (ih hbelow _)

/-- **What reading finds is munched.** -/
theorem exists_munched_of_tiled {text : List Char} {row : List Token}
    (h : Tiled line column offset text row) :
    ∃ d : Decomposition, d.Munched ∧ d.text = text ∧ d.tokens line column offset = row := by
  induction h with
  | done offset => exact ⟨.last [], List.forall_mem_nil _, rfl, rfl⟩
  | @gap offset c gap rest row head_eq _ ih =>
    obtain ⟨d, hd, htext, htokens⟩ := ih
    refine ⟨d.indent (c :: gap), hd.indent (isGap_of_head_gap head_eq), ?_, ?_⟩
    · rw [text_indent, htext]
    · rw [tokens_indent, htokens]
  | @lexeme offset kind c more rest row head_eq _ ih =>
    obtain ⟨d, hd, rfl, rfl⟩ := ih
    obtain ⟨hspelled, hmaximal⟩ := spelled_of_head head_eq
    exact ⟨.piece [] kind (c :: more) d, ⟨List.forall_mem_nil _, hspelled, hmaximal, hd⟩, rfl, rfl⟩

/-- The first gap ends where something else begins. -/
theorem Munched.span_last {gap : List Char} (h : (last gap).Munched) :
    gap.takeWhile isGap = gap ∧ gap.dropWhile isGap = [] :=
  takeWhile_and_dropWhile_eq_iff.2 ⟨List.append_nil gap, h, rfl⟩

theorem Munched.span_piece {gap lexeme : List Char} {kind : TokenKind} {below : Decomposition}
    (h : (piece gap kind lexeme below).Munched) :
    (piece gap kind lexeme below).text.takeWhile isGap = gap ∧
      (piece gap kind lexeme below).text.dropWhile isGap = lexeme ++ below.text :=
  takeWhile_and_dropWhile_eq_iff.2 ⟨rfl, h.1, head?_of_spelled h.2.1 h.2.2.1⟩

theorem Munched.last_ne_piece {gap gap' lexeme : List Char} {kind : TokenKind}
    {below : Decomposition} (hlast : (last gap).Munched)
    (hpiece : (piece gap' kind lexeme below).Munched) :
    (last gap).text ≠ (piece gap' kind lexeme below).text := fun h => by
  have hdrop := hpiece.span_piece.2
  rw [← h, text, hlast.span_last.2] at hdrop
  exact hpiece.2.1.ne_nil (List.append_eq_nil_iff.1 hdrop.symm).1

/-- **Nothing is left to choose**: a text has one munched decomposition at most. -/
theorem munched_unique {d e : Decomposition} (hd : d.Munched) (he : e.Munched)
    (h : d.text = e.text) : d = e := by
  induction d generalizing e with
  | last gap =>
    cases e with
    | last gap' => exact congrArg last h
    | piece => exact absurd h (hd.last_ne_piece he)
  | piece gap kind lexeme below ih =>
    cases e with
    | last gap' => exact absurd h.symm (he.last_ne_piece hd)
    | piece gap' kind' lexeme' below' =>
      obtain ⟨htake, hdrop⟩ := hd.span_piece
      obtain ⟨htake', hdrop'⟩ := he.span_piece
      rw [h] at htake hdrop
      obtain rfl : gap = gap' := htake.symm.trans htake'
      have hrest : lexeme ++ below.text = lexeme' ++ below'.text := hdrop.symm.trans hdrop'
      obtain ⟨-, hspelled, hmaximal, hbelow⟩ := hd
      obtain ⟨-, hspelled', hmaximal', hbelow'⟩ := he
      obtain ⟨c, more, rfl⟩ := List.exists_cons_of_ne_nil hspelled.ne_nil
      have hhead := head_of_spelled hspelled hmaximal rfl
      have hhead' := head_of_spelled hspelled' hmaximal' hrest.symm
      obtain ⟨rfl, rfl, hbelow_text⟩ := Head.lexeme.injEq .. ▸ hhead.symm.trans hhead'
      rw [ih hbelow hbelow' hbelow_text]

/-- **A token holds its lexeme** and says where it stands in the text, of which the given part comes
first. -/
theorem forall₂_tokens (line column : Int) (before : List Char) (d : Decomposition) :
    List.Forall₂
      (fun lexeme t => t.kind = lexeme.1 ∧ t.text.toList = lexeme.2 ∧
        ((before ++ d.text).take t.stop).drop t.start = lexeme.2 ∧ t.line = line ∧
        t.column = column + t.start)
      d.lexemes (d.tokens line column before.length) := by
  induction d generalizing before with
  | last gap => exact .nil
  | piece gap kind lexeme below ih =>
    have htext : before ++ (piece gap kind lexeme below).text =
        before ++ gap ++ lexeme ++ below.text := by simp only [text, List.append_assoc]
    have hbelow := ih (before ++ gap ++ lexeme)
    rw [← htext, List.length_append, List.length_append] at hbelow
    refine .cons ⟨rfl, String.toList_ofList, ?_, rfl, rfl⟩ hbelow
    simp only [Token.ofLexeme, htext]
    rw [← List.length_append, ← List.length_append, List.take_left, List.drop_left]

/-- **Reading is the munched decomposition of the text.**  A text has tokens exactly if it falls
into gaps of spaces and tabs and maximal lexemes, it does so in one way only, and every token holds
its lexeme, which is what stands between its offsets; the token for the end stands where the text
stops. -/
theorem tokenize_eq_ok_iff_munched (line column : Int) (text : List Char) :
    (∀ row, tokenize line column text = .ok row ↔
      ∃ d : Decomposition, d.Munched ∧ d.text = text ∧
        row = d.tokens line column 0 ++
          [⟨.eof, "", line, column + text.length, text.length, text.length⟩]) ∧
    (∀ d e : Decomposition, d.Munched → e.Munched → d.text = text → e.text = text → d = e) ∧
    ∀ d : Decomposition, d.text = text →
      List.Forall₂
        (fun lexeme t => t.kind = lexeme.1 ∧ t.text.toList = lexeme.2 ∧
          (text.take t.stop).drop t.start = lexeme.2 ∧ t.line = line ∧
          t.column = column + t.start)
        d.lexemes (d.tokens line column 0) := by
  refine ⟨fun row => ?_, fun d e hd he htext htext' =>
    munched_unique hd he (htext.trans htext'.symm), ?_⟩
  · rw [tokenize, Outcome.map_eq_ok]
    constructor
    · rintro ⟨tokens, htokens, rfl⟩
      obtain ⟨d, hd, htext, rfl⟩ := exists_munched_of_tiled (tokensOf_eq_ok_iff.1 htokens)
      exact ⟨d, hd, htext, rfl⟩
    · rintro ⟨d, hd, rfl, rfl⟩
      exact ⟨_, tokensOf_eq_ok_iff.2 (hd.tiled 0), rfl⟩
  · rintro d rfl
    exact forall₂_tokens line column [] d

/-- The longer of two operators is taken, a minus sign belongs to the number behind it, and a point
behind a fraction is no part of it. -/
theorem tokenize_sample :
    tokenize 3 10 "a<= -1.5.b".toList =
      .ok [⟨.ident, "a", 3, 10, 0, 1⟩, ⟨.lte, "<=", 3, 11, 1, 3⟩, ⟨.number, "-1.5", 3, 14, 4, 8⟩,
        ⟨.dot, ".", 3, 18, 8, 9⟩, ⟨.ident, "b", 3, 19, 9, 10⟩, ⟨.eof, "", 3, 20, 10, 10⟩] := by
  have hname (c : Char) (h : Text.isWordStart c = true) : Spelled .ident [c] :=
    .ident h (List.forall_mem_nil _) nofun nofun
  have hdigits (c : Char) (h : Text.isDigit c = true) : Digits [c] :=
    ⟨List.cons_ne_nil c [], List.forall_mem_singleton.2 h⟩
  have hnumber : Spelled .number ['-', '1', '.', '5'] :=
    .number (.inr rfl) (hdigits '1' (by decide)) (.inr ⟨['5'], hdigits '5' (by decide), rfl⟩)
  exact ((tokenize_eq_ok_iff_munched 3 10 "a<= -1.5.b".toList).1 _).2
    ⟨.piece [] .ident ['a'] <| .piece [] .lte ['<', '='] <|
        .piece [' '] .number ['-', '1', '.', '5'] <| .piece [] .dot ['.'] <|
        .piece [] .ident ['b'] <| .last [],
      ⟨List.forall_mem_nil _, hname 'a' (by decide), (by decide : Text.isWord '<' = false),
        List.forall_mem_nil _, .operator (by decide), trivial,
        List.forall_mem_singleton.2 rfl, hnumber, ⟨by decide, by decide, .inl (by decide)⟩,
        List.forall_mem_nil _, .operator (by decide), trivial,
        List.forall_mem_nil _, hname 'b' (by decide), rfl, List.forall_mem_nil _⟩,
      rfl, rfl⟩

end Decomposition

end ScenarioScript
