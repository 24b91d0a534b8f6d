import Mathlib.Data.Nat.Digits.Defs
import ScenarioScript.Proofs.Form.Faithful
import ScenarioScript.Proofs.Report.Statement
import ScenarioScript.Proofs.Settings.Flags

/-!
# Proofs/Settings/Literals — the settings that take nothing but a literal

A count of samples and a mode of warming up are read from their expression at once.  The expression
may be any there is, but what is taken is **the text of the whole argument**, as an expression without
blanks around it is covered by its tree: neither a sign nor a fraction, neither parentheses nor a call
go through.

* `Text.Spells` — the number that a row of decimal digits is, in base ten;
* `readCount_eq_ok`, `readWarmup_eq_ok` — the arguments that are taken, and for what;
* `Draft.addLine_literals` — so a line that sets a count or a mode is taken in where settings may
  stand, or refused.
-/

namespace ScenarioScript

open Outcome Text

/-! ## Decimal digits -/

namespace Text

variable {text : List Char} {n : Nat}

/-- **The number that decimal digits spell** in base ten, whatever scripts they are from; the first is
worth the most. -/
def Spells (text : List Char) (n : Nat) : Prop :=
  ∃ digits : List Nat, text.map decimalValue? = digits.map some ∧ n = Nat.ofDigits 10 digits.reverse

theorem decimalNumber_eq_ofDigits {digits : List Nat}
    (h : text.map decimalValue? = digits.map some) :
    decimalNumber text = Nat.ofDigits 10 digits.reverse := by
  have hfold : decimalNumber text =
      (text.map decimalValue?).foldl (fun n value => 10 * n + value.getD 0) 0 := by
    rw [decimalNumber, List.foldl_map]
  rw [hfold, h, List.foldl_map, Nat.ofDigits_eq_foldr, List.foldr_reverse]
  simp only [Option.getD_some, Nat.cast_id, Nat.add_comm]

/-- **Digits spell a number**, and nothing else does. -/
theorem spells_iff : Spells text n ↔ (∀ c ∈ text, isDecimal c = true) ∧ decimalNumber text = n := by
  constructor
  · rintro ⟨digits, hdigits, rfl⟩
    refine ⟨fun c hc => ?_, decimalNumber_eq_ofDigits hdigits⟩
    have hmem : decimalValue? c ∈ digits.map some := hdigits ▸ List.mem_map_of_mem hc
    obtain ⟨digit, -, hdigit⟩ := List.mem_map.1 hmem
    rw [isDecimal, ← hdigit, Option.isSome_some]
  · rintro ⟨hdecimal, rfl⟩
    have hdigits : text.map decimalValue? =
        (text.map fun c => (decimalValue? c).getD 0).map some := by
      rw [List.map_map]
      refine List.map_congr_left fun c hc => ?_
      obtain ⟨digit, hdigit⟩ := Option.isSome_iff_exists.1 (hdecimal c hc)
      simp [hdigit]
    exact ⟨_, hdigits, decimalNumber_eq_ofDigits hdigits⟩

theorem Spells.unique {m : Nat} (h : Spells text n) (h' : Spells text m) : n = m :=
  (spells_iff.1 h).2.symm.trans (spells_iff.1 h').2

theorem exists_spells_iff : (∃ n, Spells text n) ↔ ∀ c ∈ text, isDecimal c = true := by
  simp [spells_iff]

/-- A text that can stand on a line of its own has no blanks around it. -/
theorem Tidy.trimmed (h : Tidy text) : Trimmed text where
  ne_nil := h.ne_nil
  head := h.head
  last := h.last
  unbroken hmem := absurd (h.unbroken _ hmem) (by decide)

end Text

/-! ## The arguments that are taken -/

section Values

variable {text : List Char} {n : Nat} (line column : Int)

/-- **The result is a fault** of the script. -/
def Outcome.IsFault {α : Type} (r : Except Failure α) : Prop := ∃ d, r = .error (.fault d)

theorem Outcome.isFault_map {α β : Type} {r : Except Failure α} {f : α → β} :
    IsFault (r.map f) ↔ IsFault r :=
  exists_congr fun _ => map_eq_error

/-- An argument as a count. -/
def readCount (text : List Char) (line column : Int) : Except Failure Nat :=
  (parseExpression text line column false).bind (countValue SettingKey.samples.word)

/-- An argument as a mode of warming up. -/
def readWarmup (text : List Char) (line column : Int) : Except Failure Warmup :=
  (parseExpression text line column false).bind (warmupValue SettingKey.warmup.word)

/-- **A row of decimal digits** is read to one number. -/
theorem parseExpression_decimals (hne : text ≠ []) (h : ∀ c ∈ text, isDecimal c = true) :
    ∃ t, parseExpression text line column false = .ok t ∧ t.label? = some .number := by
  have hdigits : Lexeme.Digits text := ⟨hne, fun c hc => isDigit_of_isDecimal (h c hc)⟩
  have hspelled : Lexeme.Spelled .number ([] ++ (text ++ [])) :=
    .number (.inl rfl) hdigits (.inl rfl)
  rw [List.nil_append, List.append_nil] at hspelled
  obtain ⟨t, label, token, ht, hatom, hkind, -⟩ :=
    exists_isAtom_of_wrapped .bare hspelled rfl line column false
  have hnumber : atomLabel? token = some .number :=
    atomLabel?_of_literalLabel? (by rw [Grammar.literalLabel?, hkind])
  obtain rfl := Option.some.inj (hatom.known.symm.trans hnumber)
  exact ⟨t, ht, hatom.label?_eq⟩

/-- **What is refused as a value** is refused as an argument: a tree has the text of the argument, and
an argument without a tree has a fault. -/
theorem isFault_of_parseExpression {α : Type} {read : Tree → Except Failure α} (h : Trimmed text)
    (hread : ∀ t : Tree, t.text.toList = text → IsFault (read t)) :
    IsFault ((parseExpression text line column false).bind read) := by
  cases ht : parseExpression text line column false with
  | error failure =>
    obtain ⟨hlocal, -⟩ := at_parseExpression text line column false failure ht
    exact ⟨_, rfl⟩
  | ok t => exact hread t (by rw [text_of_parseExpression h ht, String.toList_ofList])

/-- **Digits are counted**, if they are not too many. -/
theorem readCount_of_spells (h : Trimmed text) (hn : Spells text n) :
    readCount text line column =
      if text.length ≤ digitLimit then .ok n else .error .numeralTooLong := by
  obtain ⟨hdecimal, rfl⟩ := spells_iff.1 hn
  obtain ⟨t, ht, hlabel⟩ := parseExpression_decimals line column h.ne_nil hdecimal
  have htext : t.text.toList = text := by
    rw [text_of_parseExpression h ht, String.toList_ofList]
  simp only [readCount, ht, Except.bind, countValue, htext]
  exact if_pos ⟨hlabel, h.ne_nil, List.all_eq_true.2 hdecimal⟩

/-- **What is no row of digits** is refused. -/
theorem isFault_readCount (h : Trimmed text) (hn : ¬∃ n, Spells text n) :
    IsFault (readCount text line column) := by
  refine isFault_of_parseExpression line column h fun t ht => ?_
  have hall : ¬text.all isDecimal = true := fun hall =>
    hn (exists_spells_iff.2 (List.all_eq_true.1 hall))
  rw [countValue, ht, if_neg fun hdigits => hall hdigits.2.2]
  exact ⟨_, rfl⟩

/-- **The texts of the modes**, one by one. -/
theorem Warmup.exists_text_iff : (∃ mode : Warmup, mode.text.toList = text) ↔
    text ∈ ["true".toList, "false".toList, "'auto'".toList] := by
  constructor
  · rintro ⟨mode, rfl⟩
    cases mode <;> decide
  · intro h
    simp only [List.mem_cons, List.not_mem_nil, or_false] at h
    obtain rfl | rfl | rfl := h
    exacts [⟨.on, rfl⟩, ⟨.off, rfl⟩, ⟨.auto, rfl⟩]

/-- A mode is read as it is written. -/
theorem readWarmup_text (mode : Warmup) : readWarmup mode.text.toList line column = .ok mode := by
  obtain ⟨t, ht, hmode⟩ := warmupValue_again mode SettingKey.warmup.word line column
  rw [readWarmup, ht]
  exact hmode

/-- **What is not written as a mode** is refused. -/
theorem isFault_readWarmup (h : Trimmed text) (hmode : ¬∃ mode : Warmup, mode.text.toList = text) :
    IsFault (readWarmup text line column) := by
  refine isFault_of_parseExpression line column h fun t ht => ?_
  have hnone : Warmup.ofText? t.text = none := by
    refine List.find?_eq_none.2 fun mode _ hfound => hmode ⟨mode, ?_⟩
    rw [eq_of_beq hfound, ht]
  rw [warmupValue, hnone, ite_self]
  exact ⟨_, rfl⟩

/-- **A count is taken** of a row of digits that is not too long, and of nothing else. -/
theorem readCount_eq_ok (h : Trimmed text) :
    readCount text line column = .ok n ↔ text.length ≤ digitLimit ∧ Spells text n := by
  by_cases hspells : ∃ m, Spells text m
  · obtain ⟨m, hm⟩ := hspells
    rw [readCount_of_spells line column h hm]
    split
    · next hlength =>
      exact ⟨fun hn => ⟨hlength, Except.ok.inj hn ▸ hm⟩, fun hn => congrArg _ (hm.unique hn.2)⟩
    · next hlength => exact iff_of_false error_ne_ok fun hn => hlength hn.1
  · obtain ⟨d, hd⟩ := isFault_readCount line column h hspells
    rw [hd]
    exact iff_of_false error_ne_ok fun hn => hspells ⟨n, hn.2⟩

theorem readCount_eq_tooLong (h : Trimmed text) :
    readCount text line column = .error .numeralTooLong ↔
      digitLimit < text.length ∧ ∃ n, Spells text n := by
  by_cases hspells : ∃ m, Spells text m
  · obtain ⟨m, hm⟩ := hspells
    rw [readCount_of_spells line column h hm]
    split
    · next hlength => exact iff_of_false nofun fun hn => Nat.not_lt_of_le hlength hn.1
    · next hlength => exact iff_of_true rfl ⟨Nat.lt_of_not_le hlength, m, hm⟩
  · obtain ⟨d, hd⟩ := isFault_readCount line column h hspells
    rw [hd]
    exact iff_of_false nofun fun hn => hspells hn.2

theorem isFault_readCount_iff (h : Trimmed text) :
    IsFault (readCount text line column) ↔ ¬∃ n, Spells text n := by
  refine ⟨?_, isFault_readCount line column h⟩
  rintro ⟨d, hd⟩ ⟨n, hn⟩
  rw [readCount_of_spells line column h hn] at hd
  split at hd <;> exact absurd hd nofun

/-- **A mode is taken** of its own text, and of nothing else. -/
theorem readWarmup_eq_ok (h : Trimmed text) {mode : Warmup} :
    readWarmup text line column = .ok mode ↔ mode.text.toList = text := by
  refine ⟨fun hok => ?_, fun hmode => hmode ▸ readWarmup_text line column mode⟩
  by_cases hsome : ∃ mode : Warmup, mode.text.toList = text
  · obtain ⟨mode', rfl⟩ := hsome
    rw [readWarmup_text] at hok
    rw [Except.ok.inj hok]
  · obtain ⟨d, hd⟩ := isFault_readWarmup line column h hsome
    exact absurd (hd.symm.trans hok) error_ne_ok

theorem isFault_readWarmup_iff (h : Trimmed text) :
    IsFault (readWarmup text line column) ↔ ¬∃ mode : Warmup, mode.text.toList = text := by
  refine ⟨?_, isFault_readWarmup line column h⟩
  rintro ⟨d, hd⟩ ⟨mode, hmode⟩
  rw [(readWarmup_eq_ok line column h).2 hmode] at hd
  exact absurd hd nofun

end Values

/-! ## The lines that are taken in -/

/-- **The line of a setting**: its word, a space and an argument. -/
def settingLine (key : SettingKey) (depth line column : Int) (argument : List Char) : ScriptLine :=
  ⟨depth, String.ofList (key.word.toList ++ ' ' :: argument), line, column⟩

/-- The column of an argument behind the word of a setting and a space. -/
def SettingKey.argumentColumn (key : SettingKey) (column : Int) : Int :=
  column + (key.word.toList.length + 1 : Nat)

namespace Draft

variable {site : Site} {d e : Draft} {s : Statement} {c : Config} {depth : Int} {text : List Char}

/-- **Other settings** for the open block, or at top level; a group has none. -/
def withConfig (d : Draft) (c : Config) : Draft :=
  match d.block with
  | .root => { finished := { d.finished with config := c } }
  | .scenario s => { d with block := .scenario { s with config := c } }
  | .group _ => d
  | .scenarioStep s step => { d with block := .scenarioStep s { step with config := c } }
  | .groupStep g step => { d with block := .groupStep g { step with config := c } }

/-- **Where settings may stand** a setting takes effect on those there are. -/
theorem outcome_takeIn_setting (hconfig : d.config? = some c) {choice : Setting}
    (hcommand : s.command = .setting choice) :
    (d.takeIn site s).outcome = (c.apply choice).map d.withConfig := by
  obtain ⟨finished, block⟩ := d
  cases block with
  | group => exact absurd hconfig nofun
  | root =>
    obtain rfl := Option.some.inj hconfig
    simp only [takeIn, addToRoot, hcommand, Traced.outcome_bind_pure]
    rfl
  | scenario =>
    obtain rfl := Option.some.inj hconfig
    simp only [takeIn, addToScenario, hcommand, Traced.outcome_bind_pure, Traced.outcome_liftM,
      map_map]
    rfl
  | scenarioStep | groupStep =>
    obtain rfl := Option.some.inj hconfig
    simp only [takeIn, addToStep, hcommand, Traced.outcome_bind_pure, Traced.outcome_liftM, map_map]
    rfl

/-- **The line of a setting** is understood as its argument is read. -/
theorem classify_settingLine (htext : Tidy text) {key : SettingKey} {make : Tree → Setting}
    (hread : ∀ a, key.read a = (a.value (.setting key) false).map make)
    (depth line column : Int) :
    classify (settingLine key depth line column text) =
      (parseExpression text line (key.argumentColumn column) false).map
        fun value => ⟨.setting (make value), String.ofList text, depth, line, column⟩ := by
  have hne : ¬text.isEmpty = true := fun hempty => htext.ne_nil (List.isEmpty_iff.1 hempty)
  refine (classify_entry (.setting key) depth line column htext).trans ?_
  rw [Keyword.read, hread, Argument.value, if_neg hne, map_map, map_map]
  rfl

/-- **The line of a setting** whose value is read at once is taken in as its argument is read. -/
theorem outcome_addLine_setting {α : Type} (site : Site) (hclose : d.closeTo depth = .ok e)
    (hdepth : depth = e.block.depth) (hconfig : e.config? = some c) (htext : Tidy text)
    {key : SettingKey} {make : Tree → Setting} {read : Tree → Except Failure α} {put : α → Config}
    (hread : ∀ a, key.read a = (a.value (.setting key) false).map make)
    (happly : ∀ value, c.apply (make value) = (read value).map put) (line column : Int) :
    (d.addLine site (settingLine key depth line column text)).outcome =
      ((parseExpression text line (key.argumentColumn column) false).bind read).map
        fun a => e.withConfig (put a) := by
  have hadd (value : Tree) : (d.add site ⟨.setting (make value), String.ofList text, depth, line,
      column⟩).outcome = (read value).map fun a => e.withConfig (put a) := by
    rw [add_of_closeTo hclose, place, if_neg fun hne => hne hdepth]
    refine (outcome_takeIn_setting hconfig rfl).trans ?_
    rw [happly, map_map]
  rw [addLine, Traced.outcome_bind, Traced.outcome_liftM, classify_settingLine htext hread]
  cases parseExpression text line (key.argumentColumn column) false with
  | error failure => rfl
  | ok value => exact hadd value

/-- **Only literals are taken** for a count and for a mode, in a line that stands where settings may.
A count is taken if it is made of 4300 decimal digits at most, and it is the number they spell; more
digits are not read at all.  A mode is taken if it is written as one.  Any other argument is a fault. -/
theorem addLine_literals (site : Site) (hclose : d.closeTo depth = .ok e)
    (hdepth : depth = e.block.depth) (hconfig : e.config? = some c) (htext : Tidy text)
    (line column : Int) :
    ((∀ d', (d.addLine site (settingLine .samples depth line column text)).outcome = .ok d' ↔
        text.length ≤ 4300 ∧ ∃ n, Spells text n ∧ d' = e.withConfig { c with samples := some n }) ∧
      ((d.addLine site (settingLine .samples depth line column text)).outcome =
          .error .numeralTooLong ↔ 4300 < text.length ∧ ∃ n, Spells text n) ∧
      (IsFault (d.addLine site (settingLine .samples depth line column text)).outcome ↔
        ¬∃ n, Spells text n)) ∧
    (∀ d', (d.addLine site (settingLine .warmup depth line column text)).outcome = .ok d' ↔
        ∃ mode : Warmup, mode.text.toList = text ∧
          d' = e.withConfig { c with warmup := some mode }) ∧
      ((∃ d', (d.addLine site (settingLine .warmup depth line column text)).outcome = .ok d') ↔
        text ∈ ["true".toList, "false".toList, "'auto'".toList]) ∧
      (IsFault (d.addLine site (settingLine .warmup depth line column text)).outcome ↔
        text ∉ ["true".toList, "false".toList, "'auto'".toList]) := by
  have h := htext.trimmed
  have hcount : (d.addLine site (settingLine .samples depth line column text)).outcome =
      (readCount text line _).map fun n => e.withConfig { c with samples := some n } :=
    outcome_addLine_setting site hclose hdepth hconfig htext (fun _ => rfl) (fun _ => rfl) line column
  have hmode : (d.addLine site (settingLine .warmup depth line column text)).outcome =
      (readWarmup text line _).map fun mode => e.withConfig { c with warmup := some mode } :=
    outcome_addLine_setting site hclose hdepth hconfig htext (fun _ => rfl) (fun _ => rfl) line column
  rw [hcount, hmode]
  refine ⟨⟨fun d' => ?_, ?_, ?_⟩, fun d' => ?_, ?_, ?_⟩
  · simp only [map_eq_ok, readCount_eq_ok _ _ h, and_assoc, exists_and_left, eq_comm (a := d')]
    rfl
  · rw [map_eq_error]
    exact readCount_eq_tooLong _ _ h
  · rw [isFault_map]
    exact isFault_readCount_iff _ _ h
  · simp only [map_eq_ok, readWarmup_eq_ok _ _ h, eq_comm (a := d')]
  · simp only [map_eq_ok, readWarmup_eq_ok _ _ h, ← Warmup.exists_text_iff]
    constructor
    · rintro ⟨-, mode, hmode, -⟩
      exact ⟨mode, hmode⟩
    · rintro ⟨mode, hmode⟩
      exact ⟨_, mode, hmode, rfl⟩
  · rw [isFault_map, isFault_readWarmup_iff _ _ h, Warmup.exists_text_iff]

/-- A script that is in the middle of a step. -/
def inStep : Draft := ⟨{}, .scenarioStep { key := "s" } { kind := .reload }⟩

/-- The line of a setting is taken in there. -/
def addInStep (key : SettingKey) (argument : String) : Except Failure Draft :=
  (inStep.addLine (Environment.site {} [] none) (settingLine key 2 3 5 argument.toList)).outcome

/-- Arabic digits with a zero in front are counted, and a square is no decimal digit; `'auto'` is a mode
in these quotes only. -/
theorem addLine_literals_inStep :
    addInStep .samples "٠٣٤" = .ok (inStep.withConfig { samples := some 34 }) ∧
      IsFault (addInStep .samples "3²") ∧
      addInStep .warmup "'auto'" = .ok (inStep.withConfig { warmup := some .auto }) ∧
      IsFault (addInStep .warmup "\"auto\"") := by
  have hclose : inStep.closeTo 2 = .ok inStep := rfl
  have hconfig : inStep.config? = some {} := rfl
  have hliterals (text : List Char) (hne : text ≠ []) (hword : text.all (!isBlank ·) = true) :=
    addLine_literals (Environment.site {} [] none) hclose rfl hconfig
      (Tidy.of_word hne fun c hc => by simpa using List.all_eq_true.1 hword c hc) 3 5
  have hcounted : Spells "٠٣٤".toList 34 := ⟨[0, 3, 4], by decide +kernel, by decide⟩
  have hsquare : ¬∃ n, Spells "3²".toList n := fun hn =>
    absurd (exists_spells_iff.1 hn '²' (by decide)) (by decide)
  obtain ⟨⟨hcount, -, -⟩, -⟩ := hliterals "٠٣٤".toList (by decide) (by decide +kernel)
  obtain ⟨⟨-, -, hnocount⟩, -⟩ := hliterals "3²".toList (by decide) (by decide +kernel)
  obtain ⟨-, hmode, -, -⟩ := hliterals "'auto'".toList (by decide) (by decide +kernel)
  obtain ⟨-, -, -, hnomode⟩ := hliterals "\"auto\"".toList (by decide) (by decide +kernel)
  exact ⟨(hcount _).2 ⟨by decide, 34, hcounted, rfl⟩, hnocount.2 hsquare,
    (hmode _).2 ⟨.auto, rfl, rfl⟩, hnomode.2 (by decide)⟩

end Draft

end ScenarioScript
