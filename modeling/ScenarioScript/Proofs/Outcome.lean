import ScenarioScript.Load.Attempt

/-!
# Proofs/Outcome — where a result came from

A result of several stages is a success exactly if every stage was one, and a failure exactly if
one stage failed behind successful ones.  The lemmas here say so for the ways in which stages are
put together: `bind`, `map` and `mapError`, and one traced result after another.

What is known of the stages is put together in the same ways: `FailsOnly` says which failures there
can be, and `Yields` which values.
-/

namespace ScenarioScript

namespace Outcome

variable {ε ε' α β : Type}

/-- **A failure is no success.** -/
theorem error_ne_ok {e : ε} {a : α} : (.error e : Except ε α) ≠ .ok a := nofun

/-- **Two stages succeed** exactly if both do. -/
theorem bind_eq_ok {r : Except ε α} {f : α → Except ε β} {b : β} :
    r.bind f = .ok b ↔ ∃ a, r = .ok a ∧ f a = .ok b := by
  cases r <;> simp [Except.bind]

/-- **Two stages fail** exactly if the first one does, or the second one behind it. -/
theorem bind_eq_error {r : Except ε α} {f : α → Except ε β} {e : ε} :
    r.bind f = .error e ↔ r = .error e ∨ ∃ a, r = .ok a ∧ f a = .error e := by
  cases r <;> simp [Except.bind]

theorem map_eq_ok {r : Except ε α} {f : α → β} {b : β} :
    r.map f = .ok b ↔ ∃ a, r = .ok a ∧ f a = b := by
  cases r <;> simp [Except.map]

theorem map_eq_error {r : Except ε α} {f : α → β} {e : ε} : r.map f = .error e ↔ r = .error e := by
  cases r <;> simp [Except.map]

theorem mapError_eq_ok {r : Except ε α} {f : ε → ε'} {a : α} :
    r.mapError f = .ok a ↔ r = .ok a := by
  cases r with
  | error d => exact iff_of_false nofun nofun
  | ok b => exact ⟨fun h => congrArg _ (Except.ok.inj h), fun h => congrArg _ (Except.ok.inj h)⟩

theorem mapError_eq_error {r : Except ε α} {f : ε → ε'} {e : ε'} :
    r.mapError f = .error e ↔ ∃ d, r = .error d ∧ f d = e := by
  cases r with
  | ok a => exact iff_of_false nofun fun h => h.elim fun _ h => absurd h.1 nofun
  | error d =>
    constructor
    · exact fun h => ⟨d, rfl, Except.error.inj h⟩
    · rintro ⟨_, hd, rfl⟩
      exact congrArg _ (congrArg f (Except.error.inj hd))

theorem map_map {γ : Type} (r : Except ε α) (f : α → β) (g : β → γ) :
    (r.map f).map g = r.map fun a => g (f a) := by
  cases r <;> rfl

/-- What is done to a value and what is done to a failure come in either order. -/
theorem map_mapError (r : Except ε α) (f : ε → ε') (g : α → β) :
    (r.mapError f).map g = (r.map g).mapError f := by
  cases r <;> rfl

/-- **Every element succeeds** if all together do. -/
theorem mapM_cons_eq_ok {f : α → Except ε β} {x : α} {xs : List α} {ys : List β} :
    (x :: xs).mapM f = .ok ys ↔ ∃ y row, f x = .ok y ∧ xs.mapM f = .ok row ∧ y :: row = ys := by
  rw [List.mapM_cons]
  show (f x).bind (fun y => (xs.mapM f).bind fun row => .ok (y :: row)) = .ok ys ↔ _
  simp only [bind_eq_ok, Except.ok.injEq, exists_and_left]

theorem exists_of_mem_of_mapM {f : α → Except ε β} {xs : List α} {ys : List β} {y : β}
    (h : xs.mapM f = .ok ys) (hy : y ∈ ys) : ∃ x ∈ xs, f x = .ok y := by
  induction xs generalizing ys with
  | nil =>
    obtain rfl : [] = ys := Except.ok.inj h
    exact absurd hy List.not_mem_nil
  | cons x xs ih =>
    obtain ⟨z, row, hz, hrow, rfl⟩ := mapM_cons_eq_ok.1 h
    obtain rfl | hy := List.mem_cons.1 hy
    · exact ⟨x, List.mem_cons_self, hz⟩
    · obtain ⟨x', hx', hf⟩ := ih hrow hy
      exact ⟨x', List.mem_cons_of_mem x hx', hf⟩

theorem mem_of_mapM {f : α → Except ε β} {xs : List α} {ys : List β} {x : α} {y : β}
    (h : xs.mapM f = .ok ys) (hx : x ∈ xs) (hy : f x = .ok y) : y ∈ ys := by
  induction xs generalizing ys with
  | nil => exact absurd hx List.not_mem_nil
  | cons x' xs ih =>
    obtain ⟨z, row, hz, hrow, rfl⟩ := mapM_cons_eq_ok.1 h
    obtain rfl | hx := List.mem_cons.1 hx
    · obtain rfl := Except.ok.inj (hy.symm.trans hz)
      exact List.mem_cons_self
    · exact List.mem_cons_of_mem z (ih hrow hx)

/-- **A row fails** exactly if one of its elements does, behind successful ones. -/
theorem mapM_eq_error {f : α → Except ε β} {xs : List α} {e : ε} :
    xs.mapM f = .error e ↔ ∃ before x after, xs = before ++ x :: after ∧
      (∀ b ∈ before, ∃ y, f b = .ok y) ∧ f x = .error e := by
  induction xs with
  | nil => exact iff_of_false nofun fun ⟨_, _, _, h, _⟩ => absurd h (by simp)
  | cons x xs ih =>
    rw [List.mapM_cons]
    show (f x).bind (fun y => (xs.mapM f).bind fun row => .ok (y :: row)) = .error e ↔ _
    simp only [bind_eq_error, reduceCtorEq, and_false, exists_false, or_false, ih]
    constructor
    · rintro (hx | ⟨y, hy, before, z, after, rfl, hbefore, hz⟩)
      · exact ⟨[], x, xs, rfl, List.forall_mem_nil _, hx⟩
      · exact ⟨x :: before, z, after, rfl, List.forall_mem_cons.2 ⟨⟨y, hy⟩, hbefore⟩, hz⟩
    · rintro ⟨before, z, after, hsplit, hbefore, hz⟩
      cases before with
      | nil =>
        obtain ⟨rfl, rfl⟩ := List.cons.inj hsplit
        exact .inl hz
      | cons b before =>
        obtain ⟨rfl, rfl⟩ := List.cons.inj hsplit
        obtain ⟨⟨y, hy⟩, hbefore⟩ := List.forall_mem_cons.1 hbefore
        exact .inr ⟨y, hy, before, z, after, rfl, hbefore, hz⟩

/-- **A row succeeds** exactly if each of its elements does. -/
theorem exists_mapM_eq_ok_iff {f : α → Except ε β} {xs : List α} :
    (∃ ys, xs.mapM f = .ok ys) ↔ ∀ x ∈ xs, ∃ y, f x = .ok y := by
  constructor
  · rintro ⟨ys, hys⟩ x hx
    induction xs generalizing ys with
    | nil => exact absurd hx List.not_mem_nil
    | cons x' xs ih =>
      obtain ⟨y, row, hy, hrow, rfl⟩ := mapM_cons_eq_ok.1 hys
      obtain rfl | hx := List.mem_cons.1 hx
      · exact ⟨y, hy⟩
      · exact ih row hrow hx
  · intro h
    cases hys : xs.mapM f with
    | ok ys => exact ⟨ys, rfl⟩
    | error e =>
      obtain ⟨before, x, after, rfl, -, hx⟩ := mapM_eq_error.1 hys
      obtain ⟨y, hy⟩ := h x (List.mem_append_right before List.mem_cons_self)
      exact absurd (hx.symm.trans hy) error_ne_ok

/-! ## Which failures there can be -/

/-- The result, if it is a failure, is one of the given ones. -/
def FailsOnly (P : ε → Prop) (r : Except ε α) : Prop := ∀ e, r = .error e → P e

namespace FailsOnly

variable {P : ε → Prop} {Q : ε' → Prop} {r : Except ε α}

theorem ok (a : α) : FailsOnly P (.ok a : Except ε α) := nofun

theorem error {e : ε} (h : P e) : FailsOnly P (.error e : Except ε α) := fun _ he =>
  Except.error.inj he ▸ h

/-- **Two stages fail** as one of them does. -/
theorem bind {f : α → Except ε β} (h : FailsOnly P r) (hf : ∀ a, r = .ok a → FailsOnly P (f a)) :
    FailsOnly P (r.bind f) := by
  intro e he
  obtain herror | ⟨a, ha, herror⟩ := bind_eq_error.1 he
  · exact h e herror
  · exact hf a ha e herror

theorem map {f : α → β} (h : FailsOnly P r) : FailsOnly P (r.map f) := fun e he =>
  h e (map_eq_error.1 he)

theorem mapError {f : ε → ε'} (h : FailsOnly P r) (hf : ∀ e, P e → Q (f e)) :
    FailsOnly Q (r.mapError f) := by
  intro e he
  obtain ⟨d, hd, rfl⟩ := mapError_eq_error.1 he
  exact hf d (h d hd)

theorem mono {P' : ε → Prop} (h : FailsOnly P r) (hP : ∀ e, P e → P' e) : FailsOnly P' r :=
  fun e he => hP e (h e he)

/-- **A row fails** as one of its elements does. -/
theorem mapM {f : β → Except ε α} {xs : List β} (h : ∀ x ∈ xs, FailsOnly P (f x)) :
    FailsOnly P (xs.mapM f) := by
  induction xs with
  | nil => exact ok []
  | cons x xs ih =>
    obtain ⟨hx, hxs⟩ := List.forall_mem_cons.1 h
    rw [List.mapM_cons]
    exact hx.bind fun y _ => (ih hxs).bind fun row _ => ok (y :: row)

end FailsOnly

/-! ## What successes there can be -/

/-- The result, if it is a success, has a value of the given sort. -/
def Yields (Q : α → Prop) (r : Except ε α) : Prop := ∀ a, r = .ok a → Q a

namespace Yields

variable {Q : α → Prop} {R : β → Prop} {r : Except ε α}

theorem ok {a : α} (h : Q a) : Yields Q (.ok a : Except ε α) := fun _ ha => Except.ok.inj ha ▸ h

theorem error (e : ε) : Yields Q (.error e : Except ε α) := nofun

/-- **Two stages yield** what the second does behind what the first can. -/
theorem bind {f : α → Except ε β} (h : Yields Q r) (hf : ∀ a, r = .ok a → Q a → Yields R (f a)) :
    Yields R (r.bind f) := by
  intro b hb
  obtain ⟨a, ha, hb⟩ := bind_eq_ok.1 hb
  exact hf a ha (h a ha) b hb

theorem map {f : α → β} (h : Yields Q r) (hf : ∀ a, Q a → R (f a)) : Yields R (r.map f) := by
  intro b hb
  obtain ⟨a, ha, rfl⟩ := map_eq_ok.1 hb
  exact hf a (h a ha)

/-- What is made of a value is of the sort that all such values are of. -/
theorem map_of_forall {f : α → β} (r : Except ε α) (hf : ∀ a, R (f a)) : Yields R (r.map f) := by
  intro b hb
  obtain ⟨a, -, rfl⟩ := map_eq_ok.1 hb
  exact hf a

theorem mapError {f : ε → ε'} (h : Yields Q r) : Yields Q (r.mapError f) := fun a ha =>
  h a (mapError_eq_ok.1 ha)

/-- **A row yields** what its elements do. -/
theorem mapM {f : β → Except ε α} {xs : List β} (h : ∀ x ∈ xs, Yields Q (f x)) :
    Yields (fun ys => ∀ y ∈ ys, Q y) (xs.mapM f) := by
  intro ys hys y hy
  obtain ⟨x, hx, hxy⟩ := exists_of_mem_of_mapM hys hy
  exact h x hx y hxy

end Yields

/-! ## Successes without their failures -/

theorem toOption_map (r : Except ε α) (f : α → β) : (r.map f).toOption = r.toOption.map f := by
  cases r <;> rfl

theorem toOption_mapError (r : Except ε α) (f : ε → ε') :
    (r.mapError f).toOption = r.toOption := by
  cases r <;> rfl

theorem toOption_eq_some {r : Except ε α} {a : α} : r.toOption = some a ↔ r = .ok a := by
  cases r <;> simp [Except.toOption]

/-- **What each stage of a row keeps** the whole row keeps. -/
theorem forall_foldlM {Q : β → Prop} {f : β → α → Option β} {xs : List α}
    (hf : ∀ x ∈ xs, ∀ b, Q b → ∀ b', f b x = some b' → Q b') {b b' : β} (hb : Q b)
    (h : xs.foldlM f b = some b') : Q b' := by
  induction xs generalizing b with
  | nil =>
    obtain rfl := Option.some.inj h
    exact hb
  | cons x xs ih =>
    obtain ⟨hx, hxs⟩ := List.forall_mem_cons.1 hf
    rw [List.foldlM_cons] at h
    obtain ⟨b₁, hb₁, hrest⟩ := Option.bind_eq_some_iff.1 h
    exact ih hxs (hx b hb b₁ hb₁) hrest

end Outcome

namespace Traced

variable {α β : Type}

@[simp] theorem outcome_ofExcept (r : Except Failure α) : (ofExcept r).outcome = r := rfl

@[simp] theorem attempts_ofExcept (r : Except Failure α) : (ofExcept r).attempts = [] := rfl

@[simp] theorem outcome_liftM (r : Except Failure α) : (liftM r : Traced α).outcome = r := rfl

@[simp] theorem outcome_mapFault (f : Diagnostic → Diagnostic) (t : Traced α) :
    (t.mapFault f).outcome = t.outcome.mapError (·.mapFault f) := rfl

/-- **One traced result after another** comes out as the outcomes do. -/
theorem outcome_bind (t : Traced α) (next : α → Traced β) :
    (t >>= next).outcome = t.outcome.bind fun a => (next a).outcome := by
  rw [bind_eq, andThen]
  cases t.outcome <;> rfl

theorem outcome_bind_pure (t : Traced α) (f : α → β) :
    (t >>= fun a => pure (f a)).outcome = t.outcome.map f := by
  rw [outcome_bind]
  cases t.outcome <;> rfl

theorem attempts_bind_pure (t : Traced α) (f : α → β) :
    (t >>= fun a => pure (f a)).attempts = t.attempts := by
  obtain ⟨outcome, attempts⟩ := t
  cases outcome with
  | error failure => rfl
  | ok a => exact List.append_nil attempts

theorem outcome_bind_eq_ok {t : Traced α} {next : α → Traced β} {b : β} :
    (t >>= next).outcome = .ok b ↔ ∃ a, t.outcome = .ok a ∧ (next a).outcome = .ok b := by
  rw [outcome_bind, Outcome.bind_eq_ok]

theorem outcome_bind_eq_error {t : Traced α} {next : α → Traced β} {failure : Failure} :
    (t >>= next).outcome = .error failure ↔
      t.outcome = .error failure ∨ ∃ a, t.outcome = .ok a ∧ (next a).outcome = .error failure := by
  rw [outcome_bind, Outcome.bind_eq_error]

/-- **What holds of one step after another** holds of some step, behind successful ones: anything that
holds of no result without a step, and of two stages if it does of one of them. -/
theorem foldlM_iff {P : Traced α → Prop} (hpure : ∀ a, ¬P (pure a))
    (hbind : ∀ (t : Traced α) next, P (t >>= next) ↔ P t ∨ ∃ a, t.outcome = .ok a ∧ P (next a))
    {f : α → β → Traced α} {xs : List β} {a : α} :
    P (xs.foldlM f a) ↔ ∃ before x after b, xs = before ++ x :: after ∧
      (before.foldlM f a).outcome = .ok b ∧ P (f b x) := by
  induction xs generalizing a with
  | nil => exact iff_of_false (hpure a) fun ⟨_, _, _, _, h, _⟩ => absurd h (by simp)
  | cons x xs ih =>
    simp only [List.foldlM_cons, hbind, ih]
    constructor
    · rintro (hx | ⟨a', ha', before, y, after, b, rfl, hbefore, hy⟩)
      · exact ⟨[], x, xs, a, rfl, rfl, hx⟩
      · refine ⟨x :: before, y, after, b, rfl, ?_, hy⟩
        rw [List.foldlM_cons, outcome_bind_eq_ok]
        exact ⟨a', ha', hbefore⟩
    · rintro ⟨before, y, after, b, hsplit, hbefore, hy⟩
      cases before with
      | nil =>
        obtain ⟨rfl, rfl⟩ := List.cons.inj hsplit
        obtain rfl : a = b := Except.ok.inj hbefore
        exact .inl hy
      | cons c before =>
        obtain ⟨rfl, rfl⟩ := List.cons.inj hsplit
        rw [List.foldlM_cons, outcome_bind_eq_ok] at hbefore
        obtain ⟨a', ha', hbefore⟩ := hbefore
        exact .inr ⟨a', ha', before, y, after, b, rfl, hbefore, hy⟩

/-- **One step after another fails** exactly if some step does, behind successful ones. -/
theorem foldlM_eq_error {f : α → β → Traced α} {xs : List β} {a : α} {failure : Failure} :
    (xs.foldlM f a).outcome = .error failure ↔ ∃ before x after b, xs = before ++ x :: after ∧
      (before.foldlM f a).outcome = .ok b ∧ (f b x).outcome = .error failure :=
  foldlM_iff (P := fun t => t.outcome = .error failure) (fun _ => nofun)
    fun _ _ => outcome_bind_eq_error

/-- **One step after another** yields what each step keeps. -/
theorem yields_foldlM {Q : α → Prop} {f : α → β → Traced α} {xs : List β}
    (h : ∀ x ∈ xs, ∀ a, Q a → Outcome.Yields Q (f a x).outcome) {a : α} (ha : Q a) :
    Outcome.Yields Q (xs.foldlM f a).outcome := by
  induction xs generalizing a with
  | nil => exact .ok ha
  | cons x xs ih =>
    obtain ⟨hx, hxs⟩ := List.forall_mem_cons.1 h
    rw [List.foldlM_cons, outcome_bind]
    exact (hx a ha).bind fun b _ hb => ih hxs hb

end Traced

end ScenarioScript
