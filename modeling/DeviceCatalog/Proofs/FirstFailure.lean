import DeviceCatalog.Logged
import Mathlib.Data.List.Forall2

/-!
# The first failure decides

How a sequence of steps comes to its outcome: it succeeds when every step does, and it fails as the first step that fails, whatever
stands behind that.
-/

namespace DeviceCatalog

namespace Outcome

variable {ε ε' α β : Type}

@[simp] theorem ok_bind (a : α) (f : α → Except ε β) : (Except.ok a >>= f) = f a := rfl

@[simp] theorem error_bind (e : ε) (f : α → Except ε β) : (Except.error e >>= f) = .error e := rfl

/-- A result is good when there is a value. -/
theorem isOk_eq_true_iff {x : Except ε α} : x.isOk = true ↔ ∃ a, x = .ok a := by
  cases x with
  | error e => exact ⟨nofun, fun ⟨_, h⟩ => nomatch h⟩
  | ok a => exact ⟨fun _ => ⟨a, rfl⟩, fun _ => rfl⟩

/-- A result is not good when there is a failure. -/
theorem isOk_eq_false_iff {x : Except ε α} : x.isOk = false ↔ ∃ e, x = .error e := by
  cases x with
  | error e => exact ⟨fun _ => ⟨e, rfl⟩, fun _ => rfl⟩
  | ok a => exact ⟨nofun, fun ⟨_, h⟩ => nomatch h⟩

/-- Two steps come to a value when the first one does and the second one does for its value. -/
theorem bind_eq_ok_iff {x : Except ε α} {f : α → Except ε β} {b : β} :
    (x >>= f) = .ok b ↔ ∃ a, x = .ok a ∧ f a = .ok b := by
  cases x with
  | error e => exact ⟨nofun, fun ⟨_, h, _⟩ => nomatch h⟩
  | ok a => exact ⟨fun h => ⟨a, rfl, h⟩, fun ⟨_, h, hf⟩ => Except.ok.inj h ▸ hf⟩

/-- Two steps fail when the first one does, or when it comes to a value for which the second one does. -/
theorem bind_eq_error_iff {x : Except ε α} {f : α → Except ε β} {e : ε} :
    (x >>= f) = .error e ↔ x = .error e ∨ ∃ a, x = .ok a ∧ f a = .error e := by
  cases x with
  | error e' =>
    constructor
    · intro h
      exact Or.inl (congrArg Except.error (Except.error.inj h))
    · intro h
      rcases h with h | ⟨_, h, _⟩
      · exact congrArg Except.error (Except.error.inj h)
      · cases h
  | ok a =>
    refine ⟨fun h => Or.inr ⟨a, rfl, h⟩, ?_⟩
    rintro (h | ⟨_, h, hf⟩)
    · cases h
    · cases h
      exact hf

/-- A changed result has a value when there was one from which it was made. -/
theorem map_eq_ok_iff {f : α → β} {x : Except ε α} {b : β} : x.map f = .ok b ↔ ∃ a, x = .ok a ∧ f a = b := by
  cases x with
  | error e => exact ⟨nofun, fun ⟨_, h, _⟩ => nomatch h⟩
  | ok a => exact ⟨fun h => ⟨a, rfl, Except.ok.inj h⟩, fun ⟨_, h, hf⟩ => Except.ok.inj h ▸ congrArg Except.ok hf⟩

/-- Restating failures leaves the values. -/
theorem mapError_eq_ok_iff {f : ε → ε'} {x : Except ε α} {a : α} : x.mapError f = .ok a ↔ x = .ok a := by
  cases x with
  | error e => exact ⟨nofun, nofun⟩
  | ok b => exact ⟨fun h => congrArg Except.ok (Except.ok.inj h), fun h => congrArg Except.ok (Except.ok.inj h)⟩

/-- A restated failure restates a failure. -/
theorem mapError_eq_error_iff {f : ε → ε'} {x : Except ε α} {e : ε'} :
    x.mapError f = .error e ↔ ∃ e', x = .error e' ∧ f e' = e := by
  cases x with
  | error e' => exact ⟨fun h => ⟨e', rfl, Except.error.inj h⟩, fun ⟨_, h, hf⟩ => by cases h; exact congrArg Except.error hf⟩
  | ok a => exact ⟨nofun, fun ⟨_, h, _⟩ => nomatch h⟩

/-- A run along a list succeeds when it does so on every element. -/
theorem mapM_eq_ok_iff {f : α → Except ε β} {as : List α} {bs : List β} :
    as.mapM f = .ok bs ↔ List.Forall₂ (fun a b => f a = .ok b) as bs := by
  induction as generalizing bs with
  | nil =>
    rw [List.mapM_nil, List.forall₂_nil_left_iff]
    exact ⟨fun h => (Except.ok.inj h).symm, fun h => congrArg Except.ok h.symm⟩
  | cons a as ih =>
    rw [List.mapM_cons, List.forall₂_cons_left_iff, bind_eq_ok_iff]
    constructor
    · intro h
      obtain ⟨b, hb, h⟩ := h
      obtain ⟨bs', hbs, h⟩ := bind_eq_ok_iff.1 h
      exact ⟨b, bs', hb, ih.1 hbs, (Except.ok.inj h).symm⟩
    · intro h
      obtain ⟨b, bs', hb, hbs, rfl⟩ := h
      exact ⟨b, hb, bind_eq_ok_iff.2 ⟨bs', ih.2 hbs, rfl⟩⟩

/-- A run along a list comes to some values when every element has one. -/
theorem exists_mapM_eq_ok_iff {f : α → Except ε β} {as : List α} :
    (∃ bs, as.mapM f = .ok bs) ↔ ∀ a ∈ as, ∃ b, f a = .ok b := by
  simp only [mapM_eq_ok_iff]
  induction as with
  | nil => exact iff_of_true ⟨[], .nil⟩ nofun
  | cons a as ih =>
    rw [List.forall_mem_cons, ← ih]
    constructor
    · intro h
      obtain ⟨_, h⟩ := h
      obtain ⟨b, bs, hb, hbs, -⟩ := List.forall₂_cons_left_iff.1 h
      exact ⟨⟨b, hb⟩, bs, hbs⟩
    · intro h
      obtain ⟨⟨b, hb⟩, bs, hbs⟩ := h
      exact ⟨b :: bs, .cons hb hbs⟩

/-- A run along a list fails as it does on the first element on which it fails. -/
theorem mapM_eq_error_iff {f : α → Except ε β} {as : List α} {e : ε} :
    as.mapM f = .error e ↔
      ∃ before a after, as = before ++ a :: after ∧ (∀ x ∈ before, ∃ b, f x = .ok b) ∧ f a = .error e := by
  induction as with
  | nil =>
    refine ⟨nofun, ?_⟩
    rintro ⟨before, a, after, h, -⟩
    cases before <;> cases h
  | cons a as ih =>
    rw [List.mapM_cons, bind_eq_error_iff]
    constructor
    · intro h
      rcases h with ha | ⟨b, hb, h⟩
      · exact ⟨[], a, as, rfl, nofun, ha⟩
      · rcases bind_eq_error_iff.1 h with has | ⟨bs, -, h⟩
        · obtain ⟨before, c, after, rfl, hbefore, hc⟩ := ih.1 has
          refine ⟨a :: before, c, after, rfl, ?_, hc⟩
          exact List.forall_mem_cons.2 ⟨⟨b, hb⟩, hbefore⟩
        · cases h
    · intro h
      obtain ⟨before, c, after, h, hbefore, hc⟩ := h
      rcases before with _ | ⟨x, before⟩
      · cases h
        exact Or.inl hc
      · cases h
        obtain ⟨⟨b, hb⟩, hbefore⟩ := List.forall_mem_cons.1 hbefore
        exact Or.inr ⟨b, hb, bind_eq_error_iff.2 (Or.inl (ih.2 ⟨before, c, after, rfl, hbefore, hc⟩))⟩

/-! ## Where a list stops -/

/-- A list that does not stop inside a part that is gone through has a single element where it stops, and stops there for a single
reason. -/
theorem eq_of_stops {goes : List α → Prop} {stops : List α → α → ε → Prop}
    (hgoes : ∀ {before after a e}, goes (before ++ a :: after) → ¬ stops before a e)
    (hreason : ∀ {before a e e'}, stops before a e → stops before a e' → e = e') {before before' after after' : List α} {a a' : α} {e e' : ε}
    (hsplit : before ++ a :: after = before' ++ a' :: after') (hbefore : goes before) (hbefore' : goes before') (hstops : stops before a e)
    (hstops' : stops before' a' e') : before = before' ∧ a = a' ∧ e = e' := by
  -- Were one of the parts longer, it would hold the element where the other one ends.
  rcases List.append_eq_append_iff.1 hsplit with ⟨mid, rfl, htail⟩ | ⟨mid, rfl, htail⟩
  · cases mid with
    | nil =>
      obtain ⟨rfl, -⟩ := List.cons.inj htail
      rw [List.append_nil] at hstops' ⊢
      exact ⟨rfl, rfl, hreason hstops hstops'⟩
    | cons b mid =>
      obtain ⟨rfl, -⟩ := List.cons.inj htail
      exact absurd hstops (hgoes hbefore')
  · cases mid with
    | nil =>
      obtain ⟨rfl, -⟩ := List.cons.inj htail
      rw [List.append_nil] at hstops ⊢
      exact ⟨rfl, rfl, hreason hstops hstops'⟩
    | cons b mid =>
      obtain ⟨rfl, -⟩ := List.cons.inj htail
      exact absurd hstops' (hgoes hbefore)

/-! ## Restated failures -/

/-- The failures of two steps can be restated step by step. -/
theorem mapError_bind (g : ε → ε') (x : Except ε α) (f : α → Except ε β) :
    (x >>= f).mapError g = x.mapError g >>= fun a => (f a).mapError g := by
  cases x <;> rfl

/-- The failures of a run along a list can be restated element by element. -/
theorem mapError_mapM (g : ε → ε') (f : α → Except ε β) (as : List α) :
    (as.mapM f).mapError g = as.mapM fun a => (f a).mapError g := by
  induction as with
  | nil => rfl
  | cons a as ih =>
    rw [List.mapM_cons, List.mapM_cons, mapError_bind, ← ih]
    refine congrArg ((f a).mapError g >>= ·) (funext fun b => ?_)
    exact mapError_bind g _ _

end Outcome

/-! ## Results with notices -/

namespace Logged

variable {ε ε' α β : Type}

/-- Steps can be regrouped, and a step that only hands on its value can be left out. -/
instance : LawfulMonad (Logged ε) :=
  LawfulMonad.mk' (Logged ε)
    (by
      intro α x
      rcases x with ⟨ns, _ | a⟩
      · rfl
      · show Logged.mk (ns ++ []) (.ok a) = _
        rw [List.append_nil])
    (by
      intro α β a f
      rfl)
    (by
      intro α β γ x f g
      rcases x with ⟨ns, _ | a⟩
      · rfl
      · show bind (bind ⟨ns, .ok a⟩ f) g = bind ⟨ns, .ok a⟩ fun a => bind (f a) g
        rcases h : f a with ⟨ms, _ | b⟩ <;> simp [bind, h, List.append_assoc])

@[simp] theorem outcome_pure (a : α) : (pure a : Logged ε α).outcome = .ok a := rfl

@[simp] theorem outcome_fail (e : ε) : (fail e : Logged ε α).outcome = .error e := rfl

@[simp] theorem outcome_note (n : Notice) : (note n : Logged ε Unit).outcome = .ok () := rfl

@[simp] theorem outcome_notes (ns : List Notice) : (notes ns : Logged ε Unit).outcome = .ok () := rfl

@[simp] theorem outcome_ofExcept (r : Except ε α) : (ofExcept r).outcome = r := rfl

@[simp] theorem outcome_mapError (f : ε → ε') (x : Logged ε α) : (x.mapError f).outcome = x.outcome.mapError f := rfl

/-- The outcome of two steps is that of the outcomes. -/
@[simp] theorem outcome_bind (x : Logged ε α) (f : α → Logged ε β) :
    (x >>= f).outcome = x.outcome >>= fun a => (f a).outcome := by
  show (bind x f).outcome = _
  unfold bind
  cases x.outcome <;> rfl

/-- Changing a result changes its outcome. -/
@[simp] theorem outcome_map (f : α → β) (x : Logged ε α) : (f <$> x).outcome = f <$> x.outcome := by
  rcases x with ⟨ns, _ | a⟩ <;> rfl

/-- The outcomes of a run along a list are found by running the outcomes along it. -/
theorem outcome_mapM (f : α → Logged ε β) (as : List α) :
    (as.mapM f).outcome = as.mapM fun a => (f a).outcome := by
  induction as with
  | nil => rfl
  | cons a as ih => simp [List.mapM_cons, ih]

end Logged

end DeviceCatalog
