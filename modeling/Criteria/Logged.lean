/-!
# Computations with a log

A computation that may fail and that notes entries on its way. The entries noted before a
failure stay in the log.

## Main definitions

- `Logged`: an outcome with the entries noted on the way to it
- `Logged.note`, `Logged.ofExcept`: the two sources of logs and outcomes
-/

namespace Criteria

/-- An outcome of type `α` or a failure of type `ε`, and the entries of type `ω` noted on
the way, oldest first. -/
structure Logged (ω ε α : Type) where
  outcome : Except ε α
  entries : List ω

namespace Logged

variable {ω ε α β : Type}

protected def pure (a : α) : Logged ω ε α :=
  ⟨.ok a, []⟩

/-- Goes on with the outcome, unless it is a failure. -/
protected def bind (x : Logged ω ε α) (f : α → Logged ω ε β) : Logged ω ε β :=
  match x.outcome with
  | .ok a => ⟨(f a).outcome, x.entries ++ (f a).entries⟩
  | .error e => ⟨.error e, x.entries⟩

instance : Monad (Logged ω ε) where
  pure := Logged.pure
  bind := Logged.bind

/-- A failure. -/
def fail (e : ε) : Logged ω ε α :=
  ⟨.error e, []⟩

/-- Notes entries. -/
def note (entries : List ω) : Logged ω ε Unit :=
  ⟨.ok (), entries⟩

/-- An outcome with nothing noted. -/
def ofExcept (x : Except ε α) : Logged ω ε α :=
  ⟨x, []⟩

/-- Maps the failure. -/
def mapError {ε' : Type} (f : ε → ε') (x : Logged ω ε α) : Logged ω ε' α :=
  ⟨x.outcome.mapError f, x.entries⟩

@[simp] theorem outcome_pure (a : α) : (pure a : Logged ω ε α).outcome = .ok a := rfl

@[simp] theorem entries_pure (a : α) : (pure a : Logged ω ε α).entries = [] := rfl

@[simp] theorem outcome_fail (e : ε) : (fail e : Logged ω ε α).outcome = .error e := rfl

@[simp] theorem outcome_bind (x : Logged ω ε α) (f : α → Logged ω ε β) :
    (x >>= f).outcome = x.outcome.bind fun a => (f a).outcome := by
  simp only [Bind.bind, Logged.bind, Except.bind]
  split <;> rename_i h <;> simp [h]

theorem outcome_bind_pure (x : Logged ω ε α) (f : α → β) :
    (x >>= fun a => pure (f a)).outcome = x.outcome.map f := by
  rw [outcome_bind]
  cases x.outcome <;> rfl

theorem toOption_outcome_bind (x : Logged ω ε α) (f : α → Logged ω ε β) :
    (x >>= f).outcome.toOption =
      x.outcome.toOption.bind fun a => (f a).outcome.toOption := by
  rw [outcome_bind]
  cases x.outcome <;> rfl

/-- A computation in two steps succeeds only if both of them do. -/
theorem exists_of_outcome_bind_eq_ok {x : Logged ω ε α} {f : α → Logged ω ε β} {b : β}
    (h : (x >>= f).outcome = .ok b) : ∃ a, x.outcome = .ok a ∧ (f a).outcome = .ok b := by
  rw [outcome_bind] at h
  cases hx : x.outcome with
  | error e =>
    rw [hx] at h
    cases h
  | ok a =>
    rw [hx] at h
    exact ⟨a, rfl, h⟩

/-- A computation in two steps fails as one of them does. -/
theorem exists_of_outcome_bind_eq_error {x : Logged ω ε α} {f : α → Logged ω ε β} {e : ε}
    (h : (x >>= f).outcome = .error e) :
    x.outcome = .error e ∨ ∃ a, x.outcome = .ok a ∧ (f a).outcome = .error e := by
  rw [outcome_bind] at h
  cases hx : x.outcome with
  | error e' =>
    rw [hx] at h
    cases h
    exact .inl rfl
  | ok a =>
    rw [hx] at h
    exact .inr ⟨a, rfl, h⟩

theorem entries_bind_ok {x : Logged ω ε α} {a : α} (h : x.outcome = .ok a)
    (f : α → Logged ω ε β) : (x >>= f).entries = x.entries ++ (f a).entries := by
  simp only [Bind.bind, Logged.bind, h]

theorem entries_bind_error {x : Logged ω ε α} {e : ε} (h : x.outcome = .error e)
    (f : α → Logged ω ε β) : (x >>= f).entries = x.entries := by
  simp only [Bind.bind, Logged.bind, h]

@[simp] theorem outcome_note (entries : List ω) :
    (note entries : Logged ω ε Unit).outcome = .ok () := rfl

@[simp] theorem entries_note (entries : List ω) :
    (note entries : Logged ω ε Unit).entries = entries := rfl

@[simp] theorem outcome_ofExcept (x : Except ε α) :
    (ofExcept x : Logged ω ε α).outcome = x := rfl

@[simp] theorem entries_ofExcept (x : Except ε α) :
    (ofExcept x : Logged ω ε α).entries = [] := rfl

end Logged

end Criteria
