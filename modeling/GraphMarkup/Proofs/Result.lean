/-!
# Results

A computation that is put together of others gives a value exactly if its parts
do, and an error if one of them does. The lemmas here take runs of such a computation apart.
-/

namespace GraphMarkup

variable {ε ε' α β : Type}

@[simp]
theorem bind_eq_ok_iff {first : Except ε α} {next : α → Except ε β} {value : β} :
    first >>= next = .ok value ↔ ∃ middle, first = .ok middle ∧ next middle = .ok value := by
  cases first with
  | error cause => simp [bind, Except.bind]
  | ok middle => simp [bind, Except.bind]

@[simp]
theorem map_eq_ok_iff {first : Except ε α} {change : α → β} {value : β} :
    change <$> first = .ok value ↔ ∃ middle, first = .ok middle ∧ change middle = value := by
  cases first with
  | error cause => simp [Functor.map, Except.map]
  | ok middle => simp [Functor.map, Except.map]

@[simp]
theorem pure_eq_ok_iff {first second : α} :
    (pure first : Except ε α) = .ok second ↔ first = second := by
  simp [pure, Except.pure]

@[simp]
theorem throw_eq_ok_iff {cause : ε} {value : α} :
    (throw cause : Except ε α) = .ok value ↔ False := by
  simp [throw, throwThe, MonadExceptOf.throw]

@[simp]
theorem mapError_ok (change : ε → ε') (value : α) :
    (.ok value : Except ε α).mapError change = .ok value :=
  rfl

@[simp]
theorem mapError_error (change : ε → ε') (cause : ε) :
    (.error cause : Except ε α).mapError change = .error (change cause) :=
  rfl

@[simp]
theorem mapError_eq_ok_iff {change : ε → ε'} {result : Except ε α} {value : α} :
    result.mapError change = .ok value ↔ result = .ok value := by
  cases result with
  | error cause => simp
  | ok middle => simp

theorem bind_eq_error_iff {first : Except ε α} {next : α → Except ε β} {cause : ε} :
    first >>= next = .error cause ↔
      first = .error cause ∨ ∃ middle, first = .ok middle ∧ next middle = .error cause := by
  cases first with
  | error other => simp [bind, Except.bind]
  | ok middle => simp [bind, Except.bind]

theorem map_eq_error_iff {first : Except ε α} {change : α → β} {cause : ε} :
    change <$> first = .error cause ↔ first = .error cause := by
  cases first with
  | error other => simp [Functor.map, Except.map]
  | ok middle => simp [Functor.map, Except.map]

theorem mapError_eq_error_iff {change : ε → ε'} {result : Except ε α} {cause : ε'} :
    result.mapError change = .error cause ↔
      ∃ first, result = .error first ∧ change first = cause := by
  cases result with
  | error first => simp
  | ok middle => simp

theorem pure_ne_error {value : α} {cause : ε} : (pure value : Except ε α) ≠ .error cause := by
  simp [pure, Except.pure]

/-- What does not give a value gives an error. -/
theorem exists_error_of_forall_ne_ok {result : Except ε α}
    (fails : ∀ value, result ≠ .ok value) : ∃ cause, result = .error cause := by
  cases result with
  | error cause => exact ⟨cause, rfl⟩
  | ok value => exact absurd rfl (fails value)

/-- Whether a result is a value is seen from it. -/
instance decidableExistsOk : (result : Except ε α) → Decidable (∃ value, result = .ok value)
  | .ok value => isTrue ⟨value, rfl⟩
  | .error _ => isFalse fun ⟨_, same⟩ => by cases same

end GraphMarkup
