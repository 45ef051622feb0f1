namespace FilterQuery.Outcome

variable {ε α β : Type} {first : Except ε α} {next : α → Except ε β}

@[simp] theorem ok_bind (value : α) : (Except.ok value >>= next) = next value := rfl
@[simp] theorem error_bind (fault : ε) : ((Except.error fault : Except ε α) >>= next) = .error fault := rfl
@[simp] theorem pure_ok (value : α) : (pure value : Except ε α) = .ok value := rfl
@[simp] theorem mapError_ok (told : ε → β) (value : α) : (Except.ok value).mapError told = .ok value := rfl
@[simp] theorem mapError_error (told : ε → β) (fault : ε) :
    (Except.error fault : Except ε α).mapError told = .error (told fault) := rfl

theorem mapError_exact (told : ε → β) (outcome : Except ε α) (value : α) :
    outcome.mapError told = .ok value ↔ outcome = .ok value := by
  cases outcome with
  | ok found => simp
  | error fault => simp

theorem bind_ok (result : β) :
    (first >>= next) = .ok result ↔ ∃ value, first = .ok value ∧ next value = .ok result := by
  cases first with
  | ok value => simp
  | error fault => simp

-- A run that fails goes on up to its first step that does.
theorem foldlM_fault {act : α → τ → Except ε α} {state : α} {items : List τ} {fault : ε}
    (stopped : items.foldlM act state = .error fault) :
    ∃ before item after between, items = before ++ item :: after ∧ before.foldlM act state = .ok between ∧
      act between item = .error fault := by
  induction items generalizing state with
  | nil => cases stopped
  | cons item rest ih =>
    rw [List.foldlM_cons] at stopped
    cases here : act state item with
    | error cause =>
      rw [here] at stopped
      cases stopped
      exact ⟨[],item,rest,state,rfl,rfl,here⟩
    | ok next =>
      rw [here,ok_bind] at stopped
      obtain ⟨before,failing,after,between,rfl,reached,fails⟩ := ih stopped
      refine ⟨item :: before,failing,after,between,rfl,?_,fails⟩
      rw [List.foldlM_cons,here,ok_bind,reached]

-- Two values that are related, or two faults that are.
inductive Alike (faults : ε → δ → Prop) (values : α → β → Prop) : Except ε α → Except δ β → Prop where
  | value (same : values one other) : Alike faults values (.ok one) (.ok other)
  | fault (same : faults one other) : Alike faults values (.error one) (.error other)

theorem Alike.bind {one : Except ε α} {other : Except δ β} {follow : α → Except ε γ} {pursue : β → Except δ η}
    (alike : Alike faults values one other)
    (later : ∀ value image, values value image → Alike faults results (follow value) (pursue image)) :
    Alike faults results (one >>= follow) (other >>= pursue) := by
  cases alike with
  | value same => exact later _ _ same
  | fault same => exact .fault same

theorem Alike.succeeds {one : Except ε α} {other : Except δ β} (alike : Alike faults values one other) :
    (∃ value, one = .ok value) ↔ ∃ image, other = .ok image := by
  cases alike with
  | value same => simp
  | fault same => simp

theorem Alike.related {one : Except ε α} {other : Except δ β} {value : α} {image : β}
    (alike : Alike faults values one other) (made : one = .ok value) (found : other = .ok image) :
    values value image := by
  cases alike with
  | value same => cases made; cases found; exact same
  | fault same => cases made

instance decidableOk (outcome : Except ε α) : Decidable (∃ value, outcome = .ok value) :=
  match outcome with
  | .ok value => .isTrue ⟨value,rfl⟩
  | .error _ => .isFalse fun ⟨_,made⟩ => nomatch made

end FilterQuery.Outcome
