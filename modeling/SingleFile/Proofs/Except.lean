import Mathlib.Data.List.Forall2

/-! # Computations that may fail

A chain of steps succeeds exactly when every step does, and fails with the failure of the first step
that does not succeed; so does going through a list. Each stage of an assembly is read off its result
with these equivalences.
-/

namespace Except

variable {ε ε' α β : Type}

theorem bind_eq_ok_iff {step : Except ε α} {next : α → Except ε β} {result : β} :
    step >>= next = .ok result ↔ ∃ value, step = .ok value ∧ next value = .ok result := by
  constructor
  · intro success
    cases step with
    | error cause => cases success
    | ok value => exact ⟨value, rfl, success⟩
  · rintro ⟨value, rfl, success⟩
    exact success

theorem map_eq_ok_iff {step : Except ε α} {f : α → β} {result : β} :
    step.map f = .ok result ↔ ∃ value, step = .ok value ∧ f value = result := by
  cases step with
  | error cause => simp [Except.map]
  | ok value => simp [Except.map]

theorem mapError_eq_ok_iff {step : Except ε α} {f : ε → ε'} {result : α} :
    step.mapError f = .ok result ↔ step = .ok result := by
  constructor
  · intro success
    cases step with
    | error cause => cases success
    | ok value => exact congrArg Except.ok (Except.ok.inj success)
  · rintro rfl
    rfl

theorem bind_eq_error_iff {step : Except ε α} {next : α → Except ε β} {cause : ε} :
    step >>= next = .error cause ↔
      step = .error cause ∨ ∃ value, step = .ok value ∧ next value = .error cause := by
  cases step with
  | error failed => simp [bind, Except.bind]
  | ok value => simp [bind, Except.bind]

theorem map_eq_error_iff {step : Except ε α} {f : α → β} {cause : ε} :
    step.map f = .error cause ↔ step = .error cause := by
  cases step with
  | error failed => simp [Except.map]
  | ok value => simp [Except.map]

theorem mapError_eq_error_iff {step : Except ε α} {f : ε → ε'} {cause : ε'} :
    step.mapError f = .error cause ↔ ∃ inner, step = .error inner ∧ f inner = cause := by
  cases step with
  | error failed => simp [Except.mapError]
  | ok value => simp [Except.mapError]

theorem exists_eq_ok_iff {step : Except ε α} :
    (∃ value, step = .ok value) ↔ ∀ cause, step ≠ .error cause := by
  cases step with
  | error failed => simp
  | ok value => simp

theorem pure_eq_ok_iff {value result : α} : (pure value : Except ε α) = .ok result ↔ value = result :=
  ⟨fun success => Except.ok.inj success, fun equal => congrArg Except.ok equal⟩

theorem pure_ne_error {value : α} {cause : ε} : (pure value : Except ε α) ≠ .error cause :=
  nofun

/-- Going through a list gives one result for each element, in the order of the list. -/
theorem mapM_eq_ok_iff {f : α → Except ε β} {list : List α} {results : List β} :
    list.mapM f = .ok results ↔
      List.Forall₂ (fun element result => f element = .ok result) list results := by
  induction list generalizing results with
  | nil =>
    rw [List.mapM_nil, pure_eq_ok_iff, List.forall₂_nil_left_iff]
    exact eq_comm
  | cons head rest ih =>
    simp only [List.mapM_cons, bind_eq_ok_iff, pure_eq_ok_iff, ih, List.forall₂_cons_left_iff]
    constructor
    · rintro ⟨result, first, others, later, rfl⟩
      exact ⟨result, others, first, later, rfl⟩
    · rintro ⟨result, others, first, later, rfl⟩
      exact ⟨result, first, others, later, rfl⟩

theorem exists_of_mapM_eq_ok {f : α → Except ε β} {list : List α} {results : List β}
    (success : list.mapM f = .ok results) : ∀ element ∈ list, ∃ result, f element = .ok result := by
  have each := mapM_eq_ok_iff.mp success
  clear success
  induction each with
  | nil => exact fun _ none => absurd none List.not_mem_nil
  | cons first _ ih => exact List.forall_mem_cons.mpr ⟨⟨_, first⟩, ih⟩

/-- If going through a list gives every element a result that suits its partner in another list, the
results suit that list. -/
theorem exists_mapM_of_forall₂ {γ : Type} {f : α → Except ε β} {suits : γ → β → Prop} {list : List α}
    {partners : List γ} (each : List.Forall₂ (fun element partner => ∃ result,
      f element = .ok result ∧ suits partner result) list partners) :
    ∃ results, list.mapM f = .ok results ∧ List.Forall₂ suits partners results := by
  induction each with
  | nil => exact ⟨[], rfl, .nil⟩
  | cons head _ ih =>
    obtain ⟨result, first, suited⟩ := head
    obtain ⟨results, later, others⟩ := ih
    refine ⟨result :: results, ?_, .cons suited others⟩
    rw [List.mapM_cons, first, later]
    rfl

/-- Going through a list fails at the first element that fails. -/
theorem mapM_eq_error_iff {f : α → Except ε β} {list : List α} {cause : ε} :
    list.mapM f = .error cause ↔ ∃ before element after, list = before ++ element :: after ∧
      (∀ earlier ∈ before, ∃ result, f earlier = .ok result) ∧ f element = .error cause := by
  induction list with
  | nil => simp [pure, Except.pure]
  | cons head rest ih =>
    simp only [List.mapM_cons, bind_eq_error_iff, ih]
    constructor
    · rintro (failed | ⟨result, first, ⟨before, element, after, rfl, earlier, failed⟩ | ⟨_, _, pure⟩⟩)
      · exact ⟨[], head, rest, rfl, fun _ none => absurd none List.not_mem_nil, failed⟩
      · exact ⟨head :: before, element, after, rfl,
          List.forall_mem_cons.mpr ⟨⟨result, first⟩, earlier⟩, failed⟩
      · exact absurd pure pure_ne_error
    · rintro ⟨_ | ⟨front, before⟩, element, after, split, earlier, failed⟩
      · cases split
        exact .inl failed
      · cases split
        obtain ⟨⟨result, first⟩, later⟩ := List.forall_mem_cons.mp earlier
        exact .inr ⟨result, first, .inl ⟨before, element, after, rfl, later, failed⟩⟩

end Except

namespace Option

variable {α β : Type} {f : α → Option β} {list : List α}

theorem mapM_eq_some_iff {results : List β} :
    list.mapM f = some results ↔
      List.Forall₂ (fun element result => f element = some result) list results := by
  induction list generalizing results with
  | nil =>
    rw [List.mapM_nil, List.forall₂_nil_left_iff]
    exact Option.some_inj.trans eq_comm
  | cons head rest ih =>
    simp only [List.mapM_cons, bind_eq_bind, bind_eq_some_iff, ih, pure_def, some_inj,
      List.forall₂_cons_left_iff]
    constructor
    · rintro ⟨result, first, others, later, rfl⟩
      exact ⟨result, others, first, later, rfl⟩
    · rintro ⟨result, others, first, later, rfl⟩
      exact ⟨result, first, others, later, rfl⟩

theorem mapM_eq_some_map {g : α → β} (each : ∀ element ∈ list, f element = some (g element)) :
    list.mapM f = some (list.map g) := by
  rw [mapM_eq_some_iff, List.forall₂_map_right_iff, List.forall₂_same]
  exact each

/-- Elements may be left out before or after going through a list. -/
theorem mapM_filter {results : List β} {keep : α → Bool} {kept : β → Bool}
    (success : list.mapM f = some results)
    (same : ∀ element result, f element = some result → (keep element ↔ kept result)) :
    (list.filter keep).mapM f = some (results.filter kept) := by
  rw [mapM_eq_some_iff] at success ⊢
  exact List.rel_filter (fun element result => same element result) success

theorem mapM_eq_none_iff : list.mapM f = none ↔ ∃ element ∈ list, f element = none := by
  induction list with
  | nil => simp
  | cons head rest ih =>
    simp only [List.mapM_cons, bind_eq_bind, bind_eq_none_iff, List.exists_mem_cons_iff, ← ih]
    constructor
    · intro failed
      cases first : f head with
      | none => exact .inl rfl
      | some result =>
        right
        cases later : rest.mapM f with
        | none => rfl
        | some results => cases failed result first results later
    · rintro (first | later) result success
      · rw [first] at success
        cases success
      · rw [later]
        nofun

theorem isSome_mapM_iff : (list.mapM f).isSome ↔ ∀ element ∈ list, (f element).isSome := by
  rw [← not_iff_not, not_isSome_iff_eq_none, mapM_eq_none_iff, not_forall]
  simp only [Classical.not_imp, not_isSome_iff_eq_none]

end Option
