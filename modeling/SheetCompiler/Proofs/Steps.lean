/-!
# Steps that may fail

What is read from a worksheet is read in steps, and each of them gives a result or a fault.  Two
steps in a row succeed if both do (`bind_eq_ok`).  A fold takes one step for each entry of a list:
what every step keeps, the fold keeps as well (`foldlM_preserves`), a fold fails where one of its
steps does (`exists_of_foldlM_eq_error`), and two folds agree if their steps do (`foldlM_congr`,
`foldlM_map`, `toOption_foldlM`).
-/

namespace SheetCompiler

variable {ε α β σ τ : Type}

/-! ## Two steps in a row -/

theorem bind_eq_ok {first : Except ε α} {next : α → Except ε β} {result : β} :
    first.bind next = .ok result ↔ ∃ value, first = .ok value ∧ next value = .ok result := by
  cases first with
  | error fault =>
    constructor
    · intro h
      cases h
    · rintro ⟨value, hvalue, -⟩
      cases hvalue
  | ok value =>
    constructor
    · intro h
      exact ⟨value, rfl, h⟩
    · rintro ⟨other, hother, hnext⟩
      rwa [← Except.ok.inj hother] at hnext

theorem map_eq_ok {first : Except ε α} {f : α → β} {result : β} :
    first.map f = .ok result ↔ ∃ value, first = .ok value ∧ f value = result := by
  cases first with
  | error fault =>
    constructor
    · intro h
      cases h
    · rintro ⟨value, hvalue, -⟩
      cases hvalue
  | ok value =>
    constructor
    · intro h
      exact ⟨value, rfl, Except.ok.inj h⟩
    · rintro ⟨other, hother, hresult⟩
      rw [Except.ok.inj hother, ← hresult]
      rfl

theorem map_eq_error {first : Except ε α} {f : α → β} {fault : ε} :
    first.map f = .error fault ↔ first = .error fault := by
  cases first with
  | error other =>
    constructor
    · intro h
      exact congrArg Except.error (Except.error.inj h)
    · intro h
      rw [Except.error.inj h]
      rfl
  | ok value =>
    constructor
    · intro h
      cases h
    · intro h
      cases h

theorem bind_eq_error {first : Except ε α} {next : α → Except ε β} {fault : ε} :
    first.bind next = .error fault ↔
      first = .error fault ∨ ∃ value, first = .ok value ∧ next value = .error fault := by
  cases first with
  | error other =>
    constructor
    · intro h
      exact Or.inl (congrArg Except.error (Except.error.inj h))
    · rintro (h | ⟨value, hvalue, -⟩)
      · rw [Except.error.inj h]
        rfl
      · cases hvalue
  | ok value =>
    constructor
    · intro h
      exact Or.inr ⟨value, rfl, h⟩
    · rintro (h | ⟨other, hother, hnext⟩)
      · cases h
      · rwa [← Except.ok.inj hother] at hnext

theorem eq_ok_of_toOption {result : Except ε α} {value : α} (h : result.toOption = some value) :
    result = .ok value := by
  cases result with
  | error fault => cases h
  | ok found => exact congrArg Except.ok (Option.some.inj h)

/-- The fault, if there is one. -/
def fault? : Except ε α → Option ε
  | .ok _ => none
  | .error fault => some fault

theorem eq_error_of_fault? {result : Except ε α} {fault : ε} (h : fault? result = some fault) :
    result = .error fault := by
  cases result with
  | error found => exact congrArg Except.error (Option.some.inj h)
  | ok value => cases h

/-! ## One step for each entry -/

/-- What each step of a fold keeps, the fold keeps as well. -/
theorem foldlM_preserves {step : σ → α → Except ε σ} (P : σ → Prop) {entries : List α}
    (hstep : ∀ before, ∀ entry ∈ entries, ∀ after, P before →
      step before entry = .ok after → P after)
    {first last : σ} (hfirst : P first) (h : entries.foldlM step first = .ok last) : P last := by
  induction entries generalizing first with
  | nil =>
    rw [List.foldlM_nil] at h
    exact Except.ok.inj h ▸ hfirst
  | cons entry rest ih =>
    rw [List.foldlM_cons] at h
    obtain ⟨next, hnext, hlast⟩ := bind_eq_ok.mp h
    have hkept := hstep first entry List.mem_cons_self next hfirst hnext
    refine ih ?_ hkept hlast
    intro before other hother
    exact hstep before other (List.mem_cons_of_mem _ hother)

/-- A fold that fails does so in one of its steps, after the steps before it. -/
theorem exists_of_foldlM_eq_error {step : σ → α → Except ε σ} {entries : List α} {first : σ}
    {fault : ε} (h : entries.foldlM step first = .error fault) :
    ∃ front entry back state, entries = front ++ entry :: back ∧
      front.foldlM step first = .ok state ∧ step state entry = .error fault := by
  induction entries generalizing first with
  | nil => cases h
  | cons entry rest ih =>
    rw [List.foldlM_cons] at h
    rcases bind_eq_error.mp h with hentry | ⟨next, hnext, hrest⟩
    · exact ⟨[], entry, rest, first, rfl, rfl, hentry⟩
    · obtain ⟨front, last, back, state, rfl, hfront, hlast⟩ := ih hrest
      refine ⟨entry :: front, last, back, state, rfl, ?_, hlast⟩
      rw [List.foldlM_cons, hnext]
      exact hfront

/-- A fold through a map of its states. -/
theorem foldlM_map {step : σ → α → Except ε σ} {image : τ → α → Except ε τ} (f : σ → τ)
    {entries : List α}
    (h : ∀ entry ∈ entries, ∀ state, image (f state) entry = (step state entry).map f) (state : σ) :
    entries.foldlM image (f state) = (entries.foldlM step state).map f := by
  induction entries generalizing state with
  | nil => rfl
  | cons entry rest ih =>
    obtain ⟨hentry, hrest⟩ := List.forall_mem_cons.mp h
    rw [List.foldlM_cons, List.foldlM_cons, hentry]
    cases step state entry with
    | error fault => rfl
    | ok next => exact ih hrest next

theorem foldlM_congr {step image : σ → α → Except ε σ} {entries : List α}
    (h : ∀ entry ∈ entries, ∀ state, step state entry = image state entry) (state : σ) :
    entries.foldlM step state = entries.foldlM image state := by
  induction entries generalizing state with
  | nil => rfl
  | cons entry rest ih =>
    obtain ⟨hentry, hrest⟩ := List.forall_mem_cons.mp h
    rw [List.foldlM_cons, List.foldlM_cons, hentry, funext (ih hrest)]

theorem foldlM_of_skip {step : σ → α → Except ε σ} {entries : List α}
    (h : ∀ entry ∈ entries, ∀ state, step state entry = .ok state) (state : σ) :
    entries.foldlM step state = .ok state := by
  induction entries with
  | nil => rfl
  | cons entry rest ih =>
    obtain ⟨hentry, hrest⟩ := List.forall_mem_cons.mp h
    rw [List.foldlM_cons, hentry]
    exact ih hrest

/-- Where every step can be taken, the fold can be. -/
theorem exists_foldlM {step : σ → α → Except ε σ} {entries : List α}
    (h : ∀ entry ∈ entries, ∀ state, ∃ next, step state entry = .ok next) (state : σ) :
    ∃ last, entries.foldlM step state = .ok last := by
  induction entries generalizing state with
  | nil => exact ⟨state, rfl⟩
  | cons entry rest ih =>
    obtain ⟨hentry, hrest⟩ := List.forall_mem_cons.mp h
    obtain ⟨next, hnext⟩ := hentry state
    rw [List.foldlM_cons, hnext]
    exact ih hrest next

/-- A fold that forgets its faults. -/
theorem toOption_foldlM {step : σ → α → Except ε σ} {step? : σ → α → Option σ} {entries : List α}
    (h : ∀ entry ∈ entries, ∀ state, (step state entry).toOption = step? state entry)
    (state : σ) : (entries.foldlM step state).toOption = entries.foldlM step? state := by
  induction entries generalizing state with
  | nil => rfl
  | cons entry rest ih =>
    obtain ⟨hentry, hrest⟩ := List.forall_mem_cons.mp h
    rw [List.foldlM_cons, List.foldlM_cons, ← hentry]
    cases step state entry with
    | error fault => rfl
    | ok next => exact ih hrest next

end SheetCompiler
