import Mathlib.Logic.Basic

/-! A `do … while` loop whose body may throw. It runs with fuel; the rules below do not speak of fuel.
They follow one iteration: the loop throws, stops, or ends as it does from the next state. A loop that
comes back to the same states forever has no end. -/

namespace DoWhile

variable {State Error : Type} (body : State → Except Error State) (again : State → Bool)

/-- At most `fuel` iterations; `none` if they were not enough. -/
def run : Nat → State → Option (Except Error State)
  | 0, _ => none
  | fuel + 1, s =>
      match body s with
      | .error e => some (.error e)
      | .ok s' => if again s' then run fuel s' else some (.ok s')

/-- The loop ends, with a last state or with an error. -/
def Ends (s : State) (result : Except Error State) : Prop := ∃ fuel, run body again fuel s = some result

variable {body again} {s s' : State} {result : Except Error State}

theorem run_mono {fuel fuel' : Nat} (hle : fuel ≤ fuel') (h : run body again fuel s = some result) :
    run body again fuel' s = some result := by
  induction fuel generalizing fuel' s with
  | zero => cases h
  | succ fuel ih =>
      obtain ⟨rest, rfl⟩ : ∃ rest, fuel' = rest + 1 := ⟨fuel' - 1, by omega⟩
      rw [run] at h ⊢
      cases hbody : body s with
      | error e =>
          rw [hbody] at h
          exact h
      | ok s' =>
          simp only [hbody] at h ⊢
          by_cases hagain : again s' = true
          · rw [if_pos hagain] at h ⊢
            exact ih (by omega) h
          · rw [if_neg hagain] at h ⊢
            exact h

/-- A loop ends in one way. -/
theorem Ends.unique {result' : Except Error State} (h : Ends body again s result)
    (h' : Ends body again s result') : result = result' := by
  obtain ⟨fuel, hrun⟩ := h
  obtain ⟨fuel', hrun'⟩ := h'
  have hmax := run_mono (Nat.le_max_left fuel fuel') hrun
  rw [run_mono (Nat.le_max_right fuel fuel') hrun'] at hmax
  exact (Option.some.inj hmax).symm

theorem ends_of_error {e : Error} (hbody : body s = .error e) : Ends body again s (.error e) :=
  ⟨1, by rw [run, hbody]⟩

theorem ends_of_stop (hbody : body s = .ok s') (hstop : again s' = false) :
    Ends body again s (.ok s') :=
  ⟨1, by simp [run, hbody, hstop]⟩

theorem ends_iff_of_again (hbody : body s = .ok s') (hagain : again s' = true) :
    Ends body again s result ↔ Ends body again s' result := by
  have hrun (fuel : Nat) : run body again (fuel + 1) s = run body again fuel s' := by
    rw [run, hbody]
    exact if_pos hagain
  constructor
  · rintro ⟨fuel, h⟩
    cases fuel with
    | zero => cases h
    | succ fuel => exact ⟨fuel, hrun fuel ▸ h⟩
  · rintro ⟨fuel, h⟩
    exact ⟨fuel + 1, hrun fuel ▸ h⟩

/-- **The divergence rule.** A property that always leads to another iteration with the same property
keeps the loop from ending. -/
theorem not_ends_of_invariant (Inv : State → Prop)
    (h : ∀ s, Inv s → ∃ s', body s = .ok s' ∧ again s' = true ∧ Inv s') (hs : Inv s) :
    ¬Ends body again s result := by
  rintro ⟨fuel, hrun⟩
  induction fuel generalizing s with
  | zero => cases hrun
  | succ fuel ih =>
      obtain ⟨s', hbody, hagain, hs'⟩ := h s hs
      rw [run, hbody] at hrun
      simp only [hagain, if_true] at hrun
      exact ih hs' hrun

end DoWhile
