import Mathlib.Logic.Basic

/-! A `while` loop whose body may throw. An exception carries what the body has done before it, so that
the rules also speak of loops that fail: an invariant holds where the loop stops, and where the body that
fails is entered. A measure that the body decreases makes the loop end. -/

namespace WhileLoop

variable {State Error : Type} (again : State → Bool) (body : State → Except Error State)

/-- At most `fuel` iterations; `none` if they were not enough. -/
def run : Nat → State → Option (Except Error State)
  | 0, _ => none
  | fuel + 1, s =>
      if again s then
        match body s with
        | .error e => some (.error e)
        | .ok s' => run fuel s'
      else some (.ok s)

/-- The loop ends, with a last state or with an error. -/
def Ends (s : State) (result : Except Error State) : Prop := ∃ fuel, run again body fuel s = some result

variable {again body} {s s' : State} {result : Except Error State}

theorem ends_iff_of_stop (hstop : again s = false) : Ends again body s result ↔ result = .ok s := by
  have hrun (fuel : Nat) : run again body (fuel + 1) s = some (.ok s) := by
    rw [run, hstop]
    rfl
  constructor
  · rintro ⟨fuel, h⟩
    cases fuel with
    | zero => cases h
    | succ fuel => exact Option.some.inj (h.symm.trans (hrun fuel))
  · rintro rfl
    exact ⟨1, hrun 0⟩

theorem ends_iff_of_error {e : Error} (hagain : again s = true) (hbody : body s = .error e) :
    Ends again body s result ↔ result = .error e := by
  have hrun (fuel : Nat) : run again body (fuel + 1) s = some (.error e) := by
    rw [run, if_pos hagain, hbody]
  constructor
  · rintro ⟨fuel, h⟩
    cases fuel with
    | zero => cases h
    | succ fuel => exact Option.some.inj (h.symm.trans (hrun fuel))
  · rintro rfl
    exact ⟨1, hrun 0⟩

/-- **The invariant rule.** An invariant of the body holds of the last state of a loop that stops, and
of the state in which the body of a loop that throws has thrown. -/
theorem Ends.invariant {Inv : State → Prop}
    (hkeep : ∀ s s', Inv s → again s = true → body s = .ok s' → Inv s') (hs : Inv s)
    (h : Ends again body s result) :
    (∃ t, result = .ok t ∧ Inv t ∧ again t = false) ∨
      ∃ t e, result = .error e ∧ Inv t ∧ again t = true ∧ body t = .error e := by
  obtain ⟨fuel, hrun⟩ := h
  induction fuel generalizing s with
  | zero => cases hrun
  | succ fuel ih =>
      rw [run] at hrun
      cases hagain : again s with
      | false =>
          rw [hagain] at hrun
          exact .inl ⟨s, (Option.some.inj hrun).symm, hs, hagain⟩
      | true =>
          rw [if_pos hagain] at hrun
          cases hbody : body s with
          | error e =>
              rw [hbody] at hrun
              exact .inr ⟨s, e, (Option.some.inj hrun).symm, hs, hagain, hbody⟩
          | ok s' =>
              rw [hbody] at hrun
              exact ih (hkeep s s' hs hagain hbody) hrun

end WhileLoop
