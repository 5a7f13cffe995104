import Mathlib.Logic.Basic

/-! Runs of a deterministic labelled transition function. An event that is not enabled has no
successor and ends the run. The rules below carry a step lemma to whole runs: an invariant to every
state a run reaches, and an equivalence of two step relations to all the steps a run takes. -/

namespace Transition

universe u v

variable {State : Type u} {Event : Type v} (step : State → Event → Option State)

/-- The state a list of events leads to, `none` if one of them is not enabled. -/
def run : State → List Event → Option State
  | s, [] => some s
  | s, e :: es => (step s e).bind fun s' => run s' es

theorem run_cons_eq_some {s t : State} {e : Event} {es : List Event} :
    run step s (e :: es) = some t ↔ ∃ s', step s e = some s' ∧ run step s' es = some t :=
  Option.bind_eq_some_iff

/-- **The invariant rule.** What every step preserves, every run preserves. -/
theorem run_invariant {Inv : State → Prop}
    (hstep : ∀ s e s', Inv s → step s e = some s' → Inv s') {s t : State} {es : List Event}
    (hs : Inv s) (hrun : run step s es = some t) : Inv t := by
  induction es generalizing s with
  | nil => exact Option.some.inj hrun ▸ hs
  | cons e es ih =>
      obtain ⟨s', he, hes⟩ := (run_cons_eq_some step).mp hrun
      exact ih (hstep s e s' hs he) hes

/-- A relation between the state before, the event and the state after holds of every step that a
run takes. -/
def EveryStep (P : State → Event → State → Prop) : State → List Event → Prop
  | _, [] => True
  | s, e :: es => ∀ s', step s e = some s' → P s e s' ∧ EveryStep P s' es

variable {step}

/-- The recursion reads the relation at each position of the run. -/
theorem everyStep_iff_forall {P : State → Event → State → Prop} {s : State} {es : List Event} :
    EveryStep step P s es ↔ ∀ pre e post t t', es = pre ++ e :: post → run step s pre = some t →
      step t e = some t' → P t e t' := by
  induction es generalizing s with
  | nil => simp [EveryStep]
  | cons e es ih =>
      constructor
      · intro h pre e' post t t' heq hpre he'
        cases pre with
        | nil =>
            obtain ⟨rfl, rfl⟩ := List.cons.inj heq
            cases hpre
            exact (h t' he').1
        | cons e'' pre =>
            obtain ⟨rfl, rfl⟩ := List.cons.inj heq
            obtain ⟨s', he, hpre⟩ := (run_cons_eq_some step).mp hpre
            exact ih.mp (h s' he).2 pre e' post t t' rfl hpre he'
      · intro h s' he
        refine ⟨h [] e es s s' rfl rfl he, ih.mpr fun pre e' post t t' heq hpre he' => ?_⟩
        exact h (e :: pre) e' post t t' (by rw [heq]; rfl)
          ((run_cons_eq_some step).mpr ⟨s', he, hpre⟩) he'

theorem EveryStep.mono {P Q : State → Event → State → Prop} {s : State} {es : List Event}
    (hPQ : ∀ s e s', P s e s' → Q s e s') (h : EveryStep step P s es) : EveryStep step Q s es := by
  induction es generalizing s with
  | nil => trivial
  | cons e es ih => exact fun s' he => ⟨hPQ _ _ _ (h s' he).1, ih (h s' he).2⟩

theorem everyStep_and {P Q : State → Event → State → Prop} {s : State} {es : List Event} :
    EveryStep step (fun s e s' => P s e s' ∧ Q s e s') s es ↔
      EveryStep step P s es ∧ EveryStep step Q s es := by
  refine ⟨fun h => ⟨h.mono fun _ _ _ hpq => hpq.1, h.mono fun _ _ _ hpq => hpq.2⟩, ?_⟩
  rintro ⟨hp, hq⟩
  induction es generalizing s with
  | nil => trivial
  | cons e es ih =>
      exact fun s' he => ⟨⟨(hp s' he).1, (hq s' he).1⟩, ih (hp s' he).2 (hq s' he).2⟩

/-- Relations that agree at every step hold of the same runs. -/
theorem everyStep_congr {P Q : State → Event → State → Prop}
    (h : ∀ s e s', step s e = some s' → (P s e s' ↔ Q s e s')) (s : State) (es : List Event) :
    EveryStep step P s es ↔ EveryStep step Q s es := by
  induction es generalizing s with
  | nil => exact Iff.rfl
  | cons e es ih => exact forall₂_congr fun s' he => and_congr (h s e s' he) (ih s')

/-- A relation that an invariant gives holds of every step. -/
theorem everyStep_of_invariant {P : State → Event → State → Prop} {Inv : State → Prop} {s : State}
    (hs : Inv s) (hP : ∀ s e s', Inv s → step s e = some s' → P s e s')
    (hkeep : ∀ s e s', Inv s → step s e = some s' → Inv s') (es : List Event) :
    EveryStep step P s es := by
  induction es generalizing s with
  | nil => trivial
  | cons e es ih => exact fun s' he => ⟨hP s e s' hs he, ih (hkeep s e s' hs he)⟩

/-- The same where the events of the run are restricted. -/
theorem everyStep_of_invariant_of_forall {P : State → Event → State → Prop} {Inv : State → Prop}
    {Allowed : Event → Prop} {s : State} (hs : Inv s)
    (hP : ∀ s e s', Allowed e → Inv s → step s e = some s' → P s e s')
    (hkeep : ∀ s e s', Allowed e → Inv s → step s e = some s' → Inv s') {es : List Event}
    (hes : ∀ e ∈ es, Allowed e) : EveryStep step P s es := by
  induction es generalizing s with
  | nil => trivial
  | cons e es ih =>
      obtain ⟨hallowed, hes⟩ := List.forall_mem_cons.mp hes
      exact fun s' he => ⟨hP s e s' hallowed hs he, ih (hkeep s e s' hallowed hs he) hes⟩

/-- **The equivalence rule.** Two step relations that agree wherever an invariant holds, where the
first keeps the invariant, hold of the same runs. -/
theorem everyStep_iff_of_invariant {P Q : State → Event → State → Prop} {Inv : State → Prop}
    {s : State} (hs : Inv s)
    (hiff : ∀ s e s', Inv s → step s e = some s' → (P s e s' ↔ Q s e s'))
    (hkeep : ∀ s e s', Inv s → step s e = some s' → P s e s' → Inv s') (es : List Event) :
    EveryStep step P s es ↔ EveryStep step Q s es := by
  induction es generalizing s with
  | nil => exact Iff.rfl
  | cons e es ih =>
      constructor
      · intro h s' he
        have hp := (h s' he).1
        exact ⟨(hiff s e s' hs he).mp hp, (ih (hkeep s e s' hs he hp)).mp (h s' he).2⟩
      · intro h s' he
        have hp := (hiff s e s' hs he).mpr (h s' he).1
        exact ⟨hp, (ih (hkeep s e s' hs he hp)).mpr (h s' he).2⟩

/-- Where every event is enabled, what is said of each event of a run is said of its events. -/
theorem everyStep_event_iff {Q : Event → Prop} (htotal : ∀ s e, step s e ≠ none) (s : State)
    (es : List Event) : EveryStep step (fun _ e _ => Q e) s es ↔ ∀ e ∈ es, Q e := by
  induction es generalizing s with
  | nil => simp [EveryStep]
  | cons e es ih =>
      rw [List.forall_mem_cons]
      constructor
      · intro h
        obtain ⟨s', he⟩ := Option.ne_none_iff_exists'.mp (htotal s e)
        exact ⟨(h s' he).1, (ih s').mp (h s' he).2⟩
      · intro h s' _
        exact ⟨h.1, (ih s').mpr h.2⟩

end Transition
