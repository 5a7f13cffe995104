import InglMonitor.MonitorAnnounced

/-! Where errors go. A tick runs inside a `try` whose handler logs, but the tasks it launches are
neither awaited nor caught, and they fail when that block has long been left. -/

open Borsh DocumentStore Transition

namespace InglMonitor

variable {env : Env}

/-- The answer to its request makes the code of a tick raise an error. -/
def Tick.Raises (env : Env) (chain : Chain) (tick : Tick) : Reply → Prop
  | .resolved =>
      match tick with
      | readingGems globalGem => voteKeys env (chain globalGem) = none
      | readingVoteData numeration _ _ =>
          ∃ message, proposalPubkey env.web3 numeration = .error message
      | readingProposal .. | readingDb _ => False
      | resuming _ none => True
      | resuming onChain (some doc) => (broadcasts env onChain doc).2 = false
  | _ => True

/-- An event at which a tick, or a task that a tick has launched, raises an error. -/
def Raises (env : Env) (w : World) : Event → Prop
  | .chain _ => False
  | .cron => ∃ message, globalGemPubkey env.web3 = .error message
  | .tick i reply => ∃ tick, w.ticks[i]? = some tick ∧ tick.Raises env w.chain reply
  | .task _ reply => reply ≠ .resolved

/-- What the tick promises of each step: an error is logged and no rejection is left over, and a
broadcast that fails changes nothing in `ingl_state`. -/
structure Contained (env : Env) (w : World) (e : Event) (w' : World) : Prop where
  logged : Raises env w e → ∃ handlers, w'.logged = w.logged ++ handlers ∧ .monitorInglState ∈ handlers
  handled : w'.unhandled = w.unhandled
  kept : ∀ i reply task, e = .task i reply → reply ≠ .resolved → w.tasks[i]? = some task →
    task.stage = .broadcasting → w'.db .inglState = w.db .inglState

/-- No broadcast and no write of a launched task fails. -/
def TaskSucceeds : Event → Prop
  | .task _ reply => reply = .resolved
  | _ => True

theorem Tick.ends_of_raises {chain : Chain} {tick : Tick} (h : tick.Raises env chain .resolved)
    (db : Db) : ∃ launched handlers, tick.resolve env chain db = .ends launched handlers ∧
      .monitorInglState ∈ handlers := by
  cases tick with
  | readingGems globalGem =>
      have hkeys : voteKeys env (chain globalGem) = none := h
      rw [resolve, hkeys]
      exact ⟨_, _, rfl, by simp⟩
  | readingVoteData numeration voteAccount inglVoteData =>
      obtain ⟨message, hproposal⟩ := h
      rw [resolve, hproposal]
      exact ⟨_, _, rfl, by simp⟩
  | readingProposal numeration voteAccount voteData proposal => exact False.elim h
  | readingDb onChain => exact False.elim h
  | resuming onChain doc =>
      cases doc with
      | none => exact ⟨_, _, rfl, List.mem_singleton_self _⟩
      | some doc =>
          have hends : (broadcasts env onChain doc).2 = false := h
          rw [resolve, monitorInglState, hends]
          exact ⟨_, _, rfl, by simp⟩

theorem Tick.mem_handlers_of_reject (tick : Tick) :
    ∃ handlers, tick.reject = .ends [] handlers ∧ .monitorInglState ∈ handlers := by
  cases tick <;> exact ⟨_, rfl, by simp⟩

@[simp] theorem World.settleTick_unhandled (w : World) (i : Nat) (result : TickResult) :
    (w.settleTick i result).unhandled = w.unhandled := by
  cases result <;> rfl

@[simp] theorem World.startTick_unhandled (w : World) : (w.startTick env).unhandled = w.unhandled := by
  unfold startTick
  split <;> rfl

/-- Every error of a tick's own code reaches its handler. -/
theorem contained_tick {w w' : World} {i : Nat} {reply : Reply}
    (h : step env w (.tick i reply) = some w') : Contained env w (.tick i reply) w' := by
  cases reply with
  | resolved =>
      obtain ⟨tick, hget, h⟩ := Option.bind_eq_some_iff.mp h
      cases h
      refine ⟨?_, World.settleTick_unhandled .., fun _ _ _ he => nomatch he⟩
      rintro ⟨tick', hget', hraises⟩
      cases hget.symm.trans hget'
      obtain ⟨launched, handlers, hends, hmem⟩ := Tick.ends_of_raises hraises w.db
      rw [hends]
      exact ⟨handlers, rfl, hmem⟩
  | _ =>
      obtain ⟨tick, hget, h⟩ := Option.bind_eq_some_iff.mp h
      cases h
      refine ⟨fun _ => ?_, World.settleTick_unhandled .., fun _ _ _ he => nomatch he⟩
      obtain ⟨handlers, hends, hmem⟩ := tick.mem_handlers_of_reject
      rw [hends]
      exact ⟨handlers, rfl, hmem⟩

theorem contained_cron (w : World) : Contained env w .cron (w.startTick env) := by
  refine ⟨?_, World.startTick_unhandled w, fun _ _ _ he => nomatch he⟩
  rintro ⟨message, hgem⟩
  rw [World.startTick, hgem]
  exact ⟨_, rfl, by simp⟩

/-! ### Errors of a task -/

/-- A failed call of a task is left unhandled, and nothing else happens to it. -/
theorem settleTask_unhandled {w w' : World} {i : Nat} {task : Task} {reply : Reply}
    (h : w.settleTask env i task reply = some w') :
    w'.unhandled = w.unhandled ++ if reply = .resolved then [] else [task.broadcast] := by
  cases hstage : task.stage with
  | broadcasting =>
      cases reply with
      | resolved =>
          simp only [World.settleTask, hstage] at h
          cases h
          exact (List.append_nil _).symm
      | _ =>
          simp only [World.settleTask, hstage] at h
          cases h
          rfl
  | updating =>
      cases reply with
      | rejected =>
          simp only [World.settleTask, hstage] at h
          cases h
          rfl
      | resolved =>
          simp only [World.settleTask, hstage] at h
          obtain ⟨db, -, h⟩ := Option.bind_eq_some_iff.mp h
          cases h
          exact (List.append_nil _).symm
      | lost =>
          simp only [World.settleTask, hstage] at h
          obtain ⟨db, -, h⟩ := Option.bind_eq_some_iff.mp h
          cases h
          rfl

/-- A broadcast that fails changes nothing in the database. -/
theorem settleTask_db {w w' : World} {i : Nat} {task : Task} {reply : Reply}
    (h : w.settleTask env i task reply = some w') (hstage : task.stage = .broadcasting) :
    w'.db = w.db := by
  cases reply <;>
  · simp only [World.settleTask, hstage] at h
    cases h
    rfl

theorem contained_task_iff {w w' : World} {i : Nat} {reply : Reply}
    (h : step env w (.task i reply) = some w') :
    Contained env w (.task i reply) w' ↔ reply = .resolved := by
  obtain ⟨task, hget, hsettle⟩ := Option.bind_eq_some_iff.mp h
  have hunhandled := settleTask_unhandled hsettle
  constructor
  · intro hcontained
    by_contra hreply
    rw [hcontained.handled, if_neg hreply] at hunhandled
    exact List.cons_ne_nil _ _ (List.self_eq_append_right.mp hunhandled)
  · intro hreply
    rw [if_pos hreply, List.append_nil] at hunhandled
    refine ⟨fun hraises => absurd hreply hraises, hunhandled, ?_⟩
    intro i reply task' he _ hget' hstage
    cases he
    cases hget.symm.trans hget'
    rw [settleTask_db hsettle hstage]

/-- A step contains its errors exactly when it is not the failure of a launched task. -/
theorem contained_iff_taskSucceeds {w w' : World} {e : Event} (h : step env w e = some w') :
    Contained env w e w' ↔ TaskSucceeds e := by
  cases e with
  | chain chain =>
      cases h
      exact iff_of_true ⟨False.elim, rfl, fun _ _ _ he => nomatch he⟩ trivial
  | cron =>
      cases h
      exact iff_of_true (contained_cron w) trivial
  | tick i reply => exact iff_of_true (contained_tick h) trivial
  | task i reply => exact contained_task_iff h

/-- **Contained failures.** A run contains all its errors exactly when no call of a launched task
fails in it. -/
theorem contained_iff (chain : Chain) (db : Db) (es : List Event) :
    EveryStep (step env) (Contained env) (World.start chain db) es ↔
      EveryStep (step env) (fun _ e _ => TaskSucceeds e) (World.start chain db) es := by
  apply everyStep_congr
  intro w e w' hstep
  exact contained_iff_taskSucceeds hstep

/-- A tick at numeration 7 launches two tasks, and the messaging service refuses the second. -/
theorem devnet_not_contained :
    ¬EveryStep (step devnetEnv) (Contained devnetEnv)
      (devnetWorld (some devnetVoteData) none (devnetState .absent))
      (tickEvents ++ [.task 1 .rejected]) := by
  intro hcontained
  have hrun : (run (step devnetEnv) (devnetWorld (some devnetVoteData) none (devnetState .absent))
      tickEvents).map (fun w => (step devnetEnv w (.task 1 .rejected)).isSome) = some true := by decide
  obtain ⟨w, hrun, hw⟩ := Option.map_eq_some_iff.mp hrun
  obtain ⟨w', hstep⟩ := Option.isSome_iff_exists.mp hw
  have hfails := everyStep_iff_forall.mp hcontained _ _ [] w w' rfl hrun hstep
  have hsucceeds := (contained_task_iff hstep).mp hfails
  cases hsucceeds

end InglMonitor
