import InglMonitor.MonitorModel
import InglMonitor.TransitionRuns

/-! What one step of the monitor can do, and what every run keeps. A document is held in three places:
in the database, by a tick that has read it, and by the tasks of that tick. -/

open Borsh DocumentStore

namespace InglMonitor

variable {env : Env}

/-- The event that a broadcast reports, as the code tests for it. -/
def Detects (env : Env) (onChain : OnChainState) (doc : InglState) : Broadcast → Prop
  | .newVoteAccount key => isNewVoteAccount onChain doc ∧ key = onChain.voteAccountKey
  | .newProposal numeration =>
      isNewProposal onChain doc ∧ numeration = onChain.currentProposalNumeration
  | .finalizedProposal date => isNewDate date doc ∧ ∃ info, onChain.proposalAccountInfo = some info ∧
      ValidatorProposal.dateFinalized env.reader info.data = some date

theorem mem_broadcasts {onChain : OnChainState} {doc : InglState} {broadcast : Broadcast} :
    broadcast ∈ (broadcasts env onChain doc).1 ↔ Detects env onChain doc broadcast := by
  unfold broadcasts
  cases hinfo : onChain.proposalAccountInfo with
  | none =>
      simp only [List.mem_append, List.mem_ite_nil_right, List.mem_singleton]
      cases broadcast <;> simp [Detects, hinfo]
  | some info =>
      cases hdate : ValidatorProposal.dateFinalized env.reader info.data with
      | none =>
          simp only [hdate, List.mem_append, List.mem_ite_nil_right, List.mem_singleton]
          cases broadcast <;> simp [Detects, hinfo, hdate]
      | some date =>
          simp only [hdate, List.mem_append, List.mem_ite_nil_right, List.mem_singleton]
          cases broadcast with
          | finalizedProposal date' =>
              simp only [Detects, hinfo, Option.some.injEq, exists_eq_left', hdate, reduceCtorEq,
                and_false, false_or, Broadcast.finalizedProposal.injEq]
              constructor
              · rintro ⟨hnew, rfl⟩; exact ⟨hnew, rfl⟩
              · rintro ⟨hnew, rfl⟩; exact ⟨hnew, rfl⟩
          | _ => simp [Detects]

theorem launch_eq_nil_iff {onChain : OnChainState} {doc : InglState} :
    launch env onChain doc = [] ↔ ∀ broadcast, ¬Detects env onChain doc broadcast := by
  rw [launch, List.map_eq_nil_iff, List.eq_nil_iff_forall_not_mem]
  simp only [mem_broadcasts]

/-- The document a tick has read. -/
def Tick.snapshot : Tick → Option InglState
  | .resuming _ doc => doc
  | _ => none

/-- A task is one of the broadcasts of its tick, and keeps what that tick has read. -/
def Task.Launched (env : Env) (task : Task) : Prop :=
  ∃ onChain, task.seen = onChain.currentProposalNumeration ∧
    task.broadcast ∈ (broadcasts env onChain task.inglDbState).1

theorem Tick.snapshot_of_resolve {chain : Chain} {db : Db} {tick tick' : Tick}
    (h : tick.resolve env chain db = .waits tick') {doc : InglState}
    (hdoc : tick'.snapshot = some doc) : getDbState env db = some doc := by
  cases tick with
  | readingGems globalGem =>
      simp only [resolve] at h
      split at h <;> cases h
      cases hdoc
  | readingVoteData numeration voteAccount inglVoteData =>
      simp only [resolve] at h
      split at h <;> cases h
      cases hdoc
  | readingProposal => cases h; cases hdoc
  | readingDb onChain => cases h; exact hdoc
  | resuming onChain doc => cases doc <;> cases h

theorem Tick.launched_of_resolve {chain : Chain} {db : Db} {tick : Tick} {launched : List Task}
    {logged : List Handler} (h : tick.resolve env chain db = .ends launched logged) {task : Task}
    (htask : task ∈ launched) :
    tick.snapshot = some task.inglDbState ∧ task.Launched env ∧ task.stage = .broadcasting := by
  cases tick with
  | readingGems globalGem =>
      simp only [resolve] at h
      split at h <;> cases h
      cases htask
  | readingVoteData numeration voteAccount inglVoteData =>
      simp only [resolve] at h
      split at h <;> cases h
      cases htask
  | readingProposal => cases h
  | readingDb onChain => cases h
  | resuming onChain doc =>
      cases doc with
      | none => cases h; cases htask
      | some doc =>
          cases h
          obtain ⟨broadcast, hbroadcast, rfl⟩ := List.mem_map.mp htask
          exact ⟨rfl, ⟨onChain, rfl, hbroadcast⟩, rfl⟩

theorem Tick.reject_eq_ends (tick : Tick) : ∃ logged, tick.reject = .ends [] logged := by
  cases tick <;> exact ⟨_, rfl⟩

/-- What one step can do. -/
inductive Effect (env : Env) (w : World) : Event → World → Prop where
  | chain (chain : Chain) : Effect env w (.chain chain) { w with chain }
  | start {ticks : List Tick} {logged : List Handler}
      (hticks : ∀ tick ∈ ticks, tick ∈ w.ticks ∨ tick.snapshot = none) :
      Effect env w .cron { w with ticks, logged }
  | waits {i : Nat} {tick tick' : Tick} (hget : w.ticks[i]? = some tick)
      (hresolve : tick.resolve env w.chain w.db = .waits tick') :
      Effect env w (.tick i .resolved) { w with ticks := w.ticks.set i tick' }
  | ends {i : Nat} {reply : Reply} {tick : Tick} {launched : List Task} {logged : List Handler}
      (hget : w.ticks[i]? = some tick)
      (hends : launched = [] ∨ tick.resolve env w.chain w.db = .ends launched logged) :
      Effect env w (.tick i reply)
        { w with
          ticks := w.ticks.eraseIdx i
          tasks := w.tasks ++ launched
          logged := w.logged ++ logged }
  | sends {i : Nat} {task : Task} (hget : w.tasks[i]? = some task)
      (hstage : task.stage = .broadcasting) :
      Effect env w (.task i .resolved)
        { w with
          tasks := w.tasks.set i { task with stage := .updating }
          sent := w.sent ++ [task.broadcast] }
  | writes {i : Nat} {reply : Reply} {task : Task} {db : Db} {unhandled : List Broadcast}
      (hget : w.tasks[i]? = some task) (hstage : task.stage = .updating)
      (hreply : reply ≠ .rejected) (hupdate : task.update env w.db = some db) :
      Effect env w (.task i reply)
        { w with db, tasks := w.tasks.eraseIdx i, written := w.written ++ [task], unhandled }
  | fails {i : Nat} {reply : Reply} {task : Task} (hget : w.tasks[i]? = some task)
      (hreply : reply ≠ .resolved) (hfails : reply = .rejected ∨ task.stage = .broadcasting) :
      Effect env w (.task i reply) (w.rejectTask i task)

theorem startTick_effect (w : World) : Effect env w .cron (w.startTick env) := by
  rw [World.startTick]
  split
  · refine .start fun tick htick => ?_
    rcases List.mem_append.mp htick with htick | htick
    · exact .inl htick
    · rw [List.mem_singleton.mp htick]
      exact .inr rfl
  · exact .start fun _ htick => .inl htick

theorem settleTask_effect {w w' : World} {i : Nat} {task : Task} {reply : Reply}
    (hget : w.tasks[i]? = some task) (h : w.settleTask env i task reply = some w') :
    Effect env w (.task i reply) w' := by
  cases hstage : task.stage with
  | broadcasting =>
      cases reply with
      | resolved =>
          simp only [World.settleTask, hstage] at h
          cases h
          exact .sends hget hstage
      | _ =>
          simp only [World.settleTask, hstage] at h
          cases h
          exact .fails hget (by simp) (.inr hstage)
  | updating =>
      cases reply with
      | rejected =>
          simp only [World.settleTask, hstage] at h
          cases h
          exact .fails hget (by simp) (.inl rfl)
      | _ =>
          simp only [World.settleTask, hstage] at h
          obtain ⟨db, hupdate, h⟩ := Option.bind_eq_some_iff.mp h
          cases h
          exact .writes hget hstage (by simp) hupdate

theorem step_effect {w w' : World} {e : Event} (h : step env w e = some w') : Effect env w e w' := by
  cases e with
  | chain chain => cases h; exact .chain chain
  | cron => cases h; exact startTick_effect w
  | tick i reply =>
      cases reply with
      | resolved =>
          obtain ⟨tick, hget, h⟩ := Option.bind_eq_some_iff.mp h
          cases h
          cases hresolve : tick.resolve env w.chain w.db with
          | waits tick' => exact .waits hget hresolve
          | ends launched logged => exact .ends hget (.inr hresolve)
      | _ =>
          obtain ⟨tick, hget, h⟩ := Option.bind_eq_some_iff.mp h
          obtain ⟨logged, hlogged⟩ := tick.reject_eq_ends
          cases h
          rw [hlogged]
          exact .ends hget (.inl rfl)
  | task i reply =>
      obtain ⟨task, hget, h⟩ := Option.bind_eq_some_iff.mp h
      exact settleTask_effect hget h

section Frames

variable {w w' : World} {e : Event}

/-- A tick that has read the document after a step had read it before, or reads it now. -/
theorem mem_ticks_of_step (h : step env w e = some w') {tick : Tick} (htick : tick ∈ w'.ticks) :
    tick ∈ w.ticks ∨ ∀ doc, tick.snapshot = some doc → getDbState env w.db = some doc := by
  cases step_effect h with
  | start hticks =>
      refine (hticks tick htick).imp_right fun hnone doc hdoc => ?_
      rw [hnone] at hdoc
      cases hdoc
  | waits hget hresolve =>
      rcases List.mem_or_eq_of_mem_set htick with htick | rfl
      · exact .inl htick
      · exact .inr fun doc => Tick.snapshot_of_resolve hresolve
  | ends hget hends => exact .inl (List.mem_of_mem_eraseIdx htick)
  | _ => exact .inl htick

/-- A task after a step is a task from before, perhaps one stage further, or its tick launches it now.
-/
theorem mem_tasks_of_step (h : step env w e = some w') {task : Task} (htask : task ∈ w'.tasks) :
    (∃ old ∈ w.tasks, task = { old with stage := task.stage } ∧
      (task.stage = .updating → old.stage = .updating ∨ task.broadcast ∈ w'.sent)) ∨
    (∃ tick ∈ w.ticks, tick.snapshot = some task.inglDbState) ∧ task.Launched env ∧
      task.stage = .broadcasting := by
  have hold {task : Task} (htask : task ∈ w.tasks) :
      ∃ old ∈ w.tasks, task = { old with stage := task.stage } ∧
        (task.stage = .updating → old.stage = .updating ∨ task.broadcast ∈ w'.sent) :=
    ⟨task, htask, rfl, Or.inl⟩
  cases step_effect h with
  | ends hget hends =>
      rcases List.mem_append.mp htask with htask | htask
      · exact .inl (hold htask)
      · rcases hends with rfl | hends
        · cases htask
        · obtain ⟨hsnapshot, hlaunched⟩ := Tick.launched_of_resolve hends htask
          exact .inr ⟨⟨_, List.mem_of_getElem? hget, hsnapshot⟩, hlaunched⟩
  | @sends i old hget hstage =>
      rcases List.mem_or_eq_of_mem_set htask with htask | rfl
      · exact .inl (hold htask)
      · refine .inl ⟨old, List.mem_of_getElem? hget, rfl, fun _ => .inr ?_⟩
        exact List.mem_append_right _ (List.mem_singleton_self _)
  | writes hget _ _ _ => exact .inl (hold (List.mem_of_mem_eraseIdx htask))
  | fails hget _ _ => exact .inl (hold (List.mem_of_mem_eraseIdx htask))
  | _ => exact .inl (hold htask)

theorem mem_sent_of_step (h : step env w e = some w') {broadcast : Broadcast}
    (hsent : broadcast ∈ w.sent) : broadcast ∈ w'.sent := by
  cases step_effect h with
  | sends _ _ => exact List.mem_append_left _ hsent
  | _ => exact hsent

theorem mem_written_of_step (h : step env w e = some w') {task : Task} (htask : task ∈ w'.written) :
    task ∈ w.written ∨ task ∈ w.tasks := by
  cases step_effect h with
  | writes hget _ _ _ =>
      rcases List.mem_append.mp htask with htask | htask
      · exact .inl htask
      · rw [List.mem_singleton.mp htask]
        exact .inr (List.mem_of_getElem? hget)
  | _ => exact .inl htask

theorem mem_written_mono (h : step env w e = some w') {task : Task} (htask : task ∈ w.written) :
    task ∈ w'.written := by
  cases step_effect h with
  | writes _ _ _ _ => exact List.mem_append_left _ htask
  | _ => exact htask

end Frames

/-- The task whose write to `ingl_state` an event applies. -/
def World.writer (w : World) : Event → Option Task
  | .task i reply =>
      (w.tasks[i]?).filter fun task =>
        reply ≠ .rejected ∧ task.stage = .updating ∧ task.broadcast.collection = .inglState
  | _ => none

/-- What a task writes. -/
def Task.payload (task : Task) : InglState := task.broadcast.inglState task.inglDbState

@[simp] theorem Task.payload_dataId (task : Task) : task.payload.dataId = task.inglDbState.dataId := by
  unfold payload
  cases task.broadcast with
  | finalizedProposal date => cases date <;> rfl
  | _ => rfl

theorem isInglState_of_getDbState {db : Db} {doc : InglState} (h : getDbState env db = some doc) :
    isInglState env doc = true :=
  List.find?_some h

/-- A write to the document replaces its fields by those of the payload. -/
theorem getDbState_update {task : Task} (hmatch : isInglState env task.inglDbState = true) {db db' : Db}
    (hupdate : task.update env db = some db') :
    getDbState env db' =
      if task.broadcast.collection = .inglState then (getDbState env db).map task.payload.set
      else getDbState env db := by
  have hkeep (doc : InglState) : isInglState env doc → isInglState env (task.payload.set doc) := by
    simp only [isInglState, decide_eq_true_eq, InglState.set, Task.payload_dataId] at hmatch ⊢
    simp [hmatch, Stored.set]
  rw [Task.update, update] at hupdate
  by_cases hcollection : task.broadcast.collection = .inglState
  · rw [hcollection] at hupdate
    rw [if_pos hcollection]
    split at hupdate
    · rename_i hnone
      cases hupdate
      rw [getDbState, hnone, Option.map_none]
    · split at hupdate
      · cases hupdate
        rw [getDbState, Function.update_self]
        exact findOne_updateOne hkeep _
      · cases hupdate
  · rw [if_neg hcollection]
    split at hupdate
    · cases hupdate; rfl
    · split at hupdate
      · cases hupdate
        rw [getDbState, Function.update_of_ne (Ne.symm hcollection)]
        rfl
      · cases hupdate

/-! ### What every run keeps -/

/-- A property of the stored document and of every copy that a tick or a task holds. -/
structure Everywhere (env : Env) (P : InglState → Prop) (w : World) : Prop where
  stored : ∀ doc, getDbState env w.db = some doc → P doc
  ticks : ∀ tick ∈ w.ticks, ∀ doc, tick.snapshot = some doc → P doc
  tasks : ∀ task ∈ w.tasks, P task.inglDbState

theorem Everywhere.mono {P Q : InglState → Prop} {w : World} (hPQ : ∀ doc, P doc → Q doc)
    (h : Everywhere env P w) : Everywhere env Q w where
  stored doc hdoc := hPQ doc (h.stored doc hdoc)
  ticks tick htick doc hdoc := hPQ doc (h.ticks tick htick doc hdoc)
  tasks task htask := hPQ _ (h.tasks task htask)

theorem Everywhere.start {P : InglState → Prop} {chain : Chain} {db : Db}
    (h : ∀ doc, getDbState env db = some doc → P doc) : Everywhere env P (World.start chain db) where
  stored := h
  ticks _ htick := nomatch htick
  tasks _ htask := nomatch htask

/-- **The snapshot rule.** Ticks copy the stored document and tasks copy their tick's, so a property
that the stored document keeps holds of all copies. -/
theorem Everywhere.keeps {P : InglState → Prop} {w w' : World} {e : Event} (h : Everywhere env P w)
    (hstep : step env w e = some w') (hstored : ∀ doc, getDbState env w'.db = some doc → P doc) :
    Everywhere env P w' where
  stored := hstored
  ticks tick htick doc hdoc := by
    rcases mem_ticks_of_step hstep htick with htick | hread
    · exact h.ticks tick htick doc hdoc
    · exact h.stored doc (hread doc hdoc)
  tasks task htask := by
    rcases mem_tasks_of_step hstep htask with ⟨old, hold, htask, -⟩ | ⟨⟨tick, htick, hdoc⟩, -⟩
    · rw [htask]
      exact h.tasks old hold
    · exact h.ticks tick htick _ hdoc

/-- Where copies of documents and tasks come from, in every world a run reaches. -/
structure Sound (env : Env) (w : World) : Prop where
  copies : Everywhere env (fun doc => isInglState env doc = true) w
  launched : ∀ task ∈ w.tasks, task.Launched env
  announced : ∀ task ∈ w.tasks, task.stage = .updating → task.broadcast ∈ w.sent
  written : ∀ task ∈ w.written, task.Launched env

theorem Sound.start (chain : Chain) (db : Db) : Sound env (World.start chain db) where
  copies := .start fun _ h => isInglState_of_getDbState h
  launched _ htask := nomatch htask
  announced _ htask := nomatch htask
  written _ htask := nomatch htask

theorem Sound.keeps {w w' : World} {e : Event} (h : Sound env w) (hstep : step env w e = some w') :
    Sound env w' where
  copies := h.copies.keeps hstep fun _ => isInglState_of_getDbState
  launched task htask := by
    rcases mem_tasks_of_step hstep htask with ⟨old, hold, htask, -⟩ | ⟨-, hlaunched, -⟩
    · rw [htask]
      exact h.launched old hold
    · exact hlaunched
  announced task htask hstage := by
    rcases mem_tasks_of_step hstep htask with ⟨old, hold, htask, hsent⟩ | ⟨-, -, hstage'⟩
    · rcases hsent hstage with hold' | hsent
      · rw [htask]
        exact mem_sent_of_step hstep (h.announced old hold hold')
      · exact hsent
    · rw [hstage] at hstage'
      cases hstage'
  written task htask := (mem_written_of_step hstep htask).elim (h.written task) (h.launched task)

section Writes

variable {w w' : World} {e : Event} {task : Task}

theorem writer_eq_some (h : w.writer e = some task) :
    task ∈ w.tasks ∧ task.stage = .updating ∧ task.broadcast.collection = .inglState := by
  cases e with
  | task i reply =>
      obtain ⟨hget, hwrites⟩ := Option.filter_eq_some_iff.mp h
      simp only [decide_eq_true_eq] at hwrites
      exact ⟨List.mem_of_getElem? hget, hwrites.2⟩
  | _ => cases h

/-- **Writes.** Only a writer changes the stored document, to its payload, and it is recorded. -/
theorem Sound.writes (h : Sound env w) (hstep : step env w e = some w') :
    match w.writer e with
    | none => getDbState env w'.db = getDbState env w.db ∧
        ∀ old ∈ w'.written, old ∈ w.written ∨ old.broadcast.collection = .betaUsers
    | some task => getDbState env w'.db = (getDbState env w.db).map task.payload.set ∧
        w'.written = w.written ++ [task] := by
  cases step_effect hstep with
  | @writes i reply task db unhandled hget hstage hreply hupdate =>
      have hdb := getDbState_update (h.copies.tasks task (List.mem_of_getElem? hget)) hupdate
      cases hcollection : task.broadcast.collection with
      | inglState =>
          rw [hcollection, if_pos rfl] at hdb
          simp only [World.writer, hget, Option.filter_some, hreply, hstage, hcollection, ne_eq,
            not_false_eq_true, and_self, decide_true, if_true]
          exact ⟨hdb, trivial⟩
      | betaUsers =>
          rw [hcollection, if_neg (by simp)] at hdb
          simp only [World.writer, hget, Option.filter_some, hcollection, reduceCtorEq, and_false,
            decide_false, Bool.false_eq_true, if_false]
          refine ⟨hdb, fun old hold => (List.mem_append.mp hold).imp_right fun hold => ?_⟩
          rw [List.mem_singleton.mp hold]
          exact hcollection
  | @sends i task hget hstage =>
      simp only [World.writer, hget, Option.filter_some, hstage, reduceCtorEq, false_and, and_false,
        decide_false, Bool.false_eq_true, if_false]
      exact ⟨trivial, fun old hold => .inl hold⟩
  | @fails i reply task hget _ hfails =>
      have hwriter : w.writer (.task i reply) = none := by
        rcases hfails with rfl | hstage
        · simp [World.writer]
        · simp [World.writer, hget, hstage]
      rw [hwriter]
      exact ⟨rfl, fun old hold => .inl hold⟩
  | _ => exact ⟨rfl, fun old hold => .inl hold⟩

/-- The stored document after a write, and its record. -/
theorem Sound.stored_of_writer (h : Sound env w) (hstep : step env w e = some w')
    (hwriter : w.writer e = some task) {doc : InglState} (hdoc : getDbState env w.db = some doc) :
    getDbState env w'.db = some (task.payload.set doc) ∧ w'.written = w.written ++ [task] := by
  have hwrites := h.writes hstep
  rw [hwriter, hdoc] at hwrites
  exact hwrites

/-- The stored document after a step. -/
theorem Sound.stored_cases (h : Sound env w) (hstep : step env w e = some w') {doc : InglState}
    (hdoc : getDbState env w'.db = some doc) :
    getDbState env w.db = some doc ∨ ∃ task old, w.writer e = some task ∧
      getDbState env w.db = some old ∧ doc = task.payload.set old := by
  have hwrites := h.writes hstep
  cases hwriter : w.writer e with
  | none =>
      rw [hwriter] at hwrites
      exact .inl (hwrites.1.symm.trans hdoc)
  | some task =>
      rw [hwriter] at hwrites
      obtain ⟨old, hold, rfl⟩ := Option.map_eq_some_iff.mp (hwrites.1.symm.trans hdoc)
      exact .inr ⟨task, old, rfl, hold, rfl⟩

end Writes

theorem sound_run {chain : Chain} {db : Db} {es : List Event} {w : World}
    (hrun : Transition.run (step env) (World.start chain db) es = some w) : Sound env w :=
  Transition.run_invariant _ (fun _ _ _ h hstep => h.keeps hstep) (Sound.start chain db) hrun

/-- What `getOnChainState` returns while the chain stands still, `none` if it fails. -/
def getOnChainState (env : Env) (chain : Chain) : Option OnChainState := do
  let globalGem ← (globalGemPubkey env.web3).toOption
  let (numeration, voteAccount, inglVoteData) ← voteKeys env (chain globalGem)
  let proposal ← (proposalPubkey env.web3 numeration).toOption
  return {
    currentProposalNumeration := numeration
    voteAccountKey := voteAccount.base58
    inglVoteDataAccount := chain inglVoteData
    proposalAccountInfo := chain proposal }

/-- A tick with all its requests answered. -/
def tickEvents : List Event :=
  [.cron, .tick 0 .resolved, .tick 0 .resolved, .tick 0 .resolved, .tick 0 .resolved,
    .tick 0 .resolved]

/-- The requests of a single tick add up to one look at the world. -/
theorem run_tickEvents {w : World} {onChain : OnChainState} {doc : InglState} (hticks : w.ticks = [])
    (hchain : getOnChainState env w.chain = some onChain) (hdoc : getDbState env w.db = some doc) :
    ∃ logged, Transition.run (step env) w tickEvents =
      some { w with tasks := w.tasks ++ launch env onChain doc, logged } := by
  obtain ⟨globalGem, hgem, hchain⟩ := Option.bind_eq_some_iff.mp hchain
  obtain ⟨⟨numeration, voteAccount, inglVoteData⟩, hkeys, hchain⟩ := Option.bind_eq_some_iff.mp hchain
  obtain ⟨proposal, hproposal, hchain⟩ := Option.bind_eq_some_iff.mp hchain
  cases hchain
  cases hgem' : globalGemPubkey env.web3 with
  | error message => rw [hgem'] at hgem; cases hgem
  | ok key =>
      rw [hgem'] at hgem
      cases hgem
      cases hproposal' : proposalPubkey env.web3 numeration with
      | error message => rw [hproposal'] at hproposal; cases hproposal
      | ok key =>
          rw [hproposal'] at hproposal
          cases hproposal
          obtain ⟨chain, db, ticks, tasks, sent, written, log, unhandled⟩ := w
          cases hticks
          simp only [tickEvents, Transition.run, step, World.startTick, World.settleTick, Tick.resolve,
            monitorInglState, hgem', hkeys, hproposal', hdoc, List.nil_append, List.getElem?_cons_zero,
            Option.bind_eq_bind, Option.bind_some, Option.pure_def, List.set_cons_zero,
            List.eraseIdx_cons_zero]
          exact ⟨_, rfl⟩

end InglMonitor
