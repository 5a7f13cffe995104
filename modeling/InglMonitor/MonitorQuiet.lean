import InglMonitor.MonitorAnnounced
import Mathlib.Algebra.Order.Ring.Rat

/-! Whether the monitor becomes quiet. The tasks of a new vote account and of a new proposal store what
the next tick compares with; the task of a finalized proposal stores the date in another collection,
so the next tick finds it pending again. -/

open Borsh DocumentStore Transition

namespace InglMonitor

variable {env : Env}

/-- The proposal on chain has a date, and another one or none is stored. -/
def DatePending (env : Env) (onChain : OnChainState) (doc : InglState) : Prop :=
  ∃ info date, onChain.proposalAccountInfo = some info ∧
    ValidatorProposal.dateFinalized env.reader info.data = some (some date) ∧
    doc.dateFinalized ≠ .value (date : ℚ)

/-- Exactly one of the three events is pending. -/
def OnePending (env : Env) (onChain : OnChainState) (doc : InglState) : Prop :=
  isNewVoteAccount onChain doc ∧ ¬isNewProposal onChain doc ∧ ¬DatePending env onChain doc ∨
  ¬isNewVoteAccount onChain doc ∧ isNewProposal onChain doc ∧ ¬DatePending env onChain doc ∨
  ¬isNewVoteAccount onChain doc ∧ ¬isNewProposal onChain doc ∧ DatePending env onChain doc

/-- Every event is the success of a task. -/
def Succeeds (es : List Event) : Prop := ∀ e ∈ es, ∃ i, e = .task i .resolved

/-- A world after a tick, the success of all its tasks, and a second tick. -/
def AfterNextTick (env : Env) (chain : Chain) (db : Db) (w : World) : Prop :=
  ∃ w₁ w₂ es, run (step env) (World.start chain db) tickEvents = some w₁ ∧
    run (step env) w₁ es = some w₂ ∧ Succeeds es ∧ w₂.tasks = [] ∧
    run (step env) w₂ tickEvents = some w

/-- The decoded date of the proposal on chain, if there is a proposal, is the stored one. -/
def SameDate (env : Env) (onChain : OnChainState) (doc : InglState) : Prop :=
  ∀ info date, onChain.proposalAccountInfo = some info →
    ValidatorProposal.dateFinalized env.reader info.data = some date →
    isNewDate date doc = false

/-! ### What the tasks leave behind -/

/-- The document after the write of the pending vote account or proposal. -/
def settled (onChain : OnChainState) (doc : InglState) : InglState :=
  if isNewVoteAccount onChain doc then
    { doc with voteAccountKey := .value onChain.voteAccountKey }
  else if isNewProposal onChain doc then
    { doc with proposalNumeration := .value onChain.currentProposalNumeration }
  else doc

theorem settled_set (onChain : OnChainState) (doc : InglState) :
    (settled onChain doc).set doc = settled onChain doc ∧
      (settled onChain doc).set (settled onChain doc) = settled onChain doc := by
  unfold settled
  split
  · simp [InglState.set]
  · split <;> simp [InglState.set]

/-- While one of the two is pending, its broadcast is the one that writes the document. -/
theorem inglState_eq_settled {onChain : OnChainState} {doc : InglState} {broadcast : Broadcast}
    (hone : ¬(isNewVoteAccount onChain doc ∧ isNewProposal onChain doc))
    (hdetects : Detects env onChain doc broadcast) (hcollection : broadcast.collection = .inglState) :
    broadcast.inglState doc = settled onChain doc := by
  cases broadcast with
  | newVoteAccount key =>
      obtain ⟨hvote, rfl⟩ := hdetects
      rw [settled, if_pos hvote]
      rfl
  | newProposal numeration =>
      obtain ⟨hproposal, rfl⟩ := hdetects
      rw [settled, if_neg fun hvote => hone ⟨hvote, hproposal⟩, if_pos hproposal]
      rfl
  | finalizedProposal date => cases hcollection

/-- Nothing is pending in the settled document, except for a date. -/
theorem detects_settled_iff {onChain : OnChainState} {doc : InglState} {broadcast : Broadcast}
    (hone : ¬(isNewVoteAccount onChain doc ∧ isNewProposal onChain doc)) :
    Detects env onChain (settled onChain doc) broadcast ↔
      ∃ date, broadcast = .finalizedProposal date ∧ Detects env onChain doc broadcast := by
  have hvote : isNewVoteAccount onChain (settled onChain doc) = false := by
    unfold settled
    split
    · simp [isNewVoteAccount]
    · split <;> simp_all [isNewVoteAccount]
  have hproposal : isNewProposal onChain (settled onChain doc) = false := by
    unfold settled
    split
    · rename_i hnew
      exact Bool.eq_false_iff.mpr fun h => hone ⟨hnew, h⟩
    · split
      · simp [isNewProposal]
      · simp_all
  have hdate : (settled onChain doc).dateFinalized = doc.dateFinalized := by
    unfold settled
    split
    · rfl
    · split <;> rfl
  cases broadcast with
  | finalizedProposal date => cases date <;> simp [Detects, isNewDate, hdate]
  | _ => simp [Detects, hvote, hproposal]

/-- The world while the tasks of the first tick succeed one after the other. -/
structure Completing (env : Env) (chain : Chain) (onChain : OnChainState) (doc : InglState)
    (w : World) : Prop where
  sound : Sound env w
  ticks : w.ticks = []
  chain : w.chain = chain
  payload : ∀ task ∈ w.tasks, task.broadcast.collection = .inglState →
    task.payload = settled onChain doc
  stored : getDbState env w.db = some (settled onChain doc) ∨
    getDbState env w.db = some doc ∧ ∃ task ∈ w.tasks, task.broadcast.collection = .inglState

theorem completing_step {chain : Chain} {onChain : OnChainState} {doc : InglState} {w w' : World}
    {i : Nat} (h : Completing env chain onChain doc w)
    (hstep : step env w (.task i .resolved) = some w') : Completing env chain onChain doc w' := by
  have hsound := h.sound.keeps hstep
  cases step_effect hstep with
  | @sends _ task hget hstage =>
      refine ⟨hsound, h.ticks, h.chain, fun task' htask' hcollection => ?_, h.stored.imp_right ?_⟩
      · rcases List.mem_or_eq_of_mem_set htask' with htask' | rfl
        · exact h.payload task' htask' hcollection
        · exact h.payload task (List.mem_of_getElem? hget) hcollection
      · rintro ⟨hdoc, writer, hwriter, hcollection⟩
        refine ⟨hdoc, ?_⟩
        obtain ⟨j, hj⟩ := List.mem_iff_getElem?.mp hwriter
        by_cases hij : i = j
        · subst hij
          cases hget.symm.trans hj
          exact ⟨_, List.mem_set (List.getElem?_eq_some_iff.mp hget).1 _, hcollection⟩
        · exact ⟨writer, List.mem_iff_getElem?.mpr ⟨j, (List.getElem?_set_ne hij).trans hj⟩, hcollection⟩
  | @writes _ _ task db _ hget hstage _ hupdate =>
      have htask := List.mem_of_getElem? hget
      have hdb := getDbState_update (h.sound.copies.tasks task htask) hupdate
      refine ⟨hsound, h.ticks, h.chain,
        fun task' htask' => h.payload task' (List.mem_of_mem_eraseIdx htask'), ?_⟩
      by_cases hcollection : task.broadcast.collection = .inglState
      · rw [if_pos hcollection, h.payload task htask hcollection] at hdb
        left
        rcases h.stored with hstored | ⟨hstored, -⟩
        · rw [hdb, hstored, Option.map_some, (settled_set onChain doc).2]
        · rw [hdb, hstored, Option.map_some, (settled_set onChain doc).1]
      · rw [if_neg hcollection] at hdb
        rw [hdb]
        refine h.stored.imp_right ?_
        rintro ⟨hdoc, writer, hwriter, hwrites⟩
        refine ⟨hdoc, writer, ?_, hwrites⟩
        obtain ⟨j, hj⟩ := List.mem_iff_getElem?.mp hwriter
        refine List.mem_eraseIdx_iff_getElem?.mpr ⟨j, ?_, hj⟩
        rintro rfl
        cases hget.symm.trans hj
        exact hcollection hwrites
  | fails _ hreply _ => exact absurd rfl hreply

theorem completing_run {chain : Chain} {onChain : OnChainState} {doc : InglState} {w w' : World}
    {es : List Event} (h : Completing env chain onChain doc w) (hes : Succeeds es)
    (hrun : run (step env) w es = some w') : Completing env chain onChain doc w' := by
  induction es generalizing w with
  | nil => exact Option.some.inj hrun ▸ h
  | cons e es ih =>
      obtain ⟨w'', hstep, hrest⟩ := (run_cons_eq_some _).mp hrun
      obtain ⟨i, rfl⟩ := hes e List.mem_cons_self
      exact ih (completing_step h hstep) (fun e he => hes e (List.mem_cons_of_mem _ he)) hrest

/-- The world after the first tick. -/
theorem completing_start {chain : Chain} {db : Db} {onChain : OnChainState} {doc : InglState}
    {w : World} (hchain : getOnChainState env chain = some onChain)
    (hdoc : getDbState env db = some doc)
    (hone : ¬(isNewVoteAccount onChain doc ∧ isNewProposal onChain doc))
    (hrun : run (step env) (World.start chain db) tickEvents = some w) :
    Completing env chain onChain doc w := by
  have hsound := sound_run hrun
  have hticks : (World.start chain db).ticks = [] := rfl
  obtain ⟨logged, htick⟩ := run_tickEvents hticks hchain hdoc
  cases htick.symm.trans hrun
  refine ⟨hsound, rfl, rfl, fun task htask hcollection => ?_, ?_⟩
  · obtain ⟨broadcast, hbroadcast, rfl⟩ := List.mem_map.mp htask
    exact inglState_eq_settled hone (mem_broadcasts.mp hbroadcast) hcollection
  · by_cases hvote : isNewVoteAccount onChain doc
    · have hmem : Broadcast.newVoteAccount onChain.voteAccountKey ∈ (broadcasts env onChain doc).1 :=
        mem_broadcasts.mpr ⟨hvote, rfl⟩
      exact .inr ⟨hdoc, _, List.mem_map_of_mem hmem, rfl⟩
    · by_cases hproposal : isNewProposal onChain doc
      · have hmem : Broadcast.newProposal onChain.currentProposalNumeration ∈
            (broadcasts env onChain doc).1 := mem_broadcasts.mpr ⟨hproposal, rfl⟩
        exact .inr ⟨hdoc, _, List.mem_map_of_mem hmem, rfl⟩
      · rw [settled, if_neg hvote, if_neg hproposal]
        exact .inl hdoc

/-- **Quiet.** With one event pending, the tick after it launches no broadcast exactly when the date of
the proposal on chain is the stored one. -/
theorem quiet_iff {chain : Chain} {db : Db} {onChain : OnChainState} {doc : InglState} {w : World}
    (hchain : getOnChainState env chain = some onChain) (hdoc : getDbState env db = some doc)
    (hpending : OnePending env onChain doc) (hnext : AfterNextTick env chain db w) :
    w.tasks = [] ↔ SameDate env onChain doc := by
  have hone : ¬(isNewVoteAccount onChain doc ∧ isNewProposal onChain doc) := by
    rintro ⟨hvote, hproposal⟩
    rcases hpending with ⟨-, h, -⟩ | ⟨h, -⟩ | ⟨h, -⟩
    · exact h hproposal
    · exact h hvote
    · exact h hvote
  obtain ⟨w₁, w₂, es, hfirst, hsettle, hsucceeds, hdone, hsecond⟩ := hnext
  have hcompleting := completing_run (completing_start hchain hdoc hone hfirst) hsucceeds hsettle
  have hstored : getDbState env w₂.db = some (settled onChain doc) := by
    rcases hcompleting.stored with hstored | ⟨-, task, htask, -⟩
    · exact hstored
    · rw [hdone] at htask
      cases htask
  obtain ⟨logged, htick⟩ :=
    run_tickEvents hcompleting.ticks (hcompleting.chain ▸ hchain) hstored
  cases htick.symm.trans hsecond
  simp only [hdone, List.nil_append, launch_eq_nil_iff, detects_settled_iff hone]
  constructor
  · intro hquiet info date hinfo hdate
    rw [Bool.eq_false_iff]
    exact fun hnew => hquiet (.finalizedProposal date) ⟨date, rfl, hnew, info, hinfo, hdate⟩
  · rintro hsame _ ⟨date, rfl, hnew, info, hinfo, hdate⟩
    rw [hsame info date hinfo hdate] at hnew
    cases hnew

theorem afterNextTick_of_run {chain : Chain} {db : Db} {es : List Event} {tasks : List Task}
    (hes : Succeeds es)
    (hrun : (run (step env) (World.start chain db) tickEvents).map (fun w₁ =>
      (run (step env) w₁ es).map fun w₂ =>
        (w₂.tasks, (run (step env) w₂ tickEvents).map (·.tasks))) = some (some ([], some tasks))) :
    ∃ w, AfterNextTick env chain db w ∧ w.tasks = tasks := by
  obtain ⟨w₁, hfirst, hrun⟩ := Option.map_eq_some_iff.mp hrun
  obtain ⟨w₂, hsettle, hrun⟩ := Option.map_eq_some_iff.mp hrun
  obtain ⟨hdone, hrun⟩ := Prod.mk.inj hrun
  obtain ⟨w, hsecond, htasks⟩ := Option.map_eq_some_iff.mp hrun
  exact ⟨w, ⟨w₁, w₂, es, hfirst, hsettle, hes, hdone, hsecond⟩, htasks⟩

theorem succeeds_devnet : Succeeds [.task 0 .resolved, .task 0 .resolved] := by
  intro e he
  exact ⟨0, by simpa using he⟩

/-- A document written at numeration 7. -/
def devnetCurrent (key : String) : InglState :=
  { devnetState .absent with voteAccountKey := .value key, proposalNumeration := .value 7 }

/-- A new vote account is recorded, and the next tick is quiet. -/
theorem devnet_quiet_iff :
    ∃ w, AfterNextTick devnetEnv (devnetChain (some devnetVoteData) none)
        (devnetDb (devnetCurrent devnetOldKey)) w ∧
      (w.tasks = [] ↔
        SameDate devnetEnv ⟨7, devnetKey, some devnetVoteData, none⟩ (devnetCurrent devnetOldKey)) := by
  have hrun : (run (step devnetEnv) (World.start (devnetChain (some devnetVoteData) none)
      (devnetDb (devnetCurrent devnetOldKey))) tickEvents).map
        (fun w₁ => (run (step devnetEnv) w₁ [.task 0 .resolved, .task 0 .resolved]).map fun w₂ =>
          (w₂.tasks, (run (step devnetEnv) w₂ tickEvents).map (·.tasks))) =
      some (some ([], some [])) := by decide
  obtain ⟨w, hnext, -⟩ := afterNextTick_of_run succeeds_devnet hrun
  refine ⟨w, hnext, quiet_iff (by decide) (by decide) (.inl ⟨by decide, by decide, ?_⟩) hnext⟩
  rintro ⟨info, date, hinfo, -⟩
  cases hinfo

/-- A proposal finalized at 1670000000. -/
def devnetFinalized : AccountInfo := devnetProposal [1, 128, 45, 138, 99]

/-- The finalized proposal is announced, and the next tick announces it again. -/
theorem devnet_not_quiet :
    OnePending devnetEnv ⟨7, devnetKey, none, some devnetFinalized⟩ (devnetCurrent devnetKey) ∧
    getOnChainState devnetEnv (devnetChain none (some devnetFinalized)) =
      some ⟨7, devnetKey, none, some devnetFinalized⟩ ∧
    ∃ w, AfterNextTick devnetEnv (devnetChain none (some devnetFinalized))
        (devnetDb (devnetCurrent devnetKey)) w ∧
      w.tasks = [⟨.finalizedProposal (some 1670000000), devnetCurrent devnetKey, 7, .broadcasting⟩] := by
  refine ⟨.inr (.inr ⟨by decide, by decide, devnetFinalized, 1670000000, rfl, by decide, by decide⟩),
    by decide, afterNextTick_of_run succeeds_devnet ?_⟩
  decide

end InglMonitor
