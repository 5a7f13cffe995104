import InglMonitor.MonitorQuiet
import InglMonitor.MonitorWork

/-! The monitor over many ticks on a chain that stands still. Two tasks of one tick put each other's
field back, and the next tick announces the loser again; but each round settles one event for good, so
that after the second round only a finalization can still be announced. -/

open Borsh DocumentStore Transition

namespace InglMonitor

variable {env : Env}

/-- The event answers a task, and does not fail a task that writes the state document. -/
def Completes (w : World) (e : Event) (_ : World) : Prop :=
  ∃ i reply task, e = .task i reply ∧ w.tasks[i]? = some task ∧
    (task.broadcast.collection = .inglState →
      reply = .resolved ∨ reply = .lost ∧ task.stage = .updating)

/-- A tick without interference, and the answers to all its tasks, in any order. -/
def Round (env : Env) (w w' : World) : Prop :=
  ∃ w₁ es, run (step env) w tickEvents = some w₁ ∧ run (step env) w₁ es = some w' ∧
    EveryStep (step env) Completes w₁ es ∧ w'.tasks = []

/-- A number of rounds, one after the other. -/
inductive Rounds (env : Env) : Nat → World → World → Prop where
  | zero (w : World) : Rounds env 0 w w
  | succ {n : Nat} {w w' w'' : World} (hround : Round env w w') (hrounds : Rounds env n w' w'') :
      Rounds env (n + 1) w w''

/-- How many events the state document does not know of. -/
def pending (onChain : OnChainState) (doc : InglState) : Nat :=
  (if isNewVoteAccount onChain doc then 1 else 0) + (if isNewProposal onChain doc then 1 else 0)

section Merged

variable {onChain : OnChainState} {doc stored : InglState}

/-- Each field is the one its tick has read, or the one on chain. -/
structure Merged (onChain : OnChainState) (doc stored : InglState) : Prop where
  voteAccountKey : stored.voteAccountKey = doc.voteAccountKey ∨
    stored.voteAccountKey = .value onChain.voteAccountKey
  proposalNumeration : stored.proposalNumeration = doc.proposalNumeration ∨
    stored.proposalNumeration = .value (onChain.currentProposalNumeration : ℚ)

theorem Merged.isNewVoteAccount (h : Merged onChain doc stored)
    (hnew : isNewVoteAccount onChain stored = true) : isNewVoteAccount onChain doc = true := by
  unfold InglMonitor.isNewVoteAccount at hnew ⊢
  rcases h.voteAccountKey with hkey | hkey
  · rwa [hkey] at hnew
  · simp [hkey] at hnew

theorem Merged.isNewProposal (h : Merged onChain doc stored)
    (hnew : isNewProposal onChain stored = true) : isNewProposal onChain doc = true := by
  unfold InglMonitor.isNewProposal at hnew ⊢
  rcases h.proposalNumeration with hnumeration | hnumeration
  · rwa [hnumeration] at hnew
  · simp [hnumeration] at hnew

theorem Merged.pending_le (h : Merged onChain doc stored) :
    pending onChain stored ≤ pending onChain doc := by
  have hvote := h.isNewVoteAccount
  have hproposal := h.isNewProposal
  unfold pending
  by_cases hnew : InglMonitor.isNewVoteAccount onChain stored = true
  · rw [if_pos hnew, if_pos (hvote hnew)]
    by_cases hnew' : InglMonitor.isNewProposal onChain stored = true
    · rw [if_pos hnew', if_pos (hproposal hnew')]
    · rw [if_neg hnew']
      omega
  · rw [if_neg hnew]
    by_cases hnew' : InglMonitor.isNewProposal onChain stored = true
    · rw [if_pos hnew', if_pos (hproposal hnew')]
      omega
    · rw [if_neg hnew']
      omega

/-- A write of the tick's snapshot settles its own event, and perhaps unsettles the other one. -/
theorem Merged.write (h : Merged onChain doc stored) {broadcast : Broadcast}
    (hdetects : Detects env onChain doc broadcast) (hcollection : broadcast.collection = .inglState) :
    Merged onChain doc ((broadcast.inglState doc).set stored) ∧
      pending onChain ((broadcast.inglState doc).set stored) < pending onChain doc := by
  cases broadcast with
  | newVoteAccount key =>
      obtain ⟨hnew, rfl⟩ := hdetects
      have hmerged : Merged onChain doc
          ((Broadcast.inglState (.newVoteAccount onChain.voteAccountKey) doc).set stored) := by
        refine ⟨.inr rfl, ?_⟩
        rcases Stored.set_eq_or doc.proposalNumeration stored.proposalNumeration with hset | hset
        · exact .inl hset
        · exact h.proposalNumeration.imp hset.trans hset.trans
      refine ⟨hmerged, ?_⟩
      have hold : InglMonitor.isNewVoteAccount onChain
          ((Broadcast.inglState (.newVoteAccount onChain.voteAccountKey) doc).set stored) = false := by
        simp [InglMonitor.isNewVoteAccount, Broadcast.inglState, InglState.set]
      have hproposal := hmerged.isNewProposal
      simp only [pending, hold, hnew, if_true, Bool.false_eq_true, if_false]
      split
      · rename_i hnew'
        rw [if_pos (hproposal hnew')]
        omega
      · omega
  | newProposal numeration =>
      obtain ⟨hnew, rfl⟩ := hdetects
      have hmerged : Merged onChain doc
          ((Broadcast.inglState (.newProposal onChain.currentProposalNumeration) doc).set stored) := by
        refine ⟨?_, .inr rfl⟩
        rcases Stored.set_eq_or doc.voteAccountKey stored.voteAccountKey with hset | hset
        · exact .inl hset
        · exact h.voteAccountKey.imp hset.trans hset.trans
      refine ⟨hmerged, ?_⟩
      have hold : InglMonitor.isNewProposal onChain
          ((Broadcast.inglState (.newProposal onChain.currentProposalNumeration) doc).set stored) =
            false := by
        simp [InglMonitor.isNewProposal, Broadcast.inglState, InglState.set]
      have hvote := hmerged.isNewVoteAccount
      simp only [pending, hold, hnew, if_true, Bool.false_eq_true, if_false]
      split
      · rename_i hnew'
        rw [if_pos (hvote hnew')]
        omega
      · omega
  | finalizedProposal date => cases hcollection

end Merged

/-- The weight of the broadcasts that write the state document, sent or still to be sent. -/
def announcing : Weights := outcomes (fun broadcast => broadcast.collection = .inglState) 3 1 0 0 0

theorem announcing_balanced : announcing.Balanced env :=
  outcomes_balanced fun onChain doc => List.countP_le_length.trans (length_launch_le onChain doc)

/-- The world while the tasks of a tick are answered. -/
structure Settling (env : Env) (chain : Chain) (onChain : OnChainState) (doc : InglState) (sent : Nat)
    (w : World) : Prop where
  sound : Sound env w
  ticks : w.ticks = []
  chain : w.chain = chain
  tasks : ∀ task ∈ w.tasks, task.inglDbState = doc ∧ Detects env onChain doc task.broadcast
  sent : announcing.world w ≤ sent
  stored : ∃ stored, getDbState env w.db = some stored ∧ Merged onChain doc stored ∧
    (pending onChain stored < pending onChain doc ∨
      ∀ broadcast, Detects env onChain doc broadcast → broadcast.collection = .inglState →
        broadcast ∈ w.tasks.map (·.broadcast))

theorem map_broadcast_set {tasks : List Task} {i : Nat} {task task' : Task} (hget : tasks[i]? = some task)
    (heq : task'.broadcast = task.broadcast) :
    (tasks.set i task').map (·.broadcast) = tasks.map (·.broadcast) := by
  rw [List.map_set, heq]
  refine List.ext_getElem? fun j => ?_
  by_cases hij : i = j
  · subst hij
    rw [List.getElem?_set_self', List.getElem?_map, hget]
    rfl
  · rw [List.getElem?_set_ne hij]

theorem mem_map_broadcast_eraseIdx {tasks : List Task} {i : Nat} {task : Task} (hget : tasks[i]? = some task)
    {broadcast : Broadcast} (hne : broadcast ≠ task.broadcast)
    (hmem : broadcast ∈ tasks.map (·.broadcast)) :
    broadcast ∈ (tasks.eraseIdx i).map (·.broadcast) := by
  obtain ⟨old, hold, rfl⟩ := List.mem_map.mp hmem
  obtain ⟨j, hj⟩ := List.mem_iff_getElem?.mp hold
  refine List.mem_map_of_mem (List.mem_eraseIdx_iff_getElem?.mpr ⟨j, ?_, hj⟩)
  rintro rfl
  cases hget.symm.trans hj
  exact hne rfl

theorem settling_step {chain : Chain} {onChain : OnChainState} {doc : InglState} {sent : Nat}
    {w w' : World} {e : Event} (h : Settling env chain onChain doc sent w)
    (hstep : step env w e = some w') (hcompletes : Completes w e w') :
    Settling env chain onChain doc sent w' := by
  obtain ⟨i, reply, task, rfl, hget, hreply⟩ := hcompletes
  have hsound := h.sound.keeps hstep
  have hweight := world_step announcing_balanced w _ w' hstep
  have hsent : announcing.world w' ≤ sent := by
    have hbefore := h.sent
    simp only [Weights.cost, Weights.income] at hweight
    omega
  obtain ⟨htask, hdetects⟩ := h.tasks task (List.mem_of_getElem? hget)
  obtain ⟨stored, hstored, hmerged, hcases⟩ := h.stored
  cases step_effect hstep with
  | @sends _ task' hget' hstage =>
      cases hget.symm.trans hget'
      refine ⟨hsound, h.ticks, h.chain, fun task' htask' => ?_, hsent, stored, hstored, hmerged, ?_⟩
      · rcases List.mem_or_eq_of_mem_set htask' with htask' | rfl
        · exact h.tasks task' htask'
        · exact ⟨htask, hdetects⟩
      · refine hcases.imp_right fun hmem broadcast hbroadcast hwrites => ?_
        have hmap := @map_broadcast_set w.tasks i task { task with stage := .updating } hget rfl
        exact (congrArg (broadcast ∈ ·) hmap).mpr (hmem broadcast hbroadcast hwrites)
  | @writes _ _ task' db _ hget' hstage _ hupdate =>
      cases hget.symm.trans hget'
      have hdb := getDbState_update (h.sound.copies.tasks task (List.mem_of_getElem? hget)) hupdate
      refine ⟨hsound, h.ticks, h.chain,
        fun task' htask' => h.tasks task' (List.mem_of_mem_eraseIdx htask'), hsent, ?_⟩
      by_cases hcollection : task.broadcast.collection = .inglState
      · rw [if_pos hcollection, hstored, Option.map_some, Task.payload, htask] at hdb
        obtain ⟨hmerged', hless⟩ := hmerged.write hdetects hcollection
        exact ⟨_, hdb, hmerged', .inl hless⟩
      · rw [if_neg hcollection, hstored] at hdb
        refine ⟨stored, hdb, hmerged, hcases.imp_right fun hmem broadcast hbroadcast hwrites => ?_⟩
        refine mem_map_broadcast_eraseIdx hget ?_ (hmem broadcast hbroadcast hwrites)
        rintro rfl
        exact hcollection hwrites
  | @fails _ _ task' hget' hresolved hfails =>
      cases hget.symm.trans hget'
      refine ⟨hsound, h.ticks, h.chain,
        fun task' htask' => h.tasks task' (List.mem_of_mem_eraseIdx htask'), hsent, stored, hstored,
        hmerged, hcases.imp_right fun hmem broadcast hbroadcast hwrites => ?_⟩
      refine mem_map_broadcast_eraseIdx hget ?_ (hmem broadcast hbroadcast hwrites)
      rintro rfl
      rcases hreply hwrites with rfl | ⟨rfl, hstage⟩
      · exact hresolved rfl
      · rcases hfails with hfails | hfails
        · cases hfails
        · rw [hstage] at hfails
          cases hfails

theorem settling_run {chain : Chain} {onChain : OnChainState} {doc : InglState} {sent : Nat}
    {w w' : World} {es : List Event} (h : Settling env chain onChain doc sent w)
    (hcompletes : EveryStep (step env) Completes w es) (hrun : run (step env) w es = some w') :
    Settling env chain onChain doc sent w' := by
  induction es generalizing w with
  | nil => exact Option.some.inj hrun ▸ h
  | cons e es ih =>
      obtain ⟨w'', hstep, hrest⟩ := (run_cons_eq_some _).mp hrun
      obtain ⟨hfirst, hcompletes⟩ := hcompletes w'' hstep
      exact ih (settling_step h hstep hfirst) hcompletes hrest

/-- A tick launches one such broadcast for each pending event. -/
theorem countP_launch (onChain : OnChainState) (doc : InglState) :
    (launch env onChain doc).countP (fun task => task.broadcast.collection = .inglState) =
      pending onChain doc := by
  let vote := if isNewVoteAccount onChain doc then
    [Broadcast.newVoteAccount onChain.voteAccountKey] else []
  let proposal := if isNewProposal onChain doc then
    [Broadcast.newProposal onChain.currentProposalNumeration] else []
  have hfirst : (vote ++ proposal).countP (fun broadcast => broadcast.collection = .inglState) =
      pending onChain doc := by
    dsimp only [vote, proposal]
    unfold pending
    split <;> split <;> rfl
  rw [launch, List.countP_map]
  unfold broadcasts
  cases onChain.proposalAccountInfo with
  | none => exact hfirst
  | some info =>
      cases hdate : ValidatorProposal.dateFinalized env.reader info.data with
      | none =>
          simp only [hdate]
          exact hfirst
      | some date =>
          simp only [hdate]
          rw [List.countP_append]
          refine (congrArg₂ (· + ·) hfirst ?_).trans (Nat.add_zero _)
          split <;> rfl

/-- What a world without pending calls knows. -/
structure Idle (env : Env) (onChain : OnChainState) (doc : InglState) (w : World) : Prop where
  sound : Sound env w
  ticks : w.ticks = []
  tasks : w.tasks = []
  chain : getOnChainState env w.chain = some onChain
  stored : getDbState env w.db = some doc

theorem settling_start {onChain : OnChainState} {doc : InglState} {w w₁ : World}
    (h : Idle env onChain doc w) (hrun : run (step env) w tickEvents = some w₁) :
    Settling env w.chain onChain doc
      (w.sent.countP (fun broadcast => broadcast.collection = .inglState) + pending onChain doc) w₁ := by
  have hsound : Sound env w₁ :=
    run_invariant _ (fun _ _ _ hs hstep => hs.keeps hstep) h.sound hrun
  obtain ⟨logged, htick⟩ := run_tickEvents h.ticks h.chain h.stored
  cases htick.symm.trans hrun
  have hmem (broadcast : Broadcast) (hdetects : Detects env onChain doc broadcast) :
      broadcast ∈ (launch env onChain doc).map (·.broadcast) :=
    List.mem_map.mpr ⟨_, List.mem_map_of_mem (mem_broadcasts.mpr hdetects), rfl⟩
  refine ⟨hsound, h.ticks, rfl, fun task htask => ?_, ?_, doc, h.stored, ⟨.inl rfl, .inl rfl⟩,
    .inr fun broadcast hdetects _ => ?_⟩
  · rw [h.tasks, List.nil_append] at htask
    obtain ⟨broadcast, hbroadcast, rfl⟩ := List.mem_map.mp htask
    exact ⟨rfl, mem_broadcasts.mp hbroadcast⟩
  · have hload := @load_outcomes_le (fun broadcast => broadcast.collection = .inglState) 3 1 0 0 0
      (launch env onChain doc)
    rw [countP_launch] at hload
    simp only [announcing, Weights.world, h.ticks, h.tasks, List.nil_append]
    simp only [outcomes, load_ite] at hload ⊢
    simp only [load_nil]
    omega
  · rw [h.tasks, List.nil_append]
    exact hmem broadcast hdetects

/-- A round settles one of the events that are still pending. -/
theorem Round.idle {onChain : OnChainState} {doc : InglState} {w w' : World}
    (h : Idle env onChain doc w) (hround : Round env w w') :
    ∃ doc', Idle env onChain doc' w' ∧ pending onChain doc' ≤ pending onChain doc - 1 ∧
      w'.sent.countP (fun broadcast => broadcast.collection = .inglState) ≤
        w.sent.countP (fun broadcast => broadcast.collection = .inglState) + pending onChain doc := by
  obtain ⟨w₁, es, htick, hsettle, hcompletes, hdone⟩ := hround
  have hsettled := settling_run (settling_start h htick) hcompletes hsettle
  obtain ⟨doc', hdoc', hmerged, hcases⟩ := hsettled.stored
  have hidle : Idle env onChain doc' w' :=
    ⟨hsettled.sound, hsettled.ticks, hdone, hsettled.chain ▸ h.chain, hdoc'⟩
  refine ⟨doc', hidle, ?_, ?_⟩
  · rcases hcases with hless | hmem
    · omega
    · -- nothing that writes the document was pending in the first place
      have hnone : pending onChain doc = 0 := by
        rw [← @countP_launch env, List.countP_eq_zero]
        intro task htask hwrites
        obtain ⟨broadcast, hbroadcast, rfl⟩ := List.mem_map.mp htask
        have habsurd := hmem broadcast (mem_broadcasts.mp hbroadcast) (of_decide_eq_true hwrites)
        rw [hdone] at habsurd
        cases habsurd
      have hle := hmerged.pending_le
      omega
  · have hsent := hsettled.sent
    simp only [announcing, Weights.world] at hsent
    simp only [outcomes, load_ite] at hsent
    omega

/-! ### Any number of rounds -/

theorem pending_le_two (onChain : OnChainState) (doc : InglState) : pending onChain doc ≤ 2 := by
  unfold pending
  split <;> split <;> decide

theorem Rounds.idle {onChain : OnChainState} {doc : InglState} {n : Nat} {w w' : World}
    (h : Idle env onChain doc w) (hrounds : Rounds env n w w') :
    ∃ doc', Idle env onChain doc' w' ∧ pending onChain doc' ≤ pending onChain doc - n ∧
      w'.sent.countP (fun broadcast => broadcast.collection = .inglState) ≤
        w.sent.countP (fun broadcast => broadcast.collection = .inglState) +
          (pending onChain doc + (pending onChain doc - 1)) := by
  induction hrounds generalizing doc with
  | zero w => exact ⟨doc, h, le_rfl, Nat.le_add_right ..⟩
  | succ hround _ ih =>
      obtain ⟨doc', hidle, hless, hsent⟩ := hround.idle h
      obtain ⟨doc'', hidle', hless', hsent'⟩ := ih hidle
      have htwo := pending_le_two onChain doc
      exact ⟨doc'', hidle', by omega, by omega⟩

/-- **Convergence.** Whatever has happened before, once the monitor waits for nothing and the chain
stands still, every round in which neither a broadcast nor a write of a task fails that writes the state
document settles one of the events that the document lacks: after two rounds a tick launches nothing but a
finalization, and until then vote accounts and proposals are announced three times at most, a time more
than there are events. -/
theorem monitor_converges {chain : Chain} {db : Db} {es : List Event} {w w' : World}
    {onChain : OnChainState} {doc : InglState} {n : Nat}
    (hrun : run (step env) (World.start chain db) es = some w) (hticks : w.ticks = [])
    (htasks : w.tasks = []) (hchain : getOnChainState env w.chain = some onChain)
    (hdoc : getDbState env w.db = some doc) (hrounds : Rounds env n w w') :
    ∃ doc', getDbState env w'.db = some doc' ∧
      pending onChain doc' ≤ pending onChain doc - n ∧
      w'.sent.countP (fun broadcast => broadcast.collection = .inglState) ≤
        w.sent.countP (fun broadcast => broadcast.collection = .inglState) +
          (pending onChain doc + (pending onChain doc - 1)) ∧
      (2 ≤ n → ∀ task ∈ launch env onChain doc', task.broadcast.collection = .betaUsers) := by
  have hidle : Idle env onChain doc w := ⟨sound_run hrun, hticks, htasks, hchain, hdoc⟩
  obtain ⟨doc', hidle', hless, hsent⟩ := hrounds.idle hidle
  refine ⟨doc', hidle'.stored, hless, hsent, fun htwo task htask => ?_⟩
  have hpending := pending_le_two onChain doc
  have hnone : (launch env onChain doc').countP
      (fun task => task.broadcast.collection = .inglState) = 0 := by
    rw [countP_launch]
    omega
  have hother := List.countP_eq_zero.mp hnone task htask
  cases hcollection : task.broadcast.collection with
  | inglState => exact absurd (decide_eq_true hcollection) hother
  | betaUsers => rfl

theorem completes_of_succeeds {w : World} {es : List Event} (hes : Succeeds es) :
    EveryStep (step env) Completes w es := by
  induction es generalizing w with
  | nil => trivial
  | cons e es ih =>
      intro w' hstep
      obtain ⟨i, rfl⟩ := hes e List.mem_cons_self
      obtain ⟨task, hget, -⟩ := Option.bind_eq_some_iff.mp hstep
      exact ⟨⟨i, .resolved, task, rfl, hget, fun _ => .inl rfl⟩,
        ih fun e he => hes e (List.mem_cons_of_mem _ he)⟩

/-- A vote account and a proposal take two rounds on devnet, and three messages. -/
theorem devnet_monitor_converges :
    ∃ w doc, Rounds devnetEnv 2 (devnetWorld (some devnetVoteData) none (devnetState .absent)) w ∧
      getDbState devnetEnv w.db = some doc ∧ w.sent.length = 3 ∧
      w.sent.countP (fun broadcast => broadcast.collection = .inglState) ≤ 0 + (2 + (2 - 1)) ∧
      ∀ task ∈ launch devnetEnv ⟨7, devnetKey, some devnetVoteData, none⟩ doc,
        task.broadcast.collection = .betaUsers := by
  let first : List Event := [.task 0 .resolved, .task 1 .resolved, .task 0 .resolved, .task 0 .resolved]
  have hrun : (run (step devnetEnv) (devnetWorld (some devnetVoteData) none (devnetState .absent))
      tickEvents).map (fun w₁ => (run (step devnetEnv) w₁ first).map fun w₂ =>
        (w₂.tasks, (run (step devnetEnv) w₂ tickEvents).map fun w₃ =>
          (run (step devnetEnv) w₃ [.task 0 .resolved, .task 0 .resolved]).map fun w₄ =>
            (w₄.tasks, w₄.sent.length))) = some (some ([], some (some ([], 3)))) := by decide
  obtain ⟨w₁, htick, hrun⟩ := Option.map_eq_some_iff.mp hrun
  obtain ⟨w₂, hsettle, hrun⟩ := Option.map_eq_some_iff.mp hrun
  obtain ⟨hdone, hrun⟩ := Prod.mk.inj hrun
  obtain ⟨w₃, htick', hrun⟩ := Option.map_eq_some_iff.mp hrun
  obtain ⟨w₄, hsettle', hrun⟩ := Option.map_eq_some_iff.mp hrun
  obtain ⟨hdone', hsent⟩ := Prod.mk.inj hrun
  have hfirst : Succeeds first := by
    intro e he
    simp only [first, List.mem_cons, List.not_mem_nil, or_false] at he
    rcases he with rfl | rfl | rfl | rfl
    · exact ⟨0, rfl⟩
    · exact ⟨1, rfl⟩
    · exact ⟨0, rfl⟩
    · exact ⟨0, rfl⟩
  have hrounds : Rounds devnetEnv 2
      (devnetWorld (some devnetVoteData) none (devnetState .absent)) w₄ :=
    .succ ⟨w₁, first, htick, hsettle, completes_of_succeeds hfirst, hdone⟩
      (.succ ⟨w₃, _, htick', hsettle', completes_of_succeeds succeeds_devnet, hdone'⟩ (.zero w₄))
  obtain ⟨doc, hdoc, -, hcount, hquiet⟩ := @monitor_converges devnetEnv _ _ [] _ w₄
    ⟨7, devnetKey, some devnetVoteData, none⟩ (devnetState .absent) 2 rfl rfl rfl (by decide)
    (by decide) hrounds
  exact ⟨w₄, doc, hrounds, hdoc, hsent, hcount, hquiet le_rfl⟩

end InglMonitor
