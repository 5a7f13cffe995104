import InglMonitor.MonitorAnnounced
import InglMonitor.TransitionPotential

/-! The work of the monitor. A tick waits five times and launches at most one broadcast of each kind,
and a task waits twice, so that the timer bounds everything that ever happens: the answers a run
consumes, the messages it sends, the writes, the rejections nobody handles and the lines of the log. -/

open Borsh DocumentStore Transition

namespace InglMonitor

variable {env : Env}

/-- What each part of a world weighs, what an answer costs and what a tick may cost in all. -/
structure Weights where
  tick : Tick → Nat
  task : Task → Nat
  sent : Broadcast → Nat
  written : Task → Nat
  unhandled : Broadcast → Nat
  logged : Nat
  answer : Nat
  cron : Nat

namespace Weights

variable (W : Weights)

def world (w : World) : Nat :=
  load W.tick w.ticks + load W.task w.tasks + load W.sent w.sent + load W.written w.written +
    load W.unhandled w.unhandled + W.logged * w.logged.length

/-- What a tick becomes. -/
def result : TickResult → Nat
  | .waits tick => W.tick tick
  | .ends launched logged => load W.task launched + W.logged * logged.length

def cost : Event → Nat
  | .tick _ _ => W.answer
  | .task _ _ => W.answer
  | _ => 0

def income : Event → Nat
  | .cron => W.cron
  | _ => 0

/-- Each call pays for what it does next. -/
structure Balanced (env : Env) : Prop where
  starts : ∀ globalGem, W.tick (.readingGems globalGem) ≤ W.cron
  fails : W.logged * 2 ≤ W.cron
  resolves : ∀ chain db tick, W.answer + W.result (tick.resolve env chain db) ≤ W.tick tick
  rejects : ∀ tick : Tick, W.answer + W.result tick.reject ≤ W.tick tick
  sends : ∀ task : Task, task.stage = .broadcasting →
    W.answer + W.sent task.broadcast + W.task { task with stage := .updating } ≤ W.task task
  writes : ∀ task : Task, task.stage = .updating →
    W.answer + W.written task + W.unhandled task.broadcast ≤ W.task task
  refuses : ∀ task : Task, W.answer + W.unhandled task.broadcast ≤ W.task task

end Weights

theorem world_startTick {W : Weights} (hW : W.Balanced env) (w : World) :
    W.world (w.startTick env) ≤ W.world w + W.cron := by
  rw [World.startTick]
  split
  · rename_i globalGem _
    have hstarts := hW.starts globalGem
    simp only [Weights.world, load_append, load_cons, load_nil]
    omega
  · have hfails := hW.fails
    simp only [Weights.world, List.length_append, List.length_cons, List.length_nil, Nat.mul_add]
    omega

theorem world_settleTick {W : Weights} {w : World} {i : Nat} {tick : Tick}
    (hget : w.ticks[i]? = some tick) (result : TickResult) :
    W.tick tick + W.world (w.settleTick i result) = W.result result + W.world w := by
  cases result with
  | waits tick' =>
      have hset := load_set W.tick hget tick'
      simp only [World.settleTick, Weights.world, Weights.result]
      omega
  | ends launched logged =>
      have herase := load_eraseIdx W.tick hget
      simp only [World.settleTick, Weights.world, Weights.result, load_append, List.length_append,
        Nat.mul_add]
      omega

theorem world_rejectTask {W : Weights} {w : World} {i : Nat} {task : Task}
    (hget : w.tasks[i]? = some task) :
    W.task task + W.world (w.rejectTask i task) = W.unhandled task.broadcast + W.world w := by
  have herase := load_eraseIdx W.task hget
  simp only [World.rejectTask, Weights.world, load_append, load_cons, load_nil]
  omega

theorem world_settleTask {W : Weights} (hW : W.Balanced env) {w w' : World} {i : Nat} {task : Task}
    {reply : Reply} (hget : w.tasks[i]? = some task) (h : w.settleTask env i task reply = some w') :
    W.answer + W.world w' ≤ W.world w := by
  have hrefused := world_rejectTask (W := W) hget
  have hrefuses := hW.refuses task
  cases hstage : task.stage with
  | broadcasting =>
      cases reply with
      | resolved =>
          simp only [World.settleTask, hstage] at h
          cases h
          have hset := load_set W.task hget { task with stage := .updating }
          have hsends := hW.sends task hstage
          simp only [Weights.world, load_append, load_cons, load_nil]
          omega
      | _ =>
          simp only [World.settleTask, hstage] at h
          cases h
          omega
  | updating =>
      have hwrites := hW.writes task hstage
      cases reply with
      | rejected =>
          simp only [World.settleTask, hstage] at h
          cases h
          omega
      | _ =>
          simp only [World.settleTask, hstage] at h
          obtain ⟨db, -, h⟩ := Option.bind_eq_some_iff.mp h
          cases h
          have herase := load_eraseIdx W.task hget
          simp only [World.rejectTask, Weights.world, load_append, load_cons, load_nil]
          omega

theorem world_step {W : Weights} (hW : W.Balanced env) (w : World) (e : Event) (w' : World)
    (hstep : step env w e = some w') : W.cost e + W.world w' ≤ W.world w + W.income e := by
  cases e with
  | chain chain =>
      cases hstep
      exact le_of_eq (Nat.add_comm _ _)
  | cron =>
      cases hstep
      exact (Nat.zero_add _).trans_le (world_startTick hW w)
  | tick i reply =>
      cases reply with
      | resolved =>
          obtain ⟨tick, hget, hstep⟩ := Option.bind_eq_some_iff.mp hstep
          cases hstep
          have hsettle := world_settleTick (W := W) hget (tick.resolve env w.chain w.db)
          have hresolves := hW.resolves w.chain w.db tick
          simp only [Weights.cost, Weights.income]
          omega
      | _ =>
          obtain ⟨tick, hget, hstep⟩ := Option.bind_eq_some_iff.mp hstep
          cases hstep
          have hsettle := world_settleTick (W := W) hget tick.reject
          have hrejects := hW.rejects tick
          simp only [Weights.cost, Weights.income]
          omega
  | task i reply =>
      obtain ⟨task, hget, hstep⟩ := Option.bind_eq_some_iff.mp hstep
      exact world_settleTask hW hget hstep

theorem broadcasts_sublist (onChain : OnChainState) (doc : InglState) :
    ∃ date, (broadcasts env onChain doc).1.Sublist
      [.newVoteAccount onChain.voteAccountKey, .newProposal onChain.currentProposalNumeration,
        .finalizedProposal date] := by
  have hif (p : Prop) [Decidable p] (broadcast : Broadcast) :
      (if p then [broadcast] else []).Sublist [broadcast] := by
    split
    · exact List.Sublist.refl _
    · exact List.nil_sublist _
  have hfirst (last : List Broadcast) (date : Option Nat)
      (hlast : last.Sublist [.finalizedProposal date]) :=
    ((hif (isNewVoteAccount onChain doc) (.newVoteAccount onChain.voteAccountKey)).append
      (hif (isNewProposal onChain doc) (.newProposal onChain.currentProposalNumeration))).append hlast
  have hnil := hfirst [] none (List.nil_sublist _)
  rw [List.append_nil] at hnil
  unfold broadcasts
  cases onChain.proposalAccountInfo with
  | none => exact ⟨none, hnil⟩
  | some info =>
      cases hdate : ValidatorProposal.dateFinalized env.reader info.data with
      | none =>
          simp only [hdate]
          exact ⟨none, hnil⟩
      | some date =>
          simp only [hdate]
          exact ⟨date, hfirst _ date (hif _ _)⟩

theorem length_launch_le (onChain : OnChainState) (doc : InglState) :
    (launch env onChain doc).length ≤ 3 := by
  obtain ⟨date, hsublist⟩ := @broadcasts_sublist env onChain doc
  rw [launch, List.length_map]
  exact hsublist.length_le

theorem Tick.ends_of_resolve {chain : Chain} {db : Db} {tick : Tick} {launched : List Task}
    {logged : List Handler} (h : tick.resolve env chain db = .ends launched logged) :
    (launched = [] ∨ ∃ onChain doc, launched = launch env onChain doc) ∧ logged.length ≤ 2 := by
  cases tick with
  | readingGems globalGem =>
      simp only [resolve] at h
      split at h <;> cases h
      exact ⟨.inl rfl, le_rfl⟩
  | readingVoteData numeration voteAccount inglVoteData =>
      simp only [resolve] at h
      split at h <;> cases h
      exact ⟨.inl rfl, le_rfl⟩
  | readingProposal => cases h
  | readingDb onChain => cases h
  | resuming onChain doc =>
      cases doc with
      | none => cases h; exact ⟨.inl rfl, by decide⟩
      | some doc =>
          cases h
          refine ⟨.inr ⟨onChain, doc, rfl⟩, ?_⟩
          split
          · exact Nat.zero_le 2
          · exact Nat.le_succ 1

theorem Tick.ends_of_reject (tick : Tick) :
    ∃ logged, tick.reject = .ends [] logged ∧ logged.length ≤ 2 := by
  cases tick with
  | readingDb onChain => exact ⟨_, rfl, Nat.le_succ 1⟩
  | resuming onChain doc => exact ⟨_, rfl, Nat.le_succ 1⟩
  | _ => exact ⟨_, rfl, le_rfl⟩

/-- What the broadcasts of some kind leave behind, of which a tick launches a number at most, and the
lines of the log. -/
def outcomes (kind : Broadcast → Bool) (most sent written unhandled logged : Nat) : Weights where
  tick _ := (sent + written + unhandled) * most + logged * 2
  task task :=
    if kind task.broadcast then
      (match task.stage with
        | .broadcasting => sent
        | .updating => 0) + written + unhandled
    else 0
  sent broadcast := if kind broadcast then sent else 0
  written task := if kind task.broadcast then written else 0
  unhandled broadcast := if kind broadcast then unhandled else 0
  logged := logged
  answer := 0
  cron := (sent + written + unhandled) * most + logged * 2

section Outcomes

variable {kind : Broadcast → Bool} {most sent written unhandled logged : Nat}

theorem load_outcomes_le (tasks : List Task) :
    load (outcomes kind most sent written unhandled logged).task tasks ≤
      (sent + written + unhandled) * tasks.countP fun task => kind task.broadcast := by
  rw [← load_ite]
  refine load_mono _ _ fun task _ => ?_
  obtain ⟨broadcast, inglDbState, seen, stage⟩ := task
  by_cases hkind : kind broadcast
  · cases stage <;> simp [outcomes, hkind]
  · simp [outcomes, hkind]

theorem outcomes_balanced
    (hmost : ∀ onChain doc,
      (launch env onChain doc).countP (fun task => kind task.broadcast) ≤ most) :
    (outcomes kind most sent written unhandled logged).Balanced env where
  starts _ := le_rfl
  fails := Nat.le_add_left ..
  resolves chain db tick := by
    cases hresolve : tick.resolve env chain db with
    | waits tick' => exact (Nat.zero_add _).le
    | ends launched lines =>
        obtain ⟨hlaunched, hlines⟩ := Tick.ends_of_resolve hresolve
        have hload : load (outcomes kind most sent written unhandled logged).task launched ≤
            (sent + written + unhandled) * most := by
          rcases hlaunched with rfl | ⟨onChain, doc, rfl⟩
          · exact Nat.zero_le _
          · exact (load_outcomes_le _).trans (Nat.mul_le_mul_left _ (hmost onChain doc))
        have hlogged := Nat.mul_le_mul_left logged hlines
        simp only [Weights.result]
        simp only [outcomes] at hload ⊢
        omega
  rejects tick := by
    obtain ⟨lines, hreject, hlines⟩ := tick.ends_of_reject
    have hlogged := Nat.mul_le_mul_left logged hlines
    simp only [hreject, Weights.result, outcomes, load_nil]
    omega
  sends task hstage := by
    simp only [outcomes, hstage]
    split <;> omega
  writes task hstage := by
    simp only [outcomes, hstage]
    split <;> omega
  refuses task := by
    simp only [outcomes]
    split <;> omega

end Outcomes

/-! ### Every run -/

end InglMonitor
