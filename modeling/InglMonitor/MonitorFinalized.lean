import InglMonitor.MonitorAnnounced

/-! When a finalization is announced. The tick compares an optional date on chain with the stored one
by inequality, and no task ever changes the stored one: a proposal that is still open counts as
finalized whenever the document has a date at all. -/

open Borsh DocumentStore Transition

namespace InglMonitor

variable {env : Env}

/-- A finalization is announced only in a tick whose proposal has a date. -/
def NoFalseNotice (env : Env) (w : World) (e : Event) : Prop :=
  ∀ i onChain doc, e = .tick i .resolved → w.ticks[i]? = some (.resuming onChain (some doc)) →
    ∀ task ∈ launch env onChain doc, task.broadcast.title = "Ingl Proposal Finalized" →
      ∃ info date, onChain.proposalAccountInfo = some info ∧
        ValidatorProposal.dateFinalized env.reader info.data = some (some date)

/-- A tick that resumes with a document has not read an open proposal. -/
def NotOpen (env : Env) (w : World) (e : Event) : Prop :=
  ∀ i onChain doc info, e = .tick i .resolved → w.ticks[i]? = some (.resuming onChain (some doc)) →
    onChain.proposalAccountInfo = some info →
    ValidatorProposal.dateFinalized env.reader info.data ≠ some none

/-- A launched finalization reports a decoded date that differs from the stored one. -/
theorem detects_of_title {onChain : OnChainState} {doc : InglState} {task : Task}
    (htask : task ∈ launch env onChain doc) (htitle : task.broadcast.title = "Ingl Proposal Finalized") :
    ∃ date info, isNewDate date doc ∧ onChain.proposalAccountInfo = some info ∧
      ValidatorProposal.dateFinalized env.reader info.data = some date := by
  obtain ⟨broadcast, hbroadcast, rfl⟩ := List.mem_map.mp htask
  have hdetects := mem_broadcasts.mp hbroadcast
  cases broadcast with
  | finalizedProposal date =>
      obtain ⟨hnew, info, hinfo, hdecoded⟩ := hdetects
      exact ⟨date, info, hnew, hinfo, hdecoded⟩
  | _ => simp [Broadcast.title] at htitle

/-! ### The stored date -/

/-- The date of the stored document and of its copies is the first one. -/
def DateKept (env : Env) (first : Stored ℚ) (w : World) : Prop :=
  Sound env w ∧ Everywhere env (fun doc => doc.dateFinalized = first) w

/-- No write changes the stored date. -/
theorem dateKept_step {first : Stored ℚ} {w w' : World} {e : Event} (h : DateKept env first w)
    (hstep : step env w e = some w') : DateKept env first w' := by
  obtain ⟨hsound, hdate⟩ := h
  refine ⟨hsound.keeps hstep, hdate.keeps hstep fun doc hdoc => ?_⟩
  rcases hsound.stored_cases hstep hdoc with hdoc | ⟨task, old, hwriter, hold, rfl⟩
  · exact hdate.stored doc hdoc
  · obtain ⟨htask, -, hcollection⟩ := writer_eq_some hwriter
    have hpayload : task.payload.dateFinalized = first := by
      cases hbroadcast : task.broadcast with
      | finalizedProposal date => rw [hbroadcast] at hcollection; cases hcollection
      | _ =>
          rw [Task.payload, hbroadcast]
          exact hdate.tasks task htask
    rw [InglState.set, hpayload, hdate.stored old hold, Stored.set_self]

/-- With a stored date, every open proposal is announced as finalized. -/
theorem noFalseNotice_iff_of_date {first : Stored ℚ} (hfirst : first ≠ .absent) {w : World} {e : Event}
    (h : DateKept env first w) : NoFalseNotice env w e ↔ NotOpen env w e := by
  constructor
  · intro hnotice i onChain doc info he htick hinfo hopen
    have hdoc := h.2.ticks _ (List.mem_of_getElem? htick) doc rfl
    have hdetects : Detects env onChain doc (.finalizedProposal none) :=
      ⟨by simp [isNewDate, hdoc, hfirst], info, hinfo, hopen⟩
    obtain ⟨info', date, hinfo', hdate⟩ := hnotice i onChain doc he htick _
      (List.mem_map_of_mem (mem_broadcasts.mpr hdetects)) rfl
    rw [hinfo] at hinfo'
    cases hinfo'
    rw [hopen] at hdate
    cases hdate
  · intro hopen i onChain doc he htick task htask htitle
    obtain ⟨date, info, -, hinfo, hdecoded⟩ := detects_of_title htask htitle
    cases date with
    | none => exact absurd hdecoded (hopen i onChain doc info he htick hinfo)
    | some date => exact ⟨info, date, hinfo, hdecoded⟩

/-- Without a stored date, only a date is announced. -/
theorem noFalseNotice_of_absent {w : World} (h : DateKept env .absent w) (e : Event) :
    NoFalseNotice env w e := by
  intro i onChain doc he htick task htask htitle
  obtain ⟨date, info, hnew, hinfo, hdecoded⟩ := detects_of_title htask htitle
  cases date with
  | none =>
      rw [isNewDate, h.2.ticks _ (List.mem_of_getElem? htick) doc rfl] at hnew
      cases hnew
  | some date => exact ⟨info, date, hinfo, hdecoded⟩

/-- **Finalization notices.** A run announces only dated proposals exactly when the document has no
date, or no tick reads an open proposal. -/
theorem noFalseNotice_iff (chain : Chain) (db : Db) (es : List Event) :
    EveryStep (step env) (fun w e _ => NoFalseNotice env w e) (World.start chain db) es ↔
      (∀ doc, getDbState env db = some doc → doc.dateFinalized = .absent) ∨
        EveryStep (step env) (fun w e _ => NotOpen env w e) (World.start chain db) es := by
  have hstart {first : Stored ℚ}
      (hfirst : ∀ doc, getDbState env db = some doc → doc.dateFinalized = first) :
      DateKept env first (World.start chain db) := ⟨.start chain db, .start hfirst⟩
  by_cases habsent : ∀ doc, getDbState env db = some doc → doc.dateFinalized = .absent
  · refine iff_of_true ?_ (.inl habsent)
    exact everyStep_of_invariant (hstart habsent) (fun _ e _ h _ => noFalseNotice_of_absent h e)
      (fun _ _ _ h hstep => dateKept_step h hstep) es
  · rw [or_iff_right habsent]
    obtain ⟨doc, hdoc, hdate⟩ : ∃ doc, getDbState env db = some doc ∧ doc.dateFinalized ≠ .absent := by
      simpa using habsent
    have hsame (doc' : InglState) (hdoc' : getDbState env db = some doc') :
        doc'.dateFinalized = doc.dateFinalized := by
      rw [Option.some.inj (hdoc'.symm.trans hdoc)]
    exact everyStep_iff_of_invariant (hstart hsame)
      (fun _ _ _ h _ => noFalseNotice_iff_of_date hdate h)
      (fun _ _ _ h hstep _ => dateKept_step h hstep) es

/-- A proposal that is still open is announced as finalized, because an earlier date is stored. -/
theorem devnet_not_noFalseNotice :
    ¬EveryStep (step devnetEnv) (fun w e _ => NoFalseNotice devnetEnv w e)
      (devnetWorld none (some (devnetProposal [0])) (devnetState (.value 1660000000))) tickEvents := by
  intro hnotice
  let doc := devnetState (.value 1660000000)
  let onChain : OnChainState := ⟨7, devnetKey, none, some (devnetProposal [0])⟩
  have hrun : (run (step devnetEnv) (devnetWorld none (some (devnetProposal [0])) doc)
      [.cron, .tick 0 .resolved, .tick 0 .resolved, .tick 0 .resolved, .tick 0 .resolved]).map
        (fun w => (w.ticks[0]?, ((step devnetEnv w (.tick 0 .resolved)).map fun w' => w'.tasks))) =
      some (some (.resuming onChain (some doc)), some (launch devnetEnv onChain doc)) := by decide
  obtain ⟨w, hrun, hw⟩ := Option.map_eq_some_iff.mp hrun
  obtain ⟨htick, hw⟩ := Prod.mk.inj hw
  obtain ⟨w', hstep, -⟩ := Option.map_eq_some_iff.mp hw
  have hfalse := everyStep_iff_forall.mp hnotice _ _ [] w w' rfl hrun hstep 0 onChain doc rfl htick
  have hlaunched : (⟨.finalizedProposal none, doc, 7, .broadcasting⟩ : Task) ∈
      launch devnetEnv onChain doc := by decide
  have hopen : ValidatorProposal.dateFinalized devnetEnv.reader (devnetProposal [0]).data =
      some none := by decide
  obtain ⟨info, date, hinfo, hdate⟩ := hfalse _ hlaunched rfl
  cases hinfo
  cases hopen.symm.trans hdate

end InglMonitor
