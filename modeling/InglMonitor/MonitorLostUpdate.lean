import InglMonitor.MonitorAnnounced
import Mathlib.Algebra.Order.Ring.Rat

/-! When writes lose updates. A task writes the whole document its tick has read, so it undoes what
was written in between; and a task of an earlier tick may write last. Exactly these two things go
wrong. -/

open Borsh DocumentStore Transition

namespace InglMonitor

variable {env : Env}

inductive Field where
  | voteAccountKey | proposalNumeration | dateFinalized
  deriving DecidableEq

/-- The field that an event is about. -/
def Broadcast.field : Broadcast → Field
  | newVoteAccount _ => .voteAccountKey
  | newProposal _ => .proposalNumeration
  | finalizedProposal _ => .dateFinalized

/-- The second document differs from the first in one field at most. -/
structure AgreeOutside (field : Field) (doc doc' : InglState) : Prop where
  objectId : doc'.objectId = doc.objectId
  dataId : doc'.dataId = doc.dataId
  voteAccountKey : field ≠ .voteAccountKey → doc'.voteAccountKey = doc.voteAccountKey
  proposalNumeration : field ≠ .proposalNumeration → doc'.proposalNumeration = doc.proposalNumeration
  dateFinalized : field ≠ .dateFinalized → doc'.dateFinalized = doc.dateFinalized

/-- A write changes only the field its event is about. -/
def ChangesOwnField (env : Env) (w : World) (e : Event) (w' : World) : Prop :=
  ∀ task doc doc', w.writer e = some task → getDbState env w.db = some doc →
    getDbState env w'.db = some doc' → AgreeOutside task.broadcast.field doc doc'

/-- The second numeration is at least the first. -/
def AtLeast (first second : Stored ℚ) : Prop :=
  ∀ n, first = .value n → ∃ m, second = .value m ∧ n ≤ m

/-- The stored numeration does not decrease, and a stored key gives way only to that of a tick that
has seen as high a numeration as any tick whose key was stored before. -/
def KeepsProgress (env : Env) (w : World) (e : Event) (w' : World) : Prop :=
  ∀ doc doc', getDbState env w.db = some doc → getDbState env w'.db = some doc' →
    AtLeast doc.proposalNumeration doc'.proposalNumeration ∧
    (doc'.voteAccountKey ≠ doc.voteAccountKey → ∀ task, w.writer e = some task →
      ∀ old ∈ w.written, old.broadcast.field = .voteAccountKey → old.seen ≤ task.seen)

def onChainNumeration (env : Env) (chain : Chain) : Option Nat := do
  let globalGem ← (globalGemPubkey env.web3).toOption
  GlobalGems.proposalNumeration env.reader (← chain globalGem).data

/-- The chain states of a run after the first. -/
def chains (es : List Event) : List Chain :=
  es.filterMap fun
    | .chain chain => some chain
    | _ => none

/-- The on-chain numeration never decreases during a run. -/
def ChainAdvances (env : Env) (w : World) (es : List Event) : Prop :=
  (w.chain :: chains es).Pairwise fun chain chain' => ∀ n n', onChainNumeration env chain = some n →
    onChainNumeration env chain' = some n' → n ≤ n'

def NoLostUpdate (env : Env) (w : World) (es : List Event) : Prop :=
  EveryStep (step env) (ChangesOwnField env) w es ∧
    (ChainAdvances env w es → EveryStep (step env) (KeepsProgress env) w es)

/-- A field that a task read is still stored, or its tick read none. -/
def Stored.Fresh {α : Type} (data stored : Stored α) : Prop := data = .absent ∨ data = stored

/-- What a tick has read is still stored, except perhaps one field. -/
structure FreshOutside (field : Field) (data doc : InglState) : Prop where
  voteAccountKey : field ≠ .voteAccountKey → data.voteAccountKey.Fresh doc.voteAccountKey
  proposalNumeration :
    field ≠ .proposalNumeration → data.proposalNumeration.Fresh doc.proposalNumeration
  dateFinalized : field ≠ .dateFinalized → data.dateFinalized.Fresh doc.dateFinalized

/-- Before a write, the other fields are stored as the tick of the task has read them. -/
def WritesFresh (env : Env) (w : World) (e : Event) : Prop :=
  ∀ task doc, w.writer e = some task → getDbState env w.db = some doc →
    FreshOutside task.broadcast.field task.inglDbState doc

/-- The value that a broadcast is about is the stored one. -/
def Broadcast.StoredIn (doc : InglState) : Broadcast → Prop
  | newVoteAccount key => doc.voteAccountKey = .value key
  | newProposal numeration => doc.proposalNumeration = .value (numeration : ℚ)
  | finalizedProposal none => doc.dateFinalized = .null
  | finalizedProposal (some date) => doc.dateFinalized = .value (date : ℚ)

/-- Before a write of a new value, no task has written the same field whose tick saw a higher
numeration. -/
def WritesInOrder (env : Env) (w : World) (e : Event) : Prop :=
  ∀ task doc, w.writer e = some task → getDbState env w.db = some doc →
    ¬task.broadcast.StoredIn doc →
    ∀ old ∈ w.written, old.broadcast.field = task.broadcast.field → old.seen ≤ task.seen

def Undisturbed (env : Env) (w : World) (es : List Event) : Prop :=
  EveryStep (step env) (fun w e _ => WritesFresh env w e) w es ∧
    (ChainAdvances env w es → EveryStep (step env) (fun w e _ => WritesInOrder env w e) w es)

theorem Stored.set_eq_right_iff {α : Type} {data old : Stored α} :
    data.set old = old ↔ data.Fresh old := by
  cases data <;> simp [Stored.set, Stored.Fresh]

/-- A payload changes only its own field exactly when the others are as they were read. -/
theorem agreeOutside_set_iff {task : Task} {doc : InglState}
    (hdata : isInglState env task.inglDbState) (hdoc : isInglState env doc)
    (hcollection : task.broadcast.collection = .inglState) :
    AgreeOutside task.broadcast.field doc (task.payload.set doc) ↔
      FreshOutside task.broadcast.field task.inglDbState doc := by
  have hdataId : task.payload.dataId.set doc.dataId = doc.dataId := by
    simp only [isInglState, decide_eq_true_eq] at hdata hdoc
    rw [Task.payload_dataId, hdata, hdoc, Stored.set_value]
  have hsplit : AgreeOutside task.broadcast.field doc (task.payload.set doc) ↔
      (task.broadcast.field ≠ .voteAccountKey →
        task.payload.voteAccountKey.Fresh doc.voteAccountKey) ∧
      (task.broadcast.field ≠ .proposalNumeration →
        task.payload.proposalNumeration.Fresh doc.proposalNumeration) ∧
      (task.broadcast.field ≠ .dateFinalized →
        task.payload.dateFinalized.Fresh doc.dateFinalized) := by
    simp only [← Stored.set_eq_right_iff]
    constructor
    · intro h
      exact ⟨h.voteAccountKey, h.proposalNumeration, h.dateFinalized⟩
    · intro h
      exact ⟨rfl, hdataId, h.1, h.2.1, h.2.2⟩
  have hfresh : FreshOutside task.broadcast.field task.inglDbState doc ↔
      (task.broadcast.field ≠ .voteAccountKey →
        task.inglDbState.voteAccountKey.Fresh doc.voteAccountKey) ∧
      (task.broadcast.field ≠ .proposalNumeration →
        task.inglDbState.proposalNumeration.Fresh doc.proposalNumeration) ∧
      (task.broadcast.field ≠ .dateFinalized →
        task.inglDbState.dateFinalized.Fresh doc.dateFinalized) := by
    constructor
    · intro h
      exact ⟨h.voteAccountKey, h.proposalNumeration, h.dateFinalized⟩
    · intro h
      exact ⟨h.1, h.2.1, h.2.2⟩
  rw [hsplit, hfresh]
  cases hbroadcast : task.broadcast with
  | finalizedProposal date => rw [hbroadcast] at hcollection; cases hcollection
  | _ => simp [Task.payload, hbroadcast, Broadcast.inglState, Broadcast.field]

theorem changesOwnField_iff {w w' : World} {e : Event} (h : Sound env w)
    (hstep : step env w e = some w') : ChangesOwnField env w e w' ↔ WritesFresh env w e := by
  have hagree {task : Task} {doc : InglState} (hwriter : w.writer e = some task)
      (hdoc : getDbState env w.db = some doc) :
      AgreeOutside task.broadcast.field doc (task.payload.set doc) ↔
        FreshOutside task.broadcast.field task.inglDbState doc := by
    obtain ⟨htask, -, hcollection⟩ := writer_eq_some hwriter
    exact agreeOutside_set_iff (h.copies.tasks task htask) (isInglState_of_getDbState hdoc) hcollection
  constructor
  · intro hown task doc hwriter hdoc
    have hdoc' := (h.stored_of_writer hstep hwriter hdoc).1
    exact (hagree hwriter hdoc).mp (hown task doc _ hwriter hdoc hdoc')
  · intro hfresh task doc doc' hwriter hdoc hdoc'
    rw [(h.stored_of_writer hstep hwriter hdoc).1] at hdoc'
    cases hdoc'
    exact (hagree hwriter hdoc).mpr (hfresh task doc hwriter hdoc)

/-! ### The order of writes -/

theorem AtLeast.refl (n : Stored ℚ) : AtLeast n n := fun a h => ⟨a, h, le_rfl⟩

theorem AtLeast.trans {n m k : Stored ℚ} (hnm : AtLeast n m) (hmk : AtLeast m k) : AtLeast n k := by
  intro a ha
  obtain ⟨b, hb, hab⟩ := hnm a ha
  obtain ⟨c, hc, hbc⟩ := hmk b hb
  exact ⟨c, hc, hab.trans hbc⟩

theorem Task.Launched.newProposal {task : Task} (h : task.Launched env) {n : Nat}
    (hbroadcast : task.broadcast = .newProposal n) :
    task.seen = n ∧ ∀ m, task.inglDbState.proposalNumeration = .value m → m < n := by
  obtain ⟨onChain, hseen, hmem⟩ := h
  rw [mem_broadcasts, hbroadcast] at hmem
  obtain ⟨hnew, rfl⟩ := hmem
  refine ⟨hseen, fun m hm => ?_⟩
  rw [isNewProposal, hm] at hnew
  exact of_decide_eq_true hnew

def initialNumeration (env : Env) (db : Db) : Stored ℚ :=
  (getDbState env db).elim .absent (·.proposalNumeration)

/-- Where the stored numeration stands between the first one, the copies and the writes so far. -/
structure Ordered (env : Env) (first : Stored ℚ) (w : World) : Prop where
  sound : Sound env w
  copies : Everywhere env (fun doc => AtLeast first doc.proposalNumeration) w
  origin : ∀ doc, getDbState env w.db = some doc → doc.proposalNumeration = first ∨
    ∃ task ∈ w.written, ∃ n : Nat, task.broadcast = .newProposal n ∧
      doc.proposalNumeration = .value (n : ℚ)
  written : ∀ doc, getDbState env w.db = some doc → ∀ task ∈ w.written, ∀ n : Nat,
    task.broadcast = .newProposal n → AtLeast (.value (n : ℚ)) doc.proposalNumeration

theorem ordered_start (chain : Chain) (db : Db) :
    Ordered env (initialNumeration env db) (World.start chain db) where
  sound := .start chain db
  copies := .start fun doc hdoc => by
    rw [initialNumeration, hdoc]
    exact .refl _
  origin doc hdoc := .inl (by rw [initialNumeration, show getDbState env db = some doc from hdoc]; rfl)
  written _ _ _ htask := nomatch htask

section OneStep

variable {first : Stored ℚ} {w w' : World} {e : Event}

theorem payload_set_of_newVoteAccount {task : Task} {key : String}
    (h : task.broadcast = .newVoteAccount key) (doc : InglState) :
    (task.payload.set doc).voteAccountKey = .value key := by
  simp [Task.payload, h, Broadcast.inglState, InglState.set]

theorem payload_set_of_newProposal {task : Task} {n : Nat} (h : task.broadcast = .newProposal n)
    (doc : InglState) : (task.payload.set doc).proposalNumeration = .value (n : ℚ) := by
  simp [Task.payload, h, Broadcast.inglState, InglState.set]

/-- The numeration after a step in which every write changes its own field only. -/
theorem numeration_cases (h : Sound env w) (hstep : step env w e = some w')
    (hown : ChangesOwnField env w e w') {doc doc' : InglState} (hdoc : getDbState env w.db = some doc)
    (hdoc' : getDbState env w'.db = some doc') :
    doc'.proposalNumeration = doc.proposalNumeration ∨ ∃ task n, w.writer e = some task ∧
      task.broadcast = .newProposal n ∧ doc' = task.payload.set doc := by
  rcases h.stored_cases hstep hdoc' with hsame | ⟨task, old, hwriter, hold, rfl⟩
  · rw [hdoc] at hsame
    cases hsame
    exact .inl rfl
  · rw [hdoc] at hold
    cases hold
    cases hbroadcast : task.broadcast with
    | newProposal n => exact .inr ⟨task, n, hwriter, hbroadcast, rfl⟩
    | _ => exact .inl ((hown task doc _ hwriter hdoc hdoc').proposalNumeration (by simp [hbroadcast,
        Broadcast.field]))

theorem writesInOrder_of_keepsProgress (h : Ordered env first w) (hstep : step env w e = some w')
    (hkeeps : KeepsProgress env w e w') : WritesInOrder env w e := by
  intro task doc hwriter hdoc hnew old hold hfield
  obtain ⟨htask, -, hcollection⟩ := writer_eq_some hwriter
  obtain ⟨hnumeration, hkey⟩ := hkeeps doc _ hdoc (h.sound.stored_of_writer hstep hwriter hdoc).1
  cases hbroadcast : task.broadcast with
  | newVoteAccount key =>
      rw [hbroadcast] at hfield hnew
      refine hkey (fun hsame => hnew ?_) task hwriter old hold hfield
      rw [payload_set_of_newVoteAccount hbroadcast] at hsame
      exact hsame.symm
  | newProposal n =>
      -- the earlier write is at most the stored numeration, which is at most this one
      rw [hbroadcast] at hfield
      cases hold' : old.broadcast with
      | newProposal m =>
          have hle := (h.written doc hdoc old hold m hold').trans hnumeration
          rw [payload_set_of_newProposal hbroadcast] at hle
          obtain ⟨k, hk, hle⟩ := hle _ rfl
          cases hk
          rw [((h.sound.launched task htask).newProposal hbroadcast).1,
            ((h.sound.written old hold).newProposal hold').1]
          exact_mod_cast hle
      | _ => rw [hold'] at hfield; cases hfield
  | finalizedProposal date => rw [hbroadcast] at hcollection; cases hcollection

/-- A numeration that is written in order is at least the stored one. -/
theorem atLeast_of_writesInOrder (h : Ordered env first w) (horder : WritesInOrder env w e)
    {task : Task} {n : Nat} (hwriter : w.writer e = some task) (hn : task.broadcast = .newProposal n)
    {doc : InglState} (hdoc : getDbState env w.db = some doc) :
    AtLeast doc.proposalNumeration (.value (n : ℚ)) := by
  by_cases hstored : task.broadcast.StoredIn doc
  · rw [hn] at hstored
    rw [hstored]
    exact .refl _
  -- the stored numeration is the first one or that of an earlier write
  · obtain ⟨htask, -, -⟩ := writer_eq_some hwriter
    obtain ⟨hseen, hlt⟩ := (h.sound.launched task htask).newProposal hn
    intro a ha
    refine ⟨n, rfl, ?_⟩
    rcases h.origin doc hdoc with hfirst | ⟨old, hold, m, hm, hvalue⟩
    · obtain ⟨b, hb, hab⟩ := h.copies.tasks task htask a (hfirst ▸ ha)
      exact hab.trans (hlt b hb).le
    · rw [hvalue] at ha
      cases ha
      have hle := horder task doc hwriter hdoc hstored old hold (by rw [hm, hn]; rfl)
      rw [hseen, ((h.sound.written old hold).newProposal hm).1] at hle
      exact_mod_cast hle

theorem keepsProgress_of_writesInOrder (h : Ordered env first w) (hstep : step env w e = some w')
    (hown : ChangesOwnField env w e w') (horder : WritesInOrder env w e) :
    KeepsProgress env w e w' := by
  intro doc doc' hdoc hdoc'
  refine ⟨?_, fun hkey task hwriter old hold hfield => ?_⟩
  · rcases numeration_cases h.sound hstep hown hdoc hdoc' with hsame | ⟨task, n, hwriter, hn, rfl⟩
    · rw [hsame]
      exact .refl _
    · rw [payload_set_of_newProposal hn]
      exact atLeast_of_writesInOrder h horder hwriter hn hdoc
  · have hagree := hown task doc _ hwriter hdoc hdoc'
    rw [(h.sound.stored_of_writer hstep hwriter hdoc).1] at hdoc'
    cases hdoc'
    cases hbroadcast : task.broadcast with
    | newVoteAccount key =>
        refine horder task doc hwriter hdoc (fun hstored => hkey ?_) old hold ?_
        · rw [hbroadcast] at hstored
          rw [payload_set_of_newVoteAccount hbroadcast]
          exact hstored.symm
        · rw [hfield, hbroadcast]; rfl
    | _ => exact absurd (hagree.voteAccountKey (by simp [hbroadcast, Broadcast.field])) hkey

theorem keepsProgress_iff (h : Ordered env first w) (hstep : step env w e = some w')
    (hown : ChangesOwnField env w e w') : KeepsProgress env w e w' ↔ WritesInOrder env w e :=
  ⟨writesInOrder_of_keepsProgress h hstep, keepsProgress_of_writesInOrder h hstep hown⟩

/-- The invariant survives a step that loses nothing. -/
theorem ordered_step (h : Ordered env first w) (hstep : step env w e = some w')
    (hown : ChangesOwnField env w e w') (hkeeps : KeepsProgress env w e w') : Ordered env first w' := by
  have hstored {doc' : InglState} (hdoc' : getDbState env w'.db = some doc') :
      ∃ doc, getDbState env w.db = some doc := by
    rcases h.sound.stored_cases hstep hdoc' with hdoc | ⟨_, doc, -, hdoc, -⟩ <;> exact ⟨_, hdoc⟩
  refine ⟨h.sound.keeps hstep, h.copies.keeps hstep fun doc' hdoc' => ?_, fun doc' hdoc' => ?_,
    fun doc' hdoc' task htask n hn => ?_⟩
  · obtain ⟨doc, hdoc⟩ := hstored hdoc'
    exact (h.copies.stored doc hdoc).trans (hkeeps doc doc' hdoc hdoc').1
  · obtain ⟨doc, hdoc⟩ := hstored hdoc'
    rcases numeration_cases h.sound hstep hown hdoc hdoc' with hsame | ⟨task, n, hwriter, hn, rfl⟩
    · rw [hsame]
      refine (h.origin doc hdoc).imp_right ?_
      rintro ⟨old, hold, hn⟩
      exact ⟨old, mem_written_mono hstep hold, hn⟩
    · refine .inr ⟨task, ?_, n, hn, payload_set_of_newProposal hn doc⟩
      rw [(h.sound.stored_of_writer hstep hwriter hdoc).2]
      exact List.mem_append_right _ (List.mem_singleton_self _)
  · obtain ⟨doc, hdoc⟩ := hstored hdoc'
    have hold (hmem : task ∈ w.written) : AtLeast (.value (n : ℚ)) doc'.proposalNumeration :=
      (h.written doc hdoc task hmem n hn).trans (hkeeps doc doc' hdoc hdoc').1
    cases hwriter : w.writer e with
    | none =>
        have hwrites := h.sound.writes hstep
        rw [hwriter] at hwrites
        rcases hwrites.2 task htask with hmem | hcollection
        · exact hold hmem
        · rw [hn] at hcollection
          cases hcollection
    | some writer =>
        obtain ⟨hwritten, hrecord⟩ := h.sound.stored_of_writer hstep hwriter hdoc
        rw [hrecord] at htask
        rcases List.mem_append.mp htask with hmem | hmem
        · exact hold hmem
        · cases List.mem_singleton.mp hmem
          cases hwritten.symm.trans hdoc'
          rw [payload_set_of_newProposal hn]
          exact .refl _

end OneStep

/-- **Lost updates.** A run loses no update exactly when every write finds the other fields as its tick
has read them and, while the numeration on chain never decreases, comes in the order in which the
ticks saw the numeration. -/
theorem noLostUpdate_iff (chain : Chain) (db : Db) (es : List Event) :
    NoLostUpdate env (World.start chain db) es ↔ Undisturbed env (World.start chain db) es := by
  have hown : EveryStep (step env) (ChangesOwnField env) (World.start chain db) es ↔
      EveryStep (step env) (fun w e _ => WritesFresh env w e) (World.start chain db) es :=
    everyStep_iff_of_invariant (Sound.start chain db) (fun _ _ _ => changesOwnField_iff)
      (fun _ _ _ h hstep _ => h.keeps hstep) es
  have hiff (w : World) (e : Event) (w' : World) (h : Ordered env (initialNumeration env db) w)
      (hstep : step env w e = some w') :
      ChangesOwnField env w e w' ∧ KeepsProgress env w e w' ↔
        ChangesOwnField env w e w' ∧ WritesInOrder env w e :=
    and_congr_right fun hown => keepsProgress_iff h hstep hown
  have hboth := everyStep_iff_of_invariant (ordered_start chain db) hiff
    (fun _ _ _ h hstep hp => ordered_step h hstep hp.1 hp.2) es
  rw [everyStep_and, everyStep_and] at hboth
  rw [NoLostUpdate, Undisturbed, ← hown]
  refine and_congr_right fun hchanges => imp_congr_right fun _ => ?_
  exact ⟨fun h => (hboth.mp ⟨hchanges, h⟩).2, fun h => (hboth.mpr ⟨hchanges, h⟩).2⟩

/-- A tick at numeration 7 announces a vote account and a proposal; the task that writes last puts the
numeration back to 6. -/
theorem devnet_not_noLostUpdate :
    ¬NoLostUpdate devnetEnv (devnetWorld (some devnetVoteData) none (devnetState .absent))
      (tickEvents ++ [.task 1 .resolved, .task 1 .resolved, .task 0 .resolved, .task 0 .resolved]) := by
  rintro ⟨hown, -⟩
  let recorded (key : String) (numeration : ℚ) : InglState :=
    { devnetState .absent with voteAccountKey := .value key, proposalNumeration := .value numeration }
  have hrun : (run (step devnetEnv) (devnetWorld (some devnetVoteData) none (devnetState .absent))
      (tickEvents ++ [.task 1 .resolved, .task 1 .resolved, .task 0 .resolved])).map
        (fun w => (getDbState devnetEnv w.db, w.writer (.task 0 .resolved),
          (step devnetEnv w (.task 0 .resolved)).map fun w' => getDbState devnetEnv w'.db)) =
      some (some (recorded devnetOldKey 7),
        some ⟨.newVoteAccount devnetKey, devnetState .absent, 7, .updating⟩,
        some (some (recorded devnetKey 6))) := by decide
  obtain ⟨w, hrun, hw⟩ := Option.map_eq_some_iff.mp hrun
  obtain ⟨hdoc, hw⟩ := Prod.mk.inj hw
  obtain ⟨hwriter, hw⟩ := Prod.mk.inj hw
  obtain ⟨w', hstep, hdoc'⟩ := Option.map_eq_some_iff.mp hw
  have hagree := everyStep_iff_forall.mp hown _ _ [] w w' rfl hrun hstep _ _ _ hwriter hdoc hdoc'
  have hnumeration := hagree.proposalNumeration (by decide)
  exact absurd hnumeration (by decide)

end InglMonitor
