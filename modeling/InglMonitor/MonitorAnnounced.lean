import InglMonitor.MonitorSteps

/-! No event is recorded that was not announced. A write carries fields that its tick read long ago, so
the argument follows every value back to the broadcast that was sent for it, or to the document that
was there at the start. -/

open Borsh DocumentStore

namespace InglMonitor

variable {env : Env}

/-- The vote account key and the numeration of a document are initial, or were announced. -/
def Announced (initial : Option InglState) (sent : List Broadcast) (doc : InglState) : Prop :=
  ∃ first, initial = some first ∧
    (doc.voteAccountKey = first.voteAccountKey ∨
      ∃ key, doc.voteAccountKey = .value key ∧ .newVoteAccount key ∈ sent) ∧
    (doc.proposalNumeration = first.proposalNumeration ∨
      ∃ numeration : Nat, doc.proposalNumeration = .value (numeration : ℚ) ∧
        .newProposal numeration ∈ sent)

theorem Announced.mono {initial : Option InglState} {sent sent' : List Broadcast} {doc : InglState}
    (hsent : ∀ broadcast ∈ sent, broadcast ∈ sent') (h : Announced initial sent doc) :
    Announced initial sent' doc := by
  obtain ⟨first, hfirst, hkey, hnumeration⟩ := h
  refine ⟨first, hfirst, hkey.imp_right ?_, hnumeration.imp_right ?_⟩
  · rintro ⟨key, hkey, hmem⟩
    exact ⟨key, hkey, hsent _ hmem⟩
  · rintro ⟨numeration, hnumeration, hmem⟩
    exact ⟨numeration, hnumeration, hsent _ hmem⟩

theorem Stored.set_eq_or {α : Type} (data old : Stored α) : data.set old = data ∨ data.set old = old := by
  cases data with
  | absent => exact .inr rfl
  | _ => exact .inl rfl

/-- A payload that is announced field by field, written over such a document. -/
theorem Announced.set {initial : Option InglState} {sent : List Broadcast} {data doc : InglState}
    (hdata : Announced initial sent data) (hdoc : Announced initial sent doc) :
    Announced initial sent (data.set doc) := by
  obtain ⟨first, hfirst, hkey, hnumeration⟩ := hdata
  obtain ⟨first', hfirst', hkey', hnumeration'⟩ := hdoc
  cases Option.some.inj (hfirst.symm.trans hfirst')
  refine ⟨first, hfirst, ?_, ?_⟩
  · rcases Stored.set_eq_or data.voteAccountKey doc.voteAccountKey with h | h
    · rw [InglState.set, h]; exact hkey
    · rw [InglState.set, h]; exact hkey'
  · rcases Stored.set_eq_or data.proposalNumeration doc.proposalNumeration with h | h
    · rw [InglState.set, h]; exact hnumeration
    · rw [InglState.set, h]; exact hnumeration'

/-- Replacing one field by an announced value. -/
theorem Announced.inglState {initial : Option InglState} {sent : List Broadcast} {doc : InglState}
    (h : Announced initial sent doc) {broadcast : Broadcast} (hsent : broadcast ∈ sent) :
    Announced initial sent (broadcast.inglState doc) := by
  obtain ⟨first, hfirst, hkey, hnumeration⟩ := h
  cases broadcast with
  | newVoteAccount key => exact ⟨first, hfirst, .inr ⟨key, rfl, hsent⟩, hnumeration⟩
  | newProposal numeration => exact ⟨first, hfirst, hkey, .inr ⟨numeration, rfl, hsent⟩⟩
  | finalizedProposal date => cases date <;> exact ⟨first, hfirst, hkey, hnumeration⟩

/-- The invariant: the stored document and all its copies are announced. -/
def AnnouncedEverywhere (env : Env) (initial : Option InglState) (w : World) : Prop :=
  Sound env w ∧ Everywhere env (Announced initial w.sent) w

theorem announcedEverywhere_start (chain : Chain) (db : Db) :
    AnnouncedEverywhere env (getDbState env db) (World.start chain db) :=
  ⟨.start chain db, .start fun doc hdoc => ⟨doc, hdoc, .inl rfl, .inl rfl⟩⟩

theorem announcedEverywhere_step {initial : Option InglState} {w w' : World} {e : Event}
    (h : AnnouncedEverywhere env initial w) (hstep : step env w e = some w') :
    AnnouncedEverywhere env initial w' := by
  obtain ⟨hsound, hannounced⟩ := h
  have hmono (doc : InglState) : Announced initial w.sent doc → Announced initial w'.sent doc :=
    .mono fun _ => mem_sent_of_step hstep
  refine ⟨hsound.keeps hstep, (hannounced.mono hmono).keeps hstep fun doc hdoc => ?_⟩
  rcases hsound.stored_cases hstep hdoc with hdoc | ⟨task, old, hwriter, hold, rfl⟩
  · exact hmono doc (hannounced.stored doc hdoc)
  · obtain ⟨htask, hstage, -⟩ := writer_eq_some hwriter
    have hpayload : Announced initial w.sent task.payload :=
      (hannounced.tasks task htask).inglState (hsound.announced task htask hstage)
    exact hmono _ (hpayload.set (hannounced.stored old hold))

/-- **No silent record.** In every world a run reaches, the stored vote account key and the stored
numeration are those of the initial document, or their broadcast was sent. -/
theorem stored_announced {chain : Chain} {db : Db} {es : List Event} {w : World}
    (hrun : Transition.run (step env) (World.start chain db) es = some w) {doc : InglState}
    (hdoc : getDbState env w.db = some doc) : Announced (getDbState env db) w.sent doc :=
  (Transition.run_invariant _ (fun _ _ _ h hstep => announcedEverywhere_step h hstep)
    (announcedEverywhere_start chain db) hrun).2.stored doc hdoc

/-! ### A run on devnet -/

/-- The vote account of numeration 6. -/
def devnetOldKey : String := "9Wv563JZ91RyYc2XfwJf4XWJMH47JNGCVtLFteDVenjj"

/-- The vote account of numeration 7. -/
def devnetKey : String := "9DvpyaJmpAag7spwD4VnjFyZmeoy8HZeXhwvNMKi64hh"

/-- Its bytes. -/
def devnetVoteAccount : Bytes := [
  122, 45, 83, 227, 63, 26, 154, 163, 249, 171, 47, 248, 58, 125, 50, 39, 49, 59, 235, 82, 91, 236, 167,
  10, 43, 250, 36, 203, 209, 45, 186, 188]

/-- The addresses that numeration 7 leads to. -/
def devnetAddresses : List (List Bytes × PublicKey) := [
  ([utf8 globalGemKey], ⟨"2zFkJGcW1cCqeNZej4YAXrrbx7XtnsZFxSNoFseGxrAe"⟩),
  ([utf8 voteAccountKey, [0, 0, 0, 6]], ⟨devnetKey⟩),
  ([utf8 voteDataAccountKey, devnetVoteAccount], ⟨"4z17g9ZsBEmvShbyARB75RnZV9B5ZHHhQc9wqutoMctQ"⟩),
  ([utf8 proposalKey, [0, 0, 0, 6]], ⟨"Bao3icS7i84ntK4KF2DweeZuevsP9gccDfFCfgCoZQZy"⟩)]

def devnetEnv : Env where
  web3 := {
    publicKey address := .ok ⟨address⟩
    toBuffer _ := devnetVoteAccount
    findProgramAddressSync seeds _ :=
      match devnetAddresses.lookup seeds with
      | some key => .ok key
      | none => .error "Unable to find a viable program address nonce" }
  reader := .plain false
  inglStateId := "63a1d2f0c4e8b7a5d9f01234"

/-- A `GlobalGems` account at numeration 7, all other members zero or empty. -/
def devnetGems : AccountInfo where
  owner := inglProgramId
  executable := false
  data := List.replicate 41 0 ++ [7, 0, 0, 0] ++ List.replicate 12 0

/-- The accounts at numeration 7, with a vote data account or a proposal. -/
def devnetChain (voteData proposal : Option AccountInfo) : Chain := fun key =>
  match key.base58 with
  | "2zFkJGcW1cCqeNZej4YAXrrbx7XtnsZFxSNoFseGxrAe" => some devnetGems
  | "4z17g9ZsBEmvShbyARB75RnZV9B5ZHHhQc9wqutoMctQ" => voteData
  | "Bao3icS7i84ntK4KF2DweeZuevsP9gccDfFCfgCoZQZy" => proposal
  | _ => none

def devnetVoteData : AccountInfo := ⟨inglProgramId, false, []⟩

/-- A `ValidatorProposal` account without validators, votes and winner. -/
def devnetProposal (dateFinalized : Bytes) : AccountInfo where
  owner := inglProgramId
  executable := false
  data := List.replicate 12 0 ++ dateFinalized ++ List.replicate 5 0

/-- The document written at numeration 6. -/
def devnetState (dateFinalized : Stored ℚ) : InglState where
  objectId := "63a1d2f0c4e8b7a5d9f00001"
  dataId := .value "63a1d2f0c4e8b7a5d9f01234"
  voteAccountKey := .value devnetOldKey
  proposalNumeration := .value 6
  dateFinalized

def devnetDb (doc : InglState) : Db
  | .inglState => [doc]
  | .betaUsers => []

def devnetWorld (voteData proposal : Option AccountInfo) (doc : InglState) : World :=
  World.start (devnetChain voteData proposal) (devnetDb doc)

/-- The vote account of numeration 7 is announced and recorded. -/
theorem devnet_stored_announced :
    ∃ w, Transition.run (step devnetEnv) (devnetWorld (some devnetVoteData) none (devnetState .absent))
        (tickEvents ++ [.task 0 .resolved, .task 0 .resolved]) = some w ∧
      Announced (getDbState devnetEnv (devnetDb (devnetState .absent))) w.sent
        { devnetState .absent with voteAccountKey := .value devnetKey } := by
  have hrun : (Transition.run (step devnetEnv)
      (devnetWorld (some devnetVoteData) none (devnetState .absent))
      (tickEvents ++ [.task 0 .resolved, .task 0 .resolved])).map
        (fun w => getDbState devnetEnv w.db) =
      some (some { devnetState .absent with voteAccountKey := .value devnetKey }) := by decide
  obtain ⟨w, hrun, hdoc⟩ := Option.map_eq_some_iff.mp hrun
  exact ⟨w, hrun, stored_announced hrun hdoc⟩

end InglMonitor
