import InglMonitor.DocumentStore
import InglMonitor.MonitorChain
import Mathlib.Data.Rat.Defs
import Mathlib.Logic.Function.Basic

/-! The monitor as a transition system. A tick reads the chain three times and the database once, and
launches up to three tasks that it does not await; a task broadcasts, then writes the document its
tick has read back with one field replaced. Ticks start on a timer, also while earlier ones are still
waiting, and every pending request is answered, refused or lost at any later time. -/

open Borsh DocumentStore

namespace InglMonitor

/-- A field of a stored document. -/
inductive Stored (α : Type) where
  | absent
  | null
  | value (a : α)
  deriving DecidableEq

/-- One field of `$set`; a missing one is left alone. -/
def Stored.set {α : Type} (data old : Stored α) : Stored α :=
  match data with
  | absent => old
  | _ => data

@[simp] theorem Stored.set_value {α : Type} (a : α) (old : Stored α) : (value a).set old = value a :=
  rfl

@[simp] theorem Stored.set_self {α : Type} (data : Stored α) : data.set data = data := by
  cases data <;> rfl

/-- A document of `ingl_state`, with the identity the driver adds. -/
structure InglState where
  objectId : String
  dataId : Stored String
  voteAccountKey : Stored String
  proposalNumeration : Stored ℚ
  dateFinalized : Stored ℚ
  deriving DecidableEq

/-- `$set: data`, where both have the same identity. -/
def InglState.set (data doc : InglState) : InglState where
  objectId := doc.objectId
  dataId := data.dataId.set doc.dataId
  voteAccountKey := data.voteAccountKey.set doc.voteAccountKey
  proposalNumeration := data.proposalNumeration.set doc.proposalNumeration
  dateFinalized := data.dateFinalized.set doc.dateFinalized

inductive CollectionName where
  | inglState | betaUsers
  deriving DecidableEq

abbrev Db := CollectionName → List InglState

/-- What a deployment fixes: the libraries and `process.env.INGL_STATE_ID`. -/
structure Env where
  web3 : Web3
  /-- Of the borsh library. -/
  reader : Reader
  inglStateId : String

variable (env : Env)

/-- The filter `{ data_id: process.env.INGL_STATE_ID }`. -/
def isInglState (doc : InglState) : Bool := doc.dataId = .value env.inglStateId

def getDbState (db : Db) : Option InglState := findOne (isInglState env) (db .inglState)

/-- `MongoService.update`. The server refuses to change the `_id` of a document. -/
def update (collection : CollectionName) (data : InglState) (db : Db) : Option Db :=
  match findOne (isInglState env) (db collection) with
  | none => some db
  | some doc =>
      if doc.objectId = data.objectId then
        some (Function.update db collection
          (updateOne (isInglState env) data.set (db collection)))
      else none

/-- A broadcast with the value it is about. -/
inductive Broadcast where
  | newVoteAccount (voteAccountKey : String)
  | newProposal (proposalNumeration : Nat)
  | finalizedProposal (dateFinalized : Option Nat)
  deriving DecidableEq

namespace Broadcast

def title : Broadcast → String
  | newVoteAccount _ => "New Ingl Vote Account Created"
  | newProposal _ => "New Validator Selection Proposal"
  | finalizedProposal _ => "Ingl Proposal Finalized"

def message : Broadcast → String
  | newVoteAccount _ => "A new vote account has been created. " ++
      "Please delegate your NFT and receive voting rewards.  https://app.ingl.io/nft"
  | newProposal _ => "A new validator selection proposal has been created. " ++
      "Please vote on the best suited validator at https://app.ingl.io/dao"
  | finalizedProposal _ => "A proposal has been finalized. " ++
      "Get ready to delegate once a vote account is created. https://app.ingl.io/nft"

/-- The collection the task writes to. -/
def collection : Broadcast → CollectionName
  | newVoteAccount _ => .inglState
  | newProposal _ => .inglState
  | finalizedProposal _ => .betaUsers

/-- `{ ...inglDbState, field: value }`. The driver stores an undefined value as null. -/
def inglState : Broadcast → InglState → InglState
  | newVoteAccount voteAccountKey, doc => { doc with voteAccountKey := .value voteAccountKey }
  | newProposal proposalNumeration, doc => { doc with proposalNumeration := .value proposalNumeration }
  | finalizedProposal (some date), doc => { doc with dateFinalized := .value date }
  | finalizedProposal none, doc => { doc with dateFinalized := .null }

end Broadcast

inductive TaskStage where
  | broadcasting | updating
  deriving DecidableEq

/-- A call of a `broadcast…` method that nobody awaits. `seen` is the numeration its tick has read. -/
structure Task where
  broadcast : Broadcast
  inglDbState : InglState
  seen : Nat
  stage : TaskStage
  deriving DecidableEq

def Task.update (task : Task) (db : Db) : Option Db :=
  InglMonitor.update env task.broadcast.collection (task.broadcast.inglState task.inglDbState) db

/-- What `getOnChainState` returns. -/
structure OnChainState where
  currentProposalNumeration : Nat
  voteAccountKey : String
  inglVoteDataAccount : Option AccountInfo
  proposalAccountInfo : Option AccountInfo
  deriving DecidableEq

/-- The request a tick waits for, with what it has read before. The document is read at one time and
the tick resumed at another. -/
inductive Tick where
  | readingGems (globalGem : PublicKey)
  | readingVoteData (numeration : Nat) (voteAccount inglVoteData : PublicKey)
  | readingProposal (numeration : Nat) (voteAccount : PublicKey) (voteData : Option AccountInfo)
      (proposal : PublicKey)
  | readingDb (onChain : OnChainState)
  | resuming (onChain : OnChainState) (inglDbState : Option InglState)
  deriving DecidableEq

/-- The two handlers that log an error. -/
inductive Handler where
  | getOnChainState | monitorInglState
  deriving DecidableEq

inductive TickResult where
  | waits (tick : Tick)
  | ends (launched : List Task) (logged : List Handler)

/-- An error inside `getOnChainState`: it is logged there, and the destructuring of the missing result
raises another. -/
def TickResult.unread : TickResult := .ends [] [.getOnChainState, .monitorInglState]

/-- `inglVoteDataAccount?.owner` is the program, and the stored key is another one. -/
def isNewVoteAccount (onChain : OnChainState) (doc : InglState) : Bool :=
  onChain.inglVoteDataAccount.map (·.owner) = some inglProgramId ∧
    doc.voteAccountKey ≠ .value onChain.voteAccountKey

/-- `current > stored`: null counts as zero, an absent field compares with nothing. -/
def isNewProposal (onChain : OnChainState) (doc : InglState) : Bool :=
  match doc.proposalNumeration with
  | .absent => false
  | .null => 0 < onChain.currentProposalNumeration
  | .value stored => stored < onChain.currentProposalNumeration

/-- `date_finalized !== stored`: only undefined equals an absent field. -/
def isNewDate (date : Option Nat) (doc : InglState) : Bool :=
  match date with
  | none => doc.dateFinalized ≠ .absent
  | some date => doc.dateFinalized ≠ .value date

/-- The broadcasts of `monitorInglState` in launch order, and whether it ends without an error. -/
def broadcasts (onChain : OnChainState) (doc : InglState) : List Broadcast × Bool :=
  let vote := if isNewVoteAccount onChain doc then [.newVoteAccount onChain.voteAccountKey] else []
  let proposal :=
    if isNewProposal onChain doc then [.newProposal onChain.currentProposalNumeration] else []
  match onChain.proposalAccountInfo with
  | none => (vote ++ proposal, true)
  | some info =>
      match ValidatorProposal.dateFinalized env.reader info.data with
      | none => (vote ++ proposal, false)
      | some date =>
          (vote ++ proposal ++ if isNewDate date doc then [.finalizedProposal date] else [], true)

/-- The calls that are not awaited. -/
def launch (onChain : OnChainState) (doc : InglState) : List Task :=
  (broadcasts env onChain doc).1.map fun broadcast =>
    { broadcast, inglDbState := doc, seen := onChain.currentProposalNumeration, stage := .broadcasting }

/-- The rest of the tick once everything is read. Without a document, reading a field raises an error.
-/
def monitorInglState (onChain : OnChainState) : Option InglState → TickResult
  | none => .ends [] [.monitorInglState]
  | some doc => .ends (launch env onChain doc)
      (if (broadcasts env onChain doc).2 then [] else [.monitorInglState])

/-- The numeration in the first account, and the two addresses derived before the next request. -/
def voteKeys (globalGemAccountInfo : Option AccountInfo) : Option (Nat × PublicKey × PublicKey) := do
  let numeration ←
    GlobalGems.proposalNumeration env.reader (← globalGemAccountInfo).data
  let voteAccount ← (voteAccountPubkey env.web3 numeration).toOption
  let inglVoteData ← (inglVoteDataKey env.web3 voteAccount).toOption
  return (numeration, voteAccount, inglVoteData)

/-- The tick goes on with the answer to its request, given at this moment. -/
def Tick.resolve (chain : Chain) (db : Db) : Tick → TickResult
  | readingGems globalGem =>
      match voteKeys env (chain globalGem) with
      | none => .unread
      | some (numeration, voteAccount, inglVoteData) =>
          .waits (.readingVoteData numeration voteAccount inglVoteData)
  | readingVoteData numeration voteAccount inglVoteData =>
      match proposalPubkey env.web3 numeration with
      | .error _ => .unread
      | .ok proposal =>
          .waits (.readingProposal numeration voteAccount (chain inglVoteData) proposal)
  | readingProposal numeration voteAccount inglVoteDataAccount proposal =>
      .waits (.readingDb {
        currentProposalNumeration := numeration
        voteAccountKey := voteAccount.base58
        inglVoteDataAccount
        proposalAccountInfo := chain proposal })
  | readingDb onChain => .waits (.resuming onChain (getDbState env db))
  | resuming onChain doc => monitorInglState env onChain doc

/-- The request of a tick fails. -/
def Tick.reject : Tick → TickResult
  | readingGems _ | readingVoteData .. | readingProposal .. => .unread
  | readingDb _ | resuming .. => .ends [] [.monitorInglState]

/-! ### The world -/

/-- The chain, the database, the monitor's pending calls, and the history that the properties speak of:
broadcasts that were sent, tasks whose write was applied, errors that were logged and rejections that
nobody handled. -/
structure World where
  chain : Chain
  db : Db
  ticks : List Tick
  tasks : List Task
  sent : List Broadcast
  written : List Task
  logged : List Handler
  unhandled : List Broadcast

/-- The monitor has just started. -/
def World.start (chain : Chain) (db : Db) : World where
  chain := chain
  db := db
  ticks := []
  tasks := []
  sent := []
  written := []
  logged := []
  unhandled := []

/-- What becomes of a pending request. A lost reply belongs to a request that took effect. -/
inductive Reply where
  | resolved | rejected | lost
  deriving DecidableEq

inductive Event where
  | chain (chain : Chain)
  | cron
  | tick (i : Nat) (reply : Reply)
  | task (i : Nat) (reply : Reply)

namespace World

def settleTick (w : World) (i : Nat) : TickResult → World
  | .waits tick => { w with ticks := w.ticks.set i tick }
  | .ends launched logged =>
      { w with
        ticks := w.ticks.eraseIdx i
        tasks := w.tasks ++ launched
        logged := w.logged ++ logged }

/-- `Cron`: a tick starts and sends its first request. -/
def startTick (w : World) : World :=
  match globalGemPubkey env.web3 with
  | .ok globalGem => { w with ticks := w.ticks ++ [.readingGems globalGem] }
  | .error _ => { w with logged := w.logged ++ [.getOnChainState, .monitorInglState] }

def rejectTask (w : World) (i : Nat) (task : Task) : World :=
  { w with tasks := w.tasks.eraseIdx i, unhandled := w.unhandled ++ [task.broadcast] }

def settleTask (w : World) (i : Nat) (task : Task) (reply : Reply) : Option World :=
  match task.stage, reply with
  | .broadcasting, .resolved =>
      some { w with
        tasks := w.tasks.set i { task with stage := .updating }
        sent := w.sent ++ [task.broadcast] }
  | .updating, .resolved => do
      let db ← task.update env w.db
      return { w with db, tasks := w.tasks.eraseIdx i, written := w.written ++ [task] }
  | .updating, .lost => do
      let db ← task.update env w.db
      return rejectTask { w with db, written := w.written ++ [task] } i task
  | _, _ => some (w.rejectTask i task)

end World

/-- One event; `none` if nothing waits for it. -/
def step (w : World) : Event → Option World
  | .chain chain => some { w with chain }
  | .cron => some (w.startTick env)
  | .tick i .resolved => do
      let tick ← w.ticks[i]?
      return w.settleTick i (tick.resolve env w.chain w.db)
  | .tick i _ => do
      let tick ← w.ticks[i]?
      return w.settleTick i tick.reject
  | .task i reply => do
      let task ← w.tasks[i]?
      w.settleTask env i task reply

end InglMonitor
