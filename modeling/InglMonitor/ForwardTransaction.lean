import InglMonitor.ChainAccess
import InglMonitor.LegacyTransaction
import Mathlib.Algebra.GroupWithZero.Nat
import Mathlib.Data.List.Dedup
import Mathlib.Data.Rat.Defs

/-! The two functions that sign and send a list of instructions, as a legacy transaction or in version 0.
Both are called with an object that belongs to the caller, so that a call is described by three things:
how its promise settles, what it has sent, and the instructions it leaves in the caller's array. -/

open Borsh

namespace InglMonitor

structure Keypair where
  publicKey : PublicKey
  secretKey : Bytes
  deriving DecidableEq

structure AccountMeta where
  pubkey : PublicKey
  isSigner : Bool
  isWritable : Bool
  deriving DecidableEq

/-- An instruction, by what it was built from. -/
inductive TransactionInstruction where
  | setComputeUnitLimit (units : ℚ)
  | createLookupTable (authority payer : PublicKey) (recentSlot : Nat) (lookupTable : PublicKey)
  | extendLookupTable (lookupTable authority payer : PublicKey) (addresses : List PublicKey)
  | other (programId : PublicKey) (keys : List AccountMeta) (data : Bytes)
  deriving DecidableEq

structure AddressLookupTableAccount where
  key : PublicKey
  addresses : List PublicKey
  deriving DecidableEq

inductive TransactionVersion where
  | legacy | v0
  deriving DecidableEq

structure Transaction where
  version : TransactionVersion
  feePayer : PublicKey
  recentBlockhash : String
  instructions : List TransactionInstruction
  lookupTableAccounts : List AddressLookupTableAccount
  signers : List Keypair
  deriving DecidableEq

/-- What web3.js does with transactions before they are sent; an error carries its message. -/
structure TransactionApi where
  /-- The encoder of `ComputeBudgetProgram.setComputeUnitLimit`. -/
  encodeUnits : ℚ → Except String Unit
  /-- The address that `AddressLookupTableProgram.createLookupTable` derives. -/
  lookupTableAddress : (authority : PublicKey) → (recentSlot : Nat) → Except String PublicKey
  /-- Compile, sign and serialize. -/
  compile : Transaction → Except String Unit

/-- The answers of an RPC node to one call; each may be an error. -/
structure Rpc where
  getLatestBlockhash : Except String String
  getAddressLookupTable : PublicKey → Except String (Option AddressLookupTableAccount)
  /-- With the signature as its result. -/
  sendTransaction : Transaction → Except String String
  confirmTransaction : String → Except String Unit

/-- A node that answers every request. -/
structure LiveRpc where
  blockhash : String
  lookupTable : PublicKey → Option AddressLookupTableAccount
  signature : Transaction → String

def LiveRpc.rpc (node : LiveRpc) : Rpc where
  getLatestBlockhash := .ok node.blockhash
  getAddressLookupTable address := .ok (node.lookupTable address)
  sendTransaction transaction := .ok (node.signature transaction)
  confirmTransaction _ := .ok ()

structure ForwardOptions where
  commitment : Option String
  additionalUnits : Option ℚ
  deriving DecidableEq

structure ForwardTransactionParams where
  instructions : List TransactionInstruction
  signerKeypairs : List Keypair
  options : Option ForwardOptions
  deriving DecidableEq

structure ForwardVersionnedTransactionParams extends ForwardTransactionParams where
  lookupTableAddresses : Option (List PublicKey)
  deriving DecidableEq

/-- What a call leaves behind. -/
structure Forwarded where
  result : Except String String
  submitted : List Transaction
  instructions : List TransactionInstruction

section Forward

variable (api : TransactionApi) (rpc : Rpc)

def setComputeUnitLimit (units : ℚ) : Except String TransactionInstruction := do
  api.encodeUnits units
  return .setComputeUnitLimit units

/-- The branch on `additionalUnits`, which zero does not take. -/
def additionalInstructions (additionalUnits : Option ℚ) :
    Except String (List TransactionInstruction) :=
  match additionalUnits.filter (· ≠ 0) with
  | none => return []
  | some units => return [← setComputeUnitLimit api units]

/-- `signerKeypairs[0]`, behind the check of both functions. -/
def firstSigner : List Keypair → Except String Keypair
  | [] => throw "Transaction must be signed by at least one keypair."
  | payer :: _ => return payer

/-- `transaction.add(...items)`. -/
def addInstructions (instructions items : List TransactionInstruction) :
    Except String (List TransactionInstruction) :=
  if items = [] then throw "No instructions" else return instructions ++ items

/-- Send what was compiled, and wait for it. -/
def submit (compiled : Except String Transaction) (instructions : List TransactionInstruction) :
    Forwarded :=
  match compiled with
  | .error message => ⟨.error message, [], instructions⟩
  | .ok transaction =>
      { result := do
          let signature ← rpc.sendTransaction transaction
          rpc.confirmTransaction signature
          return signature
        submitted := [transaction]
        instructions }

/-- The transaction that `forwardLegacyTransaction` sends. -/
def legacyTransaction (params : ForwardTransactionParams) : Except String Transaction := do
  let payer ← firstSigner params.signerKeypairs
  let options ← match params.options with
    | none => throw "Cannot read properties of undefined (reading 'additionalUnits')"
    | some options => pure options
  let additional ← additionalInstructions api options.additionalUnits
  let instructions ← addInstructions additional params.instructions
  let blockhash ← rpc.getLatestBlockhash
  let transaction : Transaction :=
    ⟨.legacy, payer.publicKey, blockhash, instructions, [], params.signerKeypairs⟩
  api.compile transaction
  return transaction

def forwardLegacyTransaction (params : ForwardTransactionParams) : Forwarded :=
  submit rpc (legacyTransaction api rpc params) params.instructions

/-- The loop over the lookup tables. -/
def getLookupTables (lookupTableAddresses : List PublicKey) :
    Except String (List AddressLookupTableAccount) :=
  lookupTableAddresses.mapM fun address => do
    match ← rpc.getAddressLookupTable address with
    | some lookupTableAccount => return lookupTableAccount
    | none => throw "Sorry, No Lookup table was found"

/-- What `forwardV0Transaction` does before it puts an instruction in front of the others. -/
def beforeUnshift (params : ForwardVersionnedTransactionParams) :
    Except String (Keypair × List AddressLookupTableAccount × List TransactionInstruction) := do
  let payer ← firstSigner params.signerKeypairs
  let lookupTableAccounts ← match params.lookupTableAddresses with
    | none => pure []
    | some lookupTableAddresses => getLookupTables rpc lookupTableAddresses
  let additional ← additionalInstructions api (params.options.bind (·.additionalUnits))
  return (payer, lookupTableAccounts, additional)

/-- `instructions.unshift` changes the caller's array. -/
def forwardV0Transaction (params : ForwardVersionnedTransactionParams) : Forwarded :=
  match beforeUnshift api rpc params with
  | .error message => ⟨.error message, [], params.instructions⟩
  | .ok (payer, lookupTableAccounts, additional) =>
      let instructions := additional ++ params.instructions
      let compiled : Except String Transaction := do
        let blockhash ← rpc.getLatestBlockhash
        let transaction : Transaction :=
          ⟨.v0, payer.publicKey, blockhash, instructions, lookupTableAccounts, params.signerKeypairs⟩
        api.compile transaction
        return transaction
      submit rpc compiled instructions

end Forward

section Params

variable (params : ForwardVersionnedTransactionParams)

/-- `additionalUnits`, if it is a number other than zero. -/
def requestedUnits : Option ℚ := (params.options.bind (·.additionalUnits)).filter (· ≠ 0)

def requestedInstructions : List TransactionInstruction :=
  (requestedUnits params).toList.map .setComputeUnitLimit ++ params.instructions

end Params

section Sent

variable {api : TransactionApi} {params : ForwardVersionnedTransactionParams}

theorem additionalInstructions_eq_ok_iff {additionalUnits : Option ℚ}
    {instructions : List TransactionInstruction} :
    additionalInstructions api additionalUnits = .ok instructions ↔
      (∀ units ∈ additionalUnits.filter (· ≠ 0), api.encodeUnits units = .ok ()) ∧
        instructions = (additionalUnits.filter (· ≠ 0)).toList.map .setComputeUnitLimit := by
  rw [additionalInstructions]
  cases additionalUnits.filter (· ≠ 0) with
  | none => simp [pure, Except.pure, eq_comm]
  | some units =>
      simp only [setComputeUnitLimit]
      cases hencode : api.encodeUnits units with
      | error message => simp [hencode, bind, Except.bind]
      | ok encoded => simp [hencode, bind, Except.bind, pure, Except.pure, eq_comm]

theorem addInstructions_eq_ok_iff {instructions items result : List TransactionInstruction} :
    addInstructions instructions items = .ok result ↔ items ≠ [] ∧ result = instructions ++ items := by
  rw [addInstructions]
  by_cases hempty : items = []
  · simp [hempty, throw, throwThe, MonadExceptOf.throw]
  · simp [hempty, pure, Except.pure, eq_comm]

theorem submitted_submit {rpc : Rpc} {compiled : Except String Transaction}
    {instructions : List TransactionInstruction} {transaction : Transaction} :
    (submit rpc compiled instructions).submitted = [transaction] ↔ compiled = .ok transaction := by
  cases compiled <;> simp [submit]

@[simp] theorem instructions_submit {rpc : Rpc} {compiled : Except String Transaction}
    {instructions : List TransactionInstruction} :
    (submit rpc compiled instructions).instructions = instructions := by
  cases compiled <;> rfl

/-- The signer that pays. -/
theorem firstSigner_eq {signerKeypairs : List Keypair} {payer : Keypair}
    (h : payer ∈ signerKeypairs.head?) : firstSigner signerKeypairs = .ok payer := by
  cases signerKeypairs with
  | nil => cases h
  | cons first rest =>
      cases h
      rfl

/-- What a legacy call sends, where it sends something. -/
theorem legacyTransaction_eq_ok_iff {rpc : Rpc} {payer : Keypair}
    (hpayer : payer ∈ params.signerKeypairs.head?) {transaction : Transaction} :
    legacyTransaction api rpc params.toForwardTransactionParams = .ok transaction ↔
      (params.options ≠ none ∧ params.instructions ≠ []) ∧
      (∀ units ∈ requestedUnits params, api.encodeUnits units = .ok ()) ∧
      api.compile transaction = .ok () ∧ ∃ blockhash, rpc.getLatestBlockhash = .ok blockhash ∧
        transaction = ⟨.legacy, payer.publicKey, blockhash, requestedInstructions params, [],
          params.signerKeypairs⟩ := by
  rw [legacyTransaction, firstSigner_eq hpayer]
  cases hoptions : params.options with
  | none => simp [bind, Except.bind, throw, throwThe, MonadExceptOf.throw]
  | some options =>
      have hunits : requestedUnits params = options.additionalUnits.filter (· ≠ 0) := by
        rw [requestedUnits, hoptions, Option.bind_some]
      rw [requestedInstructions, hunits]
      simp only [bind_eq_ok, additionalInstructions_eq_ok_iff, addInstructions_eq_ok_iff]
      constructor
      · rintro ⟨_, hfirst, _, hpure, _, ⟨hencode, rfl⟩, _, ⟨hne, rfl⟩, blockhash, hblockhash, _,
          hcompile, h⟩
        cases hfirst
        cases hpure
        cases h
        exact ⟨⟨Option.some_ne_none options, hne⟩, hencode, hcompile, blockhash, hblockhash, rfl⟩
      · rintro ⟨⟨-, hne⟩, hencode, hcompile, blockhash, hblockhash, rfl⟩
        exact ⟨payer, rfl, options, rfl, _, ⟨hencode, rfl⟩, _, ⟨hne, rfl⟩, blockhash, hblockhash, (),
          hcompile, rfl⟩

end Sent

/-! ### A packet

An instance of the functions of web3.js. It takes a derived address for its seeds. -/

namespace TransactionInstruction

def programId : TransactionInstruction → PublicKey
  | .setComputeUnitLimit _ => ⟨"ComputeBudget111111111111111111111111111111"⟩
  | .createLookupTable .. | .extendLookupTable .. => ⟨"AddressLookupTab1e1111111111111111111111111"⟩
  | .other programId _ _ => programId

def keys : TransactionInstruction → List AccountMeta
  | .setComputeUnitLimit _ => []
  | .createLookupTable authority payer _ lookupTable | .extendLookupTable lookupTable authority payer _ =>
      [⟨lookupTable, false, true⟩, ⟨authority, true, false⟩, ⟨payer, true, true⟩,
        ⟨⟨"11111111111111111111111111111111"⟩, false, false⟩]
  | .other _ keys _ => keys

def dataLength : TransactionInstruction → Nat
  | .setComputeUnitLimit _ => 5
  | .createLookupTable .. => 13
  | .extendLookupTable _ _ _ addresses => 12 + 32 * addresses.length
  | .other _ _ data => data.length

end TransactionInstruction

namespace Transaction

variable (transaction : Transaction)

def accountKeys : List PublicKey :=
  (transaction.feePayer :: transaction.instructions.flatMap fun instruction =>
    instruction.programId :: instruction.keys.map (·.pubkey)).dedup

/-- The keys that have to sign. -/
def requiredSigners : List PublicKey :=
  (transaction.feePayer :: transaction.instructions.flatMap fun instruction =>
    (instruction.keys.filter (·.isSigner)).map (·.pubkey)).dedup

/-- The length of a length in front of a list that fits a packet. -/
def compactLength (length : Nat) : Nat := if length < 128 then 1 else 2

def messageLength : Nat :=
  3 + compactLength transaction.accountKeys.length + 32 * transaction.accountKeys.length + 32 +
    compactLength transaction.instructions.length +
    (transaction.instructions.map fun instruction =>
      1 + compactLength instruction.keys.length + instruction.keys.length +
        compactLength instruction.dataLength + instruction.dataLength).sum

/-- Version 0 has its number in front and a list of lookup tables behind, here without any. -/
def wireLength : Nat :=
  compactLength transaction.requiredSigners.length + 64 * transaction.requiredSigners.length +
    transaction.messageLength + if transaction.version = .v0 then 2 else 0

def signerKeys : List PublicKey := transaction.signers.map (·.publicKey)

end Transaction

/-- Units take four bytes. -/
def packetApi : TransactionApi where
  encodeUnits units :=
    if 0 ≤ units ∧ units ≤ 4294967295 then .ok ()
    else .error "The value of \"value\" is out of range."
  lookupTableAddress authority recentSlot := .ok ⟨authority.base58 ++ "/" ++ toString recentSlot⟩
  compile transaction :=
    if ∃ signer ∈ transaction.signerKeys, signer ∉ transaction.requiredSigners then
      .error "unknown signer"
    else if ∃ signer ∈ transaction.requiredSigners, signer ∉ transaction.signerKeys then
      .error "Signature verification failed."
    else if packetDataSize < transaction.wireLength then .error "Transaction too large"
    else .ok ()

def liveNode : LiveRpc := ⟨"blockhash", fun _ => none, fun _ => "signature"⟩

end InglMonitor
