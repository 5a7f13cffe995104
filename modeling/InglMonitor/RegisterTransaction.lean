import InglMonitor.ForwardTransaction
import InglMonitor.ProgramService
import InglMonitor.RegisterValidatorFormat

/-! The route that registers a validator, from the parsed body to the transaction that the backend has
signed. Of its errors the first ones are answers of its own, those behind them leave the handler as they
are, and only what is thrown between the first lookup and the last byte is caught: the controller returns
the promise, so its own `catch` never sees a rejection. -/

open Borsh Borsh.FieldType

namespace InglMonitor

open RegisterValidatorDto (whaleValidator plainInWire_oneValidator)

/-- What web3.js does with a transaction in version 0, one step after the other. -/
structure VersionedTransactionApi where
  /-- The encoder of `ComputeBudgetProgram.setComputeUnitLimit`. -/
  encodeUnits : ℚ → Except String Unit
  /-- Of a transaction that nobody has signed. -/
  compileToV0Message : Transaction → Except String Unit
  sign : Transaction → Keypair → Except String Unit
  serialize : Transaction → Except String Bytes

/-- What a request meets. -/
structure Backend where
  web3 : Web3
  api : VersionedTransactionApi
  rpc : Rpc
  /-- `Keypair.fromSecretKey`, of the environment. -/
  keypair : Except String Keypair
  /-- The message of `serialize` for what it refuses. -/
  outOfRange : String

/-- The body of the response. -/
structure Registration where
  transaction : Bytes
  blockhash : String
  deriving DecidableEq

def AccountMetaDto.toMeta (web3 : Web3) (account : AccountMetaDto) : Except String AccountMeta := do
  let pubkey ← web3.publicKey account.pubkey
  return ⟨pubkey, account.isSigner, account.isWritable⟩

namespace ProgramService

section Model

variable (backend : Backend) (dto : RegisterValidatorDto)

/-- The part in front of the `try` block: the payer and the instruction. -/
def initProgramInstruction : Except String (PublicKey × TransactionInstruction) := do
  let programPubkey ← backend.web3.publicKey dto.programId
  let payerAccountKey ← backend.web3.publicKey dto.payerId
  let data ← dto.initProgramData backend.outOfRange
  let keys ← dto.accounts.mapM (AccountMetaDto.toMeta backend.web3)
  return (payerAccountKey, .other programPubkey keys data)

/-- One round of the loop over the lookup tables. -/
def lookupTableAccount (address : String) : Except String AddressLookupTableAccount := do
  let key ← backend.web3.publicKey address
  match ← backend.rpc.getAddressLookupTable key with
  | some lookupTableAccount => return lookupTableAccount
  | none => throw "Sorry, No Lookup table was found"

/-- The `try` block. -/
def signedTransaction (payerAccountKey : PublicKey) (initProgramInstruction : TransactionInstruction) :
    Except String Registration := do
  let lookupTableAccounts ← dto.lookupTableAddresses.mapM (lookupTableAccount backend)
  backend.api.encodeUnits 300000
  let blockhash ← backend.rpc.getLatestBlockhash
  let messageV0 : Transaction := ⟨.v0, payerAccountKey, blockhash,
    [.setComputeUnitLimit 300000, initProgramInstruction], lookupTableAccounts, []⟩
  backend.api.compileToV0Message messageV0
  let backendKeypair ← backend.keypair
  backend.api.sign messageV0 backendKeypair
  let transaction ← backend.api.serialize { messageV0 with signers := [backendKeypair] }
  return ⟨transaction, blockhash⟩

def createRegisterValidatorTrans : Except Thrown Registration := do
  let (payerAccountKey, instruction) ← (initProgramInstruction backend dto).mapError .error
  (signedTransaction backend dto payerAccountKey instruction).mapError fun message =>
    .http ⟨message, .internalServerError⟩

end Model

end ProgramService

/-- `POST programs/validate-create`, behind the validation pipe. -/
def ProgramController.createRegisterValidatorTrans (backend : Backend) (dto : RegisterValidatorDto) :
    Except Thrown Registration := do
  (ProgramController.checkNewValidator dto).mapError .http
  ProgramService.createRegisterValidatorTrans backend dto

namespace RegisterValidatorDto

variable (backend : Backend) (dto : RegisterValidatorDto)

/-- The body can be made an instruction of: its keys are keys, what the service computes of its numbers is in
range, and no length exceeds its count. -/
structure Presentable : Prop where
  programId : ∃ key, backend.web3.publicKey dto.programId = .ok key
  payerId : ∃ key, backend.web3.publicKey dto.payerId = .ok key
  accounts : ∀ account ∈ dto.accounts, ∃ key, backend.web3.publicKey account.pubkey = .ok key
  products : dto.ProductsInRange
  counts : dto.CountsFit

/-- An instruction that a program reads the body from: it names the submitted program and the submitted
accounts in order, and every reader finds the parameters in its data as the service has scaled them. -/
structure Carries (instruction : TransactionInstruction) : Prop where
  other : ∃ programId keys data, instruction = .other programId keys data ∧
    backend.web3.publicKey dto.programId = .ok programId ∧
    List.Forall₂ (fun account key => backend.web3.publicKey account.pubkey = .ok key.pubkey ∧
      key.isSigner = account.isSigner ∧ key.isWritable = account.isWritable) dto.accounts keys ∧
    dto.initProgramData backend.outOfRange = .ok data ∧
    ∀ reader, deserialize reader Init.fields data =
      some (("instruction", .num (if dto.hasVoteAccount then 18 else 2)) :: dto.scaled)

/-- The transaction for a body: the payer pays, the instruction comes behind the compute budget, the tables
are the submitted ones in order, and the backend is the only one that has signed. -/
structure Registers (transaction : Transaction) : Prop where
  version : transaction.version = .v0
  feePayer : backend.web3.publicKey dto.payerId = .ok transaction.feePayer
  blockhash : backend.rpc.getLatestBlockhash = .ok transaction.recentBlockhash
  units : backend.api.encodeUnits 300000 = .ok ()
  instructions : ∃ instruction, dto.Carries backend instruction ∧
    transaction.instructions = [.setComputeUnitLimit 300000, instruction]
  tables : List.Forall₂ (fun address account => ∃ key, backend.web3.publicKey address = .ok key ∧
    backend.rpc.getAddressLookupTable key = .ok (some account)) dto.lookupTableAddresses
      transaction.lookupTableAccounts
  compiled : backend.api.compileToV0Message { transaction with signers := [] } = .ok ()
  signed : ∃ keypair, backend.keypair = .ok keypair ∧ transaction.signers = [keypair] ∧
    backend.api.sign { transaction with signers := [] } keypair = .ok ()

/-- The response to it. -/
def Answers (registration : Registration) : Prop :=
  ∃ transaction, dto.Registers backend transaction ∧
    backend.api.serialize transaction = .ok registration.transaction ∧
    registration.blockhash = transaction.recentBlockhash

end RegisterValidatorDto

variable {backend : Backend} {dto : RegisterValidatorDto}

namespace ProgramService

theorem toMeta_eq_ok_iff {web3 : Web3} {account : AccountMetaDto} {key : AccountMeta} :
    account.toMeta web3 = .ok key ↔ web3.publicKey account.pubkey = .ok key.pubkey ∧
      key.isSigner = account.isSigner ∧ key.isWritable = account.isWritable := by
  rw [AccountMetaDto.toMeta, bind_eq_ok]
  constructor
  · rintro ⟨pubkey, hpubkey, h⟩
    cases h
    exact ⟨hpubkey, rfl, rfl⟩
  · obtain ⟨pubkey, isSigner, isWritable⟩ := key
    rintro ⟨hpubkey, rfl, rfl⟩
    exact ⟨pubkey, hpubkey, rfl⟩

theorem initProgramInstruction_eq_ok_iff (h : dto.PlainInWire) {payer : PublicKey}
    {instruction : TransactionInstruction} :
    initProgramInstruction backend dto = .ok (payer, instruction) ↔
      backend.web3.publicKey dto.payerId = .ok payer ∧ dto.Carries backend instruction := by
  simp only [initProgramInstruction, bind_eq_ok, mapM_eq_ok_iff, toMeta_eq_ok_iff]
  constructor
  · rintro ⟨programId, hprogram, payer, hpayer, data, hdata, keys, hkeys, h⟩
    cases h
    exact ⟨hpayer, programId, keys, data, rfl, hprogram, hkeys, hdata,
      (RegisterValidatorDto.initProgramData_spec h).2 data hdata⟩
  · rintro ⟨hpayer, programId, keys, data, rfl, hprogram, hkeys, hdata, -⟩
    exact ⟨programId, hprogram, payer, hpayer, data, hdata, keys, hkeys, rfl⟩

/-- Nothing is thrown there exactly for a body that can be made an instruction of. -/
theorem exists_initProgramInstruction_iff (h : dto.PlainInWire) :
    (∃ instruction, initProgramInstruction backend dto = .ok instruction) ↔ dto.Presentable backend := by
  obtain ⟨hbuilt, hread⟩ := @RegisterValidatorDto.initProgramData_spec dto backend.outOfRange h
  constructor
  · rintro ⟨⟨payer, instruction⟩, hok⟩
    obtain ⟨hpayer, programId, keys, data, rfl, hprogram, hkeys, hdata, -⟩ :=
      (initProgramInstruction_eq_ok_iff h).mp hok
    obtain ⟨hproducts, hcounts⟩ := hbuilt.mp ⟨data, hdata⟩
    refine ⟨⟨programId, hprogram⟩, ⟨payer, hpayer⟩, ?_, hproducts, hcounts⟩
    exact exists_forall₂_iff.mp
      ⟨keys.map (·.pubkey), List.forall₂_map_right_iff.mpr (hkeys.imp fun _ _ => And.left)⟩
  · intro hpresentable
    obtain ⟨programId, hprogram⟩ := hpresentable.programId
    obtain ⟨payer, hpayer⟩ := hpresentable.payerId
    obtain ⟨data, hdata⟩ := hbuilt.mpr ⟨hpresentable.products, hpresentable.counts⟩
    have haccounts : ∀ account ∈ dto.accounts, ∃ key : AccountMeta,
        backend.web3.publicKey account.pubkey = .ok key.pubkey ∧
          key.isSigner = account.isSigner ∧ key.isWritable = account.isWritable := by
      intro account hmem
      obtain ⟨key, hkey⟩ := hpresentable.accounts account hmem
      exact ⟨⟨key, account.isSigner, account.isWritable⟩, hkey, rfl, rfl⟩
    obtain ⟨keys, hkeys⟩ := exists_forall₂_iff.mpr haccounts
    exact ⟨_, (initProgramInstruction_eq_ok_iff h).mpr
      ⟨hpayer, programId, keys, data, rfl, hprogram, hkeys, hdata, hread data hdata⟩⟩

theorem lookupTableAccount_eq_ok_iff {address : String} {account : AddressLookupTableAccount} :
    lookupTableAccount backend address = .ok account ↔ ∃ key, backend.web3.publicKey address = .ok key ∧
      backend.rpc.getAddressLookupTable key = .ok (some account) := by
  simp only [lookupTableAccount, bind_eq_ok]
  refine exists_congr fun key => and_congr_right fun _ => ?_
  constructor
  · rintro ⟨found, hfound, h⟩
    cases found with
    | none => cases h
    | some lookupTableAccount =>
        cases h
        exact hfound
  · intro hfound
    exact ⟨some account, hfound, rfl⟩

/-- What is returned for the payer and an instruction. -/
theorem signedTransaction_eq_ok_iff (h : dto.PlainInWire) {payer : PublicKey}
    {instruction : TransactionInstruction}
    (hbefore : initProgramInstruction backend dto = .ok (payer, instruction)) {registration : Registration} :
    signedTransaction backend dto payer instruction = .ok registration ↔
      dto.Answers backend registration := by
  obtain ⟨hpayer, hcarries⟩ := (initProgramInstruction_eq_ok_iff h).mp hbefore
  simp only [signedTransaction, bind_eq_ok, mapM_eq_ok_iff, lookupTableAccount_eq_ok_iff]
  constructor
  · rintro ⟨tables, htables, _, hunits, blockhash, hblockhash, _, hcompiled, keypair, hkeypair, _, hsigned,
      bytes, hbytes, h⟩
    cases h
    exact ⟨_,
      { version := rfl
        feePayer := hpayer
        blockhash := hblockhash
        units := hunits
        instructions := ⟨instruction, hcarries, rfl⟩
        tables := htables
        compiled := hcompiled
        signed := ⟨keypair, hkeypair, rfl, hsigned⟩ }, hbytes, rfl⟩
  · rintro ⟨⟨version, feePayer, blockhash, instructions, tables, signers⟩, hregisters, hbytes, hblockhash⟩
    obtain ⟨rfl, hfee, hnode, hunits, ⟨instruction', hcarries', rfl⟩, htables, hcompiled, keypair,
      hkeypair, rfl, hsigned⟩ := hregisters
    cases Except.ok.inj (hbefore.symm.trans ((initProgramInstruction_eq_ok_iff h).mpr ⟨hfee, hcarries'⟩))
    obtain ⟨bytes, blockhash'⟩ := registration
    cases hblockhash
    exact ⟨tables, htables, (), hunits, blockhash, hnode, (), hcompiled, keypair, hkeypair, (), hsigned,
      bytes, hbytes, rfl⟩

end ProgramService

/-! ### The route -/

theorem ProgramController.status_checkNewValidator {e : HttpException}
    (h : ProgramController.checkNewValidator dto = .error e) : e.status = .badRequest := by
  unfold checkNewValidator badRequest at h
  split at h
  · cases h
    rfl
  · split at h
    · cases h
      rfl
    · split at h
      · cases h
        rfl
      · split at h
        · cases h
          rfl
        · cases h

/-- How far a request has come, by its outcome. -/
def RegisterValidatorDto.Outcome (backend : Backend) (dto : RegisterValidatorDto) :
    Except Thrown Registration → Prop
  | .ok registration => ProgramController.checkNewValidator dto = .ok () ∧ dto.Presentable backend ∧
      dto.Answers backend registration
  | .error (.error _) => ProgramController.checkNewValidator dto = .ok () ∧ ¬dto.Presentable backend
  | .error (.http e) =>
      (e.status = .badRequest ∧ ProgramController.checkNewValidator dto = .error e) ∨
        e.status = .internalServerError ∧ ProgramController.checkNewValidator dto = .ok () ∧
          dto.Presentable backend ∧ ∀ registration, ¬dto.Answers backend registration

/-- **The route.** For a parsed body whose plain numbers fit their members, the outcome tells how far the
request has come. It is answered with the transaction for the body. It is a bad request exactly when the
controller's checks refuse it. A raw error leaves the handler exactly when the body passes the checks and
cannot be made an instruction of. It is an internal error of the service exactly when the body can, but
there is no transaction to answer with. -/
theorem validateCreate_outcome (backend : Backend) (dto : RegisterValidatorDto) (h : dto.PlainInWire) :
    dto.Outcome backend (ProgramController.createRegisterValidatorTrans backend dto) := by
  rw [ProgramController.createRegisterValidatorTrans, ProgramService.createRegisterValidatorTrans]
  cases hcheck : ProgramController.checkNewValidator dto with
  | error e => exact .inl ⟨ProgramController.status_checkNewValidator hcheck, hcheck⟩
  | ok checked =>
      cases hbefore : ProgramService.initProgramInstruction backend dto with
      | error message =>
          refine ⟨hcheck, fun hpresentable => ?_⟩
          obtain ⟨instruction, hok⟩ :=
            (ProgramService.exists_initProgramInstruction_iff h).mpr hpresentable
          rw [hbefore] at hok
          cases hok
      | ok before =>
          obtain ⟨payer, instruction⟩ := before
          have hpresentable : dto.Presentable backend :=
            (ProgramService.exists_initProgramInstruction_iff h).mp ⟨_, hbefore⟩
          have hanswers (registration : Registration) :=
            @ProgramService.signedTransaction_eq_ok_iff backend dto h payer instruction hbefore registration
          show dto.Outcome backend
            ((ProgramService.signedTransaction backend dto payer instruction).mapError _)
          cases hsigned : ProgramService.signedTransaction backend dto payer instruction with
          | error message =>
              refine .inr ⟨rfl, hcheck, hpresentable, fun registration hanswer => ?_⟩
              rw [(hanswers registration).mpr hanswer] at hsigned
              cases hsigned
          | ok registration => exact ⟨hcheck, hpresentable, (hanswers registration).mp hsigned⟩

/-- A backend whose node knows some lookup tables. -/
def nodeBackend (lookupTable : PublicKey → Option AddressLookupTableAccount) : Backend where
  web3 :=
    { publicKey := fun address => .ok ⟨address⟩
      toBuffer := fun _ => []
      findProgramAddressSync := fun _ _ => .error "Unable to find a viable program address nonce" }
  api :=
    { encodeUnits := fun _ => .ok ()
      compileToV0Message := fun _ => .ok ()
      sign := fun _ _ => .ok ()
      serialize := fun transaction => .ok (List.replicate transaction.wireLength 0) }
  rpc := { liveNode with lookupTable := lookupTable }.rpc
  keypair := .ok ⟨⟨"9DvpyaJmpAag7spwD4VnjFyZmeoy8HZeXhwvNMKi64hh"⟩, []⟩
  outOfRange := "Out of range value"

theorem presentable_oneValidator (lookupTable : PublicKey → Option AddressLookupTableAccount) :
    oneValidator.Presentable (nodeBackend lookupTable) where
  programId := ⟨_, rfl⟩
  payerId := ⟨_, rfl⟩
  accounts _ _ := ⟨_, rfl⟩
  products := ⟨by decide +kernel, by decide +kernel, by decide +kernel, by decide +kernel⟩
  counts := RegisterValidatorDto.countsFit_oneValidator

theorem create_oneValidator (lookupTable : PublicKey → Option AddressLookupTableAccount) :
    ∃ payer instruction,
      ProgramController.createRegisterValidatorTrans (nodeBackend lookupTable) oneValidator =
        (ProgramService.signedTransaction (nodeBackend lookupTable) oneValidator payer instruction).mapError
          fun message => .http ⟨message, .internalServerError⟩ := by
  obtain ⟨⟨payer, instruction⟩, hbefore⟩ := (ProgramService.exists_initProgramInstruction_iff
    plainInWire_oneValidator).mpr (presentable_oneValidator lookupTable)
  refine ⟨payer, instruction, ?_⟩
  rw [ProgramController.createRegisterValidatorTrans, accepted_oneValidator.checked,
    ProgramService.createRegisterValidatorTrans, hbefore]
  rfl

theorem plainInWire_whaleValidator : whaleValidator.PlainInWire :=
  { plainInWire_oneValidator with maxPrimaryStake := by decide +kernel }

theorem create_whaleValidator (lookupTable : PublicKey → Option AddressLookupTableAccount) : ∃ message,
    ProgramController.createRegisterValidatorTrans (nodeBackend lookupTable) whaleValidator =
      .error (.error message) := by
  have hchecked : ProgramController.checkNewValidator whaleValidator = .ok () := by decide +kernel
  rw [ProgramController.createRegisterValidatorTrans, hchecked, ProgramService.createRegisterValidatorTrans]
  cases hbefore : ProgramService.initProgramInstruction (nodeBackend lookupTable) whaleValidator with
  | error message => exact ⟨message, rfl⟩
  | ok before =>
      have hpresentable : whaleValidator.Presentable (nodeBackend lookupTable) :=
        (ProgramService.exists_initProgramInstruction_iff plainInWire_whaleValidator).mp ⟨before, hbefore⟩
      exact absurd hpresentable.products.maxPrimaryStake (by decide +kernel)

/-- Answered, refused by the service for want of a table, and not even an instruction. -/
theorem validateCreate_outcome_oneValidator :
    (∃ registration, ProgramController.createRegisterValidatorTrans
        (nodeBackend fun key => some ⟨key, []⟩) oneValidator = .ok registration ∧
      oneValidator.Outcome (nodeBackend fun key => some ⟨key, []⟩) (.ok registration)) ∧
    (∃ message, ProgramController.createRegisterValidatorTrans (nodeBackend fun _ => none) oneValidator =
        .error (.http ⟨message, .internalServerError⟩) ∧
      oneValidator.Outcome (nodeBackend fun _ => none) (.error (.http ⟨message, .internalServerError⟩))) ∧
    ∃ message, ProgramController.createRegisterValidatorTrans (nodeBackend fun _ => none)
        whaleValidator = .error (.error message) ∧
      whaleValidator.Outcome (nodeBackend fun _ => none) (.error (.error message)) := by
  refine ⟨?_, ?_, ?_⟩
  · obtain ⟨payer, instruction, hcreate⟩ := create_oneValidator fun key => some ⟨key, []⟩
    have houtcome := validateCreate_outcome (nodeBackend fun key => some ⟨key, []⟩) oneValidator
      plainInWire_oneValidator
    rw [hcreate] at houtcome
    exact ⟨_, hcreate, houtcome⟩
  · obtain ⟨payer, instruction, hcreate⟩ := create_oneValidator fun _ => none
    have houtcome := validateCreate_outcome (nodeBackend fun _ => none) oneValidator
      plainInWire_oneValidator
    rw [hcreate] at houtcome
    exact ⟨_, hcreate, houtcome⟩
  · obtain ⟨message, hcreate⟩ := create_whaleValidator fun _ => none
    have houtcome := validateCreate_outcome (nodeBackend fun _ => none) whaleValidator
      plainInWire_whaleValidator
    rw [hcreate] at houtcome
    exact ⟨message, hcreate, houtcome⟩

end InglMonitor
