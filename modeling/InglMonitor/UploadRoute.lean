import InglMonitor.RegisterTransaction
import InglMonitor.UploadOutcome

/-! The route that uploads URIs, from the two addresses of a request to the transactions that the backend has
signed. A request is refused for its addresses and for its URIs; in between, what fails for want of a keypair,
an address or a blockhash leaves the handler as a raw error; and a request may have no end. -/

open Borsh

namespace InglMonitor

def urisAccountSeed : String := "uris_account"

/-- `SystemProgram.programId`. -/
def systemProgramId : PublicKey := ⟨"11111111111111111111111111111111"⟩

/-- What a request meets. -/
structure UploadBackend where
  web3 : Web3
  getLatestBlockhash : Except String String
  /-- `Keypair.fromSecretKey`, of the environment. -/
  keypair : Except String Keypair
  sign : Transaction → Keypair → Except String Unit
  /-- `serialize({ requireAllSignatures: false })`. -/
  serialize : Transaction → Except String Bytes
  /-- The message of borsh for what it refuses. -/
  outOfRange : String

/-- What the transactions of a request share. -/
structure UploadRequest where
  programId : PublicKey
  feePayer : PublicKey
  keys : List AccountMeta
  blockhash : String
  backendKeypair : Keypair

namespace UploadRequest

variable (request : UploadRequest)

/-- Not signed yet. -/
def transaction (data : Bytes) : Transaction :=
  ⟨.legacy, request.feePayer, request.blockhash,
    [.setComputeUnitLimit 1400000, .other request.programId request.keys data], [], []⟩

def transact (backend : UploadBackend) (data : Bytes) : Except String Bytes := do
  backend.sign (request.transaction data) request.backendKeypair
  backend.serialize { request.transaction data with signers := [request.backendKeypair] }

def api (backend : UploadBackend) : UploadApi := ⟨backend.outOfRange, request.transact backend⟩

end UploadRequest

section Model

variable (backend : UploadBackend)

namespace ProgramService

/-- The part in front of the `try` block. -/
def uploadRequest (programId feePayer : PublicKey) : Except String UploadRequest := do
  let backendKeypair ← backend.keypair
  let inglConfigKey ← backend.web3.findProgramAddressSync [utf8 inglConfigSeed] programId
  let urisAccountKey ← backend.web3.findProgramAddressSync [utf8 urisAccountSeed] programId
  let blockhash ← backend.getLatestBlockhash
  return {
    programId, feePayer, blockhash, backendKeypair
    keys := [⟨feePayer, true, true⟩, ⟨inglConfigKey, false, true⟩, ⟨urisAccountKey, false, true⟩,
      ⟨backendKeypair.publicKey, true, false⟩, ⟨systemProgramId, false, false⟩] }

/-- With so much fuel for each loop. -/
def createUploadRaritiesUrisTrans (fuel : Nat) (programId feePayer : PublicKey) (rarities : List Rarity) :
    Option (Except Thrown (List Upload)) :=
  match uploadRequest backend programId feePayer with
  | .error message => some (.error (.error message))
  | .ok request =>
      (InglMonitor.createUploadRaritiesUrisTrans (request.api backend) fuel rarities).map
        fun result => result.mapError .http

end ProgramService

/-- The two arguments that the controller converts. -/
def ProgramController.uploadAddresses (programId : String) (dto : UploadUrisDto) :
    Except HttpException (PublicKey × PublicKey) := do
  let programPubkey ← tryPublicKey backend.web3 programId
  let feePayer ← tryPublicKey backend.web3 dto.payerId
  return (programPubkey, feePayer)

/-- `POST programs/:program_id/upload-uris`, behind the validation pipe. -/
def ProgramController.createUploadRaritiesUrisTrans (fuel : Nat) (programId : String) (dto : UploadUrisDto) :
    Option (Except Thrown (List Upload)) :=
  match ProgramController.uploadAddresses backend programId dto with
  | .error e => some (.error (.http ⟨e.message, .internalServerError⟩))
  | .ok (programPubkey, feePayer) =>
      ProgramService.createUploadRaritiesUrisTrans backend fuel programPubkey feePayer dto.rarities

/-- The response is sent, or the promise is rejected. -/
def UploadSettles (programId : String) (dto : UploadUrisDto) (result : Except Thrown (List Upload)) : Prop :=
  ∃ fuel, ProgramController.createUploadRaritiesUrisTrans backend fuel programId dto = some result

/-- Both addresses are keys. -/
def Addressed (programId : String) (dto : UploadUrisDto) : Prop :=
  (∃ key, backend.web3.publicKey programId = .ok key) ∧ ∃ key, backend.web3.publicKey dto.payerId = .ok key

/-- The payer signs first, the backend authorizes, and the two accounts that are written are the program's. -/
structure Asks (programId : String) (dto : UploadUrisDto) (request : UploadRequest) : Prop where
  programId : backend.web3.publicKey programId = .ok request.programId
  feePayer : backend.web3.publicKey dto.payerId = .ok request.feePayer
  keypair : backend.keypair = .ok request.backendKeypair
  blockhash : backend.getLatestBlockhash = .ok request.blockhash
  keys : ∃ inglConfigKey urisAccountKey,
    backend.web3.findProgramAddressSync [utf8 inglConfigSeed] request.programId = .ok inglConfigKey ∧
    backend.web3.findProgramAddressSync [utf8 urisAccountSeed] request.programId = .ok urisAccountKey ∧
    request.keys = [⟨request.feePayer, true, true⟩, ⟨inglConfigKey, false, true⟩,
      ⟨urisAccountKey, false, true⟩, ⟨request.backendKeypair.publicKey, true, false⟩,
      ⟨systemProgramId, false, false⟩]

/-- The transaction for a payload, which the program reads back from its data. -/
structure SignedFor (request : UploadRequest) (payload : UploadPayload) (upload : Upload) : Prop where
  payload_eq : upload.payload = payload
  data : payload.data backend.outOfRange = .ok upload.data
  read : ∀ reader, InstructionClass.decodeInstruction reader upload.data =
    some (.uploadUris, ("instruction", .num 8) :: payload.toObject)
  signed : backend.sign (request.transaction upload.data) request.backendKeypair = .ok ()
  serialized : backend.serialize
    { request.transaction upload.data with signers := [request.backendKeypair] } = .ok upload.transaction

/-- What each way to end says of a request. -/
structure UploadOutcomes (programId : String) (dto : UploadUrisDto) : Prop where
  /-- The transactions of all pieces, in order. -/
  answered : ∀ uploads, UploadSettles backend programId dto (.ok uploads) ↔
    ∃ request, Asks backend programId dto request ∧ (∀ rarity ∈ dto.rarities, ¬Stuck rarity.uris) ∧
      List.Forall₂ (SignedFor backend request) (payloads 0 dto.rarities) uploads
  refused : (∃ e, UploadSettles backend programId dto (.error (.http e))) ↔
    ¬Addressed backend programId dto ∨ ∃ request, Asks backend programId dto request ∧
      FailsFirst (request.api backend) 0 dto.rarities
  status : ∀ e, UploadSettles backend programId dto (.error (.http e)) → e.status = .internalServerError
  /-- The handler rejects with the error itself, whatever the framework makes of it. -/
  raw : (∃ message, UploadSettles backend programId dto (.error (.error message))) ↔
    Addressed backend programId dto ∧ ∀ request, ¬Asks backend programId dto request
  endless : (∀ result, ¬UploadSettles backend programId dto result) ↔
    ∃ request, Asks backend programId dto request ∧ (∃ rarity ∈ dto.rarities, Stuck rarity.uris) ∧
      ¬FailsFirst (request.api backend) 0 dto.rarities

end Model

section Splitter

variable {api : UploadApi} {rarities : List Rarity}

theorem outcome_eq_ok_iff {index : Nat} {transactions uploads : List Upload} :
    outcome api index rarities transactions = some (.ok uploads) ↔
      (∀ rarity ∈ rarities, ¬Stuck rarity.uris) ∧ ∃ built, uploads = transactions ++ built ∧
        List.Forall₂ (fun payload upload => buildUpload api payload = .ok upload)
          (payloads index rarities) built := by
  induction rarities generalizing index transactions with
  | nil =>
      rw [outcome, payloads]
      constructor
      · intro h
        cases h
        exact ⟨List.forall_mem_nil _, [], (List.append_nil _).symm, .nil⟩
      · rintro ⟨-, built, rfl, hbuilt⟩
        rw [List.forall₂_nil_left_iff.mp hbuilt, List.append_nil]
  | cons rarity rarities ih =>
      rw [outcome_cons_eq_ok_iff, List.forall_mem_cons, and_assoc]
      refine and_congr_right fun _ => ?_
      simp only [ih, buildAll, mapM_eq_ok_iff, payloads]
      constructor
      · rintro ⟨first, hfirst, hstuck, rest, rfl, hrest⟩
        refine ⟨hstuck, first ++ rest, List.append_assoc _ _ _, List.rel_append ?_ hrest⟩
        exact List.forall₂_map_left_iff.mpr hfirst
      · rintro ⟨hstuck, built, rfl, hbuilt⟩
        have hfirst := List.forall₂_take (pieces rarity.uris).length hbuilt
        have hrest := List.forall₂_drop (pieces rarity.uris).length hbuilt
        rw [List.take_left' (List.length_map _)] at hfirst
        rw [List.drop_left' (List.length_map _)] at hrest
        refine ⟨_, List.forall₂_map_left_iff.mp hfirst, hstuck, _, ?_, hrest⟩
        rw [List.append_assoc, List.take_append_drop]

theorem outcome_eq_error_iff {index : Nat} {transactions : List Upload} :
    (∃ message, outcome api index rarities transactions = some (.error message)) ↔
      FailsFirst api index rarities := by
  induction rarities generalizing index transactions with
  | nil =>
      refine iff_of_false ?_ ?_
      · rintro ⟨message, h⟩
        cases h
      · rintro ⟨before, rarity, after, h, -⟩
        cases before <;> cases h
  | cons rarity rarities ih =>
      rw [outcome, failsFirst_cons_iff]
      cases hbuild : buildAll api index (pieces rarity.uris) with
      | error message => exact iff_of_true ⟨message, rfl⟩ (.inl ⟨message, rfl⟩)
      | ok uploads =>
          by_cases hstuck : Stuck rarity.uris
          · simp [hstuck]
          · simp only [hstuck, if_false, ih, not_false_eq_true, true_and, reduceCtorEq, exists_false,
              false_or]

end Splitter

variable {backend : UploadBackend} {programId : String} {dto : UploadUrisDto}

theorem tryPublicKey_eq_ok_iff {web3 : Web3} {address : String} {key : PublicKey} :
    tryPublicKey web3 address = .ok key ↔ web3.publicKey address = .ok key := mapError_eq_ok

theorem uploadAddresses_eq_ok_iff {programPubkey feePayer : PublicKey} :
    ProgramController.uploadAddresses backend programId dto = .ok (programPubkey, feePayer) ↔
      backend.web3.publicKey programId = .ok programPubkey ∧
        backend.web3.publicKey dto.payerId = .ok feePayer := by
  simp only [ProgramController.uploadAddresses, bind_eq_ok, tryPublicKey_eq_ok_iff]
  constructor
  · rintro ⟨key, hkey, payer, hpayer, h⟩
    cases h
    exact ⟨hkey, hpayer⟩
  · rintro ⟨hkey, hpayer⟩
    exact ⟨programPubkey, hkey, feePayer, hpayer, rfl⟩

theorem asks_iff {request : UploadRequest} : Asks backend programId dto request ↔
    ∃ programPubkey feePayer,
      ProgramController.uploadAddresses backend programId dto = .ok (programPubkey, feePayer) ∧
        ProgramService.uploadRequest backend programPubkey feePayer = .ok request := by
  simp only [uploadAddresses_eq_ok_iff, ProgramService.uploadRequest, bind_eq_ok]
  constructor
  · obtain ⟨programPubkey, feePayer, keys, blockhash, backendKeypair⟩ := request
    rintro ⟨hkey, hpayer, hkeypair, hblockhash, inglConfigKey, urisAccountKey, hconfig, huris, hkeys⟩
    simp only at hkeys
    subst hkeys
    exact ⟨programPubkey, feePayer, ⟨hkey, hpayer⟩, backendKeypair, hkeypair, inglConfigKey, hconfig,
      urisAccountKey, huris, blockhash, hblockhash, rfl⟩
  · rintro ⟨programPubkey, feePayer, ⟨hkey, hpayer⟩, backendKeypair, hkeypair, inglConfigKey, hconfig,
      urisAccountKey, huris, blockhash, hblockhash, h⟩
    cases h
    exact ⟨hkey, hpayer, hkeypair, hblockhash, inglConfigKey, urisAccountKey, hconfig, huris, rfl⟩

theorem addressed_iff : Addressed backend programId dto ↔
    ∃ keys, ProgramController.uploadAddresses backend programId dto = .ok keys := by
  rw [Prod.exists]
  simp only [uploadAddresses_eq_ok_iff, exists_and_left, exists_and_right]
  rfl

theorem Asks.addressed {request : UploadRequest} (h : Asks backend programId dto request) :
    Addressed backend programId dto :=
  ⟨⟨_, h.programId⟩, _, h.feePayer⟩

theorem Asks.unique {request request' : UploadRequest} (h : Asks backend programId dto request)
    (h' : Asks backend programId dto request') : request' = request := by
  obtain ⟨programPubkey, feePayer, haddresses, hrequest⟩ := asks_iff.mp h
  obtain ⟨programPubkey', feePayer', haddresses', hrequest'⟩ := asks_iff.mp h'
  cases haddresses.symm.trans haddresses'
  exact Except.ok.inj (hrequest'.symm.trans hrequest)

/-! ### The ways to end -/

/-- What the splitter ends with, as an answer. -/
theorem uploadSettles_iff {request : UploadRequest} (h : Asks backend programId dto request)
    {result : Except Thrown (List Upload)} : UploadSettles backend programId dto result ↔
      ∃ ended, outcome (request.api backend) 0 dto.rarities [] = some ended ∧
        (ended.mapError fun message => .http ⟨message, .internalServerError⟩) = result := by
  obtain ⟨programPubkey, feePayer, haddresses, hrequest⟩ := asks_iff.mp h
  simp only [UploadSettles, ProgramController.createUploadRaritiesUrisTrans, haddresses,
    ProgramService.createUploadRaritiesUrisTrans, hrequest, createUploadRaritiesUrisTrans,
    Option.map_map, Option.map_eq_some_iff, ← reductionEnds_iff, ReductionEnds]
  rw [exists_comm]
  refine exists_congr fun ended => ?_
  rw [exists_and_right]
  cases ended <;> rfl

theorem buildUpload_transact_iff {request : UploadRequest} {payload : UploadPayload} {upload : Upload} :
    buildUpload (request.api backend) payload = .ok upload ↔
      SignedFor backend request payload upload := by
  simp only [buildUpload_eq_ok_iff, UploadRequest.api, UploadRequest.transact, bind_eq_ok]
  constructor
  · rintro ⟨hpayload, hdata, _, hsigned, hserialized⟩
    exact ⟨hpayload, hdata, UploadPayload.decodeInstruction_data hdata, hsigned, hserialized⟩
  · intro h
    exact ⟨h.payload_eq, h.data, (), h.signed, h.serialized⟩

/-- The addresses and the accounts are there: the splitter decides. -/
theorem uploadOutcomes_of_asks {request : UploadRequest} (h : Asks backend programId dto request) :
    UploadOutcomes backend programId dto := by
  have hasks {P : UploadRequest → Prop} :
      (∃ request', Asks backend programId dto request' ∧ P request') ↔ P request := by
    constructor
    · rintro ⟨request', hasks, hp⟩
      exact h.unique hasks ▸ hp
    · intro hp
      exact ⟨request, h, hp⟩
  constructor
  case answered =>
    intro uploads
    simp only [uploadSettles_iff h, hasks, mapError_eq_ok, exists_eq_right, outcome_eq_ok_iff,
      List.nil_append, exists_eq_left', buildUpload_transact_iff]
  case refused =>
    rw [hasks, ← outcome_eq_error_iff, or_iff_right (not_not_intro h.addressed)]
    simp only [uploadSettles_iff h]
    constructor
    · rintro ⟨e, ended, hended, hresult⟩
      cases ended with
      | ok uploads => cases hresult
      | error message => exact ⟨message, hended⟩
    · rintro ⟨message, hended⟩
      exact ⟨_, _, hended, rfl⟩
  case status =>
    intro e hsettles
    obtain ⟨ended, -, hresult⟩ := (uploadSettles_iff h).mp hsettles
    cases ended with
    | ok uploads => cases hresult
    | error message =>
        cases hresult
        rfl
  case raw =>
    refine iff_of_false ?_ fun hnone => hnone.2 request h
    rintro ⟨message, hsettles⟩
    obtain ⟨ended, -, hresult⟩ := (uploadSettles_iff h).mp hsettles
    cases ended <;> cases hresult
  case endless =>
    have hnone : (∀ result, ¬UploadSettles backend programId dto result) ↔
        outcome (request.api backend) 0 dto.rarities [] = none := by
      simp only [uploadSettles_iff h]
      constructor
      · intro hendless
        refine Option.eq_none_iff_forall_ne_some.mpr fun ended hended => ?_
        exact hendless _ ⟨ended, hended, rfl⟩
      · rintro hnone result ⟨ended, hended, -⟩
        rw [hnone] at hended
        cases hended
    rw [hnone, hasks, ← not_iff_not, ← ne_eq, outcome_ne_none_iff, not_and_not_right, imp_iff_not_or]
    simp only [not_exists, not_and]

/-- Where the splitter is not reached, the fuel does not matter. -/
theorem uploadSettles_iff_eq {ended result : Except Thrown (List Upload)}
    (h : ∀ fuel, ProgramController.createUploadRaritiesUrisTrans backend fuel programId dto = some ended) :
    UploadSettles backend programId dto result ↔ result = ended := by
  constructor
  · rintro ⟨fuel, hsettles⟩
    exact Option.some.inj (hsettles.symm.trans (h fuel))
  · rintro rfl
    exact ⟨0, h 0⟩

/-- One of the addresses is none: the controller answers. -/
theorem uploadOutcomes_of_not_addressed (h : ¬Addressed backend programId dto) :
    UploadOutcomes backend programId dto := by
  have hnone (request : UploadRequest) : ¬Asks backend programId dto request := fun hasks => h hasks.addressed
  have hends : ∃ e : HttpException, e.status = .internalServerError ∧ ∀ fuel,
      ProgramController.createUploadRaritiesUrisTrans backend fuel programId dto =
        some (.error (.http e)) := by
    cases haddresses : ProgramController.uploadAddresses backend programId dto with
    | ok keys => exact absurd (addressed_iff.mpr ⟨keys, haddresses⟩) h
    | error e =>
        refine ⟨⟨e.message, .internalServerError⟩, rfl, fun fuel => ?_⟩
        rw [ProgramController.createUploadRaritiesUrisTrans, haddresses]
  obtain ⟨e, hstatus, hends⟩ := hends
  constructor <;> simp only [uploadSettles_iff_eq hends]
  case answered => simp [hnone]
  case refused => simp [h]
  case status =>
    rintro e' he
    cases he
    exact hstatus
  case raw => simp [h]
  case endless => simp [hnone]

/-- The keypair, an account address or the blockhash is missing: the service fails. -/
theorem uploadOutcomes_of_not_asks (haddressed : Addressed backend programId dto)
    (h : ∀ request, ¬Asks backend programId dto request) : UploadOutcomes backend programId dto := by
  have hends : ∃ message, ∀ fuel, ProgramController.createUploadRaritiesUrisTrans backend fuel programId dto =
      some (.error (.error message)) := by
    obtain ⟨⟨programPubkey, feePayer⟩, haddresses⟩ := addressed_iff.mp haddressed
    cases hrequest : ProgramService.uploadRequest backend programPubkey feePayer with
    | ok request => exact absurd (asks_iff.mpr ⟨programPubkey, feePayer, haddresses, hrequest⟩) (h request)
    | error message =>
        refine ⟨message, fun fuel => ?_⟩
        simp only [ProgramController.createUploadRaritiesUrisTrans, haddresses,
          ProgramService.createUploadRaritiesUrisTrans, hrequest]
  obtain ⟨message, hends⟩ := hends
  constructor <;> simp only [uploadSettles_iff_eq hends]
  case answered => simp [h]
  case refused => simp [h, haddressed]
  case status =>
    rintro e he
    cases he
  case raw => simp [h, haddressed]
  case endless => simp [h]

/-- **The route.** A request is answered exactly with the signed transactions of all pieces, in order, as long
as no URI that is too long stands in front of another one; it is refused, always with the same status, exactly
for an address that is none or a piece of which no transaction can be made, before a rarity that is stuck; a
raw error leaves the handler exactly for want of a keypair, an account or a blockhash; and it has no end
exactly when it reaches a rarity that is stuck. -/
theorem uploadUris_outcomes (backend : UploadBackend) (programId : String) (dto : UploadUrisDto) :
    UploadOutcomes backend programId dto := by
  by_cases hasks : ∃ request, Asks backend programId dto request
  · obtain ⟨request, hasks⟩ := hasks
    exact uploadOutcomes_of_asks hasks
  · by_cases haddressed : Addressed backend programId dto
    · exact uploadOutcomes_of_not_asks haddressed (not_exists.mp hasks)
    · exact uploadOutcomes_of_not_addressed haddressed

end InglMonitor
