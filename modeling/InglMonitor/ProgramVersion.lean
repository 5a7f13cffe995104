import InglMonitor.ChainAccess
import InglMonitor.DocumentStore
import Mathlib.Data.Rat.Defs

/-! Registered program versions. `create` stores a fingerprint of a buffer account; `verify` computes
one from an account and looks it up. The two hash functions are library functions, given as
parameters. -/

open Borsh DocumentStore

namespace InglMonitor

def bpfLoaderUpgradeableId : PublicKey := ⟨"BPFLoaderUpgradeab1e11111111111111111111111"⟩

inductive VersionStatus where
  | deprecated | unsafeToUse | safe
  deriving DecidableEq

/-- The text an enum member stands for. -/
def VersionStatus.text : VersionStatus → String
  | deprecated => "Deprecated"
  | unsafeToUse => "Unsafe"
  | safe => "Safe"

structure ProgramVersion where
  programDataHash : String
  version : ℚ
  status : VersionStatus
  usage : ProgramUsage
  deriving DecidableEq

def programVersionSchema : Schema ProgramVersion where
  path
    | "program_data_hash" => some fun v => .str v.programDataHash
    | "status" => some fun v => .str v.status.text
    | "usage" => some fun v => .str v.usage.text
    | _ => none

structure CreateProgramVersionDto where
  programId : String
  version : ℚ
  status : VersionStatus
  usage : ProgramUsage

inductive BpfType where
  | buffer | program
  deriving DecidableEq

structure ProgramVersionQueryDto where
  usage : ProgramUsage
  programId : String
  bpfType : BpfType

structure Hashing where
  /-- `bcrypt.hashSync(data, rounds)`, with the salt it draws. -/
  hashSync : (data : Bytes) → (rounds : Nat) → (salt : String) → String
  /-- `createHash('sha256').update(data).digest('hex')`. -/
  sha256Hex : Bytes → String

variable (web3 : Web3) (connection : Connection) (hashing : Hashing)

/-! ### The service -/

/-- `data.slice(offset)`. -/
def slice (offset : Nat) (data : Bytes) : Bytes := data.drop offset

namespace ProgramVersionService

/-- The fields `findOne` filters on are both paths of the schema. -/
def findOne (versions : List ProgramVersion) (programDataHash : String) (usage : ProgramUsage) :
    Option ProgramVersion :=
  DocumentStore.findOne (programVersionSchema.matching true
    [("program_data_hash", .str programDataHash), ("usage", .str usage.text)]) versions

/-- The versions after the call; an error carries its message. -/
def create (rounds : Nat) (salt : String) (versions : List ProgramVersion)
    (dto : CreateProgramVersionDto) : Except String (List ProgramVersion) := do
  let key ← (tryPublicKey web3 dto.programId).mapError (·.message)
  match ← connection.getAccountInfo key with
  | none => throw "Cannot read properties of null (reading 'data')"
  | some programData =>
      let programDataHash := hashing.hashSync (slice 37 programData.data) rounds salt
      return versions ++ [{
        usage := dto.usage, status := dto.status, version := dto.version, programDataHash }]

/-- The bytes that `verify` hashes. -/
def hashedBytes : BpfType → Bytes → Bytes
  | .buffer, data => slice 37 data
  | .program, data => slice 44 data

/-- Everything inside the `try` block. A buffer is never falsy, so the early return is not taken. -/
def lookup (versions : List ProgramVersion) (query : ProgramVersionQueryDto) :
    Except String (Option ProgramVersion) := do
  let key ← (tryPublicKey web3 query.programId).mapError (·.message)
  let programDataAddress ← match query.bpfType with
    | .program => web3.findProgramAddressSync [web3.toBuffer key] bpfLoaderUpgradeableId
    | .buffer => pure key
  match ← connection.getAccountInfo programDataAddress with
  | none => throw "Cannot read properties of null (reading 'data')"
  | some bufferAccountInfo =>
      let dataHash := hashing.sha256Hex (hashedBytes query.bpfType bufferAccountInfo.data)
      return findOne versions dataHash query.usage

def verify (versions : List ProgramVersion) (query : ProgramVersionQueryDto) :
    Except HttpException (Option ProgramVersion) :=
  (lookup web3 connection hashing versions query).mapError fun message =>
    ⟨"Sorry, something went wrong. " ++ message, .internalServerError⟩

theorem findOne_eq_some {versions : List ProgramVersion} {hash : String} {usage : ProgramUsage}
    {v : ProgramVersion} (h : findOne versions hash usage = some v) :
    v ∈ versions ∧ v.programDataHash = hash ∧ v.usage = usage := by
  refine ⟨List.mem_of_find?_eq_some h, ?_⟩
  have hmatch := List.find?_some h
  simp only [Schema.matching, programVersionSchema, List.all_cons, List.all_nil, Bool.and_true,
    Bool.and_eq_true, decide_eq_true_eq, Scalar.str.injEq] at hmatch
  exact ⟨hmatch.1, ProgramUsage.text_injective hmatch.2⟩

/-- A stored version of that hash and usage makes the lookup succeed. -/
theorem findOne_isSome {versions : List ProgramVersion} {v : ProgramVersion} (hv : v ∈ versions) :
    ∃ w, findOne versions v.programDataHash v.usage = some w := by
  refine Option.isSome_iff_exists.mp (List.find?_isSome.mpr ⟨v, hv, ?_⟩)
  simp [Schema.matching, programVersionSchema]

variable {web3 connection hashing}

/-- Where the address and the account are found, `verify` looks up the SHA-256 of the account's
bytes. -/
theorem verify_eq {versions : List ProgramVersion} {query : ProgramVersionQueryDto}
    {key address : PublicKey} {info : AccountInfo} (hkey : web3.publicKey query.programId = .ok key)
    (haddress : query.bpfType = .program →
      web3.findProgramAddressSync [web3.toBuffer key] bpfLoaderUpgradeableId = .ok address)
    (hbuffer : query.bpfType = .buffer → address = key)
    (hinfo : connection.getAccountInfo address = .ok (some info)) :
    verify web3 connection hashing versions query =
      .ok (findOne versions (hashing.sha256Hex (hashedBytes query.bpfType info.data)) query.usage) := by
  obtain ⟨usage, programId, bpfType⟩ := query
  simp only at hkey haddress hbuffer
  cases bpfType with
  | buffer =>
      rw [hbuffer rfl] at hinfo
      simp only [verify, lookup, tryPublicKey, hkey, Except.mapError]
      simp only [bind, Except.bind, pure, Except.pure, hinfo]
  | program =>
      simp only [verify, lookup, tryPublicKey, hkey, Except.mapError]
      simp only [bind, Except.bind, haddress rfl, hinfo, pure, Except.pure]

end ProgramVersionService

end InglMonitor
