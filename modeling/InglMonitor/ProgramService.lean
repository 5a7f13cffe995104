import InglMonitor.ChainAccess
import InglMonitor.DocumentStore

/-! The list of deployed programs: `findProgram` hands out the first unused program that is not
initialized yet, `useProgramId` is to take a program off the list. -/

open Borsh DocumentStore

namespace InglMonitor

def registryProgramId : PublicKey := ⟨"38pfsot7kCZkrttx1THEDXEz4JJXmCCcaDoDieRtVuy5"⟩

def marketplaceStorageSeed : String := "marketplace_storage"

def inglConfigSeed : String := "ingl_config"

structure Program where
  programId : String
  usage : ProgramUsage
  isUsed : Bool
  deriving DecidableEq

def programSchema : Schema Program where
  path
    | "program_id" => some fun p => .str p.programId
    | "usage" => some fun p => .str p.usage.text
    | "is_used" => some fun p => .bool p.isUsed
    | _ => none

/-- What a `catch` block receives. -/
inductive Thrown where
  | error (message : String)
  | http (exception : HttpException)

def Thrown.message : Thrown → String
  | error message => message
  | http exception => exception.message

namespace ProgramService

/-- A query, with the answer of the database: its documents, or an error. -/
def findPrograms (strictQuery : Bool) (database : Except String (List Program)) (filter : Filter) :
    Except String (List Program) :=
  database.map (find (programSchema.matching strictQuery filter))

section FindProgram

variable (web3 : Web3) (connection : Connection)

/-- The address whose account tells that a program is initialized. -/
def programConfigKey (usage : ProgramUsage) (program : Program) : Except String PublicKey :=
  match usage with
  | .marketplace => web3.findProgramAddressSync [utf8 marketplaceStorageSeed] registryProgramId
  | .permissionlessValidator => do
      let programId ← web3.publicKey program.programId
      web3.findProgramAddressSync [utf8 inglConfigSeed] programId

/-- The loop over the executable programs, and the error behind it. -/
def firstUninitialized (usage : ProgramUsage) : List Program → Except Thrown Program
  | [] => throw (.http ⟨"Sorry !!! No deployed program was found. " ++
      "For more information contact us on our discord channel.", .notFound⟩)
  | program :: programs => do
      let programConfigkey ← (programConfigKey web3 usage program).mapError .error
      match ← (connection.getAccountInfo programConfigkey).mapError .error with
      | none => return program
      | some _ => firstUninitialized usage programs

/-- Everything inside the `try` block. All addresses are parsed before the first lookup fails. -/
def lookup (strictQuery : Bool) (database : Except String (List Program)) (usage : ProgramUsage) :
    Except Thrown Program := do
  let programs ← (findPrograms strictQuery database
    [("is_used", .bool false), ("usage", .str usage.text)]).mapError .error
  let keys ← (programs.mapM fun program => web3.publicKey program.programId).mapError .error
  let programAccounts ← (keys.mapM connection.getAccountInfo).mapError .error
  let executablePrograms := (programAccounts.zip programs).filter fun (account, _) =>
    account.any (·.executable)
  firstUninitialized web3 connection usage (executablePrograms.map (·.2))

/-- Every error leaves with its message and the same status. -/
def findProgram (strictQuery : Bool) (database : Except String (List Program)) (usage : ProgramUsage) :
    Except HttpException Program :=
  (lookup web3 connection strictQuery database usage).mapError fun thrown =>
    ⟨thrown.message, .internalServerError⟩

end FindProgram

/-- The filter names a path `program`. -/
def useProgramId (strictQuery : Bool) (programs : List Program) (programId : String) : List Program :=
  updateOne (programSchema.matching strictQuery [("program", .str programId)])
    (fun program => { program with isUsed := true }) programs

variable {web3 : Web3} {connection : Connection}

theorem mem_of_firstUninitialized {usage : ProgramUsage} {programs : List Program} {program : Program}
    (h : firstUninitialized web3 connection usage programs = .ok program) : program ∈ programs := by
  induction programs with
  | nil => cases h
  | cons candidate programs ih =>
      obtain ⟨key, -, h⟩ := bind_eq_ok.mp h
      obtain ⟨account, -, h⟩ := bind_eq_ok.mp h
      cases account with
      | none => cases h; exact List.mem_cons_self
      | some info => exact List.mem_cons_of_mem _ (ih h)

/-- A returned program is on the list, unused, and of the usage asked for. -/
theorem findProgram_eq_ok {strictQuery : Bool} {programs : List Program} {usage : ProgramUsage}
    {program : Program}
    (h : findProgram web3 connection strictQuery (.ok programs) usage = .ok program) :
    program ∈ programs ∧ program.isUsed = false ∧ program.usage = usage := by
  rw [findProgram, mapError_eq_ok] at h
  obtain ⟨found, hfound, h⟩ := bind_eq_ok.mp h
  obtain ⟨keys, -, h⟩ := bind_eq_ok.mp h
  obtain ⟨accounts, -, h⟩ := bind_eq_ok.mp h
  obtain ⟨⟨account, program'⟩, hmem, rfl⟩ := List.mem_map.mp (mem_of_firstUninitialized h)
  cases mapError_eq_ok.mp hfound
  have hfind := (List.of_mem_zip (List.mem_filter.mp hmem).1).2
  obtain ⟨hlisted, hmatching⟩ := List.mem_filter.mp hfind
  simp only [Schema.matching, programSchema, List.all_cons, List.all_nil, Bool.and_true,
    Bool.and_eq_true, decide_eq_true_eq, Scalar.bool.injEq, Scalar.str.injEq] at hmatching
  exact ⟨hlisted, hmatching.1, ProgramUsage.text_injective hmatching.2⟩

/-! ### What `useProgramId` changes -/

/-- The path is dropped, or it matches nothing. -/
theorem matching_program (strictQuery : Bool) (programId : String) (program : Program) :
    programSchema.matching strictQuery [("program", .str programId)] program = strictQuery := by
  simp [Schema.matching, programSchema]

theorem useProgramId_false (programs : List Program) (programId : String) :
    useProgramId false programs programId = programs :=
  updateOne_of_not_matching fun program _ => matching_program false programId program

theorem useProgramId_true (program : Program) (programs : List Program) (programId : String) :
    useProgramId true (program :: programs) programId =
      { program with isUsed := true } :: programs := by
  rw [useProgramId, updateOne, if_pos (matching_program true programId program)]

end ProgramService

end InglMonitor
