import InglMonitor.ProgramService
import Mathlib.Data.List.Find

/-! Which program `findProgram` hands out, and what its errors say. Accounts are fetched for all unused
programs at once, and paired with their programs by position; then the executable ones are tried one
after the other. -/

open Borsh DocumentStore

namespace InglMonitor

namespace ProgramService

variable (web3 : Web3) (connection : Connection)

/-- The account of the program itself. -/
def programAccount (program : Program) : Except String (Option AccountInfo) := do
  let programId ← web3.publicKey program.programId
  connection.getAccountInfo programId

/-- The account that the loop looks at. -/
def configAccount (usage : ProgramUsage) (program : Program) : Except String (Option AccountInfo) := do
  let programConfigkey ← programConfigKey web3 usage program
  connection.getAccountInfo programConfigkey

/-- The unused programs of a usage, in database order. -/
def unusedPrograms (programs : List Program) (usage : ProgramUsage) : List Program :=
  programs.filter fun program => !program.isUsed && program.usage = usage

def isExecutable (program : Program) : Bool :=
  match programAccount web3 connection program with
  | .ok account => account.any (·.executable)
  | .error _ => false

/-- The programs that the loop tries. -/
def candidates (programs : List Program) (usage : ProgramUsage) : List Program :=
  (unusedPrograms programs usage).filter (isExecutable web3 connection)

variable {web3 connection}

theorem findPrograms_unused (strictQuery : Bool) (programs : List Program) (usage : ProgramUsage) :
    findPrograms strictQuery (.ok programs) [("is_used", .bool false), ("usage", .str usage.text)] =
      .ok (unusedPrograms programs usage) := by
  have hmatching : programSchema.matching strictQuery
      [("is_used", .bool false), ("usage", .str usage.text)] =
        fun program => !program.isUsed && decide (program.usage = usage) := by
    funext program
    simp [Schema.matching, programSchema, ProgramUsage.text_injective.eq_iff]
  simp only [findPrograms, Except.map, find, hmatching, unusedPrograms]

/-- The parallel fetch keeps each account with its program. -/
theorem fetch_programs {programs : List Program}
    (h : ∀ program ∈ programs, ∃ account, programAccount web3 connection program = .ok account) :
    ∃ keys accounts, programs.mapM (fun program => web3.publicKey program.programId) = .ok keys ∧
      keys.mapM connection.getAccountInfo = .ok accounts ∧
      ((accounts.zip programs).filter fun (account, _) => account.any (·.executable)).map (·.2) =
        programs.filter (isExecutable web3 connection) := by
  induction programs with
  | nil => exact ⟨[], [], rfl, rfl, rfl⟩
  | cons program programs ih =>
      obtain ⟨account, haccount⟩ := h program List.mem_cons_self
      obtain ⟨key, hkey, hinfo⟩ := bind_eq_ok.mp haccount
      obtain ⟨keys, accounts, hkeys, haccounts, hfilter⟩ :=
        ih fun program hmem => h program (List.mem_cons_of_mem _ hmem)
      refine ⟨key :: keys, account :: accounts, ?_, ?_, ?_⟩
      · rw [List.mapM_cons, hkey, hkeys]
        rfl
      · rw [List.mapM_cons, hinfo, haccounts]
        rfl
      · rw [List.zip_cons_cons, List.filter_cons, List.filter_cons]
        simp only [isExecutable, haccount]
        split
        · rw [List.map_cons, hfilter]
        · exact hfilter

theorem lookup_eq {strictQuery : Bool} {programs : List Program} {usage : ProgramUsage}
    (h : ∀ program ∈ unusedPrograms programs usage,
      ∃ account, programAccount web3 connection program = .ok account) :
    lookup web3 connection strictQuery (.ok programs) usage =
      firstUninitialized web3 connection usage (candidates web3 connection programs usage) := by
  obtain ⟨keys, accounts, hkeys, haccounts, hfilter⟩ := fetch_programs h
  simp only [lookup, findPrograms_unused, Except.mapError, bind, Except.bind, hkeys, haccounts,
    hfilter, candidates]

/-- The candidate is initialized already. -/
def Rejected (web3 : Web3) (connection : Connection) (usage : ProgramUsage) (program : Program) : Prop :=
  ∃ info, configAccount web3 connection usage program = .ok (some info)

theorem firstUninitialized_cons (usage : ProgramUsage) (program : Program) (programs : List Program) :
    firstUninitialized web3 connection usage (program :: programs) =
      match configAccount web3 connection usage program with
      | .error message => .error (.error message)
      | .ok none => .ok program
      | .ok (some _) => firstUninitialized web3 connection usage programs := by
  rw [firstUninitialized, configAccount]
  cases programConfigKey web3 usage program with
  | error message => rfl
  | ok key =>
      simp only [bind, Except.bind, Except.mapError]
      cases connection.getAccountInfo key with
      | error message => rfl
      | ok account => cases account <;> rfl

/-- **The loop.** It rejects candidates up to one that is not initialized, or one whose lookup fails, or
the end. -/
theorem firstUninitialized_cases (usage : ProgramUsage) (programs : List Program) :
    (∀ program ∈ programs, Rejected web3 connection usage program) ∧
      (∃ exception, firstUninitialized web3 connection usage programs = .error (.http exception)) ∨
    ∃ earlier program later, programs = earlier ++ program :: later ∧
      (∀ program ∈ earlier, Rejected web3 connection usage program) ∧
      (configAccount web3 connection usage program = .ok none ∧
          firstUninitialized web3 connection usage programs = .ok program ∨
        ∃ message, configAccount web3 connection usage program = .error message ∧
          firstUninitialized web3 connection usage programs = .error (.error message)) := by
  induction programs with
  | nil => exact .inl ⟨List.forall_mem_nil _, _, rfl⟩
  | cons program programs ih =>
      rw [firstUninitialized_cons]
      cases hconfig : configAccount web3 connection usage program with
      | error message =>
          exact .inr ⟨[], program, programs, rfl, List.forall_mem_nil _, .inr ⟨message, hconfig, rfl⟩⟩
      | ok account =>
          cases account with
          | none =>
              exact .inr ⟨[], program, programs, rfl, List.forall_mem_nil _, .inl ⟨hconfig, rfl⟩⟩
          | some info =>
              have hrejected : Rejected web3 connection usage program := ⟨info, hconfig⟩
              rcases ih with ⟨hall, hthrow⟩ | ⟨earlier, found, later, rfl, hearlier, hfound⟩
              · exact .inl ⟨List.forall_mem_cons.mpr ⟨hrejected, hall⟩, hthrow⟩
              · exact .inr ⟨program :: earlier, found, later, rfl,
                  List.forall_mem_cons.mpr ⟨hrejected, hearlier⟩, hfound⟩

/-- The connection while every lookup succeeds. -/
def liveConnection (chain : PublicKey → Option AccountInfo) : Connection where
  getAccountInfo key := .ok (chain key)

section Selection

variable (web3 : Web3) (chain : PublicKey → Option AccountInfo) (programs : List Program)
  (usage : ProgramUsage)

/-- The seed of the account that initialization creates. -/
def initializationSeed : ProgramUsage → String
  | .marketplace => marketplaceStorageSeed
  | .permissionlessValidator => inglConfigSeed

/-- The address of that account, derived from the program's own id. -/
def initializationKey (program : Program) : Except String PublicKey := do
  let programId ← web3.publicKey program.programId
  web3.findProgramAddressSync [utf8 (initializationSeed usage)] programId

def isInitialized (program : Program) : Bool :=
  ((initializationKey web3 usage program).toOption.bind chain).isSome

/-- Unused, of the usage, deployed, executable and not initialized. -/
def isAvailable (program : Program) : Bool :=
  !program.isUsed && program.usage = usage && isExecutable web3 (liveConnection chain) program &&
    !isInitialized web3 chain usage program

/-- `findProgram` returns the first available program in database order, and nothing else. -/
def SelectsFirst (strictQuery : Bool) : Prop :=
  ∀ program, findProgram web3 (liveConnection chain) strictQuery (.ok programs) usage = .ok program ↔
    programs.find? (isAvailable web3 chain usage) = some program

/-- No address fails to parse, no derivation fails. -/
structure LookupsSucceed : Prop where
  addresses : ∀ program ∈ unusedPrograms programs usage, ∃ key, web3.publicKey program.programId = .ok key
  derivations : ∀ program ∈ unusedPrograms programs usage,
    ∃ key, programConfigKey web3 usage program = .ok key

/-- The one storage account of the registry tells about marketplaces what their own accounts would: while
it does not exist the first candidate is not initialized, and once it does they all are. -/
def StorageTells : Prop :=
  ∀ storage, web3.findProgramAddressSync [utf8 marketplaceStorageSeed] registryProgramId = .ok storage →
    (chain storage = none → ∀ first ∈ (candidates web3 (liveConnection chain) programs usage).head?,
      isInitialized web3 chain usage first = false) ∧
    (∀ info, chain storage = some info → ∀ program ∈ candidates web3 (liveConnection chain) programs usage,
      isInitialized web3 chain usage program = true)

variable {web3 chain programs usage}

/-- Whether the loop stops at a candidate. -/
def isFree (web3 : Web3) (chain : PublicKey → Option AccountInfo) (usage : ProgramUsage)
    (program : Program) : Bool :=
  match configAccount web3 (liveConnection chain) usage program with
  | .ok none => true
  | _ => false

theorem findProgram_eq_ok_iff (h : LookupsSucceed web3 programs usage) {strictQuery : Bool}
    {program : Program} :
    findProgram web3 (liveConnection chain) strictQuery (.ok programs) usage = .ok program ↔
      (candidates web3 (liveConnection chain) programs usage).find? (isFree web3 chain usage) =
        some program := by
  have haccounts : ∀ program ∈ unusedPrograms programs usage,
      ∃ account, programAccount web3 (liveConnection chain) program = .ok account := by
    intro program hmem
    obtain ⟨key, hkey⟩ := h.addresses program hmem
    exact ⟨chain key, bind_eq_ok.mpr ⟨key, hkey, rfl⟩⟩
  have hrejected {program : Program}
      (hprogram : Rejected web3 (liveConnection chain) usage program) :
      isFree web3 chain usage program = false := by
    obtain ⟨info, hinfo⟩ := hprogram
    rw [isFree, hinfo]
  rw [findProgram, mapError_eq_ok, lookup_eq haccounts]
  rcases firstUninitialized_cases usage (candidates web3 (liveConnection chain) programs usage) with
    ⟨hall, exception, hthrow⟩ | ⟨earlier, found, later, hsplit, hearlier, hfound⟩
  · rw [hthrow, List.find?_eq_none.mpr fun program hmem => by simp [hrejected (hall program hmem)]]
    simp
  · rcases hfound with ⟨hnone, hreturn⟩ | ⟨message, herror, -⟩
    · have hfree : isFree web3 chain usage found = true := by rw [isFree, hnone]
      have hfirst : earlier.find? (isFree web3 chain usage) = none :=
        List.find?_eq_none.mpr fun program hmem => by simp [hrejected (hearlier program hmem)]
      rw [hreturn, hsplit, List.find?_append, hfirst, Option.none_or, List.find?_cons_of_pos hfree,
        Except.ok.injEq, Option.some.injEq]
    · have hmem : found ∈ candidates web3 (liveConnection chain) programs usage := by simp [hsplit]
      obtain ⟨key, hkey⟩ := h.derivations found (List.mem_filter.mp hmem).1
      rw [configAccount, hkey] at herror
      cases herror

/-- The available programs are the candidates that are not initialized. -/
theorem find?_isAvailable :
    programs.find? (isAvailable web3 chain usage) =
      (candidates web3 (liveConnection chain) programs usage).find?
        fun program => !isInitialized web3 chain usage program := by
  rw [candidates, unusedPrograms, List.find?_filter, List.find?_filter]
  congr 1
  funext program
  simp [isAvailable, Bool.and_assoc]

theorem mem_unusedPrograms_of_candidate {connection : Connection} {program : Program}
    (hmem : program ∈ candidates web3 connection programs usage) : program ∈ unusedPrograms programs usage :=
  (List.mem_filter.mp hmem).1

theorem isFree_eq {program : Program} {key : PublicKey}
    (hkey : programConfigKey web3 usage program = .ok key) :
    isFree web3 chain usage program = (chain key).isNone := by
  have hconfig : configAccount web3 (liveConnection chain) usage program = .ok (chain key) :=
    bind_eq_ok.mpr ⟨key, hkey, rfl⟩
  rw [isFree, hconfig]
  cases chain key <;> rfl

/-- The loop looks at a permissionless validator's own account. -/
theorem isFree_permissionlessValidator (h : LookupsSucceed web3 programs .permissionlessValidator)
    {program : Program}
    (hmem : program ∈ candidates web3 (liveConnection chain) programs .permissionlessValidator) :
    isFree web3 chain .permissionlessValidator program =
      !isInitialized web3 chain .permissionlessValidator program := by
  obtain ⟨key, hkey⟩ := h.derivations program (mem_unusedPrograms_of_candidate hmem)
  have hown : initializationKey web3 .permissionlessValidator program = .ok key := hkey
  rw [isFree_eq hkey, isInitialized, hown, Except.toOption, Option.bind_some, Option.not_isSome]

theorem storageTells_cons_iff {storage : PublicKey} {first : Program} {rest : List Program}
    (hstorage : web3.findProgramAddressSync [utf8 marketplaceStorageSeed] registryProgramId = .ok storage)
    (hcandidates : candidates web3 (liveConnection chain) programs usage = first :: rest) :
    StorageTells web3 chain programs usage ↔
      (chain storage = none → isInitialized web3 chain usage first = false) ∧
      (∀ info, chain storage = some info → ∀ program ∈ first :: rest,
        isInitialized web3 chain usage program = true) := by
  constructor
  · intro htells
    have htells := htells storage hstorage
    rw [hcandidates] at htells
    exact ⟨fun hnone => htells.1 hnone first rfl, htells.2⟩
  · intro htells storage' hstorage'
    cases hstorage.symm.trans hstorage'
    rw [hcandidates]
    refine ⟨fun hnone first' hfirst' => ?_, htells.2⟩
    cases hfirst'
    exact htells.1 hnone

/-- A test that has one answer for all finds the first element or none. -/
theorem find?_const_eq_iff {α : Type} {answer : Bool} {test : α → Bool} {first : α} {rest : List α} :
    (first :: rest).find? (fun _ => answer) = (first :: rest).find? test ↔
      (answer = true → test first = true) ∧ (answer = false → ∀ x ∈ first :: rest, test x = false) := by
  cases answer with
  | true =>
      rw [List.find?_cons_of_pos rfl]
      constructor
      · intro h
        exact ⟨fun _ => List.find?_some h.symm, nofun⟩
      · intro h
        rw [List.find?_cons_of_pos (h.1 rfl)]
  | false =>
      rw [List.find?_eq_none.mpr (by simp), eq_comm, List.find?_eq_none]
      simp

/-- **Selection.** A permissionless validator is always selected exactly; a marketplace is as long as the
registry's storage account tells about all of them. -/
theorem selectsFirst_iff (h : LookupsSucceed web3 programs usage) (strictQuery : Bool) :
    SelectsFirst web3 chain programs usage strictQuery ↔
      (usage = .marketplace → StorageTells web3 chain programs usage) := by
  simp only [SelectsFirst, findProgram_eq_ok_iff h, find?_isAvailable]
  rw [← Option.ext_iff]
  cases usage with
  | permissionlessValidator =>
      refine iff_of_true (List.find?_congr fun program hmem => isFree_permissionlessValidator h hmem) ?_
      intro husage
      cases husage
  | marketplace =>
      rw [imp_iff_right rfl]
      cases hcandidates : candidates web3 (liveConnection chain) programs .marketplace with
      | nil => exact iff_of_true rfl fun storage _ => by simp [hcandidates]
      | cons first rest =>
          have hfirst : first ∈ candidates web3 (liveConnection chain) programs .marketplace := by
            rw [hcandidates]
            exact List.mem_cons_self
          -- all candidates derive the same address
          obtain ⟨storage, hstorage⟩ := h.derivations first (mem_unusedPrograms_of_candidate hfirst)
          have hfree : isFree web3 chain .marketplace = fun _ => (chain storage).isNone := by
            funext program
            exact isFree_eq hstorage
          rw [storageTells_cons_iff hstorage hcandidates, hfree, find?_const_eq_iff]
          cases chain storage <;> simp

end Selection

-- A marketplace that is deployed but not initialized, while the registry stores another one.

def marketplaceProgram : Program where
  programId := "9DvpyaJmpAag7spwD4VnjFyZmeoy8HZeXhwvNMKi64hh"
  usage := .marketplace
  isUsed := false

/-- The two addresses that `marketplace_storage` leads to. -/
def storageWeb3 : Web3 where
  publicKey address := .ok ⟨address⟩
  toBuffer _ := []
  findProgramAddressSync seeds programId :=
    if seeds = [utf8 marketplaceStorageSeed] then
      if programId = registryProgramId then .ok ⟨"42DtmtktXHvFbAhqSUoNZKAELVMRy7HbRoYUFKVgj7kb"⟩
      else .ok ⟨"GBJysh3i31NMJWLN7iKBoyBqbXTHEhB3omEmj7ozcHzx"⟩
    else .error "Unable to find a viable program address nonce"

/-- The deployed program, and the storage account of the registry. -/
def storageChain (key : PublicKey) : Option AccountInfo :=
  if key = ⟨marketplaceProgram.programId⟩ then
    some ⟨⟨"BPFLoaderUpgradeab1e11111111111111111111111"⟩, true, []⟩
  else if key = ⟨"42DtmtktXHvFbAhqSUoNZKAELVMRy7HbRoYUFKVgj7kb"⟩ then
    some ⟨registryProgramId, false, [229, 171, 202, 19, 0, 0, 0, 0]⟩
  else none

theorem storage_lookupsSucceed : LookupsSucceed storageWeb3 [marketplaceProgram] .marketplace where
  addresses _ _ := ⟨_, rfl⟩
  derivations _ _ := ⟨_, rfl⟩

theorem storage_selectsFirst_iff :
    SelectsFirst storageWeb3 storageChain [marketplaceProgram] .marketplace true ↔
      (ProgramUsage.marketplace = .marketplace →
        StorageTells storageWeb3 storageChain [marketplaceProgram] .marketplace) :=
  selectsFirst_iff storage_lookupsSucceed true

/-- The program is available, and no program is returned. -/
theorem storage_not_selectsFirst :
    LookupsSucceed storageWeb3 [marketplaceProgram] .marketplace ∧
      ¬SelectsFirst storageWeb3 storageChain [marketplaceProgram] .marketplace true := by
  refine ⟨storage_lookupsSucceed, fun hselects => ?_⟩
  have havailable : [marketplaceProgram].find? (isAvailable storageWeb3 storageChain .marketplace) =
      some marketplaceProgram := by decide
  have hcandidate : (candidates storageWeb3 (liveConnection storageChain) [marketplaceProgram]
      .marketplace).find? (isFree storageWeb3 storageChain .marketplace) = none := by decide
  have hfound := (findProgram_eq_ok_iff storage_lookupsSucceed).mp ((hselects _).mpr havailable)
  rw [hcandidate] at hfound
  cases hfound

/-! ### What the errors say -/

section Errors

variable (web3 : Web3) (connection : Connection) (database : Except String (List Program))
  (usage : ProgramUsage)

/-- Every lookup succeeds, and every candidate is initialized already. -/
def AllRejected : Prop :=
  ∃ programs, database = .ok programs ∧
    (∀ program ∈ unusedPrograms programs usage,
      ∃ account, programAccount web3 connection program = .ok account) ∧
    ∀ program ∈ candidates web3 connection programs usage, Rejected web3 connection usage program

/-- The query fails, or the address or the account of some unused program, or what the loop looks up for
a candidate after it has rejected the earlier ones. -/
def LookupFails : Prop :=
  (∃ message, database = .error message) ∨
  ∃ programs, database = .ok programs ∧
    ((∃ program ∈ unusedPrograms programs usage,
        ∃ message, programAccount web3 connection program = .error message) ∨
      ∃ earlier program later, candidates web3 connection programs usage = earlier ++ program :: later ∧
        (∀ program ∈ earlier, Rejected web3 connection usage program) ∧
        ∃ message, configAccount web3 connection usage program = .error message)

/-- An error is `NOT_FOUND` when there is nothing to find, and `INTERNAL_SERVER_ERROR` when a lookup
failed. -/
def DistinguishesFailures (strictQuery : Bool) : Prop :=
  ∀ exception, findProgram web3 connection strictQuery database usage = .error exception →
    (exception.status = .notFound ↔ AllRejected web3 connection database usage) ∧
    (exception.status = .internalServerError ↔ LookupFails web3 connection database usage)

variable {web3 connection database usage}

/-- The catch block gives every error the same status. -/
theorem status_of_findProgram {strictQuery : Bool} {exception : HttpException}
    (h : findProgram web3 connection strictQuery database usage = .error exception) :
    exception.status = .internalServerError := by
  rw [findProgram] at h
  cases hlookup : lookup web3 connection strictQuery database usage with
  | ok program => rw [hlookup] at h; cases h
  | error thrown => rw [hlookup] at h; cases h; rfl

/-- Without a failed lookup, the loop is reached; and without an error from it, some candidate is not
rejected. -/
theorem lookupFails_or_allRejected {strictQuery : Bool} {exception : HttpException}
    (h : findProgram web3 connection strictQuery database usage = .error exception) :
    LookupFails web3 connection database usage ∨ AllRejected web3 connection database usage := by
  cases database with
  | error message => exact .inl (.inl ⟨message, rfl⟩)
  | ok programs =>
      by_cases haccounts : ∀ program ∈ unusedPrograms programs usage,
          ∃ account, programAccount web3 connection program = .ok account
      · rcases firstUninitialized_cases usage (candidates web3 connection programs usage) with
          ⟨hall, -⟩ | ⟨earlier, program, later, hsplit, hearlier, hfound⟩
        · exact .inr ⟨programs, rfl, haccounts, hall⟩
        · rcases hfound with ⟨-, hreturn⟩ | ⟨message, herror, -⟩
          · rw [findProgram, lookup_eq haccounts, hreturn] at h
            cases h
          · exact .inl (.inr ⟨programs, rfl, .inr ⟨earlier, program, later, hsplit, hearlier, message,
              herror⟩⟩)
      · simp only [not_forall, not_exists, exists_prop] at haccounts
        obtain ⟨program, hmem, hnone⟩ := haccounts
        cases haccount : programAccount web3 connection program with
        | ok account => exact absurd haccount (hnone account)
        | error message => exact .inl (.inr ⟨programs, rfl, .inl ⟨program, hmem, message, haccount⟩⟩)

/-- The not-found error is thrown inside the `try` block. -/
theorem findProgram_of_allRejected (h : AllRejected web3 connection database usage) (strictQuery : Bool) :
    ∃ exception, findProgram web3 connection strictQuery database usage = .error exception := by
  obtain ⟨programs, rfl, haccounts, hall⟩ := h
  rw [findProgram, lookup_eq haccounts]
  rcases firstUninitialized_cases usage (candidates web3 connection programs usage) with
    ⟨-, exception, hthrow⟩ | ⟨earlier, program, later, hsplit, -, hfound⟩
  · exact ⟨_, by rw [hthrow]; rfl⟩
  · obtain ⟨info, hinfo⟩ := hall program (by simp [hsplit])
    rcases hfound with ⟨hnone, -⟩ | ⟨message, herror, -⟩
    · cases hinfo.symm.trans hnone
    · cases hinfo.symm.trans herror

/-- **Errors.** They say what happened exactly when it was not that every candidate is rejected. -/
theorem distinguishesFailures_iff (web3 : Web3) (connection : Connection)
    (database : Except String (List Program)) (usage : ProgramUsage) (strictQuery : Bool) :
    DistinguishesFailures web3 connection database usage strictQuery ↔
      ¬AllRejected web3 connection database usage := by
  constructor
  · intro hdistinguishes hall
    obtain ⟨exception, herror⟩ := findProgram_of_allRejected hall strictQuery
    have hnotFound := (hdistinguishes exception herror).1.mpr hall
    rw [status_of_findProgram herror] at hnotFound
    cases hnotFound
  · intro hsome exception herror
    have hfails := (lookupFails_or_allRejected herror).resolve_right hsome
    rw [status_of_findProgram herror]
    exact ⟨iff_of_false (by simp) hsome, iff_of_true rfl hfails⟩

end Errors

/-- No program is listed: nothing failed, and the status says that something did. -/
theorem empty_not_distinguishesFailures :
    ¬DistinguishesFailures storageWeb3 (liveConnection storageChain) (.ok []) .permissionlessValidator
      true := by
  intro hdistinguishes
  have hall : AllRejected storageWeb3 (liveConnection storageChain) (.ok []) .permissionlessValidator :=
    ⟨[], rfl, List.forall_mem_nil _, List.forall_mem_nil _⟩
  have hstatus := (hdistinguishes _ rfl).1.mpr hall
  cases hstatus

end ProgramService

end InglMonitor
