import InglMonitor.ProgramVersion

/-! What `verify` hashes, and whether it finds what `create` stored. The loader keeps the program
behind a header: a 4-byte enum tag and an optional key for a buffer, with an 8-byte slot between them
for a program's data. The header of a program is one byte longer than the offset `verify` skips; and
`create` and `verify` hash the same bytes with different functions. -/

open Borsh DocumentStore

namespace InglMonitor

/-- An optional key, its 32 bytes reserved also when it is absent. -/
structure OptionalKey where
  present : Bool
  space : Bytes
  space_length : space.length = 32

namespace OptionalKey

def bytes (key : OptionalKey) : Bytes := (if key.present then 1 else 0) :: key.space

theorem space_ne_nil (key : OptionalKey) : key.space ≠ [] := by
  intro h
  have := key.space_length
  rw [h] at this
  cases this

end OptionalKey

/-- `UpgradeableLoaderState::Buffer`, then the program. -/
def bufferAccount (authority : OptionalKey) (program : Bytes) : Bytes :=
  leBytes 4 1 ++ authority.bytes ++ program

/-- `UpgradeableLoaderState::ProgramData`, then the program. -/
def programDataAccount (slot : UInt64) (upgradeAuthority : OptionalKey) (program : Bytes) : Bytes :=
  leBytes 4 3 ++ leBytes 8 slot.toNat ++ upgradeAuthority.bytes ++ program

/-- bcrypt writes the modular crypt format, whose fields are set off by `$`; the hex digest has none.
-/
structure Hashing.Formats (hashing : Hashing) : Prop where
  hashSync_dollar : ∀ data rounds salt, '$' ∈ (hashing.hashSync data rounds salt).toList
  sha256Hex_hex : ∀ data, ∀ c ∈ (hashing.sha256Hex data).toList, c ∈ "0123456789abcdef".toList

namespace ProgramVersionService

/-- Both bpf types hash exactly the program. -/
def SeesOnlyProgram (authority : OptionalKey) (slot : UInt64) (upgradeAuthority : OptionalKey)
    (program : Bytes) : Prop :=
  hashedBytes .buffer (bufferAccount authority program) =
      hashedBytes .program (programDataAccount slot upgradeAuthority program) ∧
    hashedBytes .program (programDataAccount slot upgradeAuthority program) = program

/-- The last byte of the header is hashed too. -/
theorem hashedBytes_programDataAccount (slot : UInt64) (upgradeAuthority : OptionalKey)
    (program : Bytes) :
    hashedBytes .program (programDataAccount slot upgradeAuthority program) =
      upgradeAuthority.space.getLast upgradeAuthority.space_ne_nil :: program := by
  have hsplit : programDataAccount slot upgradeAuthority program =
      (leBytes 4 3 ++ leBytes 8 slot.toNat ++
        (if upgradeAuthority.present then 1 else 0) :: upgradeAuthority.space.dropLast) ++
        (upgradeAuthority.space.getLast upgradeAuthority.space_ne_nil :: program) := by
    conv_lhs => rw [programDataAccount, OptionalKey.bytes,
      ← List.dropLast_append_getLast upgradeAuthority.space_ne_nil]
    simp
  rw [hsplit]
  exact List.drop_left' (by simp [upgradeAuthority.space_length])

/-- A program's data is never hashed as the program alone. -/
theorem not_seesOnlyProgram (authority : OptionalKey) (slot : UInt64)
    (upgradeAuthority : OptionalKey) (program : Bytes) :
    ¬SeesOnlyProgram authority slot upgradeAuthority program := by
  rintro ⟨-, h⟩
  rw [hashedBytes_programDataAccount] at h
  have hlength := congrArg List.length h
  simp at hlength

/-- A key of one repeated byte. -/
def repeatedKey (b : UInt8) : OptionalKey := ⟨true, List.replicate 32 b, rfl⟩

/-- The four bytes that start an ELF file, deployed in slot 180000000 under an authority that ends in
byte 7. -/
theorem elf_not_seesOnlyProgram :
    hashedBytes .program (programDataAccount 180000000 (repeatedKey 7) [0x7f, 0x45, 0x4c, 0x46]) =
        [7, 0x7f, 0x45, 0x4c, 0x46] ∧
      ¬SeesOnlyProgram (repeatedKey 1) 180000000 (repeatedKey 7) [0x7f, 0x45, 0x4c, 0x46] := by
  unfold SeesOnlyProgram
  decide

/-! ### Registering, then verifying -/

variable {web3 : Web3} {connection : Connection} {hashing : Hashing}

/-- The hash was written for the program in a buffer account. -/
def WrittenFor (hashing : Hashing) (data : Bytes) (programDataHash : String) : Prop :=
  programDataHash = hashing.sha256Hex (hashedBytes .buffer data) ∨
    ∃ rounds salt, programDataHash = hashing.hashSync (hashedBytes .buffer data) rounds salt

/-- The call found a stored version whose hash was written for `data`. -/
def FindsWritten (hashing : Hashing) (data : Bytes) (versions : List ProgramVersion)
    (found : Except HttpException (Option ProgramVersion)) : Prop :=
  ∃ v ∈ versions, found = .ok (some v) ∧ WrittenFor hashing data v.programDataHash

theorem hashSync_ne_sha256Hex (hformats : hashing.Formats) (data data' : Bytes) (rounds : Nat)
    (salt : String) : hashing.hashSync data rounds salt ≠ hashing.sha256Hex data' := by
  intro h
  have hdollar := hformats.hashSync_dollar data rounds salt
  rw [h] at hdollar
  have hhex := hformats.sha256Hex_hex data' _ hdollar
  simp at hhex

theorem create_eq {dto : CreateProgramVersionDto} {key : PublicKey} {info : AccountInfo}
    (hkey : web3.publicKey dto.programId = .ok key)
    (hinfo : connection.getAccountInfo key = .ok (some info)) (rounds : Nat) (salt : String)
    (versions : List ProgramVersion) :
    create web3 connection hashing rounds salt versions dto =
      .ok (versions ++ [{
        usage := dto.usage, status := dto.status, version := dto.version
        programDataHash := hashing.hashSync (hashedBytes .buffer info.data) rounds salt }]) := by
  simp only [create, tryPublicKey, hkey, Except.mapError]
  simp only [bind, Except.bind, hinfo, pure, Except.pure]
  rfl

/-- What `verify` finds after `create` was stored before. -/
theorem verify_found_of_create (hformats : hashing.Formats) {dto : CreateProgramVersionDto}
    {key : PublicKey} {info : AccountInfo} (hkey : web3.publicKey dto.programId = .ok key)
    (hinfo : connection.getAccountInfo key = .ok (some info)) {rounds : Nat} {salt : String}
    {versions versions' : List ProgramVersion}
    (hcreate : create web3 connection hashing rounds salt versions dto = .ok versions')
    {v : ProgramVersion}
    (hfound : verify web3 connection hashing versions' ⟨dto.usage, dto.programId, .buffer⟩ =
      .ok (some v)) :
    v ∈ versions ∧ v.programDataHash = hashing.sha256Hex (hashedBytes .buffer info.data) ∧
      v.usage = dto.usage := by
  rw [create_eq hkey hinfo] at hcreate
  cases hcreate
  rw [verify_eq hkey (fun h => absurd h (by simp)) (fun _ => rfl) hinfo] at hfound
  obtain ⟨hmem, hhash, husage⟩ := findOne_eq_some (Except.ok.inj hfound)
  rcases List.mem_append.mp hmem with hmem | hmem
  · exact ⟨hmem, hhash, husage⟩
  · rw [List.mem_singleton.mp hmem] at hhash
    exact absurd hhash (hashSync_ne_sha256Hex hformats _ _ _ _)

/-- **Registering, then verifying.** The version just created is not found: the call succeeds exactly
when an earlier version of that usage holds the hex digest of the same bytes. -/
theorem create_then_verify_iff (hformats : hashing.Formats) {dto : CreateProgramVersionDto}
    {key : PublicKey} {info : AccountInfo} (hkey : web3.publicKey dto.programId = .ok key)
    (hinfo : connection.getAccountInfo key = .ok (some info)) (rounds : Nat) (salt : String)
    (versions : List ProgramVersion) :
    ∃ versions', create web3 connection hashing rounds salt versions dto = .ok versions' ∧
      (FindsWritten hashing info.data versions'
          (verify web3 connection hashing versions' ⟨dto.usage, dto.programId, .buffer⟩) ↔
        ∃ v ∈ versions, v.programDataHash = hashing.sha256Hex (hashedBytes .buffer info.data) ∧
          v.usage = dto.usage) := by
  have hcreate : create web3 connection hashing rounds salt versions dto = _ :=
    create_eq hkey hinfo rounds salt versions
  refine ⟨_, hcreate, ?_⟩
  constructor
  · rintro ⟨v, -, hfound, -⟩
    exact ⟨v, verify_found_of_create hformats hkey hinfo hcreate hfound⟩
  · rintro ⟨v, hmem, hhash, husage⟩
    obtain ⟨w, hfound⟩ := findOne_isSome (List.mem_append_left _ hmem)
    rw [hhash, husage] at hfound
    rw [verify_eq hkey (fun h => absurd h (by simp)) (fun _ => rfl) hinfo]
    exact ⟨w, (findOne_eq_some hfound).1, congrArg Except.ok hfound,
      .inl (findOne_eq_some hfound).2.1⟩

-- The ELF magic in a buffer, registered while no version is stored.

def elfWeb3 : Web3 where
  publicKey address := .ok ⟨address⟩
  toBuffer _ := []
  findProgramAddressSync _ _ := .error "Unable to find a viable program address nonce"

/-- A single account, owned by the loader. -/
def elfConnection : Connection where
  getAccountInfo _ := .ok (some
    ⟨bpfLoaderUpgradeableId, false, bufferAccount (repeatedKey 1) [0x7f, 0x45, 0x4c, 0x46]⟩)

def elfHashing : Hashing where
  hashSync _ _ _ := "$2b$14$DCq7YPn5Rq63x1Lad4cll.KCGW6Q7oO4WcZ2cgZSf1Xi3J6GgQnSe"
  sha256Hex _ := "3bdbb4fe8397cd2b842430b39ccff01a8663c751945ef5e9a09e267fb8b1d359"

def elfDto : CreateProgramVersionDto where
  programId := "8LhMAxHFRkSMnSm8TPH6MRuNZPGrqQbxQsgVQM5pyVaG"
  version := 1
  status := .safe
  usage := .marketplace

theorem elfHashing_formats : elfHashing.Formats where
  hashSync_dollar _ _ _ := by
    show '$' ∈ "$2b$14$DCq7YPn5Rq63x1Lad4cll.KCGW6Q7oO4WcZ2cgZSf1Xi3J6GgQnSe".toList
    decide
  sha256Hex_hex _ := by simp [elfHashing]

theorem elf_publicKey : elfWeb3.publicKey elfDto.programId = .ok ⟨elfDto.programId⟩ := rfl

theorem elf_getAccountInfo (key : PublicKey) : elfConnection.getAccountInfo key = .ok (some
    ⟨bpfLoaderUpgradeableId, false, bufferAccount (repeatedKey 1) [0x7f, 0x45, 0x4c, 0x46]⟩) := rfl

theorem elf_create_then_verify_iff :
    ∃ versions', create elfWeb3 elfConnection elfHashing 14 "$2b$14$DCq7YPn5Rq63x1Lad4cll." []
        elfDto = .ok versions' ∧
      (FindsWritten elfHashing (bufferAccount (repeatedKey 1) [0x7f, 0x45, 0x4c, 0x46]) versions'
          (verify elfWeb3 elfConnection elfHashing versions'
            ⟨.marketplace, elfDto.programId, .buffer⟩) ↔
        ∃ v ∈ ([] : List ProgramVersion), v.programDataHash = elfHashing.sha256Hex
          (hashedBytes .buffer (bufferAccount (repeatedKey 1) [0x7f, 0x45, 0x4c, 0x46])) ∧
          v.usage = .marketplace) :=
  create_then_verify_iff elfHashing_formats elf_publicKey (elf_getAccountInfo _) 14 _ []

/-- `create` succeeds and `verify` answers null. -/
theorem elf_created_not_found :
    ¬∃ versions', create elfWeb3 elfConnection elfHashing 14 "$2b$14$DCq7YPn5Rq63x1Lad4cll." []
        elfDto = .ok versions' ∧
      FindsWritten elfHashing (bufferAccount (repeatedKey 1) [0x7f, 0x45, 0x4c, 0x46]) versions'
        (verify elfWeb3 elfConnection elfHashing versions'
          ⟨.marketplace, elfDto.programId, .buffer⟩) := by
  rintro ⟨versions', hcreate, v, -, hfound, -⟩
  exact nomatch (verify_found_of_create elfHashing_formats elf_publicKey (elf_getAccountInfo _) hcreate
    hfound).1

end ProgramVersionService

end InglMonitor
