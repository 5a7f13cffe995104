import InglMonitor.ChainAccess
import Mathlib.Algebra.Order.Ring.Rat
import Mathlib.Tactic.NormNum
import Mathlib.Tactic.NormNum.Inv

/-! The request bodies of the program routes, and what is checked before a service sees them: the
decorators of each member, and the controller's own comparisons of members with one another. Numbers
are read as exact rationals. -/

open Borsh

namespace InglMonitor

structure Rarity where
  rarity : ℚ
  uris : List String
  deriving DecidableEq

structure UploadUrisDto where
  payerId : String
  rarities : List Rarity
  deriving DecidableEq

structure AccountMetaDto where
  pubkey : String
  isSigner : Bool
  isWritable : Bool
  deriving DecidableEq

structure RegisterValidatorDto extends UploadUrisDto where
  programId : String
  hasVoteAccount : Bool
  proposalQuorum : ℚ
  initCommission : ℚ
  maxPrimaryStake : ℚ
  initialRedemptionFee : ℚ
  isValidatorIdSwitchable : Bool
  unitBacking : ℚ
  redemptionFeeDuration : ℚ
  creatorRoyalties : ℚ
  validatorName : String
  collectionUri : String
  nftHoldersShare : ℚ
  website : String
  governanceExpirationTime : ℚ
  defaultUri : String
  twitterHandle : String
  discordInvite : String
  rarityNames : List String
  accounts : List AccountMetaDto
  lookupTableAddresses : List String
  deriving DecidableEq

namespace ClassValidator

/-- `@IsBase58`, the pattern `/^[A-HJ-NP-Za-km-z1-9]*$/`. -/
def isBase58 (s : String) : Bool := s.toList.all fun c =>
  'A' ≤ c && c ≤ 'H' || 'J' ≤ c && c ≤ 'N' || 'P' ≤ c && c ≤ 'Z' || 'a' ≤ c && c ≤ 'k' ||
    'm' ≤ c && c ≤ 'z' || '1' ≤ c && c ≤ '9'

/-- `@MaxLength`; surrogate pairs count once. -/
def maxLength (max : Nat) (s : String) : Bool := s.length ≤ max

/-- `@ArrayMinSize`. -/
def arrayMinSize {α : Type} (min : Nat) (xs : List α) : Bool := min ≤ xs.length

/-- `@Min`. -/
def min (bound num : ℚ) : Bool := bound ≤ num

/-- `@Max`. -/
def max (bound num : ℚ) : Bool := num ≤ bound

end ClassValidator

open ClassValidator (isBase58 maxLength arrayMinSize)

/-- The members of `UploadUrisDto` with the outcome of their decorators. -/
def UploadUrisDto.checks (dto : UploadUrisDto) : List (String × Bool) := [
  ("payer_id", isBase58 dto.payerId),
  ("rarities", arrayMinSize 1 dto.rarities && dto.rarities.all fun rarity => arrayMinSize 1 rarity.uris)]

/-- The members of `RegisterValidatorDto` with the outcome of their decorators; the test for a web
address is the validator library's. -/
def RegisterValidatorDto.checks (isUrl : String → Bool) (dto : RegisterValidatorDto) :
    List (String × Bool) := dto.toUploadUrisDto.checks ++ [
  ("program_id", isBase58 dto.programId),
  ("proposal_quorum", ClassValidator.min 65 dto.proposalQuorum &&
    ClassValidator.max 100 dto.proposalQuorum),
  ("init_commission", ClassValidator.min 0 dto.initCommission &&
    ClassValidator.max 100 dto.initCommission),
  ("max_primary_stake", ClassValidator.min (103 / 100) dto.maxPrimaryStake),
  ("initial_redemption_fee", ClassValidator.min 0 dto.initialRedemptionFee &&
    ClassValidator.max 25 dto.initialRedemptionFee),
  ("unit_backing", ClassValidator.min (103 / 100) dto.unitBacking),
  ("redemption_fee_duration", ClassValidator.min 0 dto.redemptionFeeDuration &&
    ClassValidator.max (2 * 365 * 24 * 3600) dto.redemptionFeeDuration),
  ("creator_royalties", ClassValidator.max 2 dto.creatorRoyalties &&
    ClassValidator.min 0 dto.creatorRoyalties),
  ("validator_name", maxLength 32 dto.validatorName),
  ("collection_uri", isUrl dto.collectionUri),
  ("nft_holders_share", ClassValidator.min 50 dto.nftHoldersShare &&
    ClassValidator.max 100 dto.nftHoldersShare),
  ("website", isUrl dto.website && maxLength 64 dto.website),
  ("governance_expiration_time",
    ClassValidator.max (1 * 365 * 24 * 3600) dto.governanceExpirationTime),
  ("default_uri", isUrl dto.defaultUri && maxLength 75 dto.defaultUri),
  ("twitter_handle", maxLength 32 dto.twitterHandle),
  ("discord_invite", isUrl dto.discordInvite && maxLength 32 dto.discordInvite),
  ("rarity_names", arrayMinSize 1 dto.rarityNames),
  ("accounts", arrayMinSize 1 dto.accounts),
  ("lookupTableAddresses", arrayMinSize 1 dto.lookupTableAddresses)]

/-- The properties that `validate` reports. -/
def invalidProperties (checks : List (String × Bool)) : List String :=
  (checks.filter fun check => !check.2).map Prod.fst

/-- The body passes the validation pipe. -/
def UploadUrisDto.Valid (dto : UploadUrisDto) : Prop := invalidProperties dto.checks = []

def RegisterValidatorDto.Valid (isUrl : String → Bool) (dto : RegisterValidatorDto) : Prop :=
  invalidProperties (dto.checks isUrl) = []

instance (dto : UploadUrisDto) : Decidable dto.Valid := inferInstanceAs (Decidable (_ = _))

instance (isUrl : String → Bool) (dto : RegisterValidatorDto) : Decidable (dto.Valid isUrl) :=
  inferInstanceAs (Decidable (_ = _))

namespace ProgramController

def badRequest (message : String) : Except HttpException Unit := .error ⟨message, .badRequest⟩

/-- `rarities.reduce((total, rarity) => total + rarity.rarity, 0)`. -/
def totalRarity (rarities : List Rarity) : ℚ :=
  rarities.foldl (fun total rarity => total + rarity.rarity) 0

/-- What `createRegisterValidatorTrans` checks before it calls the service. -/
def checkNewValidator (newValidator : RegisterValidatorDto) : Except HttpException Unit :=
  if !newValidator.isValidatorIdSwitchable && newValidator.initialRedemptionFee ≠ 0 then
    badRequest "Validator id must be switchable if there exists any redemption fee"
  else if newValidator.maxPrimaryStake < newValidator.unitBacking then
    badRequest "Max primary stake must be greater unit backing."
  else if newValidator.rarities.length ≠ newValidator.rarityNames.length then
    badRequest "Rarity names array length must be equal to rarities array length"
  else if totalRarity newValidator.rarities ≠ 10000 then
    badRequest "Rarities must sum to 10000"
  else .ok ()

end ProgramController

/-- The body reaches the service. -/
structure RegisterValidatorDto.Accepted (isUrl : String → Bool) (dto : RegisterValidatorDto) :
    Prop where
  valid : dto.Valid isUrl
  checked : ProgramController.checkNewValidator dto = .ok ()

/-! ### What an accepted body satisfies -/

theorem invalidProperties_eq_nil {checks : List (String × Bool)} :
    invalidProperties checks = [] ↔ ∀ check ∈ checks, check.2 = true := by
  simp [invalidProperties]

/-- The bounds that the decorators put on the numbers. -/
structure RegisterValidatorDto.Bounds (dto : RegisterValidatorDto) : Prop where
  proposalQuorum : 65 ≤ dto.proposalQuorum ∧ dto.proposalQuorum ≤ 100
  initCommission : 0 ≤ dto.initCommission ∧ dto.initCommission ≤ 100
  maxPrimaryStake : 103 / 100 ≤ dto.maxPrimaryStake
  initialRedemptionFee : 0 ≤ dto.initialRedemptionFee ∧ dto.initialRedemptionFee ≤ 25
  unitBacking : 103 / 100 ≤ dto.unitBacking
  redemptionFeeDuration : 0 ≤ dto.redemptionFeeDuration ∧ dto.redemptionFeeDuration ≤ 63072000
  creatorRoyalties : 0 ≤ dto.creatorRoyalties ∧ dto.creatorRoyalties ≤ 2
  nftHoldersShare : 50 ≤ dto.nftHoldersShare ∧ dto.nftHoldersShare ≤ 100
  governanceExpirationTime : dto.governanceExpirationTime ≤ 31536000

theorem RegisterValidatorDto.Valid.bounds {isUrl : String → Bool} {dto : RegisterValidatorDto}
    (h : dto.Valid isUrl) : dto.Bounds := by
  have hchecks := invalidProperties_eq_nil.mp h
  have hduration : (2 * 365 * 24 * 3600 : ℚ) = 63072000 := by norm_num
  have hgovernance : (1 * 365 * 24 * 3600 : ℚ) = 31536000 := by norm_num
  simp only [checks, List.forall_mem_append, List.forall_mem_cons, ClassValidator.min,
    ClassValidator.max, Bool.and_eq_true, decide_eq_true_eq, hduration, hgovernance] at hchecks
  obtain ⟨-, -, hquorum, hcommission, hstake, hfee, hbacking, hduration, hroyalties, -, -, hshare, -,
    hgovernance, -⟩ := hchecks
  exact ⟨hquorum, hcommission, hstake, hfee, hbacking, hduration, hroyalties.symm, hshare, hgovernance⟩

namespace ProgramController

theorem totalRarity_eq_sum (rarities : List Rarity) :
    totalRarity rarities = (rarities.map (·.rarity)).sum := by
  rw [totalRarity, List.sum_eq_foldl, List.foldl_map]

/-- What the four comparisons leave. -/
theorem checkNewValidator_eq_ok {dto : RegisterValidatorDto} (h : checkNewValidator dto = .ok ()) :
    (dto.isValidatorIdSwitchable = true ∨ dto.initialRedemptionFee = 0) ∧
      dto.unitBacking ≤ dto.maxPrimaryStake ∧ dto.rarities.length = dto.rarityNames.length ∧
      (dto.rarities.map (·.rarity)).sum = 10000 := by
  unfold checkNewValidator at h
  split at h
  · cases h
  · rename_i hswitchable
    split at h
    · cases h
    · rename_i hstake
      split at h
      · cases h
      · rename_i hlength
        split at h
        · cases h
        · rename_i htotal
          refine ⟨?_, not_lt.mp hstake, not_not.mp hlength, ?_⟩
          · simpa [or_iff_not_imp_left] using hswitchable
          · rw [← totalRarity_eq_sum]
            exact not_not.mp htotal

end ProgramController

/-- The web addresses of the request below. -/
def oneUrls : List String := ["https://arweave.net/collection", "https://ingl.io",
  "https://arweave.net/default", "https://discord.gg/ingl"]

/-- A registration with two rarities. -/
def oneValidator : RegisterValidatorDto where
  payerId := "9DvpyaJmpAag7spwD4VnjFyZmeoy8HZeXhwvNMKi64hh"
  rarities := [⟨9000, ["https://arweave.net/0"]⟩, ⟨1000, ["https://arweave.net/1"]⟩]
  programId := "38pfsot7kCZkrttx1THEDXEz4JJXmCCcaDoDieRtVuy5"
  hasVoteAccount := false
  proposalQuorum := 65
  initCommission := 10
  maxPrimaryStake := 100000
  initialRedemptionFee := 5
  isValidatorIdSwitchable := true
  unitBacking := 2
  redemptionFeeDuration := 604800
  creatorRoyalties := 2
  validatorName := "Ingl One"
  collectionUri := "https://arweave.net/collection"
  nftHoldersShare := 60
  website := "https://ingl.io"
  governanceExpirationTime := 7
  defaultUri := "https://arweave.net/default"
  twitterHandle := "@ingldao"
  discordInvite := "https://discord.gg/ingl"
  rarityNames := ["Common", "Rare"]
  accounts := [⟨"9DvpyaJmpAag7spwD4VnjFyZmeoy8HZeXhwvNMKi64hh", true, true⟩]
  lookupTableAddresses := ["Bao3icS7i84ntK4KF2DweeZuevsP9gccDfFCfgCoZQZy"]

theorem accepted_oneValidator : oneValidator.Accepted oneUrls.contains where
  valid := by decide +kernel
  checked := by decide +kernel

end InglMonitor
