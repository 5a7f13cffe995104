import InglMonitor.DoubleRounding
import InglMonitor.ProgramDto
import InglMonitor.StateInstructionFormat

/-! The instruction that registers a validator. The service takes the request apart with rest patterns,
scales four numbers, and puts everything together again in the argument of an `Init` or a
`FractionalizedExisting`. -/

open Borsh Borsh.FieldType

namespace InglMonitor

/-- A number of an integer type, exactly: one with a fraction is none, and counts as not set. The library cuts
the fraction off instead; what it puts into a member is `written`. -/
def number (q : ℚ) : Value := if q.den = 1 then .num q.num else .undefined

/-- A number as `serialize` puts it into a member of so many bytes: one that is out of range is refused, and
from any other the fraction is cut off. -/
def written (width : Nat) (q : ℚ) : Value := if 0 ≤ q ∧ q ≤ 256 ^ width - 1 then .num ⌊q⌋ else .undefined

/-- How numbers are multiplied, and what becomes of a number in a member of so many bytes. -/
structure Arithmetic where
  times : ℚ → ℚ → ℚ
  member : Nat → ℚ → Value

/-- Without rounding and without cutting off. -/
def Arithmetic.exact : Arithmetic where
  times := fun x y => x * y
  member := fun _ => number

/-- As JavaScript and the library do it. -/
def Arithmetic.double : Arithmetic where
  times := fun x y => Double.round (x * y)
  member := written

/-- `new BN(number)`: the fraction is cut off, and a number of `2 ** 53` or more fails an assertion. -/
def BN.new (q : ℚ) : Except String Int :=
  if |q| < 2 ^ 53 then .ok (q.num.tdiv q.den) else .error "Assertion failed"

def lamportsPerSol : ℚ := 1000000000

/-- What `JSON.parse` makes of the numbers of a body. -/
def RegisterValidatorDto.parsed (dto : RegisterValidatorDto) : RegisterValidatorDto :=
  { dto with
    rarities := dto.rarities.map fun rarity => { rarity with rarity := Double.round rarity.rarity }
    proposalQuorum := Double.round dto.proposalQuorum
    initCommission := Double.round dto.initCommission
    maxPrimaryStake := Double.round dto.maxPrimaryStake
    initialRedemptionFee := Double.round dto.initialRedemptionFee
    unitBacking := Double.round dto.unitBacking
    redemptionFeeDuration := Double.round dto.redemptionFeeDuration
    creatorRoyalties := Double.round dto.creatorRoyalties
    nftHoldersShare := Double.round dto.nftHoldersShare
    governanceExpirationTime := Double.round dto.governanceExpirationTime }

section Model

variable (arithmetic : Arithmetic)

def Rarity.toValue (rarity : Rarity) : Value :=
  .object [("rarity", arithmetic.member 2 rarity.rarity), ("uris", .array (rarity.uris.map .str))]

def AccountMetaDto.toValue (account : AccountMetaDto) : Value :=
  .object [("pubkey", .str account.pubkey), ("isSigner", .bool account.isSigner),
    ("isWritable", .bool account.isWritable)]

/-- The request as an object, each number for the member of its name. -/
def RegisterValidatorDto.toObject (dto : RegisterValidatorDto) : Object := [
  ("payer_id", .str dto.payerId),
  ("rarities", .array (dto.rarities.map (Rarity.toValue arithmetic))),
  ("program_id", .str dto.programId),
  ("has_vote_account", .bool dto.hasVoteAccount),
  ("proposal_quorum", arithmetic.member 1 dto.proposalQuorum),
  ("init_commission", arithmetic.member 1 dto.initCommission),
  ("max_primary_stake", arithmetic.member 8 dto.maxPrimaryStake),
  ("initial_redemption_fee", arithmetic.member 1 dto.initialRedemptionFee),
  ("is_validator_id_switchable", .bool dto.isValidatorIdSwitchable),
  ("unit_backing", arithmetic.member 8 dto.unitBacking),
  ("redemption_fee_duration", arithmetic.member 4 dto.redemptionFeeDuration),
  ("creator_royalties", arithmetic.member 2 dto.creatorRoyalties),
  ("validator_name", .str dto.validatorName),
  ("collection_uri", .str dto.collectionUri),
  ("nft_holders_share", arithmetic.member 1 dto.nftHoldersShare),
  ("website", .str dto.website),
  ("governance_expiration_time", arithmetic.member 4 dto.governanceExpirationTime),
  ("default_uri", .str dto.defaultUri),
  ("twitter_handle", .str dto.twitterHandle),
  ("discord_invite", .str dto.discordInvite),
  ("rarity_names", .array (dto.rarityNames.map .str)),
  ("accounts", .array (dto.accounts.map AccountMetaDto.toValue)),
  ("lookupTableAddresses", .array (dto.lookupTableAddresses.map .str))]

/-- The rest of a destructuring pattern that names some properties. -/
def restOf (names : List String) (o : Object) : Object := o.filter fun p => p.1 ∉ names

namespace RegisterValidatorDto

/-- `...newValidator`, in the parameter pattern. -/
def newValidator (dto : RegisterValidatorDto) : Object :=
  restOf ["payer_id", "program_id", "has_vote_account", "accounts", "lookupTableAddresses"]
    (dto.toObject arithmetic)

/-- `...registratioData`. -/
def registratioData (dto : RegisterValidatorDto) : Object :=
  restOf ["unit_backing", "max_primary_stake", "governance_expiration_time", "creator_royalties",
    "rarities"] (dto.newValidator arithmetic)

/-- `rarities.map((_) => _.rarity)`. -/
def rarityWeights (dto : RegisterValidatorDto) : Value :=
  .array (dto.rarities.map fun rarity => arithmetic.member 2 rarity.rarity)

/-- The argument of the constructor; a property that is listed later wins. -/
def initArgs (dto : RegisterValidatorDto) (unitBacking maxPrimaryStake : Int) : Object :=
  let spread := (Object.set [] "log_level" (.num 0)).assign (dto.registratioData arithmetic)
  ((((spread.set "rarities" (dto.rarityWeights arithmetic)).set
    "creator_royalties" (arithmetic.member 2 (arithmetic.times dto.creatorRoyalties 100))).set
    "unit_backing" (.num unitBacking)).set
    "max_primary_stake" (.num maxPrimaryStake)).set
    "governance_expiration_time"
      (arithmetic.member 4 (arithmetic.times dto.governanceExpirationTime (24 * 3600)))

/-- The class that is instantiated. -/
def initClass (dto : RegisterValidatorDto) : InstructionClass :=
  if dto.hasVoteAccount then .fractionalizedExisting else .init

def initProgramPayload (dto : RegisterValidatorDto) : Except String Object := do
  let unitBacking ← BN.new (arithmetic.times dto.unitBacking lamportsPerSol)
  let maxPrimaryStake ← BN.new (arithmetic.times dto.maxPrimaryStake lamportsPerSol)
  return dto.initClass.new (dto.initArgs arithmetic unitBacking maxPrimaryStake)

/-- `Buffer.from(serialize(initProgramPayload))`, with the message of the library for what it refuses. -/
def initProgramData (outOfRange : String) (dto : RegisterValidatorDto) : Except String Bytes := do
  let payload ← dto.initProgramPayload .double
  match encode (struct dto.initClass.fields) (.object payload) with
  | some data => return data
  | none => throw outOfRange

end RegisterValidatorDto

end Model

def IsWhole (q : ℚ) : Prop := ∃ n : ℤ, q = n

/-- An integer in the range of a member with that many bytes. -/
def InWire (width : Nat) (q : ℚ) : Prop := ∃ n : ℤ, q = n ∧ 0 ≤ n ∧ n < 256 ^ width

theorem inWire_iff {width : Nat} {q : ℚ} : InWire width q ↔ IsWhole q ∧ 0 ≤ q ∧ q < 256 ^ width := by
  constructor
  · rintro ⟨n, rfl, hn, hlt⟩
    exact ⟨⟨n, rfl⟩, by exact_mod_cast hn, by exact_mod_cast hlt⟩
  · rintro ⟨⟨n, rfl⟩, hn, hlt⟩
    exact ⟨n, rfl, by exact_mod_cast hn, by exact_mod_cast hlt⟩

@[simp] theorem number_intCast (n : ℤ) : number n = .num n := by
  rw [number, Rat.den_intCast, if_pos rfl, Rat.num_intCast]

theorem number_eq_num_iff {q : ℚ} {n : ℤ} : number q = .num n ↔ q = n := by
  constructor
  · intro h
    unfold number at h
    split at h
    · rename_i hden
      cases h
      exact (Rat.den_eq_one_iff q).mp hden |>.symm
    · cases h
  · rintro rfl
    exact number_intCast n

theorem hasType_number_iff {width : Nat} {q : ℚ} : HasType (.uint width) (number q) ↔ InWire width q := by
  constructor
  · intro h
    cases hnumber : number q with
    | num n =>
        rw [hnumber] at h
        exact ⟨n, number_eq_num_iff.mp hnumber, h⟩
    | _ =>
        rw [hnumber] at h
        exact h.elim
  · rintro ⟨n, rfl, h⟩
    rw [number_intCast]
    exact h

/-- What is written of a number is in range, and only what is in range is written. -/
theorem hasType_written_iff {width : Nat} {q : ℚ} :
    HasType (.uint width) (written width q) ↔ 0 ≤ q ∧ q ≤ 256 ^ width - 1 := by
  by_cases hq : 0 ≤ q ∧ q ≤ 256 ^ width - 1
  · have hlt : (⌊q⌋ : ℚ) < ((256 ^ width : ℤ) : ℚ) := by
      push_cast
      calc (⌊q⌋ : ℚ) ≤ q := Int.floor_le q
        _ ≤ 256 ^ width - 1 := hq.2
        _ < 256 ^ width := sub_one_lt _
    rw [written, if_pos hq]
    exact iff_of_true ⟨Int.floor_nonneg.mpr hq.1, Int.cast_lt.mp hlt⟩ hq
  · rw [written, if_neg hq]
    exact iff_of_false id hq

theorem written_intCast {width : Nat} {n : ℤ} (h : 0 ≤ n ∧ n < 256 ^ width) :
    written width n = .num n := by
  have hle : (n : ℚ) ≤ 256 ^ width - 1 := by
    have hcast : (n : ℚ) ≤ ((256 ^ width - 1 : ℤ) : ℚ) := Int.cast_le.mpr (by omega)
    push_cast at hcast
    exact hcast
  rw [written, if_pos ⟨Int.cast_nonneg h.1, hle⟩, Int.floor_intCast]

namespace BN

theorem lt_of_new_eq_ok {q : ℚ} {n : ℤ} (h : BN.new q = .ok n) : q < 2 ^ 53 := by
  unfold BN.new at h
  split at h
  · exact lt_of_abs_lt ‹_›
  · cases h

/-- Of an amount, the whole lamports. -/
theorem new_eq_ok_iff {q : ℚ} (hq : 0 ≤ q) {n : ℤ} : BN.new q = .ok n ↔ q < 2 ^ 53 ∧ n = ⌊q⌋ := by
  have hnew (hlt : q < 2 ^ 53) : BN.new q = .ok ⌊q⌋ := by
    have habs : |q| < 2 ^ 53 := by rwa [abs_of_nonneg hq]
    rw [BN.new, if_pos habs, Int.tdiv_eq_ediv_of_nonneg (Rat.num_nonneg.mpr hq), Rat.floor_def']
  constructor
  · intro h
    have hlt := lt_of_new_eq_ok h
    exact ⟨hlt, (Except.ok.inj ((hnew hlt).symm.trans h)).symm⟩
  · rintro ⟨hlt, rfl⟩
    exact hnew hlt

end BN

end InglMonitor
