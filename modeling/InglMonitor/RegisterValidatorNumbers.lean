import InglMonitor.RegisterValidator
import Mathlib.Algebra.Order.BigOperators.Group.List
import Mathlib.Algebra.BigOperators.Ring.Finset
import Mathlib.Data.Set.List
import Mathlib.Tactic.Linarith

/-! What of a registration request reaches the instruction. The bounds of the request, the scaling of
the service and the widths of the layout are three lists of numbers that were written apart, and they
do not agree: integrality is never checked, a time bounded in seconds is taken as days, and amounts
pass through numbers of 53 bits. -/

open Borsh Borsh.FieldType

namespace InglMonitor

namespace RegisterValidatorDto

/-- What is submitted for each member of the layout behind the tag, in wire order. -/
def parameters (arithmetic : Arithmetic) (dto : RegisterValidatorDto)
    (unitBacking maxPrimaryStake : Value) : Object := [
  ("log_level", .num 0),
  ("init_commission", arithmetic.member 1 dto.initCommission),
  ("max_primary_stake", maxPrimaryStake),
  ("nft_holders_share", arithmetic.member 1 dto.nftHoldersShare),
  ("initial_redemption_fee", arithmetic.member 1 dto.initialRedemptionFee),
  ("is_validator_id_switchable", .bool dto.isValidatorIdSwitchable),
  ("unit_backing", unitBacking),
  ("redemption_fee_duration", arithmetic.member 4 dto.redemptionFeeDuration),
  ("proposal_quorum", arithmetic.member 1 dto.proposalQuorum),
  ("creator_royalties", arithmetic.member 2 (arithmetic.times dto.creatorRoyalties 100)),
  ("governance_expiration_time",
    arithmetic.member 4 (arithmetic.times dto.governanceExpirationTime (24 * 3600))),
  ("rarities", dto.rarityWeights arithmetic),
  ("rarity_names", .array (dto.rarityNames.map .str)),
  ("twitter_handle", .str dto.twitterHandle),
  ("discord_invite", .str dto.discordInvite),
  ("validator_name", .str dto.validatorName),
  ("collection_uri", .str dto.collectionUri),
  ("website", .str dto.website),
  ("default_uri", .str dto.defaultUri)]

/-- The layout behind the tag. -/
def parameterFields : Fields := ("log_level", u8) :: Init.ownFields

section Members

variable (arithmetic : Arithmetic) (dto : RegisterValidatorDto) (unitBacking maxPrimaryStake : Int)

theorem initArgs_eq : dto.initArgs arithmetic unitBacking maxPrimaryStake = [
    ("governance_expiration_time",
      arithmetic.member 4 (arithmetic.times dto.governanceExpirationTime (24 * 3600))),
    ("max_primary_stake", .num maxPrimaryStake),
    ("unit_backing", .num unitBacking),
    ("creator_royalties", arithmetic.member 2 (arithmetic.times dto.creatorRoyalties 100)),
    ("rarities", dto.rarityWeights arithmetic),
    ("proposal_quorum", arithmetic.member 1 dto.proposalQuorum),
    ("init_commission", arithmetic.member 1 dto.initCommission),
    ("initial_redemption_fee", arithmetic.member 1 dto.initialRedemptionFee),
    ("is_validator_id_switchable", .bool dto.isValidatorIdSwitchable),
    ("redemption_fee_duration", arithmetic.member 4 dto.redemptionFeeDuration),
    ("validator_name", .str dto.validatorName),
    ("collection_uri", .str dto.collectionUri),
    ("nft_holders_share", arithmetic.member 1 dto.nftHoldersShare),
    ("website", .str dto.website),
    ("default_uri", .str dto.defaultUri),
    ("twitter_handle", .str dto.twitterHandle),
    ("discord_invite", .str dto.discordInvite),
    ("rarity_names", .array (dto.rarityNames.map .str)),
    ("log_level", .num 0)] := rfl

theorem noTag_initArgs :
    "instruction" ∉ (dto.initArgs arithmetic unitBacking maxPrimaryStake).map Prod.fst := by
  rw [initArgs_eq]
  simp only [List.map_cons, List.map_nil, List.mem_cons, String.reduceEq, List.not_mem_nil, or_self,
    not_false_eq_true]

theorem get_parameters : ∀ f ∈ parameterFields,
    (dto.initArgs arithmetic unitBacking maxPrimaryStake).get f.1 =
      (dto.parameters arithmetic (.num unitBacking) (.num maxPrimaryStake)).get f.1 := by
  simp only [initArgs_eq, parameters, parameterFields, Init.ownFields, List.forall_mem_cons,
    Object.get_cons, String.reduceEq, if_true, if_false, List.not_mem_nil, false_imp_iff, implies_true,
    and_self]

theorem fields_initClass : dto.initClass.fields = ("instruction", u8) :: parameterFields := by
  unfold initClass
  cases dto.hasVoteAccount with
  | true => rfl
  | false => rfl

/-- **No member is missing.** Rest patterns, spreads and constructors together set every member of the
layout to what was submitted for it. -/
theorem get_payload : ∀ f ∈ ("instruction", u8) :: parameterFields,
    (dto.initClass.new (dto.initArgs arithmetic unitBacking maxPrimaryStake)).get f.1 =
      Object.get (("instruction", .num dto.initClass.tag.toNat) ::
        dto.parameters arithmetic (.num unitBacking) (.num maxPrimaryStake)) f.1 := by
  obtain ⟨htag, hset⟩ := dto.initClass.get_new (dto.noTag_initArgs arithmetic unitBacking maxPrimaryStake)
  intro f hf
  rw [Object.get_cons]
  by_cases hname : f.1 = "instruction"
  · rw [if_pos hname, hname, htag]
  · have hmem : f ∈ parameterFields := (List.mem_cons.mp hf).resolve_left fun h => hname (h ▸ rfl)
    rw [if_neg hname, hset f (by rwa [fields_initClass]) hname, dto.get_parameters arithmetic _ _ f hmem]

end Members

/-- The numeric members of the layout. -/
def numericFields : Fields :=
  (("instruction", u8) :: parameterFields).filter fun f =>
    match f.2 with
    | .uint _ => true
    | _ => false

/-- With exact products, every numeric member of the payload is an integer in the range of its member, and
building the amounts raises no error. -/
def NumbersEncodable (dto : RegisterValidatorDto) : Prop :=
  ∃ payload, dto.initProgramPayload .exact = .ok payload ∧ HasMembers numericFields payload

/-- What a body must satisfy beyond the checks: whole numbers, a time that is not negative and that
in seconds fits a `u32`, and a stake of less than `2 ** 53` lamports. -/
structure FitsWire (dto : RegisterValidatorDto) : Prop where
  proposalQuorum : IsWhole dto.proposalQuorum
  initCommission : IsWhole dto.initCommission
  initialRedemptionFee : IsWhole dto.initialRedemptionFee
  redemptionFeeDuration : IsWhole dto.redemptionFeeDuration
  nftHoldersShare : IsWhole dto.nftHoldersShare
  creatorRoyalties : IsWhole (dto.creatorRoyalties * 100)
  governanceExpirationTime : IsWhole (dto.governanceExpirationTime * 86400) ∧
    0 ≤ dto.governanceExpirationTime ∧ dto.governanceExpirationTime * 86400 < 2 ^ 32
  maxPrimaryStake : dto.maxPrimaryStake * 1000000000 < 2 ^ 53

variable {dto : RegisterValidatorDto}

theorem initProgramPayload_eq_ok {arithmetic : Arithmetic} {payload : Object} :
    dto.initProgramPayload arithmetic = .ok payload ↔ ∃ unitBacking maxPrimaryStake,
      BN.new (arithmetic.times dto.unitBacking lamportsPerSol) = .ok unitBacking ∧
      BN.new (arithmetic.times dto.maxPrimaryStake lamportsPerSol) = .ok maxPrimaryStake ∧
      dto.initClass.new (dto.initArgs arithmetic unitBacking maxPrimaryStake) = payload := by
  constructor
  · intro h
    obtain ⟨unitBacking, hunit, h⟩ := bind_eq_ok.mp h
    obtain ⟨maxPrimaryStake, hmax, h⟩ := bind_eq_ok.mp h
    cases h
    exact ⟨_, _, hunit, hmax, rfl⟩
  · rintro ⟨unitBacking, maxPrimaryStake, hunit, hmax, rfl⟩
    exact bind_eq_ok.mpr ⟨_, hunit, bind_eq_ok.mpr ⟨_, hmax, rfl⟩⟩

theorem hasMembers_numericFields_iff (unitBacking maxPrimaryStake : Int) :
    HasMembers numericFields (dto.initClass.new (dto.initArgs .exact unitBacking maxPrimaryStake)) ↔
      InWire 1 dto.initCommission ∧ HasType u64 (.num maxPrimaryStake) ∧
      InWire 1 dto.nftHoldersShare ∧ InWire 1 dto.initialRedemptionFee ∧
      HasType u64 (.num unitBacking) ∧ InWire 4 dto.redemptionFeeDuration ∧
      InWire 1 dto.proposalQuorum ∧ InWire 2 (dto.creatorRoyalties * 100) ∧
      InWire 4 (dto.governanceExpirationTime * (24 * 3600)) := by
  have htag : HasType u8 (.num dto.initClass.tag.toNat) := dto.initClass.hasType_tag
  have hlevel : HasType u8 (.num 0) := by simp [HasType]
  have hget :
      HasMembers numericFields (dto.initClass.new (dto.initArgs .exact unitBacking maxPrimaryStake)) ↔
        HasMembers numericFields (("instruction", .num dto.initClass.tag.toNat) ::
          dto.parameters .exact (.num unitBacking) (.num maxPrimaryStake)) := by
    refine forall₂_congr fun f hf => ?_
    rw [get_payload _ _ _ _ f (List.mem_of_mem_filter hf)]
  rw [hget]
  simp only [HasMembers, numericFields, parameterFields, Init.ownFields, List.filter_cons, if_true,
    Bool.false_eq_true, if_false, List.filter_nil, List.forall_mem_cons, parameters, Object.get_cons,
    String.reduceEq, Arithmetic.exact, hasType_number_iff, htag, hlevel, List.not_mem_nil, false_imp_iff,
    implies_true, and_true, true_and]

theorem secondsPerDay (days : ℚ) : days * (24 * 3600) = days * 86400 := by
  norm_num

/-- A whole number within the bounds of the request is in range of its member. -/
theorem inWire_of_isWhole {width : Nat} {q max : ℚ} (hwhole : IsWhole q) (hbounds : 0 ≤ q ∧ q ≤ max)
    (hmax : max < 256 ^ width) : InWire width q :=
  inWire_iff.mpr ⟨hwhole, hbounds.1, hbounds.2.trans_lt hmax⟩

/-- An amount below `2 ** 53` lamports fits its member. -/
theorem hasType_amount {q : ℚ} (hq : 0 ≤ q) (hlt : q < 2 ^ 53) : HasType u64 (.num ⌊q⌋) := by
  have hfloor : ⌊q⌋ < 2 ^ 53 := Int.floor_lt.mpr (by exact_mod_cast hlt)
  exact ⟨Int.floor_nonneg.mpr hq, by omega⟩

theorem fitsWire_of_numbersEncodable (h : dto.NumbersEncodable) : dto.FitsWire := by
  obtain ⟨payload, hpayload, hmembers⟩ := h
  obtain ⟨unitBacking, maxPrimaryStake, -, hmax, rfl⟩ := initProgramPayload_eq_ok.mp hpayload
  obtain ⟨hcommission, -, hshare, hfee, -, hduration, hquorum, hroyalties, hgovernance⟩ :=
    (hasMembers_numericFields_iff _ _).mp hmembers
  rw [secondsPerDay] at hgovernance
  obtain ⟨hwhole, hnonneg, hlt⟩ := inWire_iff.mp hgovernance
  exact {
    proposalQuorum := (inWire_iff.mp hquorum).1
    initCommission := (inWire_iff.mp hcommission).1
    initialRedemptionFee := (inWire_iff.mp hfee).1
    redemptionFeeDuration := (inWire_iff.mp hduration).1
    nftHoldersShare := (inWire_iff.mp hshare).1
    creatorRoyalties := (inWire_iff.mp hroyalties).1
    governanceExpirationTime := ⟨hwhole, by linarith, hlt.trans_le (by norm_num)⟩
    maxPrimaryStake := BN.lt_of_new_eq_ok hmax }

theorem numbersEncodable_of_fitsWire (hbounds : dto.Bounds) (hstake : dto.unitBacking ≤ dto.maxPrimaryStake)
    (h : dto.FitsWire) : dto.NumbersEncodable := by
  have hunit0 := hbounds.unitBacking
  have hmax := h.maxPrimaryStake
  have hunit : 0 ≤ dto.unitBacking * lamportsPerSol := by rw [lamportsPerSol]; linarith
  have hunitLt : dto.unitBacking * lamportsPerSol < 2 ^ 53 := by rw [lamportsPerSol]; linarith
  have hmax0 : 0 ≤ dto.maxPrimaryStake * lamportsPerSol := by rw [lamportsPerSol]; linarith
  have hunitType := hasType_amount hunit hunitLt
  have hmaxType := hasType_amount hmax0 hmax
  refine ⟨_, initProgramPayload_eq_ok.mpr ⟨_, _, (BN.new_eq_ok_iff hunit).mpr ⟨hunitLt, rfl⟩,
    (BN.new_eq_ok_iff hmax0).mpr ⟨hmax, rfl⟩, rfl⟩, (hasMembers_numericFields_iff _ _).mpr ?_⟩
  obtain ⟨hwhole, hnonneg, hlt⟩ := h.governanceExpirationTime
  have hroyalties := hbounds.creatorRoyalties
  have hshare := hbounds.nftHoldersShare
  have hquorum := hbounds.proposalQuorum
  refine ⟨?_, hmaxType, ?_, ?_, hunitType, ?_, ?_, ?_, ?_⟩
  · exact inWire_of_isWhole h.initCommission hbounds.initCommission (by norm_num)
  · exact inWire_of_isWhole h.nftHoldersShare ⟨by linarith, hshare.2⟩ (by norm_num)
  · exact inWire_of_isWhole h.initialRedemptionFee hbounds.initialRedemptionFee (by norm_num)
  · exact inWire_of_isWhole h.redemptionFeeDuration hbounds.redemptionFeeDuration (by norm_num)
  · exact inWire_of_isWhole h.proposalQuorum ⟨by linarith, hquorum.2⟩ (by norm_num)
  · have htwo : dto.creatorRoyalties * 100 ≤ 200 := by linarith
    exact inWire_of_isWhole h.creatorRoyalties ⟨by linarith, htwo⟩ (by norm_num)
  · rw [secondsPerDay]
    exact inWire_iff.mpr ⟨hwhole, by linarith, hlt.trans_le (by norm_num)⟩

/-- **Encodable registrations.** The numbers of an accepted body fit the layout exactly when they are
whole and two of them keep to bounds that nobody checks. -/
theorem numbersEncodable_iff {isUrl : String → Bool} (h : dto.Accepted isUrl) :
    dto.NumbersEncodable ↔ dto.FitsWire :=
  ⟨fitsWire_of_numbersEncodable, numbersEncodable_of_fitsWire h.valid.bounds
    (ProgramController.checkNewValidator_eq_ok h.checked).2.1⟩

theorem fitsWire_oneValidator : oneValidator.FitsWire where
  proposalQuorum := ⟨65, rfl⟩
  initCommission := ⟨10, rfl⟩
  initialRedemptionFee := ⟨5, rfl⟩
  redemptionFeeDuration := ⟨604800, rfl⟩
  nftHoldersShare := ⟨60, rfl⟩
  creatorRoyalties := ⟨200, by norm_num [oneValidator]⟩
  governanceExpirationTime := ⟨⟨604800, by norm_num [oneValidator]⟩, by norm_num [oneValidator]⟩
  maxPrimaryStake := by norm_num [oneValidator]

theorem numbersEncodable_iff_oneValidator : oneValidator.NumbersEncodable :=
  (numbersEncodable_iff accepted_oneValidator).mpr fitsWire_oneValidator

/-- The longest time that the decorator allows, one year in seconds, is taken as that many days. -/
def yearValidator : RegisterValidatorDto :=
  { oneValidator with governanceExpirationTime := 31536000 }

theorem not_numbersEncodable_yearValidator :
    yearValidator.Accepted oneUrls.contains ∧ ¬yearValidator.NumbersEncodable := by
  refine ⟨⟨by decide +kernel, by decide +kernel⟩, fun h => ?_⟩
  have hlt := (fitsWire_of_numbersEncodable h).governanceExpirationTime.2.2
  norm_num [yearValidator] at hlt

/-- The submitted weights are a distribution over 10000, and the vector of the payload carries it. -/
structure RaritiesKept (dto : RegisterValidatorDto) (weights : List ℕ) : Prop where
  submitted : dto.rarities.map (·.rarity) = weights.map fun n : ℕ => (n : ℚ)
  bounded : ∀ n ∈ weights, n ≤ 10000
  placed : ∀ payload, dto.initProgramPayload .exact = .ok payload →
    payload.get "rarities" = dto.rarityWeights .exact
  decodes : ∃ bs, encode (vec u16) (dto.rarityWeights .exact) = some bs ∧
    ∀ reader, decode reader (vec u16) bs = some (.array (weights.map fun n : ℕ => .num n), [])
  named : weights.length = dto.rarityNames.length
  total : weights.sum = 10000

theorem get_rarities {payload : Object} (h : dto.initProgramPayload .exact = .ok payload) :
    payload.get "rarities" = dto.rarityWeights .exact := by
  obtain ⟨unitBacking, maxPrimaryStake, -, -, rfl⟩ := initProgramPayload_eq_ok.mp h
  have hget := dto.get_payload .exact unitBacking maxPrimaryStake ("rarities", vec u16) (by decide)
  simpa only [parameters, Object.get_cons, String.reduceEq, if_true, if_false] using hget

theorem rarityWeights_eq {weights : List ℕ}
    (h : dto.rarities.map (·.rarity) = weights.map fun n : ℕ => (n : ℚ)) :
    dto.rarityWeights .exact = .array (weights.map fun n : ℕ => .num n) := by
  have hmap : dto.rarities.map (fun rarity => number rarity.rarity) =
      (dto.rarities.map (·.rarity)).map number := by
    rw [List.map_map]
    rfl
  have hnumber : number ∘ (fun n : ℕ => (n : ℚ)) = fun n : ℕ => .num n := by
    funext n
    exact number_intCast n
  rw [rarityWeights, Arithmetic.exact, hmap, h, List.map_map, hnumber]

/-- **Rarities.** The weights of an accepted body are a distribution that the payload carries exactly
when each of them is a natural number, in a vector whose length fits its count. -/
theorem raritiesKept_iff {isUrl : String → Bool} (h : dto.Accepted isUrl) :
    (∃ weights, dto.RaritiesKept weights) ↔
      (∀ rarity ∈ dto.rarities, ∃ n : ℕ, rarity.rarity = n) ∧ dto.rarities.length < 2 ^ 32 := by
  obtain ⟨-, -, hnamed, htotal⟩ := ProgramController.checkNewValidator_eq_ok h.checked
  constructor
  · rintro ⟨weights, hkept⟩
    constructor
    · intro rarity hmem
      have hweight := List.mem_map_of_mem (f := fun rarity : Rarity => rarity.rarity) hmem
      rw [hkept.submitted] at hweight
      obtain ⟨n, -, hn⟩ := List.mem_map.mp hweight
      exact ⟨n, hn.symm⟩
    · obtain ⟨bs, hbs, -⟩ := hkept.decodes
      have hlength := (hasType_of_encode rfl hbs).1
      rwa [List.length_map] at hlength
  · rintro ⟨hwhole, hlength⟩
    have hrange : dto.rarities.map (·.rarity) ∈ Set.range (List.map fun n : ℕ => (n : ℚ)) := by
      rw [Set.range_list_map]
      intro q hq
      obtain ⟨rarity, hmem, rfl⟩ := List.mem_map.mp hq
      obtain ⟨n, hn⟩ := hwhole rarity hmem
      exact ⟨n, hn.symm⟩
    obtain ⟨weights, hweights⟩ := hrange
    have hweights := hweights.symm
    have hsum : weights.sum = 10000 := by
      rw [hweights, ← Nat.cast_list_sum] at htotal
      exact_mod_cast htotal
    have hbounded : ∀ n ∈ weights, n ≤ 10000 := fun n hn => hsum ▸ List.le_sum_of_mem hn
    have hcount : weights.length = dto.rarities.length := by
      rw [← List.length_map (f := fun n : ℕ => (n : ℚ)), ← hweights, List.length_map]
    have htype : HasType (vec u16) (.array (weights.map fun n : ℕ => .num n)) := by
      refine ⟨by rw [List.length_map, hcount]; exact hlength, fun v hv => ?_⟩
      obtain ⟨n, hn, rfl⟩ := List.mem_map.mp hv
      have hle := hbounded n hn
      exact ⟨Int.natCast_nonneg n, by omega⟩
    obtain ⟨⟨bs, hbs⟩, hview⟩ := encode_of_hasType rfl htype
    have hread (reader : Reader) := @decode_encode reader (vec u16) rfl _ _ hbs []
    simp only [List.append_nil, hview] at hread
    exact ⟨weights, hweights, hbounded, fun _ => get_rarities,
      ⟨bs, by rw [rarityWeights_eq hweights, hbs], hread⟩, hcount.trans hnamed, hsum⟩

theorem raritiesKept_iff_oneValidator : ∃ weights, oneValidator.RaritiesKept weights := by
  refine (raritiesKept_iff accepted_oneValidator).mpr ⟨?_, by decide⟩
  intro rarity hmem
  rcases List.mem_pair.mp hmem with rfl | rfl
  · exact ⟨9000, rfl⟩
  · exact ⟨1000, rfl⟩

/-- Two weights that make up for each other. -/
def unevenValidator : RegisterValidatorDto :=
  { oneValidator with
    rarities := [⟨-1, ["https://arweave.net/0"]⟩, ⟨10001, ["https://arweave.net/1"]⟩] }

theorem not_raritiesKept_unevenValidator :
    unevenValidator.Accepted oneUrls.contains ∧ ¬∃ weights, unevenValidator.RaritiesKept weights := by
  refine ⟨⟨by decide +kernel, by decide +kernel⟩, ?_⟩
  rintro ⟨weights, hkept⟩
  have hmem : (-1 : ℚ) ∈ weights.map fun n : ℕ => (n : ℚ) := by
    rw [← hkept.submitted]
    exact List.mem_cons_self
  obtain ⟨n, -, hn⟩ := List.mem_map.mp hmem
  have hnonneg : (0 : ℚ) ≤ n := Nat.cast_nonneg n
  linarith

end RegisterValidatorDto

end InglMonitor
