import InglMonitor.RegisterValidatorNumbers

/-! What governance can propose. Each parameter of a validator is declared three times: as a member of
the stored configuration, as a parameter of the registration, and as the value of a governance
variant. -/

open Borsh Borsh.FieldType

namespace InglMonitor

/-- The stored configuration of a validator. -/
def ValidatorConfig.fields : Fields := [
  ("validation_phrase", u32),
  ("is_validator_id_switchable", bool),
  ("max_primary_stake", u64),
  ("nft_holders_share", u8),
  ("initial_redemption_fee", u8),
  ("unit_backing", u64),
  ("redemption_fee_duration", u32),
  ("proposal_quorum", u8),
  ("creator_royalties", u16),
  ("commission", u8),
  ("validator_id", fixedArray u8 32),
  ("governance_expiration_time", u32),
  ("default_uri", string),
  ("validator_name", string),
  ("twitter_handle", string),
  ("discord_invite", string),
  ("website", string)]

/-- The parameters that a `ConfigAccount` or a `VoteAccount` proposal can set. -/
inductive Parameter where
  | maxPrimaryStake | nftHolderShare | initialRedemptionFee | redemptionFeeDuration | validatorName
  | twitterHandle | discordInvite | validatorID | commission
  deriving DecidableEq

namespace Parameter

/-- The member of `ValidatorConfig`. -/
def configField : Parameter → String
  | maxPrimaryStake => "max_primary_stake"
  | nftHolderShare => "nft_holders_share"
  | initialRedemptionFee => "initial_redemption_fee"
  | redemptionFeeDuration => "redemption_fee_duration"
  | validatorName => "validator_name"
  | twitterHandle => "twitter_handle"
  | discordInvite => "discord_invite"
  | validatorID => "validator_id"
  | commission => "commission"

/-- The member of `Init`; the validator id is not registered. -/
def initField : Parameter → Option String
  | maxPrimaryStake => some "max_primary_stake"
  | nftHolderShare => some "nft_holders_share"
  | initialRedemptionFee => some "initial_redemption_fee"
  | redemptionFeeDuration => some "redemption_fee_duration"
  | validatorName => some "validator_name"
  | twitterHandle => some "twitter_handle"
  | discordInvite => some "discord_invite"
  | validatorID => none
  | commission => some "init_commission"

/-- The members of the governance variant. -/
def variantFields : Parameter → Fields
  | maxPrimaryStake => MaxPrimaryStake.fields
  | nftHolderShare => NftHolderShare.fields
  | initialRedemptionFee => InitialRedemptionFee.fields
  | redemptionFeeDuration => RedemptionFeeDuration.fields
  | validatorName => ValidatorName.fields
  | twitterHandle => TwitterHandle.fields
  | discordInvite => DiscordInvite.fields
  | validatorID => ValidatorID.fields
  | commission => Commission.fields

/-- The constructor of the governance variant. -/
def new : Parameter → Value → Value
  | maxPrimaryStake => MaxPrimaryStake.new
  | nftHolderShare => NftHolderShare.new
  | initialRedemptionFee => InitialRedemptionFee.new
  | redemptionFeeDuration => RedemptionFeeDuration.new
  | validatorName => ValidatorName.new
  | twitterHandle => TwitterHandle.new
  | discordInvite => DiscordInvite.new
  | validatorID => ValidatorID.new
  | commission => Commission.new

variable {p : Parameter} {v : Value} {args : Object}

/-- The configuration can hold the value. -/
def Representable (p : Parameter) (v : Value) : Prop :=
  ∃ t, (p.configField, t) ∈ ValidatorConfig.fields ∧ HasType t v

/-- A registration with the value is accepted, if there is one with that parameter at all. -/
def Registrable (isUrl : String → Bool) (p : Parameter) (v : Value) : Prop :=
  ∀ name, p.initField = some name → ∃ dto : RegisterValidatorDto, dto.Accepted isUrl ∧
    ∃ payload, dto.parsed.initProgramPayload .double = .ok payload ∧ payload.get name = v

/-- The argument of an `InitGovernance` that proposes the value. -/
structure Proposes (p : Parameter) (v : Value) (args : Object) : Prop where
  noTag : "instruction" ∉ args.map Prod.fst
  governanceType : args.get "governance_type" = p.new v
  title : HasType string (args.get "title")
  description : HasType string (args.get "description")
  logLevel : HasType u8 (args.get "log_level")

/-- The instruction is encoded, and decodes to the same variant with the same value. -/
def Governs (p : Parameter) (v : Value) (args : Object) : Prop :=
  ∃ bs o, InstructionClass.initGovernance.serialize args = some bs ∧
    (∀ reader, InstructionClass.decodeInstruction reader bs = some (.initGovernance, o)) ∧
    o.get "governance_type" = p.new v

/-- The variant has the type of the configuration, with one exception. -/
theorem variantFields_eq {t : FieldType} (ht : (p.configField, t) ∈ ValidatorConfig.fields) :
    p.variantFields = valueFields (if p = redemptionFeeDuration then u8 else t) := by
  have hall : ∀ f ∈ ValidatorConfig.fields, p.configField = f.1 →
      p.variantFields = valueFields (if p = redemptionFeeDuration then u8 else f.2) := by
    cases p <;> decide
  exact hall _ ht rfl

theorem hasType_new_iff : HasType GovernanceType (p.new v) ↔ HasMembers p.variantFields [("value", v)] := by
  cases p <;>
    simp [GovernanceType, ConfigAccount, VoteAccount, new, variantFields, MaxPrimaryStake.new,
      NftHolderShare.new, InitialRedemptionFee.new, RedemptionFeeDuration.new, ValidatorName.new,
      TwitterHandle.new, DiscordInvite.new, ValidatorID.new, Commission.new, leaf, HasType, HasMembers,
      MaxPrimaryStake.fields, NftHolderShare.fields, InitialRedemptionFee.fields,
      RedemptionFeeDuration.fields, ValidatorName.fields, TwitterHandle.fields, DiscordInvite.fields,
      ValidatorID.fields, Commission.fields, valueFields]

theorem hasType_of_encode_new {bs : Bytes} (h : encode GovernanceType (p.new v) = some bs) :
    HasMembers p.variantFields [("value", v)] := by
  have hplain : ∀ f ∈ p.variantFields, f.2.isPlain ∧ f.2.wellFormed := by cases p <;> decide
  refine (encode_struct_isSome_iff_hasMembers (fun f hf => (hplain f hf).1)
    fun f hf => (hplain f hf).2).mp ?_
  have hvariant : ∃ outer inner, encode GovernanceType (p.new v) =
      ((encode (struct p.variantFields) (.object [("value", v)])).map (inner :: ·)).map (outer :: ·) := by
    cases p <;> exact ⟨_, _, rfl⟩
  obtain ⟨outer, inner, hvariant⟩ := hvariant
  rw [hvariant] at h
  obtain ⟨_, h, -⟩ := Option.map_eq_some_iff.mp h
  obtain ⟨bs, h, -⟩ := Option.map_eq_some_iff.mp h
  exact ⟨bs, h⟩

/-! ### Proposals -/

theorem Proposes.declared (h : p.Proposes v args) (hv : HasType GovernanceType (p.new v)) :
    InstructionClass.initGovernance.Declared args where
  noTag := h.noTag
  params := by
    refine List.forall_mem_cons.mpr ⟨h.governanceType ▸ hv, List.forall_mem_cons.mpr ⟨h.title,
      List.forall_mem_cons.mpr ⟨h.description, List.forall_mem_singleton.mpr h.logLevel⟩⟩⟩

/-- A proposal goes through exactly when the value is one of its variant. -/
theorem governs_iff_hasMembers (h : p.Proposes v args) :
    p.Governs v args ↔ HasMembers p.variantFields [("value", v)] := by
  have hget : (InstructionClass.initGovernance.new args).get "governance_type" = p.new v := by
    have hset := (InstructionClass.initGovernance.get_new h.noTag).2
    rw [hset ("governance_type", GovernanceType) (by decide) (by decide), h.governanceType]
  constructor
  · rintro ⟨bs, -, hbs, -, -⟩
    have hmember := encode_struct_isSome_iff.mp ⟨bs, hbs⟩ ("governance_type", GovernanceType) (by decide)
    rw [hget] at hmember
    obtain ⟨x, hx⟩ := hmember
    exact hasType_of_encode_new hx
  · intro hv
    have hdeclared := h.declared (hasType_new_iff.mpr hv)
    obtain ⟨bs, hbs⟩ := InstructionClass.exists_serialize hdeclared nofun
    exact ⟨bs, _, hbs, InstructionClass.decodeInstruction_serialize hdeclared nofun hbs, hget⟩

/-- **Proposals.** Governance can propose every value that the configuration can hold, but of the
redemption fee duration only those up to 255 seconds. -/
theorem governs_iff (hv : p.Representable v) (h : p.Proposes v args) :
    p.Governs v args ↔ (p = redemptionFeeDuration → ∃ n : ℤ, v = .num n ∧ n ≤ 255) := by
  obtain ⟨t, ht, hv⟩ := hv
  rw [governs_iff_hasMembers h, variantFields_eq ht, valueFields, HasMembers, List.forall_mem_singleton,
    Object.get_cons, if_pos rfl]
  by_cases hp : p = redemptionFeeDuration
  · have hu32 : t = u32 := by
      have hall : ∀ f ∈ ValidatorConfig.fields, f.1 = "redemption_fee_duration" → f.2 = u32 := by decide
      exact hall _ ht (by rw [hp, configField])
    rw [if_pos hp]
    subst hu32
    cases v with
    | num n =>
        have hn : 0 ≤ n ∧ n < 256 ^ 4 := hv
        have hu8 : HasType u8 (.num n) ↔ 0 ≤ n ∧ n < 256 ^ 1 := Iff.rfl
        rw [hu8]
        constructor
        · exact fun hlt _ => ⟨n, rfl, by omega⟩
        · intro hle
          obtain ⟨m, hm, hle⟩ := hle hp
          cases hm
          omega
    | _ => exact hv.elim
  · rw [if_neg hp]
    exact iff_of_true hv fun h => absurd h hp

/-- A proposal to change the redemption fee duration. -/
def durationArgs (seconds : Int) : Object := [
  ("governance_type", RedemptionFeeDuration.new (.num seconds)),
  ("title", .str "Redemption fee duration"),
  ("description", .str "Change the time for which a fee is due"),
  ("log_level", .num 0)]

theorem proposes_durationArgs (seconds : Int) :
    redemptionFeeDuration.Proposes (.num seconds) (durationArgs seconds) where
  noTag := by
    show "instruction" ∉ ["governance_type", "title", "description", "log_level"]
    decide
  governanceType := rfl
  title := show (utf8 "Redemption fee duration").length < 256 ^ 4 by decide
  description := show (utf8 "Change the time for which a fee is due").length < 256 ^ 4 by decide
  logLevel := show (0 : Int) ≤ 0 ∧ (0 : Int) < 256 ^ 1 by decide

theorem representable_duration {seconds : Int} (h : 0 ≤ seconds ∧ seconds < 256 ^ 4) :
    redemptionFeeDuration.Representable (.num seconds) :=
  ⟨u32, by decide, h⟩

theorem governs_iff_duration :
    redemptionFeeDuration.Governs (.num 255) (durationArgs 255) ∧
      ¬redemptionFeeDuration.Governs (.num 256) (durationArgs 256) := by
  constructor
  · refine (governs_iff (representable_duration (by decide)) (proposes_durationArgs 255)).mpr fun _ => ?_
    exact ⟨255, rfl, by decide⟩
  · intro h
    obtain ⟨n, hn, hle⟩ :=
      (governs_iff (representable_duration (by decide)) (proposes_durationArgs 256)).mp h rfl
    cases hn
    omega

/-- A validator is registered with a duration of one week. -/
theorem registrable_week : redemptionFeeDuration.Registrable oneUrls.contains (.num 604800) := by
  rintro name hname
  cases hname
  have hunit : 0 ≤ Arithmetic.double.times oneValidator.parsed.unitBacking lamportsPerSol :=
    Double.round_nonneg (by decide +kernel)
  have hmax : 0 ≤ Arithmetic.double.times oneValidator.parsed.maxPrimaryStake lamportsPerSol :=
    Double.round_nonneg (by decide +kernel)
  refine ⟨oneValidator, accepted_oneValidator, _, RegisterValidatorDto.initProgramPayload_eq_ok.mpr
    ⟨_, _, (BN.new_eq_ok_iff hunit).mpr ⟨by decide +kernel, rfl⟩,
      (BN.new_eq_ok_iff hmax).mpr ⟨by decide +kernel, rfl⟩, rfl⟩, ?_⟩
  have hget := oneValidator.parsed.get_payload .double
    ⌊Arithmetic.double.times oneValidator.parsed.unitBacking lamportsPerSol⌋
    ⌊Arithmetic.double.times oneValidator.parsed.maxPrimaryStake lamportsPerSol⌋
    ("redemption_fee_duration", u32) (by decide)
  simp only [RegisterValidatorDto.parameters, Object.get_cons, String.reduceEq, if_true, if_false] at hget
  have hweek : oneValidator.parsed.redemptionFeeDuration = ((604800 : ℤ) : ℚ) :=
    Double.round_intCast (by decide)
  rw [hweek] at hget
  exact hget.trans (written_intCast (by decide))

/-- Governance cannot propose that week again. -/
theorem not_governs_week : ¬∀ (p : Parameter) (v : Value) (args : Object), p.Representable v →
    p.Registrable oneUrls.contains v → p.Proposes v args → p.Governs v args := by
  intro hall
  have hgoverns := hall redemptionFeeDuration (.num 604800) (durationArgs 604800)
    (representable_duration (by decide)) registrable_week (proposes_durationArgs 604800)
  have hu8 := (governs_iff_hasMembers (proposes_durationArgs 604800)).mp hgoverns ("value", u8)
    List.mem_cons_self
  exact absurd hu8.2 (by decide)

end Parameter

end InglMonitor
