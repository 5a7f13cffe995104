import InglMonitor.RegisterValidatorNumbers

/-! The data of the instruction that registers a validator. The tag tells whether there is a vote account,
and behind it stands every parameter of the request, four of them as the service has scaled them. -/

open Borsh Borsh.FieldType

namespace InglMonitor

namespace RegisterValidatorDto

section Model

variable (dto : RegisterValidatorDto)

/-- The products that the service computes. -/
def unitLamports : ℚ := Arithmetic.double.times dto.unitBacking lamportsPerSol

def stakeLamports : ℚ := Arithmetic.double.times dto.maxPrimaryStake lamportsPerSol

def royalties : ℚ := Arithmetic.double.times dto.creatorRoyalties 100

def expirationSeconds : ℚ := Arithmetic.double.times dto.governanceExpirationTime (24 * 3600)

/-- What the service writes: its own products, without their fractions. -/
def scaled : Object := dto.parameters .double (.num ⌊dto.unitLamports⌋) (.num ⌊dto.stakeLamports⌋)

/-- The numbers that are passed on as they are fit their members, and no amount is negative. -/
structure PlainInWire : Prop where
  initCommission : InWire 1 dto.initCommission
  nftHoldersShare : InWire 1 dto.nftHoldersShare
  initialRedemptionFee : InWire 1 dto.initialRedemptionFee
  redemptionFeeDuration : InWire 4 dto.redemptionFeeDuration
  proposalQuorum : InWire 1 dto.proposalQuorum
  rarities : ∀ rarity ∈ dto.rarities, InWire 2 rarity.rarity
  unitBacking : 0 ≤ dto.unitBacking
  maxPrimaryStake : 0 ≤ dto.maxPrimaryStake

/-- `BN` takes the products that are amounts, and `serialize` the other two. -/
structure ProductsInRange : Prop where
  unitBacking : dto.unitLamports < 2 ^ 53
  maxPrimaryStake : dto.stakeLamports < 2 ^ 53
  creatorRoyalties : 0 ≤ dto.royalties ∧ dto.royalties ≤ 256 ^ 2 - 1
  governanceExpirationTime : 0 ≤ dto.expirationSeconds ∧ dto.expirationSeconds ≤ 256 ^ 4 - 1

/-- The texts of the payload outside its vectors. -/
def texts : List String :=
  [dto.twitterHandle, dto.discordInvite, dto.validatorName, dto.collectionUri, dto.website,
    dto.defaultUri]

/-- Every length fits the count in front of it. -/
structure CountsFit : Prop where
  rarities : dto.rarities.length < 2 ^ 32
  rarityNames : dto.rarityNames.length < 2 ^ 32
  names : ∀ name ∈ dto.rarityNames, (utf8 name).length < 2 ^ 32
  texts : ∀ text ∈ dto.texts, (utf8 text).length < 2 ^ 32

end Model

variable {dto : RegisterValidatorDto} {outOfRange : String}

/-- The tag is written in front of the parameters, which do not depend on it. -/
theorem encode_tagged (c : InstructionClass) (o : Object) :
    encode (struct (("instruction", u8) :: parameterFields))
        (.object (("instruction", .num c.tag.toNat) :: o)) =
      (encode (struct parameterFields) (.object o)).map (c.tag :: ·) := by
  have hnames : ∀ f ∈ parameterFields, f.1 ≠ "instruction" := by decide
  have hdrop : encode (struct parameterFields) (.object (("instruction", .num c.tag.toNat) :: o)) =
      encode (struct parameterFields) (.object o) := by
    apply encode_struct_congr
    intro f hf
    rw [Object.get_cons, if_neg (hnames f hf)]
  rw [encode_struct_cons, Object.get_cons, if_pos rfl, c.encode_tag, hdrop]
  cases encode (struct parameterFields) (.object o) <;> rfl

/-- The data is the tag of the class and, behind it, the parameters. -/
theorem initProgramData_eq_ok {data : Bytes} : dto.initProgramData outOfRange = .ok data ↔
    ∃ unitBacking maxPrimaryStake rest, BN.new dto.unitLamports = .ok unitBacking ∧
      BN.new dto.stakeLamports = .ok maxPrimaryStake ∧
      encode (struct parameterFields)
        (.object (dto.parameters .double (.num unitBacking) (.num maxPrimaryStake))) = some rest ∧
      data = dto.initClass.tag :: rest := by
  have hencode (unitBacking maxPrimaryStake : Int) : encode (struct dto.initClass.fields)
      (.object (dto.initClass.new (dto.initArgs .double unitBacking maxPrimaryStake))) =
        (encode (struct parameterFields)
          (.object (dto.parameters .double (.num unitBacking) (.num maxPrimaryStake)))).map
            (dto.initClass.tag :: ·) := by
    rw [fields_initClass, encode_struct_congr (dto.get_payload .double unitBacking maxPrimaryStake),
      encode_tagged]
  constructor
  · intro h
    obtain ⟨payload, hpayload, h⟩ := bind_eq_ok.mp h
    obtain ⟨unitBacking, maxPrimaryStake, hunit, hmax, rfl⟩ := initProgramPayload_eq_ok.mp hpayload
    rw [hencode] at h
    cases hrest : encode (struct parameterFields)
        (.object (dto.parameters .double (.num unitBacking) (.num maxPrimaryStake))) with
    | none =>
        rw [hrest] at h
        cases h
    | some rest =>
        rw [hrest] at h
        cases h
        exact ⟨_, _, rest, hunit, hmax, hrest, rfl⟩
  · rintro ⟨unitBacking, maxPrimaryStake, rest, hunit, hmax, hrest, rfl⟩
    refine bind_eq_ok.mpr ⟨_, initProgramPayload_eq_ok.mpr ⟨_, _, hunit, hmax, rfl⟩, ?_⟩
    rw [hencode, hrest]
    rfl

/-- The vote account shows in the tag only. -/
theorem initProgramData_hasVoteAccount {data : Bytes} (h : dto.initProgramData outOfRange = .ok data) :
    ∃ rest, ∀ b, { dto with hasVoteAccount := b }.initProgramData outOfRange =
      .ok ((if b then 18 else 2) :: rest) := by
  obtain ⟨unitBacking, maxPrimaryStake, rest, hunit, hmax, hrest, -⟩ := initProgramData_eq_ok.mp h
  refine ⟨rest, fun b => initProgramData_eq_ok.mpr ?_⟩
  refine ⟨unitBacking, maxPrimaryStake, rest, hunit, hmax, hrest, ?_⟩
  cases b <;> rfl

theorem hasType_member_of_inWire {width : Nat} {q : ℚ} (h : InWire width q) :
    HasType (.uint width) (Arithmetic.double.member width q) := by
  obtain ⟨n, rfl, hn⟩ := h
  rw [show Arithmetic.double.member width n = .num n from written_intCast hn]
  exact hn

theorem hasType_rarityWeights_iff (h : dto.PlainInWire) :
    HasType (vec u16) (dto.rarityWeights .double) ↔ dto.rarities.length < 2 ^ 32 := by
  rw [rarityWeights, HasType, List.length_map]
  refine and_iff_left fun v hv => ?_
  obtain ⟨rarity, hmem, rfl⟩ := List.mem_map.mp hv
  exact hasType_member_of_inWire (h.rarities rarity hmem)

/-- The parameters have their types exactly when the scaled numbers are in range and the counts fit. -/
theorem hasMembers_parameters_iff (h : dto.PlainInWire) {unitBacking maxPrimaryStake : Int}
    (hunit : HasType u64 (.num unitBacking)) (hmax : HasType u64 (.num maxPrimaryStake)) :
    HasMembers parameterFields (dto.parameters .double (.num unitBacking) (.num maxPrimaryStake)) ↔
      (0 ≤ dto.royalties ∧ dto.royalties ≤ 256 ^ 2 - 1) ∧
      (0 ≤ dto.expirationSeconds ∧ dto.expirationSeconds ≤ 256 ^ 4 - 1) ∧ dto.CountsFit := by
  have hlevel : HasType u8 (.num 0) := by simp [HasType]
  have hroyalties : HasType u16
      (Arithmetic.double.member 2 (Arithmetic.double.times dto.creatorRoyalties 100)) ↔
        0 ≤ dto.royalties ∧ dto.royalties ≤ 256 ^ 2 - 1 := hasType_written_iff
  have hseconds : HasType u32 (Arithmetic.double.member 4
      (Arithmetic.double.times dto.governanceExpirationTime (24 * 3600))) ↔
        0 ≤ dto.expirationSeconds ∧ dto.expirationSeconds ≤ 256 ^ 4 - 1 := hasType_written_iff
  have hconj :
      HasMembers parameterFields (dto.parameters .double (.num unitBacking) (.num maxPrimaryStake)) ↔
      (0 ≤ dto.royalties ∧ dto.royalties ≤ 256 ^ 2 - 1) ∧
      (0 ≤ dto.expirationSeconds ∧ dto.expirationSeconds ≤ 256 ^ 4 - 1) ∧
      dto.rarities.length < 2 ^ 32 ∧
      (dto.rarityNames.length < 2 ^ 32 ∧ ∀ name ∈ dto.rarityNames, (utf8 name).length < 2 ^ 32) ∧
      ∀ text ∈ dto.texts, HasType string (.str text) := by
    simp only [HasMembers, parameterFields, Init.ownFields, List.forall_mem_cons, parameters, texts,
      Object.get_cons, String.reduceEq, if_true, if_false, hasType_vec_strings_iff,
      hasType_rarityWeights_iff h, hlevel, hunit, hmax, hroyalties, hseconds,
      hasType_member_of_inWire h.initCommission, hasType_member_of_inWire h.nftHoldersShare,
      hasType_member_of_inWire h.initialRedemptionFee, hasType_member_of_inWire h.redemptionFeeDuration,
      hasType_member_of_inWire h.proposalQuorum, List.not_mem_nil, false_imp_iff, implies_true, and_true,
      true_and]
    simp only [HasType, true_and]
  rw [hconj]
  refine and_congr_right fun _ => and_congr_right fun _ => ?_
  constructor
  · rintro ⟨hrarities, hnames, htexts⟩
    exact ⟨hrarities, hnames.1, hnames.2, htexts⟩
  · rintro ⟨hrarities, hnames, hname, htexts⟩
    exact ⟨hrarities, ⟨hnames, hname⟩, htexts⟩

theorem parameterFields_wellFormed : ∀ f ∈ ("instruction", u8) :: parameterFields, f.2.wellFormed := by
  decide

/-- What is written reads back with the layout of `Init`. -/
theorem deserialize_parameters (c : InstructionClass) {unitBacking maxPrimaryStake : Value}
    (hmembers : HasMembers parameterFields (dto.parameters .double unitBacking maxPrimaryStake))
    {rest : Bytes} (hrest : encode (struct parameterFields)
      (.object (dto.parameters .double unitBacking maxPrimaryStake)) = some rest) (reader : Reader) :
    deserialize reader Init.fields (c.tag :: rest) =
      some (("instruction", .num c.tag.toNat) :: dto.parameters .double unitBacking maxPrimaryStake) := by
  have hbytes := encode_tagged c (dto.parameters .double unitBacking maxPrimaryStake)
  rw [hrest, Option.map_some] at hbytes
  have htagged : HasMembers (("instruction", u8) :: parameterFields)
      (("instruction", .num c.tag.toNat) :: dto.parameters .double unitBacking maxPrimaryStake) := by
    have hnames : ∀ f ∈ parameterFields, f.1 ≠ "instruction" := by decide
    refine List.forall_mem_cons.mpr ⟨c.hasType_tag, fun f hf => ?_⟩
    rw [Object.get_cons, if_neg (hnames f hf)]
    exact hmembers f hf
  have hread := deserialize_encode (by decide) hbytes reader
  rw [declared_of_hasMembers parameterFields_wellFormed htagged] at hread
  refine hread.trans (congrArg some ?_)
  simp only [parameterFields, Init.ownFields, parameters, List.map_cons, List.map_nil, Object.get_cons,
    String.reduceEq, if_true, if_false]

/-- The data that is built, if all products are in range and all counts fit. -/
theorem initProgramData_eq_ok_iff (h : dto.PlainInWire) {data : Bytes} :
    dto.initProgramData outOfRange = .ok data ↔ dto.ProductsInRange ∧ dto.CountsFit ∧
      ∃ rest, encode (struct parameterFields) (.object dto.scaled) = some rest ∧
        data = dto.initClass.tag :: rest := by
  have hlamports : 0 ≤ lamportsPerSol := by norm_num [lamportsPerSol]
  have hunit : 0 ≤ dto.unitLamports := Double.round_nonneg (mul_nonneg h.unitBacking hlamports)
  have hmax : 0 ≤ dto.stakeLamports := Double.round_nonneg (mul_nonneg h.maxPrimaryStake hlamports)
  rw [initProgramData_eq_ok]
  simp only [BN.new_eq_ok_iff hunit, BN.new_eq_ok_iff hmax]
  constructor
  · rintro ⟨_, _, rest, ⟨hunitLt, rfl⟩, ⟨hmaxLt, rfl⟩, hrest, hdata⟩
    have hmembers := (encode_struct_isSome_iff_hasMembers (by decide) (by decide)).mp ⟨rest, hrest⟩
    obtain ⟨hroyalties, hseconds, hcounts⟩ :=
      (hasMembers_parameters_iff h (hasType_amount hunit hunitLt) (hasType_amount hmax hmaxLt)).mp hmembers
    exact ⟨⟨hunitLt, hmaxLt, hroyalties, hseconds⟩, hcounts, rest, hrest, hdata⟩
  · rintro ⟨hproducts, -, rest, hrest, hdata⟩
    exact ⟨_, _, rest, ⟨hproducts.unitBacking, rfl⟩, ⟨hproducts.maxPrimaryStake, rfl⟩, hrest, hdata⟩

theorem hasMembers_scaled (h : dto.PlainInWire) (hproducts : dto.ProductsInRange) (hcounts : dto.CountsFit) :
    HasMembers parameterFields dto.scaled := by
  have hlamports : 0 ≤ lamportsPerSol := by norm_num [lamportsPerSol]
  have hunit : 0 ≤ dto.unitLamports := Double.round_nonneg (mul_nonneg h.unitBacking hlamports)
  have hmax : 0 ≤ dto.stakeLamports := Double.round_nonneg (mul_nonneg h.maxPrimaryStake hlamports)
  exact (hasMembers_parameters_iff h (hasType_amount hunit hproducts.unitBacking)
    (hasType_amount hmax hproducts.maxPrimaryStake)).mpr
      ⟨hproducts.creatorRoyalties, hproducts.governanceExpirationTime, hcounts⟩

theorem tag_initClass :
    ((dto.initClass.tag.toNat : Nat) : Int) = if dto.hasVoteAccount then 18 else 2 := by
  unfold initClass
  cases dto.hasVoteAccount <;> rfl

/-- **The data of a registration.** It is built exactly if the products of the service are in range and the
counts fit, and every reader finds in it the tag and the products. -/
theorem initProgramData_spec (h : dto.PlainInWire) :
    ((∃ data, dto.initProgramData outOfRange = .ok data) ↔ dto.ProductsInRange ∧ dto.CountsFit) ∧
    ∀ data, dto.initProgramData outOfRange = .ok data → ∀ reader, deserialize reader Init.fields data =
      some (("instruction", .num (if dto.hasVoteAccount then 18 else 2)) :: dto.scaled) := by
  refine ⟨⟨?_, ?_⟩, ?_⟩
  · rintro ⟨data, hdata⟩
    obtain ⟨hproducts, hcounts, -⟩ := (initProgramData_eq_ok_iff h).mp hdata
    exact ⟨hproducts, hcounts⟩
  · rintro ⟨hproducts, hcounts⟩
    obtain ⟨rest, hrest⟩ := (encode_struct_isSome_iff_hasMembers (by decide) (by decide)).mpr
      (hasMembers_scaled h hproducts hcounts)
    exact ⟨_, (initProgramData_eq_ok_iff h).mpr ⟨hproducts, hcounts, rest, hrest, rfl⟩⟩
  · intro data hdata reader
    obtain ⟨hproducts, hcounts, rest, hrest, rfl⟩ := (initProgramData_eq_ok_iff h).mp hdata
    rw [scaled, deserialize_parameters _ (hasMembers_scaled h hproducts hcounts) hrest, tag_initClass]

theorem plainInWire_oneValidator : oneValidator.PlainInWire where
  initCommission := ⟨10, rfl, by decide⟩
  nftHoldersShare := ⟨60, rfl, by decide⟩
  initialRedemptionFee := ⟨5, rfl, by decide⟩
  redemptionFeeDuration := ⟨604800, rfl, by decide⟩
  proposalQuorum := ⟨65, rfl, by decide⟩
  rarities := by
    intro rarity hmem
    rcases List.mem_pair.mp hmem with rfl | rfl
    · exact ⟨9000, rfl, by decide⟩
    · exact ⟨1000, rfl, by decide⟩
  unitBacking := by decide +kernel
  maxPrimaryStake := by decide +kernel

theorem countsFit_oneValidator : oneValidator.CountsFit where
  rarities := by decide
  rarityNames := by decide
  names := by decide
  texts := by decide

/-- A stake of ten million SOL is no more than `2 ** 64` lamports, but no number that `BN` takes. -/
def whaleValidator : RegisterValidatorDto := { oneValidator with maxPrimaryStake := 10000000 }

end RegisterValidatorDto

end InglMonitor
