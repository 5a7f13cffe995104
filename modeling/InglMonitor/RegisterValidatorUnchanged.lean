import InglMonitor.RegisterValidatorFormat

/-! A registration request decoded from the instruction it becomes. Its numbers are parsed and scaled as
doubles, and what is left of a fraction is cut off, so that a parameter arrives as it was submitted only
where the product of the service does not fall short of the exact one. -/

open Borsh Borsh.FieldType

namespace InglMonitor

namespace RegisterValidatorDto

section Model

variable (dto : RegisterValidatorDto)

/-- The scaled numbers of a body are integers in the range of their members. -/
structure ScaledInWire : Prop where
  initCommission : InWire 1 dto.initCommission
  maxPrimaryStake : InWire 8 (dto.maxPrimaryStake * lamportsPerSol)
  nftHoldersShare : InWire 1 dto.nftHoldersShare
  initialRedemptionFee : InWire 1 dto.initialRedemptionFee
  unitBacking : InWire 8 (dto.unitBacking * lamportsPerSol)
  redemptionFeeDuration : InWire 4 dto.redemptionFeeDuration
  proposalQuorum : InWire 1 dto.proposalQuorum
  creatorRoyalties : InWire 2 (dto.creatorRoyalties * 100)
  governanceExpirationTime : InWire 4 (dto.governanceExpirationTime * (24 * 3600))
  rarities : ∀ rarity ∈ dto.rarities, InWire 2 rarity.rarity

/-- What is submitted, scaled without any rounding. -/
def submitted : Object :=
  dto.parameters .exact (number (dto.unitBacking * lamportsPerSol))
    (number (dto.maxPrimaryStake * lamportsPerSol))

/-- Parsing a number, multiplying it and cutting off a fraction leaves the exact product, in the four places
where the service does so. -/
structure ScaledExactly : Prop where
  unitBacking : (⌊Double.round (Double.round dto.unitBacking * lamportsPerSol)⌋ : ℚ) =
    dto.unitBacking * lamportsPerSol
  maxPrimaryStake : (⌊Double.round (Double.round dto.maxPrimaryStake * lamportsPerSol)⌋ : ℚ) =
    dto.maxPrimaryStake * lamportsPerSol
  creatorRoyalties : (⌊Double.round (Double.round dto.creatorRoyalties * 100)⌋ : ℚ) =
      dto.creatorRoyalties * 100 ∧
    Double.round (Double.round dto.creatorRoyalties * 100) ≤ 256 ^ 2 - 1
  governanceExpirationTime :
    (⌊Double.round (Double.round dto.governanceExpirationTime * (24 * 3600))⌋ : ℚ) =
      dto.governanceExpirationTime * (24 * 3600) ∧
    Double.round (Double.round dto.governanceExpirationTime * (24 * 3600)) ≤ 256 ^ 4 - 1

/-- The data decodes to what was submitted, and the vote account shows in the first byte only. -/
structure DataUnchanged (outOfRange : String) : Prop where
  decodes : ∃ data, dto.parsed.initProgramData outOfRange = .ok data ∧
    ∀ reader, deserialize reader Init.fields data =
      some (("instruction", .num (if dto.hasVoteAccount then 18 else 2)) :: dto.submitted)
  firstByte : ∃ rest,
    { dto with hasVoteAccount := true }.parsed.initProgramData outOfRange = .ok (18 :: rest) ∧
      { dto with hasVoteAccount := false }.parsed.initProgramData outOfRange = .ok (2 :: rest)

end Model

variable {dto : RegisterValidatorDto} {outOfRange : String}

theorem round_of_inWire {width : Nat} {q : ℚ} (h : InWire width q) (hwidth : width ≤ 4) :
    Double.round q = q := by
  obtain ⟨n, rfl, hn, hlt⟩ := h
  have hle : (256 : ℤ) ^ width ≤ 256 ^ 4 := pow_le_pow_right₀ (by decide) hwidth
  apply Double.round_intCast
  rw [abs_of_nonneg hn]
  omega

theorem nonneg_of_inWire {width : Nat} {q scale : ℚ} (h : InWire width (q * scale)) (hscale : 0 < scale) :
    0 ≤ q := by
  obtain ⟨n, hq, hn, -⟩ := h
  have hproduct : 0 ≤ q * scale := hq ▸ Int.cast_nonneg hn
  exact nonneg_of_mul_nonneg_left hproduct hscale

theorem inWire_round {width : Nat} {q : ℚ} (h : InWire width q) (hwidth : width ≤ 4) :
    InWire width (Double.round q) := by
  rw [round_of_inWire h hwidth]
  exact h

/-- A number that is not scaled is written as submitted. -/
theorem written_round {width : Nat} {q : ℚ} (h : InWire width q) (hwidth : width ≤ 4) :
    written width (Double.round q) = number q := by
  rw [round_of_inWire h hwidth]
  obtain ⟨n, rfl, hn⟩ := h
  rw [written_intCast hn, number_intCast]

theorem plainInWire_parsed (h : dto.ScaledInWire) : dto.parsed.PlainInWire where
  initCommission := inWire_round h.initCommission (by decide)
  nftHoldersShare := inWire_round h.nftHoldersShare (by decide)
  initialRedemptionFee := inWire_round h.initialRedemptionFee (by decide)
  redemptionFeeDuration := inWire_round h.redemptionFeeDuration (by decide)
  proposalQuorum := inWire_round h.proposalQuorum (by decide)
  rarities := by
    intro parsed hmem
    obtain ⟨rarity, hrarity, rfl⟩ := List.mem_map.mp hmem
    exact inWire_round (h.rarities rarity hrarity) (by decide)
  unitBacking := Double.round_nonneg (nonneg_of_inWire h.unitBacking (by norm_num [lamportsPerSol]))
  maxPrimaryStake := Double.round_nonneg (nonneg_of_inWire h.maxPrimaryStake (by norm_num [lamportsPerSol]))

theorem countsFit_parsed : dto.parsed.CountsFit ↔ dto.CountsFit := by
  have hlength : dto.parsed.rarities.length = dto.rarities.length := List.length_map _
  constructor
  · rintro ⟨hrarities, hnames, hname, htexts⟩
    exact ⟨hlength ▸ hrarities, hnames, hname, htexts⟩
  · rintro ⟨hrarities, hnames, hname, htexts⟩
    exact ⟨hlength.symm ▸ hrarities, hnames, hname, htexts⟩

theorem rarityWeights_parsed (h : dto.ScaledInWire) :
    dto.parsed.rarityWeights .double = dto.rarityWeights .exact := by
  rw [rarityWeights, rarityWeights, parsed, List.map_map]
  refine congrArg Value.array (List.map_congr_left fun rarity hmem => ?_)
  exact written_round (h.rarities rarity hmem) (by decide)

/-- Apart from the four products, what is written is what was submitted. -/
theorem parameters_parsed (h : dto.ScaledInWire)
    (hroyalties : written 2 dto.parsed.royalties = number (dto.creatorRoyalties * 100))
    (hseconds : written 4 dto.parsed.expirationSeconds =
      number (dto.governanceExpirationTime * (24 * 3600))) (unitBacking maxPrimaryStake : Value) :
    dto.parsed.parameters .double unitBacking maxPrimaryStake =
      dto.parameters .exact unitBacking maxPrimaryStake := by
  have hcommission : Arithmetic.double.member 1 dto.parsed.initCommission = number dto.initCommission :=
    written_round h.initCommission (by decide)
  have hshare : Arithmetic.double.member 1 dto.parsed.nftHoldersShare = number dto.nftHoldersShare :=
    written_round h.nftHoldersShare (by decide)
  have hfee : Arithmetic.double.member 1 dto.parsed.initialRedemptionFee =
      number dto.initialRedemptionFee := written_round h.initialRedemptionFee (by decide)
  have hduration : Arithmetic.double.member 4 dto.parsed.redemptionFeeDuration =
      number dto.redemptionFeeDuration := written_round h.redemptionFeeDuration (by decide)
  have hquorum : Arithmetic.double.member 1 dto.parsed.proposalQuorum = number dto.proposalQuorum :=
    written_round h.proposalQuorum (by decide)
  have hroyalties : Arithmetic.double.member 2 (Arithmetic.double.times dto.parsed.creatorRoyalties 100) =
      number (dto.creatorRoyalties * 100) := hroyalties
  have hseconds : Arithmetic.double.member 4
      (Arithmetic.double.times dto.parsed.governanceExpirationTime (24 * 3600)) =
        number (dto.governanceExpirationTime * (24 * 3600)) := hseconds
  rw [parameters, hcommission, hshare, hfee, hduration, hquorum, hroyalties, hseconds,
    rarityWeights_parsed h]
  rfl

/-- What is written is what was submitted exactly if the four products are. -/
theorem scaled_parsed_eq_iff (h : dto.ScaledInWire) (hproducts : dto.parsed.ProductsInRange) :
    dto.parsed.scaled = dto.submitted ↔ dto.ScaledExactly := by
  have hroyalties : written 2 dto.parsed.royalties = .num ⌊dto.parsed.royalties⌋ :=
    if_pos hproducts.creatorRoyalties
  have hseconds : written 4 dto.parsed.expirationSeconds = .num ⌊dto.parsed.expirationSeconds⌋ :=
    if_pos hproducts.governanceExpirationTime
  constructor
  · intro heq
    have hget (name : String) : Object.get dto.parsed.scaled name = Object.get dto.submitted name := by
      rw [heq]
    have hunit : .num ⌊dto.parsed.unitLamports⌋ = number (dto.unitBacking * lamportsPerSol) :=
      hget "unit_backing"
    have hstake : .num ⌊dto.parsed.stakeLamports⌋ = number (dto.maxPrimaryStake * lamportsPerSol) :=
      hget "max_primary_stake"
    have hpoints : written 2 dto.parsed.royalties = number (dto.creatorRoyalties * 100) :=
      hget "creator_royalties"
    have htime : written 4 dto.parsed.expirationSeconds =
        number (dto.governanceExpirationTime * (24 * 3600)) := hget "governance_expiration_time"
    exact {
      unitBacking := (number_eq_num_iff.mp hunit.symm).symm
      maxPrimaryStake := (number_eq_num_iff.mp hstake.symm).symm
      creatorRoyalties := ⟨(number_eq_num_iff.mp (hpoints.symm.trans hroyalties)).symm,
        hproducts.creatorRoyalties.2⟩
      governanceExpirationTime := ⟨(number_eq_num_iff.mp (htime.symm.trans hseconds)).symm,
        hproducts.governanceExpirationTime.2⟩ }
  · intro hexact
    rw [scaled, submitted, ← hexact.unitBacking, ← hexact.maxPrimaryStake, number_intCast, number_intCast]
    apply parameters_parsed h
    · rw [← hexact.creatorRoyalties.1, number_intCast]
      exact hroyalties
    · rw [← hexact.governanceExpirationTime.1, number_intCast]
      exact hseconds

/-- Products that are exact up to fractions are in range where the exact amounts are below `2 ** 53`. -/
theorem productsInRange_of_scaledExactly (h : dto.ScaledInWire) (hexact : dto.ScaledExactly)
    (hunit : dto.unitBacking * lamportsPerSol < 2 ^ 53)
    (hstake : dto.maxPrimaryStake * lamportsPerSol < 2 ^ 53) : dto.parsed.ProductsInRange := by
  have hlt {q : ℚ} (hq : (⌊q⌋ : ℚ) < 2 ^ 53) : q < 2 ^ 53 := by
    have hfloor : ⌊q⌋ < 2 ^ 53 := by exact_mod_cast hq
    exact_mod_cast Int.floor_lt.mp hfloor
  have hnonneg {width : Nat} {q exact : ℚ} (hq : (⌊q⌋ : ℚ) = exact) (hwire : InWire width exact) :
      0 ≤ q := by
    obtain ⟨-, hle, -⟩ := inWire_iff.mp hwire
    calc 0 ≤ exact := hle
      _ = ⌊q⌋ := hq.symm
      _ ≤ q := Int.floor_le q
  exact {
    unitBacking := hlt (hexact.unitBacking ▸ hunit)
    maxPrimaryStake := hlt (hexact.maxPrimaryStake ▸ hstake)
    creatorRoyalties := ⟨hnonneg hexact.creatorRoyalties.1 h.creatorRoyalties, hexact.creatorRoyalties.2⟩
    governanceExpirationTime := ⟨hnonneg hexact.governanceExpirationTime.1 h.governanceExpirationTime,
      hexact.governanceExpirationTime.2⟩ }

/-- The product of two whole numbers comes out exactly below `2 ** 53`. -/
theorem times_of_isWhole {q : ℚ} {scale : ℤ} (hq : IsWhole q) (hscale : 0 < scale) (hnonneg : 0 ≤ q * scale)
    (hlt : q * scale < 2 ^ 53) : Arithmetic.double.times (Double.round q) scale = q * scale := by
  obtain ⟨n, rfl⟩ := hq
  have hproduct : 0 ≤ n * scale := by exact_mod_cast hnonneg
  have hproductLt : n * scale < 2 ^ 53 := by exact_mod_cast hlt
  have hn : 0 ≤ n := nonneg_of_mul_nonneg_left hproduct hscale
  have hle : n ≤ n * scale := le_mul_of_one_le_right hn hscale
  have hround : Double.round n = n := Double.round_intCast (abs_lt.mpr ⟨by omega, by omega⟩)
  show Double.round (Double.round n * scale) = n * scale
  rw [hround, ← Int.cast_mul]
  exact Double.round_intCast (abs_lt.mpr ⟨by omega, hproductLt⟩)

theorem floor_times_of_isWhole {width : Nat} {q : ℚ} {scale : ℤ} (hq : IsWhole q) (hscale : 0 < scale)
    (hwire : InWire width (q * scale)) (hlt : q * scale < 2 ^ 53) :
    (⌊Arithmetic.double.times (Double.round q) scale⌋ : ℚ) = q * scale ∧
      Arithmetic.double.times (Double.round q) scale ≤ 256 ^ width - 1 := by
  obtain ⟨n, hn, hn0, hnlt⟩ := hwire
  have htimes := times_of_isWhole hq hscale (by rw [hn]; exact Int.cast_nonneg hn0) hlt
  have hle : (n : ℚ) ≤ ((256 ^ width - 1 : ℤ) : ℚ) := Int.cast_le.mpr (by omega)
  push_cast at hle
  rw [htimes, hn, Int.floor_intCast]
  exact ⟨rfl, hle⟩

theorem lt_of_inWire {width : Nat} {q : ℚ} (hq : InWire width q) (hwidth : width ≤ 4) : q < 2 ^ 53 := by
  obtain ⟨-, -, hlt⟩ := inWire_iff.mp hq
  calc q < 256 ^ width := hlt
    _ ≤ 256 ^ 4 := pow_le_pow_right₀ (by norm_num) hwidth
    _ < 2 ^ 53 := by norm_num

/-- Whole numbers of SOL, percent and days are safe below `2 ** 53` lamports. -/
theorem scaledExactly_of_isWhole (h : dto.ScaledInWire)
    (hunit : IsWhole dto.unitBacking ∧ dto.unitBacking * lamportsPerSol < 2 ^ 53)
    (hstake : IsWhole dto.maxPrimaryStake ∧ dto.maxPrimaryStake * lamportsPerSol < 2 ^ 53)
    (hroyalties : IsWhole dto.creatorRoyalties) (hdays : IsWhole dto.governanceExpirationTime) :
    dto.ScaledExactly := by
  have hsol : lamportsPerSol = ((1000000000 : ℤ) : ℚ) := rfl
  have hhundred : (100 : ℚ) = ((100 : ℤ) : ℚ) := rfl
  have hday : (24 * 3600 : ℚ) = ((86400 : ℤ) : ℚ) := by norm_num
  have hunitWire := h.unitBacking
  have hstakeWire := h.maxPrimaryStake
  have hroyaltiesWire := h.creatorRoyalties
  have hdaysWire := h.governanceExpirationTime
  have hroyaltiesLt := lt_of_inWire hroyaltiesWire (by decide)
  have hdaysLt := lt_of_inWire hdaysWire (by decide)
  rw [hsol] at hunit hstake hunitWire hstakeWire
  rw [hhundred] at hroyaltiesWire hroyaltiesLt
  rw [hday] at hdaysWire hdaysLt
  constructor
  · rw [hsol]
    exact (floor_times_of_isWhole hunit.1 (by decide) hunitWire hunit.2).1
  · rw [hsol]
    exact (floor_times_of_isWhole hstake.1 (by decide) hstakeWire hstake.2).1
  · rw [hhundred]
    exact floor_times_of_isWhole hroyalties (by decide) hroyaltiesWire hroyaltiesLt
  · rw [hday]
    exact floor_times_of_isWhole hdays (by decide) hdaysWire hdaysLt

/-- What is unchanged was scaled exactly, and `BN` took it. -/
theorem scaledExactly_of_decodes (h : dto.ScaledInWire) {data : Bytes} {tag : Value}
    (hdata : dto.parsed.initProgramData outOfRange = .ok data)
    (hread : ∀ reader, deserialize reader Init.fields data = some (("instruction", tag) :: dto.submitted)) :
    dto.ScaledExactly ∧ (dto.unitBacking * lamportsPerSol < 2 ^ 53 ∧
      dto.maxPrimaryStake * lamportsPerSol < 2 ^ 53) ∧ dto.CountsFit := by
  obtain ⟨hbuilt, hscaled⟩ := initProgramData_spec (plainInWire_parsed h)
  obtain ⟨hproducts, hcounts⟩ := hbuilt.mp ⟨data, hdata⟩
  have hobjects := (hscaled data hdata (.plain false)).symm.trans (hread (.plain false))
  have hexact := (scaled_parsed_eq_iff h hproducts).mp (List.cons.inj (Option.some.inj hobjects)).2
  refine ⟨hexact, ⟨?_, ?_⟩, countsFit_parsed.mp hcounts⟩
  · calc dto.unitBacking * lamportsPerSol = ⌊dto.parsed.unitLamports⌋ := hexact.unitBacking.symm
      _ ≤ dto.parsed.unitLamports := Int.floor_le _
      _ < 2 ^ 53 := hproducts.unitBacking
  · calc dto.maxPrimaryStake * lamportsPerSol = ⌊dto.parsed.stakeLamports⌋ := hexact.maxPrimaryStake.symm
      _ ≤ dto.parsed.stakeLamports := Int.floor_le _
      _ < 2 ^ 53 := hproducts.maxPrimaryStake

/-- **Unchanged data.** A body whose scaled numbers are in range reaches the instruction unchanged exactly
when the products of the service are the exact ones up to a fraction that is cut off, both amounts stay
below `2 ** 53` lamports, and no length exceeds its count. -/
theorem dataUnchanged_iff (outOfRange : String) (h : dto.ScaledInWire) :
    dto.DataUnchanged outOfRange ↔ dto.ScaledExactly ∧ (dto.unitBacking * lamportsPerSol < 2 ^ 53 ∧
      dto.maxPrimaryStake * lamportsPerSol < 2 ^ 53) ∧ dto.CountsFit := by
  constructor
  · rintro ⟨⟨data, hdata, hread⟩, -⟩
    exact scaledExactly_of_decodes h hdata hread
  · rintro ⟨hexact, ⟨hunit, hstake⟩, hfit⟩
    have hplain := plainInWire_parsed h
    have hproducts := productsInRange_of_scaledExactly h hexact hunit hstake
    have hcounts := countsFit_parsed.mpr hfit
    obtain ⟨hbuilt, hscaled⟩ := @initProgramData_spec dto.parsed outOfRange hplain
    obtain ⟨data, hdata⟩ := hbuilt.mpr ⟨hproducts, hcounts⟩
    obtain ⟨rest, hvote⟩ := initProgramData_hasVoteAccount hdata
    refine ⟨⟨data, hdata, fun reader => ?_⟩, rest, hvote true, hvote false⟩
    rw [hscaled data hdata reader, (scaled_parsed_eq_iff h hproducts).mpr hexact]
    rfl

theorem scaledInWire_oneValidator : oneValidator.ScaledInWire where
  initCommission := ⟨10, rfl, by decide⟩
  maxPrimaryStake := ⟨100000000000000, by norm_num [oneValidator, lamportsPerSol], by decide⟩
  nftHoldersShare := ⟨60, rfl, by decide⟩
  initialRedemptionFee := ⟨5, rfl, by decide⟩
  unitBacking := ⟨2000000000, by norm_num [oneValidator, lamportsPerSol], by decide⟩
  redemptionFeeDuration := ⟨604800, rfl, by decide⟩
  proposalQuorum := ⟨65, rfl, by decide⟩
  creatorRoyalties := ⟨200, by norm_num [oneValidator], by decide⟩
  governanceExpirationTime := ⟨604800, by norm_num [oneValidator], by decide⟩
  rarities := by
    intro rarity hmem
    rcases List.mem_pair.mp hmem with rfl | rfl
    · exact ⟨9000, rfl, by decide⟩
    · exact ⟨1000, rfl, by decide⟩

theorem dataUnchanged_iff_oneValidator : oneValidator.DataUnchanged "Out of range value" := by
  have hunit : oneValidator.unitBacking * lamportsPerSol < 2 ^ 53 := by
    norm_num [oneValidator, lamportsPerSol]
  have hstake : oneValidator.maxPrimaryStake * lamportsPerSol < 2 ^ 53 := by
    norm_num [oneValidator, lamportsPerSol]
  have hexact := scaledExactly_of_isWhole scaledInWire_oneValidator ⟨⟨2, rfl⟩, hunit⟩
    ⟨⟨100000, rfl⟩, hstake⟩ ⟨2, rfl⟩ ⟨7, rfl⟩
  exact (dataUnchanged_iff _ scaledInWire_oneValidator).mpr
    ⟨hexact, ⟨hunit, hstake⟩, countsFit_oneValidator⟩

/-- The products fall short of 1031000000 lamports and of 29, and what is left of them is cut off. -/
def fractionValidator : RegisterValidatorDto :=
  { oneValidator with unitBacking := 1031 / 1000, creatorRoyalties := 29 / 100 }

theorem scaledInWire_whaleValidator : whaleValidator.ScaledInWire :=
  { scaledInWire_oneValidator with
    maxPrimaryStake := ⟨10000000000000000, by norm_num [whaleValidator, lamportsPerSol], by decide⟩ }

theorem scaledInWire_fractionValidator : fractionValidator.ScaledInWire :=
  { scaledInWire_oneValidator with
    unitBacking := ⟨1031000000, by norm_num [fractionValidator, lamportsPerSol], by decide⟩
    creatorRoyalties := ⟨29, by norm_num [fractionValidator], by decide⟩ }

theorem scaled_fractionValidator :
    fractionValidator.parsed.scaled.get "unit_backing" = .num 1030999999 ∧
      fractionValidator.parsed.scaled.get "creator_royalties" = .num 28 := by
  have hunit : ⌊fractionValidator.parsed.unitLamports⌋ = 1030999999 := by decide +kernel
  have hrange : 0 ≤ fractionValidator.parsed.royalties ∧
      fractionValidator.parsed.royalties ≤ 256 ^ 2 - 1 := by decide +kernel
  have hroyalties : ⌊fractionValidator.parsed.royalties⌋ = 28 := by decide +kernel
  refine ⟨congrArg Value.num hunit, ?_⟩
  show written 2 fractionValidator.parsed.royalties = .num 28
  rw [written, if_pos hrange, hroyalties]

/-- The one is not built at all, and the other one carries other numbers. -/
theorem not_dataUnchanged_whale_fraction :
    whaleValidator.Accepted oneUrls.contains ∧ whaleValidator.ScaledInWire ∧
      fractionValidator.Accepted oneUrls.contains ∧ fractionValidator.ScaledInWire ∧
      (fractionValidator.parsed.scaled.get "unit_backing" = .num 1030999999 ∧
        fractionValidator.parsed.scaled.get "creator_royalties" = .num 28) ∧
      ∀ outOfRange, ¬whaleValidator.DataUnchanged outOfRange ∧
        ¬fractionValidator.DataUnchanged outOfRange := by
  refine ⟨⟨by decide +kernel, by decide +kernel⟩, scaledInWire_whaleValidator,
    ⟨by decide +kernel, by decide +kernel⟩, scaledInWire_fractionValidator, scaled_fractionValidator,
    fun outOfRange => ⟨?_, ?_⟩⟩
  · rintro ⟨⟨data, hdata, hread⟩, -⟩
    have hlt := (scaledExactly_of_decodes scaledInWire_whaleValidator hdata hread).2.1.2
    norm_num [whaleValidator, lamportsPerSol] at hlt
  · rintro ⟨⟨data, hdata, hread⟩, -⟩
    have hexact := (scaledExactly_of_decodes scaledInWire_fractionValidator hdata hread).1
    exact absurd hexact.unitBacking (by decide +kernel)

end RegisterValidatorDto

end InglMonitor
