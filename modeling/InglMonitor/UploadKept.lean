import InglMonitor.UploadOutcome

/-! What the uploads carry. The slices of one rarity never overlap and stay in order, but the last cut
may leave something behind: once the URIs of a rarity total 800 bytes, its tail is lost. -/

open Borsh Borsh.FieldType GreedyPrefix

namespace InglMonitor

/-- The `uris` vectors of the payloads with this rarity, one after the other. -/
def taggedUris (index : Nat) (payloads : List UploadPayload) : List String :=
  (payloads.filter fun payload => payload.rarity = index).flatMap (·.uris)

/-- Each instruction decodes to its payload, and together the payloads of a rarity carry its URIs. -/
structure UrisKept (rarities : List Rarity) (uploads : List Upload) : Prop where
  decodes : ∀ upload ∈ uploads, ∀ reader, InstructionClass.decodeInstruction reader upload.data =
    some (.uploadUris, ("instruction", .num 8) :: upload.payload.toObject)
  kept : ∀ index rarity, rarities[index]? = some rarity →
    taggedUris index (uploads.map (·.payload)) = rarity.uris

theorem taggedUris_append (index : Nat) (xs ys : List UploadPayload) :
    taggedUris index (xs ++ ys) = taggedUris index xs ++ taggedUris index ys := by
  rw [taggedUris, List.filter_append, List.flatMap_append, taggedUris, taggedUris]

theorem taggedUris_eq_nil {index : Nat} {payloads : List UploadPayload}
    (h : ∀ payload ∈ payloads, payload.rarity ≠ index) : taggedUris index payloads = [] := by
  rw [taggedUris, List.filter_eq_nil_iff.mpr fun payload hmem => by simpa using h payload hmem,
    List.flatMap_nil]

theorem taggedUris_map (index : Nat) (pieces : List (List String)) :
    taggedUris index (pieces.map (⟨·, index⟩)) = pieces.flatten := by
  rw [taggedUris, List.filter_eq_self.mpr fun payload hmem => ?_, List.flatMap_map]
  · exact List.flatMap_id'
  · obtain ⟨piece, -, rfl⟩ := List.mem_map.mp hmem
    exact decide_eq_true rfl

theorem le_rarity_of_mem_payloads {index : Nat} {rarities : List Rarity} {payload : UploadPayload}
    (h : payload ∈ payloads index rarities) : index ≤ payload.rarity := by
  induction rarities generalizing index with
  | nil => cases h
  | cons rarity rarities ih =>
      rcases List.mem_append.mp h with h | h
      · obtain ⟨piece, -, rfl⟩ := List.mem_map.mp h
        exact Nat.le_refl index
      · have := ih h
        omega

/-- The payloads of the rarity at a position are its pieces. -/
theorem taggedUris_payloads {index i : Nat} {rarities : List Rarity} {rarity : Rarity}
    (h : rarities[i]? = some rarity) :
    taggedUris (index + i) (payloads index rarities) = (pieces rarity.uris).flatten := by
  induction rarities generalizing index i with
  | nil => cases h
  | cons first rarities ih =>
      rw [payloads, taggedUris_append]
      cases i with
      | zero =>
          cases h
          rw [Nat.add_zero, taggedUris_map, taggedUris_eq_nil, List.append_nil]
          intro payload hmem
          have := le_rarity_of_mem_payloads hmem
          omega
      | succ i =>
          have hindex : index + (i + 1) = index + 1 + i := by omega
          rw [hindex, ih h, taggedUris_eq_nil, List.nil_append]
          intro payload hmem
          obtain ⟨piece, -, rfl⟩ := List.mem_map.mp hmem
          show index ≠ index + 1 + i
          omega

/-- Nothing is repeated or moved: the pieces make up a prefix. -/
theorem pieces_flatten_prefix (uris : List String) : (pieces uris).flatten <+: uris := by
  induction uris using pieces_induction with
  | goes uris _ hpieces ih =>
      have hprefix := (List.prefix_append_right_inj (uris.take (offset uris))).mpr ih
      rw [List.take_append_drop] at hprefix
      rw [hpieces, List.flatten_cons]
      exact hprefix
  | stops uris hpieces =>
      rw [hpieces, List.flatten_cons, List.flatten_nil, List.append_nil]
      exact List.take_prefix _ _

/-- The prefix is everything exactly when the URIs fit into one piece. -/
theorem pieces_flatten_eq_iff (uris : List String) :
    (pieces uris).flatten = uris ↔ total byteLength uris < 800 := by
  constructor
  · intro hflatten
    apply offset_eq_length_iff.mp
    induction uris using pieces_induction with
    | goes uris hagain hpieces ih =>
        -- the next cut leaves something behind, and so does the last one
        rw [hpieces, List.flatten_cons] at hflatten
        have hsplit := hflatten.trans (List.take_append_drop (offset uris) uris).symm
        have hall := ih (List.append_cancel_left hsplit)
        omega
    | stops uris hpieces =>
        rw [hpieces, List.flatten_cons, List.flatten_nil, List.append_nil] at hflatten
        have hlength := congrArg List.length hflatten
        rw [List.length_take, Nat.min_eq_left (offset_le_length uris)] at hlength
        exact hlength
  · intro h
    rw [pieces_of_total_lt h, List.flatten_cons, List.flatten_nil, List.append_nil]

/-! ### What is kept -/

variable {api : UploadApi} {rarities : List Rarity} {uploads : List Upload}

theorem taggedUris_of_returns (h : Returns api rarities uploads) {index : Nat} {rarity : Rarity}
    (hget : rarities[index]? = some rarity) :
    taggedUris index (uploads.map (·.payload)) = (pieces rarity.uris).flatten := by
  have hpayloads := @taggedUris_payloads 0 index rarities rarity hget
  rwa [Nat.zero_add, ← (uploads_of_returns h).1] at hpayloads

theorem decodes_of_returns (h : Returns api rarities uploads) : ∀ upload ∈ uploads, ∀ reader,
    InstructionClass.decodeInstruction reader upload.data =
      some (.uploadUris, ("instruction", .num 8) :: upload.payload.toObject) := fun upload hmem =>
  UploadPayload.decodeInstruction_data
    (buildUpload_eq_ok_iff.mp ((uploads_of_returns h).2 upload hmem)).2.1

/-- **Kept URIs.** A request that returns has kept the URIs of all rarities exactly when each rarity has
less than 800 bytes of them. In any case nothing is repeated or moved: what is lost of a rarity is its
tail. -/
theorem urisKept_iff (h : Returns api rarities uploads) :
    (UrisKept rarities uploads ↔ ∀ rarity ∈ rarities, total byteLength rarity.uris < 800) ∧
      ∀ index rarity, rarities[index]? = some rarity →
        taggedUris index (uploads.map (·.payload)) <+: rarity.uris := by
  refine ⟨⟨?_, ?_⟩, ?_⟩
  · rintro ⟨-, hkept⟩ rarity hmem
    obtain ⟨index, hget⟩ := List.mem_iff_getElem?.mp hmem
    rw [← pieces_flatten_eq_iff, ← taggedUris_of_returns h hget]
    exact hkept index rarity hget
  · intro hshort
    refine ⟨decodes_of_returns h, fun index rarity hget => ?_⟩
    rw [taggedUris_of_returns h hget, pieces_flatten_eq_iff]
    exact hshort rarity (List.mem_of_getElem? hget)
  · intro index rarity hget
    rw [taggedUris_of_returns h hget]
    exact pieces_flatten_prefix rarity.uris

theorem urisKept_iff_oneValidator : ∃ uploads,
    Returns devnetApi oneValidator.rarities uploads ∧
      UrisKept oneValidator.rarities uploads := by
  have hshort : ∀ rarity ∈ oneValidator.rarities, total byteLength rarity.uris < 800 := by
    decide +kernel
  have hfits : ∀ rarity ∈ oneValidator.rarities, wireSize rarity.uris ≤ 818 := by decide +kernel
  have hstuck : ∀ rarity ∈ oneValidator.rarities, ¬Stuck rarity.uris := by decide +kernel
  have hpieces : ∀ rarity ∈ oneValidator.rarities, ∀ piece ∈ pieces rarity.uris,
      wireSize piece ≤ 818 := by
    intro rarity hmem
    rw [pieces_of_total_lt (hshort rarity hmem), List.forall_mem_singleton]
    exact hfits rarity hmem
  obtain ⟨uploads, h⟩ :=
    (exists_returns_envelope_iff devnetEnvelope).mpr ⟨hstuck, by decide, hpieces⟩
  exact ⟨uploads, h, (urisKept_iff h).1.mpr hshort⟩

/-- Two URIs of 500 bytes each. -/
def evenUris : UploadUrisDto where
  payerId := "9DvpyaJmpAag7spwD4VnjFyZmeoy8HZeXhwvNMKi64hh"
  rarities := [⟨10000, ["https://arweave.net/" ++ String.ofList (List.replicate 480 'a'),
    "https://arweave.net/" ++ String.ofList (List.replicate 480 'b')]⟩]

/-- They are not stuck, so the request returns, but the second one is in no upload. -/
theorem not_urisKept_evenUris : evenUris.Valid ∧
    (∀ rarity ∈ evenUris.rarities, ∀ uri ∈ rarity.uris, byteLength uri < 800) ∧ ∃ uploads,
      Returns devnetApi evenUris.rarities uploads ∧
        ¬UrisKept evenUris.rarities uploads := by
  refine ⟨by decide +kernel, by decide +kernel, ?_⟩
  have hone : ∀ rarity ∈ evenUris.rarities, offset rarity.uris = 1 ∧ rarity.uris.length = 2 := by
    decide +kernel
  have hstuck : ∀ rarity ∈ evenUris.rarities, ¬Stuck rarity.uris := by decide +kernel
  have hfits : ∀ rarity ∈ evenUris.rarities, wireSize (rarity.uris.take 1) ≤ 818 := by decide +kernel
  have hlong : ∀ rarity ∈ evenUris.rarities, ¬total byteLength rarity.uris < 800 := by
    decide +kernel
  have hpieces : ∀ rarity ∈ evenUris.rarities, ∀ piece ∈ pieces rarity.uris,
      wireSize piece ≤ 818 := by
    intro rarity hmem
    obtain ⟨hoffset, hlength⟩ := hone rarity hmem
    rw [pieces_of_stops, hoffset, List.forall_mem_singleton]
    · exact hfits rarity hmem
    · rw [hoffset, List.length_drop, hlength]
      omega
  obtain ⟨uploads, h⟩ :=
    (exists_returns_envelope_iff devnetEnvelope).mpr ⟨hstuck, by decide, hpieces⟩
  refine ⟨uploads, h, fun hkept => ?_⟩
  obtain ⟨rarity, hget⟩ : ∃ rarity, evenUris.rarities[0]? = some rarity := ⟨_, rfl⟩
  have hflatten := hkept.kept 0 rarity hget
  rw [taggedUris_of_returns h hget, pieces_flatten_eq_iff] at hflatten
  exact hlong rarity (List.mem_of_getElem? hget) hflatten

end InglMonitor
