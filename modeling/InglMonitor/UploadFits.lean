import InglMonitor.UploadOutcome

/-! When every upload fits a packet. The cut keeps the URIs of a slice below 800 bytes and leaves the
other 19 to the counts of the strings, which four URIs stay within and five may not; and nothing keeps
the number of rarities below what a byte can count. -/

open Borsh Borsh.FieldType GreedyPrefix

namespace InglMonitor

variable (envelope : UploadEnvelope) (outOfRange : String)

/-- The request returns; the rarity of every upload is a byte, its transaction fits a packet. -/
def Uploadable (rarities : List Rarity) : Prop :=
  ∃ uploads, Returns (envelope.api outOfRange) rarities uploads ∧ ∀ upload ∈ uploads,
    upload.payload.rarity < 256 ∧ upload.transaction.length ≤ packetDataSize

theorem total_take_offset_lt (uris : List String) :
    total byteLength (uris.take (offset uris)) < 800 := by
  have hfirst := @total_take_lt String byteLength 800 0 uris (by decide)
  rw [Nat.zero_add] at hfirst
  exact hfirst

theorem total_lt_of_mem_pieces {uris piece : List String} (h : piece ∈ pieces uris) :
    total byteLength piece < 800 := by
  induction uris using pieces_induction with
  | goes uris _ hpieces ih =>
      rw [hpieces] at h
      rcases List.mem_cons.mp h with rfl | h
      · exact total_take_offset_lt uris
      · exact ih h
  | stops uris hpieces =>
      rw [hpieces] at h
      cases List.mem_singleton.mp h
      exact total_take_offset_lt uris

/-- A slice of at most four URIs always fits. -/
theorem wireSize_le_of_length_le_four {uris piece : List String} (h : piece ∈ pieces uris)
    (hlength : piece.length ≤ 4) : wireSize piece ≤ 818 := by
  have htotal := total_lt_of_mem_pieces h
  rw [wireSize]
  omega

/-! ### The uploads -/

variable {envelope} {outOfRange} {rarities : List Rarity}

/-- What is returned fits in any case: a size error keeps the request from returning. -/
theorem fits_of_returns {uploads : List Upload} (h : Returns (envelope.api outOfRange) rarities uploads) :
    ∀ upload ∈ uploads, upload.payload.rarity < 256 ∧ upload.transaction.length ≤ packetDataSize := by
  intro upload hmem
  have hbuilt := (uploads_of_returns h).2 upload hmem
  obtain ⟨-, -, htransaction⟩ := buildUpload_eq_ok_iff.mp hbuilt
  obtain ⟨hdata, htransaction⟩ := envelope.serialize_eq_ok_iff.mp htransaction
  refine ⟨((exists_upload_iff envelope upload.payload).mp ⟨upload, hbuilt⟩).1, ?_⟩
  rw [htransaction, envelope.wireTransaction_length_le_iff]
  exact hdata

theorem uploadable_iff_returns : Uploadable envelope outOfRange rarities ↔
    ∃ uploads, Returns (envelope.api outOfRange) rarities uploads := by
  refine exists_congr fun uploads => ?_
  exact and_iff_left_of_imp fits_of_returns

theorem not_stuck_of_short {uris : List String} (h : ∀ uri ∈ uris, byteLength uri < 800) :
    ¬Stuck uris :=
  not_stuck_iff.mpr fun uri hmem => h uri (List.dropLast_subset _ hmem)

/-- **Uploadable URIs.** With URIs below 800 bytes, no upload raises a size error exactly when there are
at most 256 rarities and the bytes of every slice, four more for each URI, are at most 818. -/
theorem uploadable_iff (h : ∀ rarity ∈ rarities, ∀ uri ∈ rarity.uris, byteLength uri < 800) :
    Uploadable envelope outOfRange rarities ↔ rarities.length ≤ 256 ∧
      ∀ rarity ∈ rarities, ∀ piece ∈ pieces rarity.uris,
        4 * piece.length + total byteLength piece ≤ 818 := by
  rw [uploadable_iff_returns, exists_returns_envelope_iff]
  exact and_iff_right fun rarity hmem => not_stuck_of_short (h rarity hmem)

theorem uploadable_iff_oneValidator :
    Uploadable devnetEnvelope "Out of range value" oneValidator.rarities := by
  have hshort : ∀ rarity ∈ oneValidator.rarities, ∀ uri ∈ rarity.uris, byteLength uri < 800 := by
    decide +kernel
  have hfour : ∀ rarity ∈ oneValidator.rarities, total byteLength rarity.uris < 800 ∧
      rarity.uris.length ≤ 4 := by decide +kernel
  refine (uploadable_iff hshort).mpr ⟨by decide, fun rarity hmem piece hpiece => ?_⟩
  obtain ⟨htotal, hlength⟩ := hfour rarity hmem
  refine wireSize_le_of_length_le_four hpiece ?_
  rw [pieces_of_total_lt htotal, List.mem_singleton] at hpiece
  rw [hpiece]
  exact hlength

/-- Five URIs of 799 bytes in all. -/
def fiveUris : UploadUrisDto where
  payerId := "9DvpyaJmpAag7spwD4VnjFyZmeoy8HZeXhwvNMKi64hh"
  rarities := [⟨10000, List.replicate 4 ("https://arweave.net/" ++ String.ofList (List.replicate 140 'a')) ++
    ["https://arweave.net/" ++ String.ofList (List.replicate 139 'b')]⟩]

theorem not_uploadable_fiveUris : fiveUris.Valid ∧
    (∀ rarity ∈ fiveUris.rarities, ∀ uri ∈ rarity.uris, byteLength uri < 800) ∧
      ¬Uploadable devnetEnvelope "Out of range value" fiveUris.rarities := by
  refine ⟨by decide +kernel, by decide +kernel, fun h => ?_⟩
  have hsize : ∀ rarity ∈ fiveUris.rarities, total byteLength rarity.uris < 800 ∧
      818 < wireSize rarity.uris := by decide +kernel
  obtain ⟨-, -, hfits⟩ := (exists_returns_envelope_iff devnetEnvelope).mp (uploadable_iff_returns.mp h)
  obtain ⟨rarity, hget⟩ : ∃ rarity, fiveUris.rarities[0]? = some rarity := ⟨_, rfl⟩
  have hmem := List.mem_of_getElem? hget
  obtain ⟨htotal, hwire⟩ := hsize rarity hmem
  have hpiece := hfits rarity hmem rarity.uris
  rw [pieces_of_total_lt htotal, List.mem_singleton] at hpiece
  exact absurd (hpiece rfl) (by omega)

end InglMonitor
