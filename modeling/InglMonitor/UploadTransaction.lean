import InglMonitor.LegacyTransaction
import InglMonitor.UploadSplitter
import Mathlib.Algebra.Order.BigOperators.Group.List

/-! The size of one upload. The splitter counts the bytes of the URIs; on the wire each of them comes
with a count of four bytes. -/

open Borsh Borsh.FieldType GreedyPrefix

namespace InglMonitor

/-- The bytes that some URIs take in a vector. -/
def wireSize (uris : List String) : Nat := 4 * uris.length + total byteLength uris

theorem sum_map_byteLength (uris : List String) :
    (uris.map fun uri => 4 + byteLength uri).sum = wireSize uris := by
  rw [List.sum_map_add, List.map_const', List.sum_replicate_nat, Nat.mul_comm, wireSize, total]

theorem byteLength_le_wireSize {uris : List String} : ∀ uri ∈ uris, byteLength uri ≤ wireSize uris := by
  intro uri hmem
  have htotal : byteLength uri ≤ total byteLength uris :=
    List.le_sum_of_mem (List.mem_map_of_mem hmem)
  rw [wireSize]
  omega

namespace UploadPayload

variable {payload : UploadPayload} {outOfRange : String} {data : Bytes}

theorem data_eq_ok_iff : payload.data outOfRange = .ok data ↔
    InstructionClass.uploadUris.serialize payload.toObject = some data := by
  rw [UploadPayload.data]
  cases InstructionClass.uploadUris.serialize payload.toObject <;> simp

/-- The members of the payload one after the other. -/
theorem serialize_toObject (payload : UploadPayload) :
    InstructionClass.uploadUris.serialize payload.toObject = do
      let uris ← encode (vec string) (.array (payload.uris.map .str))
      let rarity ← encode u8 (.num payload.rarity)
      return 8 :: (uris ++ (rarity ++ [0])) := by
  have htag : encode u8 (.num 8) = some [8] := by decide
  have hlevel : encode u8 (.num 0) = some [0] := by decide
  have hobject : InstructionClass.uploadUris.new payload.toObject =
      payload.toObject ++ [("instruction", .num 8)] := rfl
  rw [InstructionClass.serialize, hobject]
  simp only [InstructionClass.fields, UploadUris.fields, encode_struct_cons, encode_struct_nil, toObject,
    List.cons_append, List.nil_append, Object.get_cons, String.reduceEq, if_true, if_false, htag, hlevel,
    Option.bind_eq_bind, Option.bind_some, Option.pure_def, Option.bind_assoc, List.append_nil]

/-- A tag, a count, the URIs, the rarity and the log level. -/
theorem data_length (h : payload.data outOfRange = .ok data) : data.length = 7 + wireSize payload.uris := by
  rw [data_eq_ok_iff, serialize_toObject] at h
  obtain ⟨uris, huris, h⟩ := Option.bind_eq_some_iff.mp h
  obtain ⟨rarity, hrarity, h⟩ := Option.bind_eq_some_iff.mp h
  cases h
  have hsize := encode_vec_strings_length huris
  have hone : rarity.length = 1 := by
    cases (Option.ite_none_right_eq_some.mp hrarity).2
    exact leBytes_length 1 _
  have hsum := sum_map_byteLength payload.uris
  unfold byteLength at hsum
  simp only [List.length_cons, List.length_append, List.length_nil, hsize, hsum, hone]
  omega

theorem hasType_rarity_iff : HasType u8 (.num payload.rarity) ↔ payload.rarity < 256 := by
  simp only [HasType, Int.natCast_nonneg, true_and, Int.reducePow]
  omega

/-- The payload is an argument of the declared type. -/
theorem declared_iff : InstructionClass.uploadUris.Declared payload.toObject ↔
    payload.rarity < 256 ∧ payload.uris.length < 2 ^ 32 ∧
      ∀ uri ∈ payload.uris, byteLength uri < 2 ^ 32 := by
  have hlevel : HasType u8 (.num 0) := by simp [HasType]
  have hfields : InstructionClass.uploadUris.params =
      [("uris", vec string), ("rarity", u8), ("log_level", u8)] := by decide
  have hparams : HasMembers InstructionClass.uploadUris.params payload.toObject ↔
      (payload.uris.length < 2 ^ 32 ∧ ∀ uri ∈ payload.uris, byteLength uri < 2 ^ 32) ∧
        payload.rarity < 256 := by
    rw [hfields]
    simp only [HasMembers, List.forall_mem_cons, toObject, Object.get_cons, String.reduceEq, if_true,
      if_false, hasType_vec_strings_iff, hasType_rarity_iff, hlevel, byteLength, List.not_mem_nil,
      false_imp_iff, implies_true, and_true]
  constructor
  · intro h
    exact (hparams.mp h.params).symm
  · intro h
    exact ⟨by simp [toObject], hparams.mpr h.symm⟩

theorem declared_of_data (h : payload.data outOfRange = .ok data) :
    InstructionClass.uploadUris.Declared payload.toObject := by
  rw [data_eq_ok_iff, serialize_toObject] at h
  obtain ⟨uris, huris, h⟩ := Option.bind_eq_some_iff.mp h
  obtain ⟨rarity, hrarity, -⟩ := Option.bind_eq_some_iff.mp h
  exact declared_iff.mpr ⟨hasType_rarity_iff.mp (hasType_of_encode rfl hrarity),
    hasType_vec_strings_iff.mp (hasType_of_encode rfl huris)⟩

/-- The program reads the payload back. -/
theorem decodeInstruction_data (h : payload.data outOfRange = .ok data) (reader : Reader) :
    InstructionClass.decodeInstruction reader data =
      some (.uploadUris, ("instruction", .num 8) :: payload.toObject) :=
  InstructionClass.decodeInstruction_serialize (declared_of_data h) nofun (data_eq_ok_iff.mp h) reader

end UploadPayload

/-- What the libraries make of a request within an envelope. -/
def UploadEnvelope.api (envelope : UploadEnvelope) (outOfRange : String) : UploadApi where
  outOfRange := outOfRange
  transact := envelope.serialize

def devnetApi : UploadApi := devnetEnvelope.api "Out of range value"

/-- An upload is built exactly when the rarity is a byte and the URIs leave room for the rest. -/
theorem exists_upload_iff (envelope : UploadEnvelope) (payload : UploadPayload) {outOfRange : String} :
    (∃ upload, buildUpload (envelope.api outOfRange) payload = .ok upload) ↔
      payload.rarity < 256 ∧ wireSize payload.uris ≤ 818 := by
  simp only [buildUpload_eq_ok_iff, UploadEnvelope.api, envelope.serialize_eq_ok_iff]
  constructor
  · rintro ⟨upload, rfl, hdata, hfits, -⟩
    rw [UploadPayload.data_length hdata] at hfits
    exact ⟨(UploadPayload.declared_iff.mp (UploadPayload.declared_of_data hdata)).1, by omega⟩
  · rintro ⟨hrarity, hfits⟩
    have hdeclared : InstructionClass.uploadUris.Declared payload.toObject := by
      refine UploadPayload.declared_iff.mpr ⟨hrarity, ?_, fun uri hmem => ?_⟩
      · rw [wireSize] at hfits
        omega
      · have := byteLength_le_wireSize uri hmem
        omega
    obtain ⟨data, hdata⟩ := InstructionClass.exists_serialize hdeclared nofun
    rw [← UploadPayload.data_eq_ok_iff] at hdata
    refine ⟨⟨payload, data, envelope.wireTransaction data⟩, rfl, hdata, ?_, rfl⟩
    rw [UploadPayload.data_length hdata]
    omega

end InglMonitor
