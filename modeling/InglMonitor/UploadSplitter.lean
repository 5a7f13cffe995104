import InglMonitor.DoWhile
import InglMonitor.GreedyPrefix
import InglMonitor.ProgramDto
import InglMonitor.StateInstructionFormat
import Mathlib.Order.Bounds.Defs

/-! The upload of rarity URIs in several transactions. For each rarity a `do … while` loop cuts off as
many URIs as stay below 800 bytes and puts them into one transaction; it goes on while more than one
URI would be left behind the next cut. -/

open Borsh Borsh.FieldType GreedyPrefix

namespace InglMonitor

/-- What distinguishes the transactions of one request. -/
structure UploadPayload where
  uris : List String
  rarity : Nat
  deriving DecidableEq

/-- The argument of `new UploadUris`. -/
def UploadPayload.toObject (payload : UploadPayload) : Object :=
  [("uris", .array (payload.uris.map .str)), ("rarity", .num payload.rarity), ("log_level", .num 0)]

/-- What the libraries contribute to the transactions of a request. -/
structure UploadApi where
  /-- The message of `serialize` for what it refuses. -/
  outOfRange : String
  /-- What web3.js makes of the instruction data, with the accounts, the blockhash and the signer that all
  transactions of a request share. -/
  transact : Bytes → Except String Bytes

/-- `Buffer.from(serialize(new UploadUris({ … })))`. -/
def UploadPayload.data (outOfRange : String) (payload : UploadPayload) : Except String Bytes :=
  match InstructionClass.uploadUris.serialize payload.toObject with
  | some data => .ok data
  | none => .error outOfRange

/-- An element of the result, with the instruction that its transaction carries. -/
structure Upload where
  payload : UploadPayload
  data : Bytes
  transaction : Bytes
  deriving DecidableEq

section Model

variable (api : UploadApi)

def buildUpload (payload : UploadPayload) : Except String Upload := do
  let data ← payload.data api.outOfRange
  let transaction ← api.transact data
  return { payload, data, transaction }

/-- `Buffer.from(uri).length`. -/
def byteLength (uri : String) : Nat := (utf8 uri).length

/-- The offset, and the accumulated length. -/
def getNextOffset (array : List String) (maxOffset : Nat) : Nat × Nat :=
  array.zipIdx.foldl (fun (pIndex, len) (uri, index) =>
    let uriLen := len + byteLength uri
    if uriLen < maxOffset then (index + 1, uriLen) else (pIndex, uriLen)) (0, 0)

/-- The variables of the loop. -/
structure SplitState where
  uris : List String
  endIndex : Nat
  transactions : List Upload

/-- With the offset of what is left. -/
def SplitState.next (uris : List String) (transactions : List Upload) : SplitState :=
  ⟨uris, (getNextOffset uris 800).1, transactions⟩

def splitBody (index : Nat) (s : SplitState) : Except String SplitState := do
  let upload ← buildUpload api ⟨s.uris.take s.endIndex, index⟩
  return .next (s.uris.drop s.endIndex) (s.transactions ++ [upload])

/-- `endIndex < uris.length - 1`. -/
def splitAgain (s : SplitState) : Bool := s.endIndex + 1 < s.uris.length

/-- The reduction over the rarities, with so much fuel for each loop. -/
def uploadRarities (fuel : Nat) :
    Nat → List Rarity → List Upload → Option (Except String (List Upload))
  | _, [], transactions => some (.ok transactions)
  | index, rarity :: rarities, transactions =>
      match DoWhile.run (splitBody api index) splitAgain fuel (.next rarity.uris transactions) with
      | none => none
      | some (.error message) => some (.error message)
      | some (.ok s) => uploadRarities fuel (index + 1) rarities s.transactions

/-- Every error leaves as an exception with its message. -/
def createUploadRaritiesUrisTrans (fuel : Nat) (rarities : List Rarity) :
    Option (Except HttpException (List Upload)) :=
  (uploadRarities api fuel 0 rarities []).map fun result =>
    result.mapError fun message => ⟨message, .internalServerError⟩

/-- The request ends, with uploads or with an exception. -/
def Terminates (rarities : List Rarity) : Prop :=
  ∃ fuel result, createUploadRaritiesUrisTrans api fuel rarities = some result

def Returns (rarities : List Rarity) (uploads : List Upload) : Prop :=
  ∃ fuel, createUploadRaritiesUrisTrans api fuel rarities = some (.ok uploads)

end Model

theorem buildUpload_eq_ok_iff {api : UploadApi} {payload : UploadPayload}
    {upload : Upload} : buildUpload api payload = .ok upload ↔
      upload.payload = payload ∧ payload.data api.outOfRange = .ok upload.data ∧
        api.transact upload.data = .ok upload.transaction := by
  rw [buildUpload, bind_eq_ok]
  constructor
  · rintro ⟨data, hdata, h⟩
    obtain ⟨transaction, htransaction, h⟩ := bind_eq_ok.mp h
    cases h
    exact ⟨rfl, hdata, htransaction⟩
  · rintro ⟨rfl, hdata, htransaction⟩
    exact ⟨upload.data, hdata, bind_eq_ok.mpr ⟨upload.transaction, htransaction, rfl⟩⟩

/-- The fold carries on with the total; the offset stops moving when the limit is reached. -/
theorem foldl_getNextOffset (maxOffset : Nat) (array : List String) (index pIndex len : Nat) :
    (array.zipIdx index).foldl (fun (pIndex, len) (uri, index) =>
      let uriLen := len + byteLength uri
      if uriLen < maxOffset then (index + 1, uriLen) else (pIndex, uriLen)) (pIndex, len) =
    (if prefixLength byteLength maxOffset len array = 0 then pIndex
      else index + prefixLength byteLength maxOffset len array, len + total byteLength array) := by
  induction array generalizing index pIndex len with
  | nil => rfl
  | cons uri array ih =>
      rw [List.zipIdx_cons, List.foldl_cons, prefixLength, total_cons]
      by_cases hfits : len + byteLength uri < maxOffset
      · simp only [hfits, if_true, ih, Nat.succ_ne_zero, if_false, Nat.add_assoc]
        split
        · rename_i hzero
          rw [hzero]
        · rw [Nat.add_comm 1]
      · simp only [hfits, if_false, ih, prefixLength_of_le (not_lt.mp hfits), if_true, Nat.add_assoc]

theorem getNextOffset_eq (array : List String) (maxOffset : Nat) : getNextOffset array maxOffset =
    (prefixLength byteLength maxOffset 0 array, total byteLength array) := by
  have hfold := foldl_getNextOffset maxOffset array 0 0 0
  rw [Nat.zero_add, Nat.zero_add] at hfold
  refine hfold.trans ?_
  split
  · rename_i hzero
    rw [hzero]
  · rfl

/-- **Offsets.** The offset is the greatest number of leading strings that stay below the limit, and it
does not move again once the running length has reached the limit. -/
theorem getNextOffset_isGreatest (array : List String) (maxOffset : Nat) :
    IsGreatest {k | k ≤ array.length ∧ (k = 0 ∨ total byteLength (array.take k) < maxOffset)}
        (getNextOffset array maxOffset).1 ∧
      ∀ later, maxOffset ≤ total byteLength array →
        (getNextOffset (array ++ later) maxOffset).1 = (getNextOffset array maxOffset).1 := by
  have hfits {k : Nat} (hk : k ≤ array.length) :
      k ≤ prefixLength byteLength maxOffset 0 array ↔
        k = 0 ∨ total byteLength (array.take k) < maxOffset := by
    rw [le_prefixLength_iff hk, Nat.zero_add]
  simp only [getNextOffset_eq]
  refine ⟨⟨⟨prefixLength_le_length, ?_⟩, ?_⟩, ?_⟩
  · exact (hfits prefixLength_le_length).mp (Nat.le_refl _)
  · rintro k ⟨hk, hless⟩
    exact (hfits hk).mpr hless
  · intro later hreached
    apply prefixLength_append_of_le
    rw [Nat.zero_add]
    exact hreached

/-- The length of the piece that is cut off next. -/
def offset (uris : List String) : Nat := prefixLength byteLength 800 0 uris

/-- The slices that get a transaction, as far as each cut takes something away. -/
def pieces (uris : List String) : List (List String) :=
  uris.take (offset uris) ::
    if _h : offset uris ≠ 0 ∧ offset (uris.drop (offset uris)) + 1 < (uris.drop (offset uris)).length then
      pieces (uris.drop (offset uris))
    else []
termination_by uris.length
decreasing_by
  rw [List.length_drop] at _h ⊢
  omega

/-- A URI that no cut can take stands in front of another one. -/
def Stuck (uris : List String) : Prop := ∃ uri ∈ uris.dropLast, 800 ≤ byteLength uri

instance (uris : List String) : Decidable (Stuck uris) :=
  inferInstanceAs (Decidable (∃ uri ∈ uris.dropLast, 800 ≤ byteLength uri))

theorem next_eq (uris : List String) (transactions : List Upload) :
    SplitState.next uris transactions = ⟨uris, offset uris, transactions⟩ := by
  rw [SplitState.next, getNextOffset_eq]
  rfl

theorem offset_le_length (uris : List String) : offset uris ≤ uris.length := prefixLength_le_length

/-- What cannot be taken now cannot be taken later. -/
theorem stuck_drop_iff (uris : List String) : Stuck (uris.drop (offset uris)) ↔ Stuck uris := by
  have hsplit := List.take_append_drop (offset uris) uris
  have hshort : ∀ uri ∈ uris.take (offset uris), byteLength uri < 800 := fun uri =>
    weight_lt_of_mem_take
  by_cases hrest : uris.drop (offset uris) = []
  · rw [hrest, List.append_nil] at hsplit
    rw [hrest]
    refine iff_of_false (fun h => ?_) (fun h => ?_)
    · obtain ⟨uri, hmem, -⟩ := h
      cases hmem
    · obtain ⟨uri, hmem, hlong⟩ := h
      rw [← hsplit] at hmem
      exact absurd (hshort uri (List.dropLast_subset _ hmem)) (by omega)
  · have hdropLast : uris.dropLast =
        uris.take (offset uris) ++ (uris.drop (offset uris)).dropLast := by
      rw [← List.dropLast_append_of_ne_nil hrest, hsplit]
    constructor
    · rintro ⟨uri, hmem, hlong⟩
      exact ⟨uri, by rw [hdropLast]; exact List.mem_append_right _ hmem, hlong⟩
    · rintro ⟨uri, hmem, hlong⟩
      rw [hdropLast] at hmem
      rcases List.mem_append.mp hmem with hmem | hmem
      · exact absurd (hshort uri hmem) (by omega)
      · exact ⟨uri, hmem, hlong⟩

/-- A loop that is stuck goes on. -/
theorem Stuck.again {uris : List String} (h : Stuck uris) : offset uris + 1 < uris.length := by
  obtain ⟨uri, hmem, -⟩ := (stuck_drop_iff uris).mpr h
  have hpos := List.length_pos_of_mem hmem
  rw [List.length_dropLast, List.length_drop] at hpos
  omega

/-- Where nothing can be cut off though more than one URI is left, the loop is stuck. -/
theorem stuck_of_offset_eq_zero {uris : List String} (hzero : offset uris = 0)
    (hagain : offset uris + 1 < uris.length) : Stuck uris := by
  cases uris with
  | nil => simp at hagain
  | cons uri uris =>
      have hne : uris ≠ [] := by
        rintro rfl
        simp at hagain
      refine ⟨uri, ?_, limit_le_of_prefixLength_eq_zero hzero rfl⟩
      rw [List.dropLast_cons_of_ne_nil hne]
      exact List.mem_cons_self

theorem pieces_ne_nil (uris : List String) : pieces uris ≠ [] := by
  rw [pieces]
  exact List.cons_ne_nil _ _

theorem pieces_of_goes {uris : List String} (hzero : offset uris ≠ 0)
    (hagain : offset (uris.drop (offset uris)) + 1 < (uris.drop (offset uris)).length) :
    pieces uris = uris.take (offset uris) :: pieces (uris.drop (offset uris)) := by
  rw [pieces, dif_pos ⟨hzero, hagain⟩]

theorem pieces_of_stops {uris : List String} (h : ¬(offset uris ≠ 0 ∧
    offset (uris.drop (offset uris)) + 1 < (uris.drop (offset uris)).length)) :
    pieces uris = [uris.take (offset uris)] := by
  rw [pieces, dif_neg h]

/-- Induction along the cuts. -/
theorem pieces_induction {motive : List String → Prop}
    (goes : ∀ uris, offset (uris.drop (offset uris)) + 1 < (uris.drop (offset uris)).length →
      pieces uris = uris.take (offset uris) :: pieces (uris.drop (offset uris)) →
      motive (uris.drop (offset uris)) → motive uris)
    (stops : ∀ uris, pieces uris = [uris.take (offset uris)] → motive uris) (uris : List String) :
    motive uris := by
  induction uris using pieces.induct with
  | case1 uris ih =>
      by_cases hgoes : offset uris ≠ 0 ∧
          offset (uris.drop (offset uris)) + 1 < (uris.drop (offset uris)).length
      · exact goes uris hgoes.2 (pieces_of_goes hgoes.1 hgoes.2) (ih hgoes)
      · exact stops uris (pieces_of_stops hgoes)

theorem offset_eq_length_iff {uris : List String} :
    offset uris = uris.length ↔ total byteLength uris < 800 := by
  rw [offset, prefixLength_eq_length_iff (by decide), Nat.zero_add]

/-- URIs that fit are sent at once. -/
theorem pieces_of_total_lt {uris : List String} (h : total byteLength uris < 800) :
    pieces uris = [uris] := by
  have hoffset := offset_eq_length_iff.mpr h
  have hrest : uris.drop (offset uris) = [] := by rw [hoffset, List.drop_length]
  rw [pieces_of_stops, hoffset, List.take_length]
  rw [hrest]
  exact fun hgoes => Nat.not_lt_zero _ hgoes.2

/-! ### The loop -/

section Loop

variable {api : UploadApi} {index : Nat}

/-- The transactions of some pieces, or the first error. -/
def buildAll (api : UploadApi) (index : Nat) (pieces : List (List String)) :
    Except String (List Upload) :=
  pieces.mapM fun piece => buildUpload api ⟨piece, index⟩

/-- The loop for one rarity ends, with its variables or with an error. -/
def LoopEnds (api : UploadApi) (index : Nat) (uris : List String)
    (transactions : List Upload) (result : Except String SplitState) : Prop :=
  DoWhile.Ends (splitBody api index) splitAgain (.next uris transactions) result

theorem buildAll_cons (piece : List String) (pieces : List (List String)) :
    buildAll api index (piece :: pieces) = do
      let upload ← buildUpload api ⟨piece, index⟩
      let uploads ← buildAll api index pieces
      return upload :: uploads :=
  List.mapM_cons

theorem splitBody_next (uris : List String) (transactions : List Upload) :
    splitBody api index (.next uris transactions) =
      (buildUpload api ⟨uris.take (offset uris), index⟩).map fun upload =>
        .next (uris.drop (offset uris)) (transactions ++ [upload]) := by
  rw [splitBody, next_eq]
  cases buildUpload api ⟨uris.take (offset uris), index⟩ <;> rfl

theorem splitAgain_next (uris : List String) (transactions : List Upload) :
    splitAgain (.next uris transactions) = decide (offset uris + 1 < uris.length) := by
  rw [splitAgain, next_eq]

theorem buildAll_singleton {piece : List String} {upload : Upload}
    (hupload : buildUpload api ⟨piece, index⟩ = .ok upload) :
    buildAll api index [piece] = .ok [upload] := by
  rw [buildAll_cons, hupload]
  rfl

-- One iteration: its transaction fails, or it is the last, or another one follows.

section Iteration

variable {uris : List String} {upload : Upload}

theorem loopEnds_of_error {message : String}
    (hupload : buildUpload api ⟨uris.take (offset uris), index⟩ = .error message)
    (transactions : List Upload) : LoopEnds api index uris transactions (.error message) := by
  apply DoWhile.ends_of_error
  rw [splitBody_next, hupload]
  rfl

variable (hupload : buildUpload api ⟨uris.take (offset uris), index⟩ = .ok upload)

include hupload

theorem splitBody_of_upload (transactions : List Upload) :
    splitBody api index (.next uris transactions) =
      .ok (.next (uris.drop (offset uris)) (transactions ++ [upload])) := by
  rw [splitBody_next, hupload]
  rfl

theorem loopEnds_of_stops
    (hstops : ¬offset (uris.drop (offset uris)) + 1 < (uris.drop (offset uris)).length)
    (transactions : List Upload) : LoopEnds api index uris transactions
      (.ok (.next (uris.drop (offset uris)) (transactions ++ [upload]))) := by
  apply DoWhile.ends_of_stop (splitBody_of_upload hupload transactions)
  rw [splitAgain_next]
  exact decide_eq_false hstops

theorem loopEnds_iff_of_goes
    (hgoes : offset (uris.drop (offset uris)) + 1 < (uris.drop (offset uris)).length)
    (transactions : List Upload) (result : Except String SplitState) :
    LoopEnds api index uris transactions result ↔
      LoopEnds api index (uris.drop (offset uris)) (transactions ++ [upload]) result := by
  apply DoWhile.ends_iff_of_again (splitBody_of_upload hupload transactions)
  rw [splitAgain_next]
  exact decide_eq_true hgoes

/-- A loop that cannot cut anything off, though more than one URI is left, sends empty payloads
forever. -/
theorem not_ends_of_offset_eq_zero (hzero : offset uris = 0) (hagain : offset uris + 1 < uris.length)
    (transactions : List Upload) (result : Except String SplitState) :
    ¬LoopEnds api index uris transactions result := by
  apply DoWhile.not_ends_of_invariant fun s => ∃ transactions, s = .next uris transactions
  · rintro s ⟨transactions, rfl⟩
    refine ⟨.next uris (transactions ++ [upload]), ?_, ?_, _, rfl⟩
    · rw [splitBody_of_upload hupload, hzero, List.drop_zero]
    · rw [splitAgain_next]
      exact decide_eq_true hagain
  · exact ⟨transactions, rfl⟩

end Iteration

/-- **The loop.** It builds its pieces one after the other. An error ends it; otherwise it ends with
all of them exactly when it is not stuck. -/
theorem split_ends (uris : List String) (transactions : List Upload) :
    match buildAll api index (pieces uris) with
    | .error message => LoopEnds api index uris transactions (.error message)
    | .ok uploads =>
        if Stuck uris then ∀ result, ¬LoopEnds api index uris transactions result
        else ∃ s, LoopEnds api index uris transactions (.ok s) ∧
          s.transactions = transactions ++ uploads := by
  induction uris using pieces.induct generalizing transactions with
  | case1 uris ih =>
      cases hupload : buildUpload api ⟨uris.take (offset uris), index⟩ with
      | error message =>
          have hbuild : buildAll api index (pieces uris) = .error message := by
            rw [pieces, buildAll_cons, hupload]
            rfl
          rw [hbuild]
          exact loopEnds_of_error hupload transactions
      | ok upload =>
          by_cases hgoes : offset (uris.drop (offset uris)) + 1 < (uris.drop (offset uris)).length
          · by_cases hzero : offset uris = 0
            · -- nothing was cut off, so the next iteration is this one again
              have hagain : offset uris + 1 < uris.length := by
                rw [hzero, List.drop_zero, hzero] at hgoes
                rw [hzero]
                exact hgoes
              rw [pieces_of_stops fun h => h.1 hzero, buildAll_singleton hupload]
              show if Stuck uris then _ else _
              rw [if_pos (stuck_of_offset_eq_zero hzero hagain)]
              exact not_ends_of_offset_eq_zero hupload hzero hagain transactions
            · have hrest := ih ⟨hzero, hgoes⟩ (transactions ++ [upload])
              have hends := loopEnds_iff_of_goes hupload hgoes transactions
              rw [pieces_of_goes hzero hgoes, buildAll_cons, hupload]
              cases hbuild : buildAll api index (pieces (uris.drop (offset uris))) with
              | error message =>
                  rw [hbuild] at hrest
                  exact (hends _).mpr hrest
              | ok uploads =>
                  simp only [hbuild, stuck_drop_iff] at hrest
                  show if Stuck uris then _ else _
                  by_cases hstuck : Stuck uris
                  · rw [if_pos hstuck] at hrest ⊢
                    exact fun result h => hrest result ((hends result).mp h)
                  · rw [if_neg hstuck] at hrest ⊢
                    obtain ⟨s, hs, htransactions⟩ := hrest
                    refine ⟨s, (hends _).mpr hs, ?_⟩
                    rw [htransactions, List.append_assoc]
                    rfl
          · have hstuck : ¬Stuck uris := fun h => hgoes ((stuck_drop_iff uris).mpr h).again
            rw [pieces_of_stops fun h => hgoes h.2, buildAll_singleton hupload]
            show if Stuck uris then _ else _
            rw [if_neg hstuck]
            exact ⟨_, loopEnds_of_stops hupload hgoes transactions, rfl⟩

end Loop

end InglMonitor
