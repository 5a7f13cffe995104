import InglMonitor.BorshFormat

/-! The legacy wire format of a transaction that uploads URIs: two signatures, a message with seven
account keys, and two instructions, the second of which carries the data. A transaction that does not
fit a packet is refused. -/

open Borsh

namespace InglMonitor

/-- `shortvec.encodeLength`: seven bits a byte, the high bit set on all but the last. -/
def encodeLength (len : Nat) : Bytes :=
  if len / 128 = 0 then [UInt8.ofNat (len % 128)]
  else UInt8.ofNat (len % 128 + 128) :: encodeLength (len / 128)
termination_by len
decreasing_by omega

structure CompiledInstruction where
  programIdIndex : UInt8
  accounts : Bytes
  data : Bytes

def CompiledInstruction.serialize (instruction : CompiledInstruction) : Bytes :=
  instruction.programIdIndex :: (encodeLength instruction.accounts.length ++ instruction.accounts ++
    (encodeLength instruction.data.length ++ instruction.data))

/-- `PACKET_DATA_SIZE`. -/
def packetDataSize : Nat := 1232

/-- What the transactions of one request have in common: the keys of the payer, the backend, the two
program accounts and the three programs, their order in the message, the blockhash, and the backend's
signature of a message. -/
structure UploadEnvelope where
  accountKeys : List Bytes
  recentBlockhash : Bytes
  computeBudgetIndex : UInt8
  programIdIndex : UInt8
  accounts : Bytes
  sign : Bytes → Bytes
  accountKeys_length : accountKeys.length = 7
  accountKey_length : ∀ key ∈ accountKeys, key.length = 32
  recentBlockhash_length : recentBlockhash.length = 32
  accounts_length : accounts.length = 5
  sign_length : ∀ message, (sign message).length = 64

namespace UploadEnvelope

variable (envelope : UploadEnvelope)

/-- `ComputeBudgetProgram.setComputeUnitLimit({ units: 1_400_000 })`. -/
def computeUnitLimit : CompiledInstruction where
  programIdIndex := envelope.computeBudgetIndex
  accounts := []
  data := 2 :: leBytes 4 1400000

def uploadInstruction (data : Bytes) : CompiledInstruction where
  programIdIndex := envelope.programIdIndex
  accounts := envelope.accounts
  data := data

/-- The header counts two signers, one of them read-only, and three read-only accounts behind. -/
def message (data : Bytes) : Bytes :=
  [2, 1, 3] ++ (encodeLength envelope.accountKeys.length ++ (envelope.accountKeys.flatten ++
    (envelope.recentBlockhash ++ (encodeLength 2 ++ (envelope.computeUnitLimit.serialize ++
      (envelope.uploadInstruction data).serialize)))))

/-- The payer has not signed yet. -/
def wireTransaction (data : Bytes) : Bytes :=
  encodeLength 2 ++ (List.replicate 64 0 ++ (envelope.sign (envelope.message data) ++
    envelope.message data))

/-- `transaction.sign` and `transaction.serialize({ requireAllSignatures: false })`. An instruction that
exceeds a packet by itself is refused by `sign` already, with another text. -/
def serialize (data : Bytes) : Except String Bytes :=
  let wireTransaction := envelope.wireTransaction data
  if wireTransaction.length ≤ packetDataSize then .ok wireTransaction
  else .error ("Transaction too large: " ++ toString wireTransaction.length ++ " > " ++
    toString packetDataSize)

end UploadEnvelope

/-! ### Sizes -/

theorem encodeLength_length_of_lt {len : Nat} (h : len < 128) : (encodeLength len).length = 1 := by
  rw [encodeLength, if_pos (by omega)]
  rfl

theorem encodeLength_length_of_ge {len : Nat} (h : 128 ≤ len) :
    (encodeLength len).length = (encodeLength (len / 128)).length + 1 := by
  rw [encodeLength, if_neg (by omega), List.length_cons]

theorem flatten_length_of_forall {keys : List Bytes} {n : Nat} (h : ∀ key ∈ keys, key.length = n) :
    keys.flatten.length = keys.length * n := by
  rw [List.length_flatten, List.map_congr_left h, List.map_const', List.sum_replicate_nat]

namespace UploadEnvelope

variable (envelope : UploadEnvelope)

/-- The fixed part is 405 bytes. -/
theorem wireTransaction_length (data : Bytes) : (envelope.wireTransaction data).length =
    405 + (encodeLength data.length).length + data.length := by
  have hkeys := flatten_length_of_forall envelope.accountKey_length
  simp only [wireTransaction, message, computeUnitLimit, uploadInstruction,
    CompiledInstruction.serialize, List.length_append, List.length_cons, List.length_nil,
    List.length_replicate, leBytes_length, hkeys, envelope.accountKeys_length,
    envelope.recentBlockhash_length, envelope.accounts_length, envelope.sign_length,
    encodeLength_length_of_lt (show 0 < 128 by decide),
    encodeLength_length_of_lt (show 2 < 128 by decide),
    encodeLength_length_of_lt (show 5 < 128 by decide),
    encodeLength_length_of_lt (show 7 < 128 by decide)]
  omega

/-- A transaction fits a packet exactly when its data has at most 825 bytes. -/
theorem wireTransaction_length_le_iff (data : Bytes) :
    (envelope.wireTransaction data).length ≤ packetDataSize ↔ data.length ≤ 825 := by
  rw [wireTransaction_length, packetDataSize]
  by_cases hshort : data.length < 128
  · rw [encodeLength_length_of_lt hshort]
    omega
  · rw [encodeLength_length_of_ge (by omega)]
    by_cases hmiddle : data.length / 128 < 128
    · rw [encodeLength_length_of_lt hmiddle]
      omega
    · omega

theorem serialize_eq_ok_iff {data transaction : Bytes} : envelope.serialize data = .ok transaction ↔
    data.length ≤ 825 ∧ transaction = envelope.wireTransaction data := by
  rw [← envelope.wireTransaction_length_le_iff, serialize]
  by_cases hfits : (envelope.wireTransaction data).length ≤ packetDataSize
  · simp [hfits, eq_comm]
  · simp [hfits]

end UploadEnvelope

/-- An envelope with keys and signatures of the right lengths. -/
def devnetEnvelope : UploadEnvelope where
  accountKeys := (List.range 7).map fun key => List.replicate 32 (UInt8.ofNat key)
  recentBlockhash := List.replicate 32 7
  computeBudgetIndex := 5
  programIdIndex := 6
  accounts := [0, 2, 3, 1, 4]
  sign := fun _ => List.replicate 64 8
  accountKeys_length := by decide
  accountKey_length := by decide
  recentBlockhash_length := by decide
  accounts_length := by decide
  sign_length := fun _ => List.length_replicate

end InglMonitor
