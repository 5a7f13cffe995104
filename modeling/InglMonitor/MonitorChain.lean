import InglMonitor.BorshSchema
import InglMonitor.ChainAccess

/-! What the monitor reads on chain: two account formats, and the addresses that a proposal numeration
leads to. -/

open Borsh Borsh.FieldType

namespace InglMonitor

/-- The accounts at one moment. -/
abbrev Chain := PublicKey → Option AccountInfo

def inglProgramId : PublicKey := ⟨"9dSZN479QxPdogZTwjaBRiTfFAvhq3kNF1GEwUWW7es6"⟩

def globalGemKey : String := "global_gem_account"

def proposalKey : String := "ingl_proposals"

def voteAccountKey : String := "InglVote"

def voteDataAccountKey : String := "InglVoteData"

/-- The number a member was read as; an absent option has none. -/
def numberOf : Value → Option Nat
  | .num n => some n.toNat
  | _ => none

namespace ValidatorProposal

def fields : Fields := [
  ("validation_phrase", u32),
  ("validator_ids", vec (fixedArray u8 32)),
  ("date_created", u32),
  ("date_finalized", option u32),
  ("votes", vec u32),
  ("winner", option (fixedArray u8 32))]

/-- The decoded `date_finalized`, `none` if the account does not decode. -/
def dateFinalized (reader : Reader) (data : Bytes) : Option (Option Nat) :=
  (deserialize reader fields data).map fun proposal => numberOf (proposal.get "date_finalized")

end ValidatorProposal

namespace GlobalGems

def fields : Fields := [
  ("validation_phrase", u32),
  ("counter", u32),
  ("total_raised", u64),
  ("pd_pool_total", u64),
  ("delegated_total", u64),
  ("dealloced_total", u64),
  ("is_proposal_ongoing", u8),
  ("proposal_numeration", u32),
  ("pending_delegation_total", u64),
  ("validator_list", vec (fixedArray u8 32))]

def proposalNumeration (reader : Reader) (data : Bytes) : Option Nat :=
  (deserialize reader fields data).bind fun gems => numberOf (gems.get "proposal_numeration")

end GlobalGems

/-! ### Addresses -/

/-- `(num & mask) >> shift` on a number's low 32 bits, signed, then one element of a `Uint8Array`. -/
def toBytesInt32 (num : Int) : Bytes :=
  [(0xff000000, 24), (0x00ff0000, 16), (0x0000ff00, 8), (0x000000ff, 0)].map
    fun (mask, shift) => ⟨((BitVec.ofInt 32 num &&& mask).sshiftRight shift).setWidth 8⟩

variable (web3 : Web3)

def globalGemPubkey : Except String PublicKey :=
  web3.findProgramAddressSync [utf8 globalGemKey] inglProgramId

def voteAccountPubkey (currentProposalNumeration : Nat) : Except String PublicKey :=
  web3.findProgramAddressSync
    [utf8 voteAccountKey, toBytesInt32 (currentProposalNumeration - 1)] inglProgramId

def inglVoteDataKey (voteAccount : PublicKey) : Except String PublicKey :=
  web3.findProgramAddressSync [utf8 voteDataAccountKey, web3.toBuffer voteAccount] inglProgramId

def proposalPubkey (currentProposalNumeration : Nat) : Except String PublicKey :=
  web3.findProgramAddressSync
    [utf8 proposalKey, toBytesInt32 (currentProposalNumeration - 1)] inglProgramId

end InglMonitor
