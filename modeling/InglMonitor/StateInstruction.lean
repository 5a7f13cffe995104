import InglMonitor.StateGovType

/-! The instructions of the validator program: nineteen classes with a one-byte tag. A constructor
copies the properties of its argument onto the new object; the wire layout is the list of declared
members, the inherited ones first. -/

open Borsh Borsh.FieldType

namespace InglMonitor

namespace Instruction

def fields : Fields := [("instruction", u8), ("log_level", u8)]

def new (properties : Object) : Object := Object.assign [] properties

end Instruction

/-- The subclasses of `Instruction` without members of their own. -/
def bareInstruction (tag : Int) (logLevel : Value) : Object :=
  Instruction.new [("log_level", logLevel), ("instruction", .num tag)]

def MintNft.new : Value → Object := bareInstruction 0
def ImprintRarity.new : Value → Object := bareInstruction 1
def Redeem.new : Value → Object := bareInstruction 3
def ProcessRewards.new : Value → Object := bareInstruction 5
def InitRebalance.new : Value → Object := bareInstruction 6
def FinalizeRebalance.new : Value → Object := bareInstruction 7
def ResetUris.new : Value → Object := bareInstruction 9
def UnDelegateNFT.new : Value → Object := bareInstruction 10
def DelegateNFT.new : Value → Object := bareInstruction 11
def CreateVoteAccount.new : Value → Object := bareInstruction 12

namespace Init

/-- The members `Init` declares itself. -/
def ownFields : Fields := [
  ("init_commission", u8),
  ("max_primary_stake", u64),
  ("nft_holders_share", u8),
  ("initial_redemption_fee", u8),
  ("is_validator_id_switchable", bool),
  ("unit_backing", u64),
  ("redemption_fee_duration", u32),
  ("proposal_quorum", u8),
  ("creator_royalties", u16),
  ("governance_expiration_time", u32),
  ("rarities", vec u16),
  ("rarity_names", vec string),
  ("twitter_handle", string),
  ("discord_invite", string),
  ("validator_name", string),
  ("collection_uri", string),
  ("website", string),
  ("default_uri", string)]

def fields : Fields := Instruction.fields ++ ownFields

/-- The rest pattern `...properties` leaves out `log_level`. -/
def new (args : Object) : Object :=
  (Instruction.new [("log_level", args.get "log_level"), ("instruction", .num 2)]).assign
    (args.filter fun p => p.1 ≠ "log_level")

end Init

namespace FractionalizedExisting

def fields : Fields := Init.fields

def new (args : Object) : Object := (Init.new args).set "instruction" (.num 18)

end FractionalizedExisting

namespace NFTWithdraw

def fields : Fields := Instruction.fields ++ [("cnt", u8)]

def new (cnt logLevel : Value) : Object := (bareInstruction 4 logLevel).set "cnt" cnt

end NFTWithdraw

/-- The classes outside the hierarchy set their tag, then copy the whole argument. -/
def taggedInstruction (tag : Int) (args : Object) : Object :=
  (Object.set [] "instruction" (.num tag)).assign args

namespace UploadUris

def fields : Fields := [("instruction", u8), ("uris", vec string), ("rarity", u8), ("log_level", u8)]

def new : Object → Object := taggedInstruction 8

end UploadUris

namespace InitGovernance

def fields : Fields := [("instruction", u8), ("governance_type", GovernanceType), ("title", string),
  ("description", string), ("log_level", u8)]

def new : Object → Object := taggedInstruction 13

end InitGovernance

namespace VoteGovernance

def fields : Fields := [("instruction", u8), ("numeration", u32), ("vote", bool), ("cnt", u8),
  ("log_level", u8)]

def new : Object → Object := taggedInstruction 14

end VoteGovernance

namespace FinalizeGovernance

def fields : Fields := [("instruction", u8), ("numeration", u32), ("log_level", u8)]

def new : Object → Object := taggedInstruction 15

end FinalizeGovernance

namespace ExecuteGovernance

def fields : Fields := [("instruction", u8), ("numeration", u32), ("log_level", u8)]

def new : Object → Object := taggedInstruction 16

end ExecuteGovernance

namespace InjectTestingData

def fields : Fields := [("instruction", u8), ("num_mints", u8), ("log_level", u8)]

def new : Object → Object := taggedInstruction 17

end InjectTestingData

inductive InstructionClass where
  | mintNft | imprintRarity | init | redeem | nftWithdraw | processRewards | initRebalance
  | finalizeRebalance | uploadUris | resetUris | unDelegateNFT | delegateNFT | createVoteAccount
  | initGovernance | voteGovernance | finalizeGovernance | executeGovernance | injectTestingData
  | fractionalizedExisting
  deriving DecidableEq

namespace InstructionClass

/-- In the order of the tags. -/
def all : List InstructionClass :=
  [mintNft, imprintRarity, init, redeem, nftWithdraw, processRewards, initRebalance,
    finalizeRebalance, uploadUris, resetUris, unDelegateNFT, delegateNFT, createVoteAccount,
    initGovernance, voteGovernance, finalizeGovernance, executeGovernance, injectTestingData,
    fractionalizedExisting]

def tag : InstructionClass → UInt8
  | mintNft => 0 | imprintRarity => 1 | init => 2 | redeem => 3 | nftWithdraw => 4
  | processRewards => 5 | initRebalance => 6 | finalizeRebalance => 7 | uploadUris => 8
  | resetUris => 9 | unDelegateNFT => 10 | delegateNFT => 11 | createVoteAccount => 12
  | initGovernance => 13 | voteGovernance => 14 | finalizeGovernance => 15
  | executeGovernance => 16 | injectTestingData => 17 | fractionalizedExisting => 18

def fields : InstructionClass → Fields
  | init => Init.fields
  | nftWithdraw => NFTWithdraw.fields
  | uploadUris => UploadUris.fields
  | initGovernance => InitGovernance.fields
  | voteGovernance => VoteGovernance.fields
  | finalizeGovernance => FinalizeGovernance.fields
  | executeGovernance => ExecuteGovernance.fields
  | injectTestingData => InjectTestingData.fields
  | fractionalizedExisting => FractionalizedExisting.fields
  | _ => Instruction.fields

/-- `Omit<C, 'instruction'>`. -/
def omitInstruction (fields : Fields) : Fields := fields.filter fun f => f.1 ≠ "instruction"

/-- The declared parameters of the constructor, by name. -/
def params : InstructionClass → Fields
  | init => omitInstruction Init.fields
  | nftWithdraw => [("cnt", u8), ("log_level", u8)]
  | uploadUris => omitInstruction UploadUris.fields
  | initGovernance => omitInstruction InitGovernance.fields
  | voteGovernance => omitInstruction VoteGovernance.fields
  | finalizeGovernance => omitInstruction FinalizeGovernance.fields
  | executeGovernance => omitInstruction ExecuteGovernance.fields
  -- declared with the parameter type of `ExecuteGovernance`
  | injectTestingData => omitInstruction ExecuteGovernance.fields
  | fractionalizedExisting => omitInstruction FractionalizedExisting.fields
  | _ => [("log_level", u8)]

/-- The constructor, on its arguments by name. -/
def new : InstructionClass → Object → Object
  | mintNft, args => MintNft.new (args.get "log_level")
  | imprintRarity, args => ImprintRarity.new (args.get "log_level")
  | init, args => Init.new args
  | redeem, args => Redeem.new (args.get "log_level")
  | nftWithdraw, args => NFTWithdraw.new (args.get "cnt") (args.get "log_level")
  | processRewards, args => ProcessRewards.new (args.get "log_level")
  | initRebalance, args => InitRebalance.new (args.get "log_level")
  | finalizeRebalance, args => FinalizeRebalance.new (args.get "log_level")
  | uploadUris, args => UploadUris.new args
  | resetUris, args => ResetUris.new (args.get "log_level")
  | unDelegateNFT, args => UnDelegateNFT.new (args.get "log_level")
  | delegateNFT, args => DelegateNFT.new (args.get "log_level")
  | createVoteAccount, args => CreateVoteAccount.new (args.get "log_level")
  | initGovernance, args => InitGovernance.new args
  | voteGovernance, args => VoteGovernance.new args
  | finalizeGovernance, args => FinalizeGovernance.new args
  | executeGovernance, args => ExecuteGovernance.new args
  | injectTestingData, args => InjectTestingData.new args
  | fractionalizedExisting, args => FractionalizedExisting.new args

def ofTag (b : UInt8) : Option InstructionClass := all.find? fun c => c.tag = b

theorem ofTag_tag (c : InstructionClass) : ofTag c.tag = some c := by
  cases c <;> decide

/-- Every class starts with its tag member. -/
theorem fields_eq_cons (c : InstructionClass) :
    ∃ rest, c.fields = ("instruction", u8) :: rest := by
  cases c <;> exact ⟨_, rfl⟩

theorem fields_wellFormed (c : InstructionClass) : (struct c.fields).wellFormed := by
  cases c <;> decide

/-- Apart from the tag, the only member that is not a declared parameter is `num_mints`. -/
theorem mem_params_of_mem_fields {c : InstructionClass} {f : String × FieldType} (hf : f ∈ c.fields)
    (htag : f.1 ≠ "instruction") (hmints : c = injectTestingData → f.1 ≠ "num_mints") :
    f ∈ c.params := by
  have hall : ∀ f ∈ c.fields, f.1 ≠ "instruction" →
      f ∈ c.params ∨ c = injectTestingData ∧ f.1 = "num_mints" := by
    cases c <;> decide
  exact (hall f hf htag).resolve_right fun h => hmints h.1 h.2

end InstructionClass

/-! ### What the constructors set -/

theorem get_bareInstruction (tag : Int) (logLevel : Value) (name : String) :
    (bareInstruction tag logLevel).get name =
      if name = "log_level" then logLevel else if name = "instruction" then .num tag
      else .undefined := by
  simp [bareInstruction, Instruction.new, Object.assign]

theorem get_taggedInstruction {args : Object} (hargs : "instruction" ∉ args.map Prod.fst) (tag : Int)
    (name : String) :
    (taggedInstruction tag args).get name =
      if name = "instruction" then .num tag else args.get name := by
  rw [taggedInstruction, Object.get_assign, Object.get_set]
  by_cases hmem : name ∈ args.map Prod.fst
  · rw [if_pos hmem, if_neg]
    rintro rfl
    exact hargs hmem
  · rw [if_neg hmem, Object.get_of_not_mem hmem, Object.get_nil]

theorem get_filter_ne (o : Object) (key name : String) :
    Object.get (o.filter fun p => p.1 ≠ key) name = if name = key then .undefined else o.get name := by
  induction o with
  | nil => simp
  | cons p o ih =>
      by_cases hp : p.1 = key
      · rw [List.filter_cons_of_neg (by simpa using hp), ih, Object.get_cons]
        by_cases hname : name = key
        · rw [if_pos hname, if_pos hname]
        · rw [if_neg hname, if_neg hname, if_neg fun h => hname (h.trans hp)]
      · rw [List.filter_cons_of_pos (by simpa using hp), Object.get_cons, ih, Object.get_cons]
        by_cases hname : name = p.1
        · rw [if_pos hname, if_pos hname, if_neg fun h => hp (hname.symm.trans h)]
        · rw [if_neg hname, if_neg hname]

theorem Init.get_new {args : Object} (hargs : "instruction" ∉ args.map Prod.fst) (name : String) :
    (Init.new args).get name = if name = "instruction" then .num 2 else args.get name := by
  rw [Init.new, Object.get_assign, get_filter_ne]
  by_cases hmem : name ∈ (args.filter fun p => p.1 ≠ "log_level").map Prod.fst
  · obtain ⟨p, hp, rfl⟩ := List.mem_map.mp hmem
    obtain ⟨hp, hlevel⟩ := List.mem_filter.mp hp
    have htag : p.1 ≠ "instruction" := fun h => hargs (h ▸ List.mem_map_of_mem hp)
    rw [if_pos hmem, if_neg (by simpa using hlevel), if_neg htag]
  · rw [if_neg hmem]
    by_cases hlevel : name = "log_level"
    · subst hlevel
      rfl
    · have hnot : name ∉ args.map Prod.fst := by
        intro h
        obtain ⟨p, hp, rfl⟩ := List.mem_map.mp h
        exact hmem (List.mem_map_of_mem (List.mem_filter.mpr ⟨hp, by simpa using hlevel⟩))
      rw [Object.get_of_not_mem hnot, Instruction.new, Object.assign, List.append_nil,
        Object.get_cons, if_neg hlevel, Object.get_cons, Object.get_nil]

namespace InstructionClass

variable {args : Object}

/-- **The constructors.** Each sets its own tag, and every other member to the argument of that
name. -/
theorem get_new (c : InstructionClass) (hargs : "instruction" ∉ args.map Prod.fst) :
    (c.new args).get "instruction" = .num c.tag.toNat ∧
      ∀ f ∈ c.fields, f.1 ≠ "instruction" → (c.new args).get f.1 = args.get f.1 := by
  have hbare : ∀ tag, (∀ f ∈ Instruction.fields, f.1 ≠ "instruction" →
      (bareInstruction tag (args.get "log_level")).get f.1 = args.get f.1) := by
    intro tag f hf hne
    have hlevel : f.1 = "log_level" := by
      rcases List.mem_pair.mp hf with rfl | rfl
      · exact absurd rfl hne
      · rfl
    rw [hlevel, get_bareInstruction, if_pos rfl]
  have htagged : ∀ (tag : Int) (fields : Fields), ∀ f ∈ fields, f.1 ≠ "instruction" →
      (taggedInstruction tag args).get f.1 = args.get f.1 := by
    intro tag fields f _ hne
    rw [get_taggedInstruction hargs, if_neg hne]
  cases c with
  | init =>
      refine ⟨Init.get_new hargs _, fun f _ hne => ?_⟩
      rw [new, Init.get_new hargs, if_neg hne]
  | fractionalizedExisting =>
      refine ⟨Object.get_set _ _ _ _, fun f _ hne => ?_⟩
      rw [new, FractionalizedExisting.new, Object.get_set, if_neg hne, Init.get_new hargs, if_neg hne]
  | nftWithdraw =>
      refine ⟨rfl, fun f hf hne => ?_⟩
      rw [new, NFTWithdraw.new, Object.get_set]
      by_cases hcnt : f.1 = "cnt"
      · rw [if_pos hcnt, hcnt]
      · rw [if_neg hcnt]
        refine hbare 4 f ?_ hne
        rcases List.mem_append.mp hf with h | h
        · exact h
        · exact absurd (congrArg Prod.fst (List.mem_singleton.mp h)) hcnt
  | uploadUris | initGovernance | voteGovernance | finalizeGovernance | executeGovernance
  | injectTestingData =>
      exact ⟨(get_taggedInstruction hargs _ _).trans (if_pos rfl), htagged _ _⟩
  | _ => exact ⟨rfl, hbare _⟩

end InstructionClass

end InglMonitor
