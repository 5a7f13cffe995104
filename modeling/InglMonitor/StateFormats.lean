import InglMonitor.BorshDelimited
import InglMonitor.BorshLayout
import InglMonitor.GovernanceParameters
import InglMonitor.MonitorChain
import InglMonitor.StateAccounts

/-! The stored accounts as a whole. Every declared class ends where its own bytes say, and the two accounts
that the monitor reads are accepted by their length alone, with each member at an offset that the counts
and tags in front of it fix. -/

open Borsh Borsh.FieldType

namespace InglMonitor

def RebalancingData.fields : Fields := [
  ("pending_validator_rewards", u64),
  ("unclaimed_validator_rewards", u64),
  ("is_rebalancing_active", bool)]

def VoteReward.fields : Fields := [
  ("epoch_number", u64),
  ("total_reward", u64),
  ("total_stake", u64),
  ("nft_holders_reward", u64)]

def GeneralData.fields : Fields := [
  ("validation_phrase", u32),
  ("mint_numeration", u32),
  ("pending_delegation_total", u64),
  ("dealloced", u64),
  ("total_delegated", u64),
  ("last_withdraw_epoch", u64),
  ("last_total_staked", u64),
  ("is_t_stake_initialized", bool),
  ("proposal_numeration", u32),
  ("last_feeless_redemption_date", u32),
  ("last_validated_validator_id_proposal", u32),
  ("rebalancing_data", struct RebalancingData.fields),
  ("vote_rewards", vec (struct VoteReward.fields))]

/-- The registry's `Config`. -/
def Config.fields : Fields := [
  ("validation_phrase", u32),
  ("validation_number", u32)]

def ProgramStorage.fields : Fields := [
  ("validation_phrase", u32),
  ("programs", vec (fixedArray u8 32))]

/-- The classes that accounts are read with. -/
def accountClasses : List Fields := [
  ValidatorProposal.fields, GlobalGems.fields, NftData.fields, GeneralData.fields,
  GovernanceData.fields, ValidatorConfig.fields, Config.fields, ProgramStorage.fields]

theorem accountClasses_wellFormed :
    ∀ fields ∈ accountClasses, (struct fields).wellFormed ∧ (struct fields).isFlat := by
  decide

/-- **Accounts end by themselves.** Whatever a reader makes of flags and texts, an object that an account
class gives has the declared types, and it comes from a front of the data that is read as this object also
with other bytes behind it, as far as the reader allows any. From less than that front no reader gets an
object at all. -/
theorem account_delimited {reader : Reader} {fields : Fields} (hfields : fields ∈ accountClasses)
    {bs : Bytes} {o : Object} (h : deserialize reader fields bs = some o) :
    HasType (struct fields) (.object o) ∧ ∃ front rest,
      bs = front ++ rest ∧ (rest = [] ∨ reader.allowTrailing = true) ∧
      (∀ rest', deserialize reader fields (front ++ rest') =
        if rest' = [] ∨ reader.allowTrailing = true then some o else none) ∧
      ∀ reader' less extra, front = less ++ extra → extra ≠ [] → deserialize reader' fields less = none := by
  obtain ⟨hwf, ht⟩ := accountClasses_wellFormed fields hfields
  exact deserialize_delimited hwf ht h

/-- A finalized proposal without validators, votes and winner. -/
def datedProposal : Object := [
  ("validation_phrase", .num 0), ("validator_ids", .array []), ("date_created", .num 0),
  ("date_finalized", .num 1661067840), ("votes", .array []), ("winner", .undefined)]

/-- Its bytes. -/
def datedBytes : Bytes :=
  List.replicate 12 0 ++ [1, 64, 226, 1, 99] ++ List.replicate 5 0

/-- A byte more is refused. -/
theorem account_delimited_proposal :
    deserialize (.plain false) ValidatorProposal.fields datedBytes = some datedProposal ∧
      deserialize (.plain false) ValidatorProposal.fields (datedBytes ++ [0]) = none := by
  have hread : deserialize (.plain false) ValidatorProposal.fields datedBytes = some datedProposal := rfl
  obtain ⟨-, front, rest, hbs, hrest, hfront, -⟩ := account_delimited List.mem_cons_self hread
  obtain rfl := hrest.resolve_right Bool.false_ne_true
  refine ⟨hread, ?_⟩
  rw [hbs, List.append_nil, hfront, if_neg]
  exact fun h => h.elim (List.cons_ne_nil _ _) Bool.false_ne_true

/-! ### The accounts of the monitor -/

/-- An end by length, as the reader checks it. -/
def Reaches (reader : Reader) (size : Nat) (data : Bytes) : Prop :=
  size = data.length ∨ size ≤ data.length ∧ reader.allowTrailing = true

theorem endOf_keys (data : Bytes) (offset : Nat) :
    endOf (vec (fixedArray u8 32)) data offset = offset + 4 + 32 * numberAt data offset 4 := by
  have hkey : endOf (fixedArray u8 32) data = fun n => n + 32 := by
    funext n
    exact (iterate_add 1 32 n).trans (by rw [Nat.one_mul])
  rw [endOf, hkey, iterate_add]

theorem endOf_numbers (width : Nat) (data : Bytes) (offset : Nat) :
    endOf (vec (uint width)) data offset = offset + 4 + width * numberAt data offset 4 :=
  iterate_add width _ _

namespace GlobalGems

/-- The members in front of the numeration. -/
def leadingFields : Fields := [
  ("validation_phrase", u32),
  ("counter", u32),
  ("total_raised", u64),
  ("pd_pool_total", u64),
  ("delegated_total", u64),
  ("dealloced_total", u64),
  ("is_proposal_ongoing", u8)]

theorem fields_eq : fields = leadingFields ++ ("proposal_numeration", u32) :: [
    ("pending_delegation_total", u64), ("validator_list", vec (fixedArray u8 32))] := rfl

theorem endOf_fields (data : Bytes) :
    endOf (struct fields) data 0 = 57 + 32 * numberAt data 53 4 :=
  endOf_keys data 53

/-- The numeration is the number at byte 41, and the account ends behind its list of validators. -/
theorem proposalNumeration_eq_some_iff {reader : Reader} {data : Bytes} {n : Nat} :
    proposalNumeration reader data = some n ↔
      Reaches reader (57 + 32 * numberAt data 53 4) data ∧ n = numberAt data 41 4 := by
  have hsome := @deserialize_isSome_iff reader fields rfl data
  rw [endOf_fields] at hsome
  have hmember {gems : Object} (hread : deserialize reader fields data = some gems) :
      gems.get "proposal_numeration" = .num (numberAt data 41 4) := by
    obtain ⟨rest, hdecode, -⟩ := deserialize_eq_some_iff.mp hread
    rw [fields_eq] at hdecode
    obtain ⟨bs', hnumber⟩ := decode_member rfl (by decide) hdecode
    obtain ⟨⟨m, bs''⟩, hm, hvalue⟩ := Option.map_eq_some_iff.mp hnumber
    have hm : m = numberAt data 41 4 := readNat_drop hm
    rw [← hm]
    exact (congrArg Prod.fst hvalue).symm
  constructor
  · intro h
    obtain ⟨gems, hread, hn⟩ := Option.bind_eq_some_iff.mp h
    refine ⟨hsome.mp ⟨gems, hread⟩, ?_⟩
    rw [hmember hread] at hn
    exact (Option.some.inj hn).symm
  · rintro ⟨hreaches, rfl⟩
    obtain ⟨gems, hread⟩ := hsome.mpr hreaches
    rw [proposalNumeration, hread, Option.bind_some, hmember hread]
    rfl

end GlobalGems

namespace ValidatorProposal

/-- The members in front of the date. -/
def leadingFields : Fields := [
  ("validation_phrase", u32),
  ("validator_ids", vec (fixedArray u8 32)),
  ("date_created", u32)]

theorem fields_eq : fields = leadingFields ++ ("date_finalized", option u32) :: [
    ("votes", vec u32), ("winner", option (fixedArray u8 32))] := rfl

/-- Where the tag of the date is. -/
def dateOffset (data : Bytes) : Nat := 12 + 32 * numberAt data 4 4

def votesOffset (data : Bytes) : Nat :=
  if data[dateOffset data]? = some 0 then dateOffset data + 1 else dateOffset data + 5

/-- Where the tag of the winner is. -/
def winnerOffset (data : Bytes) : Nat :=
  votesOffset data + 4 + 4 * numberAt data (votesOffset data) 4

def size (data : Bytes) : Nat :=
  if data[winnerOffset data]? = some 0 then winnerOffset data + 1 else winnerOffset data + 33

theorem endOf_leadingFields (data : Bytes) :
    endOf (struct leadingFields) data 0 = dateOffset data := by
  have hkeys := endOf_keys data 4
  calc endOf (struct leadingFields) data 0
      = endOf (vec (fixedArray u8 32)) data 4 + 4 := rfl
    _ = dateOffset data := by rw [hkeys, dateOffset]; omega

theorem endOf_fields (data : Bytes) : endOf (struct fields) data 0 = size data := by
  have hdate : endOf (option u32) data (dateOffset data) = votesOffset data := rfl
  have hwinner : endOf (option (fixedArray u8 32)) data (winnerOffset data) = size data := by
    rw [endOf, size]
    refine if_congr Iff.rfl rfl ((iterate_add 1 32 _).trans ?_)
    omega
  calc endOf (struct fields) data 0
      = endOf (option (fixedArray u8 32)) data (endOf (vec u32) data
          (endOf (option u32) data (endOf (struct leadingFields) data 0))) := rfl
    _ = size data := by rw [endOf_leadingFields, hdate, endOf_numbers, ← winnerOffset, hwinner]

/-- The date is the number behind the tag that follows the list of validators, and the account ends
behind the winner. -/
theorem dateFinalized_eq_some_iff {reader : Reader} {data : Bytes} {date : Option Nat} :
    dateFinalized reader data = some date ↔
      Reaches reader (size data) data ∧
        date = if data[dateOffset data]? = some 0 then none
          else some (numberAt data (dateOffset data + 1) 4) := by
  have hsome := @deserialize_isSome_iff reader fields rfl data
  rw [endOf_fields] at hsome
  have hmember {proposal : Object} (hread : deserialize reader fields data = some proposal) :
      numberOf (proposal.get "date_finalized") =
        if data[dateOffset data]? = some 0 then none
        else some (numberAt data (dateOffset data + 1) 4) := by
    obtain ⟨rest, hdecode, -⟩ := deserialize_eq_some_iff.mp hread
    rw [fields_eq] at hdecode
    obtain ⟨bs', hoption⟩ := decode_member rfl (by decide) hdecode
    rw [endOf_leadingFields, decode_option_drop] at hoption
    cases hget : data[dateOffset data]? with
    | none => rw [hget] at hoption; cases hoption
    | some b =>
        simp only [hget] at hoption
        by_cases hb : b = 0
        · rw [if_pos hb] at hoption
          obtain ⟨hvalue, -⟩ := Prod.mk.inj (Option.some.inj hoption)
          rw [if_pos (congrArg some hb), ← hvalue]
          rfl
        · rw [if_neg hb] at hoption
          obtain ⟨⟨m, bs''⟩, hm, hvalue⟩ := Option.map_eq_some_iff.mp hoption
          obtain ⟨hvalue, -⟩ := Prod.mk.inj hvalue
          rw [if_neg fun h => hb (Option.some.inj h), ← readNat_drop hm, ← hvalue]
          rfl
  constructor
  · intro h
    obtain ⟨proposal, hread, hdate⟩ := Option.map_eq_some_iff.mp h
    exact ⟨hsome.mp ⟨proposal, hread⟩, hdate.symm.trans (hmember hread)⟩
  · rintro ⟨hreaches, rfl⟩
    obtain ⟨proposal, hread⟩ := hsome.mpr hreaches
    rw [dateFinalized, hread, Option.map_some, hmember hread]

end ValidatorProposal

/-- **What the monitor reads.** For every account data, the numeration and the date of finalization that
a tick works with are the numbers at their offsets, and they are read exactly if the data ends where its
own counts and tags say. A reader that allows trailing bytes, which the one of the monitor does not, reads
them from longer data too. -/
theorem monitor_reads (reader : Reader) (data : Bytes) :
    (∀ n, GlobalGems.proposalNumeration reader data = some n ↔
      Reaches reader (57 + 32 * numberAt data 53 4) data ∧ n = numberAt data 41 4) ∧
    ∀ date, ValidatorProposal.dateFinalized reader data = some date ↔
      Reaches reader (ValidatorProposal.size data) data ∧
        date = if data[ValidatorProposal.dateOffset data]? = some 0 then none
          else some (numberAt data (ValidatorProposal.dateOffset data + 1) 4) :=
  ⟨fun _ => GlobalGems.proposalNumeration_eq_some_iff,
    fun _ => ValidatorProposal.dateFinalized_eq_some_iff⟩

end InglMonitor
