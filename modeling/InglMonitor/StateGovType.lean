import InglMonitor.BorshSchema

/-! The governance types: a hierarchy of classes with two levels of variant bytes, and ten leaf
classes that carry a value. -/

open Borsh Borsh.FieldType

namespace InglMonitor

/-- The leaf classes with a single member, all named `value`. -/
def valueFields (t : FieldType) : Fields := [("value", t)]

def MaxPrimaryStake.fields : Fields := valueFields u64
def NftHolderShare.fields : Fields := valueFields u8
def InitialRedemptionFee.fields : Fields := valueFields u8
def RedemptionFeeDuration.fields : Fields := valueFields u8
def ValidatorName.fields : Fields := valueFields string
def TwitterHandle.fields : Fields := valueFields string
def DiscordInvite.fields : Fields := valueFields string
def ValidatorID.fields : Fields := valueFields (fixedArray u8 32)
def Commission.fields : Fields := valueFields u8

def ProgramUpgrade.fields : Fields :=
  [("buffer_account", fixedArray u8 32), ("code_link", string)]

def ConfigAccount : FieldType := variants [
  (0, struct MaxPrimaryStake.fields),
  (1, struct NftHolderShare.fields),
  (2, struct InitialRedemptionFee.fields),
  (3, struct RedemptionFeeDuration.fields),
  (4, struct ValidatorName.fields),
  (5, struct TwitterHandle.fields),
  (6, struct DiscordInvite.fields)]

def VoteAccount : FieldType := variants [
  (0, struct ValidatorID.fields),
  (1, struct Commission.fields)]

def GovernanceType : FieldType := variants [
  (0, ConfigAccount),
  (1, struct ProgramUpgrade.fields),
  (2, VoteAccount)]

/-! ### Instances

The constructors store their argument in `value`; the two variant bytes come with the class. -/

def leaf (outer inner : UInt8) (value : Value) : Value :=
  .variant outer (.variant inner (.object [("value", value)]))

def MaxPrimaryStake.new : Value → Value := leaf 0 0
def NftHolderShare.new : Value → Value := leaf 0 1
def InitialRedemptionFee.new : Value → Value := leaf 0 2
def RedemptionFeeDuration.new : Value → Value := leaf 0 3
def ValidatorName.new : Value → Value := leaf 0 4
def TwitterHandle.new : Value → Value := leaf 0 5
def DiscordInvite.new : Value → Value := leaf 0 6
def ValidatorID.new : Value → Value := leaf 2 0
def Commission.new : Value → Value := leaf 2 1

def ProgramUpgrade.new (bufferAccount codeLink : Value) : Value :=
  .variant 1 (.object [("buffer_account", bufferAccount), ("code_link", codeLink)])

end InglMonitor
