import InglMonitor.BorshDelimited
import InglMonitor.StateInstructionFormat

/-! The two instruction formats of the repository: the one of the validator program and the one of the
registry. In both the byte in front tells the classes apart, the same numbers stand for different classes
in them, and still no buffer is written in both. -/

open Borsh Borsh.FieldType

namespace InglMonitor

/-- The classes of `registration/instruction.ts`. -/
inductive RegistryInstruction where
  | initConfig | addProgram | revomePrograms | blank
  deriving DecidableEq

namespace RegistryInstruction

def all : List RegistryInstruction := [initConfig, addProgram, revomePrograms, blank]

def tag : RegistryInstruction → UInt8
  | initConfig => 0 | addProgram => 1 | revomePrograms => 2 | blank => 3

def fields : RegistryInstruction → Fields
  | revomePrograms => [("instruction", u8), ("program_count", u8)]
  | _ => [("instruction", u8)]

/-- The constructor; only one of them has a parameter. -/
def new : RegistryInstruction → Value → Object
  | initConfig, _ => [("instruction", .num 0)]
  | addProgram, _ => [("instruction", .num 1)]
  | revomePrograms, programCount => [("instruction", .num 2), ("program_count", programCount)]
  | blank, _ => [("instruction", .num 3)]

/-- `serialize(new C(programCount))`. -/
def serialize (c : RegistryInstruction) (programCount : Value) : Option Bytes :=
  encode (struct c.fields) (.object (c.new programCount))

end RegistryInstruction

def registryFormat : TaggedFormat RegistryInstruction where
  tagName := "instruction"
  tag := RegistryInstruction.tag
  fields := RegistryInstruction.fields
  tag_inj {c c'} h := by
    cases c <;> cases c' <;> first | rfl | exact absurd h (by decide)
  leading c := by cases c <;> exact ⟨_, rfl⟩
  wellFormed c := by cases c <;> decide

def instructionFormat : TaggedFormat InstructionClass where
  tagName := "instruction"
  tag := InstructionClass.tag
  fields := InstructionClass.fields
  tag_inj {c c'} h := by
    have hsame := InstructionClass.ofTag_tag c
    rw [h, InstructionClass.ofTag_tag] at hsame
    exact (Option.some.inj hsame).symm
  leading := InstructionClass.fields_eq_cons
  wellFormed := InstructionClass.fields_wellFormed

variable {args args' : Object} {programCount programCount' : Value} {bs extra : Bytes}

theorem RegistryInstruction.get_new (c : RegistryInstruction) :
    (c.new programCount).get "instruction" = .num c.tag.toNat := by
  cases c <;> rfl

/-- One byte, or two for the only class with a parameter. -/
theorem RegistryInstruction.serialize_eq_some_iff {c : RegistryInstruction} :
    c.serialize programCount = some bs ↔ (c ≠ .revomePrograms ∧ bs = [c.tag]) ∨
      c = .revomePrograms ∧ ∃ n : UInt8, programCount = .num n.toNat ∧ bs = [2, n] := by
  have hplain (tag : UInt8) : encode (struct [("instruction", u8)])
      (.object [("instruction", .num tag.toNat)]) = some [tag] := by
    rw [encode_struct_singleton]
    exact encode_u8_eq_some_iff.mpr ⟨tag, rfl, rfl⟩
  cases c with
  | initConfig =>
      rw [show initConfig.serialize programCount = some [0] from hplain 0, Option.some.injEq, eq_comm]
      simp [tag]
  | addProgram =>
      rw [show addProgram.serialize programCount = some [1] from hplain 1, Option.some.injEq, eq_comm]
      simp [tag]
  | blank =>
      rw [show blank.serialize programCount = some [3] from hplain 3, Option.some.injEq, eq_comm]
      simp [tag]
  | revomePrograms =>
      have hcount : revomePrograms.serialize programCount =
          (encode u8 programCount).map ([2] ++ ·) := by
        show encode (struct ([("instruction", u8)] ++ [("program_count", u8)])) (.object _) = _
        rw [encode_struct_append, encode_struct_singleton, encode_struct_singleton]
        show (do let x ← encode u8 (.num 2); let y ← encode u8 programCount; return x ++ y) = _
        cases encode u8 programCount <;> rfl
      simp only [hcount, Option.map_eq_some_iff, encode_u8_eq_some_iff, ne_eq, not_true_eq_false,
        false_and, false_or, true_and]
      constructor
      · rintro ⟨x, ⟨n, hn, rfl⟩, rfl⟩
        exact ⟨n, hn, rfl⟩
      · rintro ⟨n, hn, rfl⟩
        exact ⟨[n], ⟨n, hn, rfl⟩, rfl⟩

/-- What starts with a tag of the registry is longer in the format of the validator program. -/
theorem RegistryInstruction.decode_eq_none {c : InstructionClass} {b : UInt8} {reader : Reader} :
    (c.tag < 4 → decode reader (struct c.fields) [c.tag] = none) ∧
      (c.tag = 2 → decode reader (struct c.fields) [c.tag, b] = none) := by
  cases c with
  | mintNft | imprintRarity | redeem => exact ⟨fun _ => rfl, fun h => absurd h (by decide)⟩
  | init => exact ⟨fun _ => rfl, fun _ => rfl⟩
  | _ => exact ⟨fun h => absurd h (by decide), fun h => absurd h (by decide)⟩

theorem RegistryInstruction.serialize_ne {c : RegistryInstruction} {c' : InstructionClass}
    (hargs : "instruction" ∉ args.map Prod.fst) (h : c.serialize programCount = some bs) :
    c'.serialize args ≠ some bs := by
  intro h'
  obtain ⟨rest, rfl⟩ := instructionFormat.encode_eq_cons (c'.get_new hargs).1 h'
  have hread := @decode_encode (.plain false) _ c'.fields_wellFormed _ _ h' []
  rw [List.append_nil] at hread
  rcases serialize_eq_some_iff.mp h with ⟨-, hbs⟩ | ⟨-, n, -, hbs⟩
  · obtain ⟨htag, rfl⟩ := List.cons.inj hbs
    have hlt : c'.tag < 4 := by
      rw [show c'.tag = c.tag from htag]
      cases c <;> decide
    cases hread.symm.trans ((@decode_eq_none c' 0 _).1 hlt)
  · obtain ⟨htag, rfl⟩ := List.cons.inj hbs
    cases hread.symm.trans ((@decode_eq_none c' n _).2 htag)

/-- **The formats.** Of what is written for the classes of the validator program, whatever their arguments
are as long as these bring no tag of their own, nothing continues anything else, and what two classes write
differs. The same holds of the classes of the registry, which write a byte, or two of which the second one
is the program count. And nothing is written in both formats. -/
theorem instruction_formats :
    (∀ (c c' : InstructionClass) args args' bs extra, "instruction" ∉ args.map Prod.fst →
      "instruction" ∉ args'.map Prod.fst → c.serialize args = some bs →
      c'.serialize args' = some (bs ++ extra) → c = c' ∧ extra = []) ∧
    (∀ (c c' : RegistryInstruction) programCount programCount' bs extra,
      c.serialize programCount = some bs → c'.serialize programCount' = some (bs ++ extra) →
      c = c' ∧ extra = []) ∧
    (∀ (c : RegistryInstruction) programCount bs, c.serialize programCount = some bs ↔
      (c ≠ .revomePrograms ∧ bs = [c.tag]) ∨
        c = .revomePrograms ∧ ∃ n : UInt8, programCount = .num n.toNat ∧ bs = [2, n]) ∧
    ∀ (c : RegistryInstruction) (c' : InstructionClass) programCount args bs,
      "instruction" ∉ args.map Prod.fst → c.serialize programCount = some bs →
      c'.serialize args ≠ some bs := by
  refine ⟨fun c c' args args' bs extra hargs hargs' h h' => ?_, fun c c' n n' bs extra h h' => ?_,
    fun _ _ _ => RegistryInstruction.serialize_eq_some_iff,
    fun _ _ _ _ _ => RegistryInstruction.serialize_ne⟩
  · exact instructionFormat.eq_of_encode_append (c.get_new hargs).1 (c'.get_new hargs').1 h h'
  · exact registryFormat.eq_of_encode_append c.get_new c'.get_new h h'

end InglMonitor
