import InglMonitor.MonitorChain

/-! The seeds that a proposal numeration leads to. They are computed with signed 32-bit masks and shifts;
the byte array takes the sign away again, so that they are the big-endian bytes of the number modulo
`2 ** 32`. -/

open Borsh

namespace InglMonitor

/-- The copy in `state/registration`. -/
def Registration.toBytesInt32 (num : Int) : Bytes :=
  let num := BitVec.ofInt 32 num
  [(num &&& 0xff000000).sshiftRight 24, (num &&& 0x00ff0000).sshiftRight 16,
    (num &&& 0x0000ff00).sshiftRight 8, num &&& 0x000000ff].map fun byte => ⟨byte.setWidth 8⟩

def beBytes (width n : Nat) : Bytes := (leBytes width n).reverse

def beNat (bs : Bytes) : Nat := leNat bs.reverse

theorem beNat_beBytes {width n : Nat} (h : n < 256 ^ width) : beNat (beBytes width n) = n := by
  rw [beNat, beBytes, List.reverse_reverse, leNat_leBytes_of_lt h]

theorem beBytes_four (n : Nat) : beBytes 4 n = [UInt8.ofNat (n / 2 ^ 24), UInt8.ofNat (n / 2 ^ 16),
    UInt8.ofNat (n / 2 ^ 8), UInt8.ofNat n] := by
  simp only [beBytes, leBytes, List.reverse_cons, List.reverse_nil, List.nil_append, List.cons_append,
    Nat.div_div_eq_div_mul, Nat.reduceMul, Nat.reducePow]

/-- Under a mask that covers it, a byte is shifted out whole, whatever the sign fills in above it. -/
theorem maskedByte_eq {mask : BitVec 32} {shift : Nat} (hshift : shift + 8 ≤ 32)
    (hmask : ∀ i < 8, mask.getLsbD (shift + i) = true) (num : BitVec 32) :
    ((num &&& mask).sshiftRight shift).setWidth 8 = BitVec.ofNat 8 (num.toNat / 2 ^ shift) := by
  apply BitVec.eq_of_getLsbD_eq
  intro i hi
  have hbit : shift + i < 32 := by omega
  have hnotSign : decide (32 ≤ i) = false := decide_eq_false (by omega)
  rw [BitVec.getLsbD_setWidth, BitVec.getLsbD_sshiftRight, BitVec.getLsbD_and, hmask i hi,
    BitVec.getLsbD_ofNat, Nat.testBit_div_two_pow, if_pos hbit, hnotSign, Nat.add_comm i]
  simp [hi, BitVec.getLsbD]

/-- The two copies are the same function. -/
theorem toBytesInt32_eq_registration (num : Int) :
    toBytesInt32 num = Registration.toBytesInt32 num := by
  simp only [toBytesInt32, Registration.toBytesInt32, List.map_cons, List.map_nil,
    BitVec.sshiftRight_zero]

/-- Every integer gives the big-endian form of its residue. -/
theorem toBytesInt32_eq_beBytes (num : Int) : toBytesInt32 num = beBytes 4 (num % 2 ^ 32).toNat := by
  have hnat : (BitVec.ofInt 32 num).toNat = (num % 2 ^ 32).toNat := BitVec.toNat_ofInt ..
  have hbyte {mask : BitVec 32} {shift : Nat} (hshift : shift + 8 ≤ 32)
      (hmask : ∀ i < 8, mask.getLsbD (shift + i) = true) :
      (⟨((BitVec.ofInt 32 num &&& mask).sshiftRight shift).setWidth 8⟩ : UInt8) =
        UInt8.ofNat ((num % 2 ^ 32).toNat / 2 ^ shift) := by
    rw [maskedByte_eq hshift hmask, hnat]
    rfl
  rw [beBytes_four, toBytesInt32]
  simp only [List.map_cons, List.map_nil]
  rw [hbyte (by decide) (by decide), hbyte (by decide) (by decide), hbyte (by decide) (by decide),
    hbyte (by decide) (by decide), Nat.pow_zero, Nat.div_one]

/-! ### The seeds of the numerations -/

theorem beNat_toBytesInt32 (num : Int) : beNat (toBytesInt32 num) = (num % 2 ^ 32).toNat := by
  have hlt : (num % 2 ^ 32).toNat < 256 ^ 4 := by omega
  rw [toBytesInt32_eq_beBytes, beNat_beBytes hlt]

/-- A numeration that is read from the account is a `u32`. -/
theorem proposalNumeration_lt {reader : Reader} {data : Bytes} {n : Nat}
    (h : GlobalGems.proposalNumeration reader data = some n) : n < 2 ^ 32 := by
  obtain ⟨gems, hgems, hn⟩ := Option.bind_eq_some_iff.mp h
  obtain ⟨m, hm, hlt⟩ := @get_of_deserialize _ _ (by decide) _ _ hgems "proposal_numeration" 4 (by decide)
  rw [hm] at hn
  cases hn
  exact hlt

/-- **Seeds.** The seed of a numeration is the big-endian form of its predecessor modulo `2 ** 32` and
gives it back; two numerations never share a seed; and it does not matter which copy is called. -/
theorem seeds_unambiguous :
    (∀ reader data n, GlobalGems.proposalNumeration reader data = some n → n < 2 ^ 32) ∧
    (∀ n : Nat, n < 2 ^ 32 → toBytesInt32 (n - 1) = beBytes 4 (((n : Int) - 1) % 2 ^ 32).toNat ∧
      beNat (toBytesInt32 (n - 1)) = (((n : Int) - 1) % 2 ^ 32).toNat) ∧
    (∀ m n : Nat, m < 2 ^ 32 → n < 2 ^ 32 → toBytesInt32 (m - 1) = toBytesInt32 (n - 1) → m = n) ∧
    ∀ num : Int, -1 ≤ num → num ≤ 2 ^ 32 - 1 → toBytesInt32 num = Registration.toBytesInt32 num := by
  refine ⟨fun _ _ _ => proposalNumeration_lt, fun n _ => ?_, fun m n hm hn heq => ?_, fun num _ _ => ?_⟩
  · exact ⟨toBytesInt32_eq_beBytes _, beNat_toBytesInt32 _⟩
  · have hnat := congrArg beNat heq
    rw [beNat_toBytesInt32, beNat_toBytesInt32] at hnat
    omega
  · exact toBytesInt32_eq_registration num

end InglMonitor
