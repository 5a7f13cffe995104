import InglMonitor.BorshFormat
import Mathlib.Data.List.Forall2

/-! What the services share: account lookups on chain, addresses, and HTTP errors. Address parsing and
address derivation are library functions, given as parameters. -/

open Borsh

namespace InglMonitor

/-- A key by its base58 text. -/
structure PublicKey where
  base58 : String
  deriving DecidableEq

structure AccountInfo where
  owner : PublicKey
  executable : Bool
  data : Bytes
  deriving DecidableEq

/-- The part of web3.js the services call; an error carries its message. -/
structure Web3 where
  /-- `new PublicKey(address)`. -/
  publicKey : String → Except String PublicKey
  toBuffer : PublicKey → Bytes
  /-- The address without its bump seed. -/
  findProgramAddressSync : List Bytes → PublicKey → Except String PublicKey

/-- One RPC connection while the chain stands still; a lookup may fail. -/
structure Connection where
  getAccountInfo : PublicKey → Except String (Option AccountInfo)

inductive HttpStatus where
  | badRequest | unauthorized | notFound | internalServerError
  deriving DecidableEq

structure HttpException where
  message : String
  status : HttpStatus
  deriving DecidableEq

def tryPublicKey (web3 : Web3) (address : String) : Except HttpException PublicKey :=
  (web3.publicKey address).mapError fun message => ⟨message, .internalServerError⟩

/-! ### Fallible calls -/

theorem bind_eq_ok {ε α β : Type} {x : Except ε α} {f : α → Except ε β} {b : β} :
    x >>= f = .ok b ↔ ∃ a, x = .ok a ∧ f a = .ok b := by
  cases x <;> simp [bind, Except.bind]

@[simp] theorem mapError_eq_ok {ε ε' α : Type} {x : Except ε α} {f : ε → ε'} {a : α} :
    x.mapError f = .ok a ↔ x = .ok a := by
  cases x <;> simp [Except.mapError]

theorem exists_of_mapM_eq_ok {ε α β : Type} {f : α → Except ε β} {xs : List α} {ys : List β}
    (h : xs.mapM f = .ok ys) {x : α} (hx : x ∈ xs) : ∃ y ∈ ys, f x = .ok y := by
  induction xs generalizing ys with
  | nil => cases hx
  | cons head tail ih =>
      rw [List.mapM_cons] at h
      obtain ⟨y, hy, h⟩ := bind_eq_ok.mp h
      obtain ⟨rest, hrest, h⟩ := bind_eq_ok.mp h
      cases h
      rcases List.mem_cons.mp hx with rfl | hx
      · exact ⟨y, List.mem_cons_self, hy⟩
      · obtain ⟨z, hz, hfx⟩ := ih hrest hx
        exact ⟨z, List.mem_cons_of_mem _ hz, hfx⟩

/-- Every call succeeds, in order. -/
theorem mapM_eq_ok_iff {ε α β : Type} {f : α → Except ε β} {xs : List α} {ys : List β} :
    xs.mapM f = .ok ys ↔ List.Forall₂ (fun x y => f x = .ok y) xs ys := by
  induction xs generalizing ys with
  | nil =>
      rw [List.forall₂_nil_left_iff]
      exact ⟨fun h => (Except.ok.inj h).symm, fun h => h ▸ rfl⟩
  | cons x xs ih =>
      rw [List.mapM_cons, bind_eq_ok, List.forall₂_cons_left_iff]
      refine exists_congr fun y => ?_
      rw [bind_eq_ok]
      constructor
      · rintro ⟨hy, rest, hrest, h⟩
        exact ⟨rest, hy, ih.mp hrest, (Except.ok.inj h).symm⟩
      · rintro ⟨rest, hy, hrest, rfl⟩
        exact ⟨hy, rest, ih.mpr hrest, rfl⟩

theorem exists_of_mem_mapM {ε α β : Type} {f : α → Except ε β} {xs : List α} {ys : List β}
    (h : xs.mapM f = .ok ys) {y : β} (hy : y ∈ ys) : ∃ x ∈ xs, f x = .ok y := by
  induction mapM_eq_ok_iff.mp h with
  | nil => cases hy
  | cons hhead htail ih =>
      rcases List.mem_cons.mp hy with rfl | hy
      · exact ⟨_, List.mem_cons_self, hhead⟩
      · obtain ⟨x, hx, hfx⟩ := ih (mapM_eq_ok_iff.mpr htail) hy
        exact ⟨x, List.mem_cons_of_mem _ hx, hfx⟩

theorem exists_forall₂_iff {α β : Type} {R : α → β → Prop} {xs : List α} :
    (∃ ys, List.Forall₂ R xs ys) ↔ ∀ x ∈ xs, ∃ y, R x y := by
  induction xs with
  | nil => simp
  | cons x xs ih =>
      rw [List.forall_mem_cons, ← ih]
      constructor
      · rintro ⟨_, _ | ⟨hx, hxs⟩⟩
        exact ⟨⟨_, hx⟩, _, hxs⟩
      · rintro ⟨⟨y, hx⟩, ys, hxs⟩
        exact ⟨y :: ys, .cons hx hxs⟩

/-- The two products a program may be deployed for. -/
inductive ProgramUsage where
  | marketplace | permissionlessValidator
  deriving DecidableEq

namespace ProgramUsage

/-- The text an enum member stands for. -/
def text : ProgramUsage → String
  | marketplace => "Marketplace"
  | permissionlessValidator => "PermissionlessValidator"

theorem text_injective : Function.Injective text := by
  intro a b h
  cases a <;> cases b <;> simp [text] at h ⊢

end ProgramUsage

end InglMonitor
