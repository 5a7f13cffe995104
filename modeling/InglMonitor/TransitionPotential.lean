import InglMonitor.TransitionRuns
import Mathlib.Algebra.BigOperators.Group.List.Basic
import Mathlib.Algebra.GroupWithZero.Nat
import Mathlib.Data.List.Perm.Basic

/-! The accounting of runs. Each event costs something and earns something, and the state keeps the
difference as its potential: what a run costs is bounded by what it earns. Where the state is a list of
pending items, its potential is their load. -/

namespace Transition

universe u v

variable {State : Type u} {Event : Type v} {step : State → Event → Option State}

section Load

variable {Item : Type u} (weight : Item → Nat)

/-- The total weight of the items. -/
def load (items : List Item) : Nat := (items.map weight).sum

@[simp] theorem load_nil : load weight [] = 0 := rfl

@[simp] theorem load_cons (item : Item) (items : List Item) :
    load weight (item :: items) = weight item + load weight items := List.sum_cons

@[simp] theorem load_append (items items' : List Item) :
    load weight (items ++ items') = load weight items + load weight items' := by
  rw [load, List.map_append, List.sum_append]
  rfl

/-- An item takes its weight with it. -/
theorem load_eraseIdx {items : List Item} {i : Nat} {item : Item} (hget : items[i]? = some item) :
    weight item + load weight (items.eraseIdx i) = load weight items := by
  obtain ⟨hi, rfl⟩ := List.getElem?_eq_some_iff.mp hget
  exact (load_cons ..).symm.trans ((List.getElem_cons_eraseIdx_perm hi).map weight).sum_eq

/-- An item is replaced. -/
theorem load_set {items : List Item} {i : Nat} {item : Item} (hget : items[i]? = some item)
    (item' : Item) :
    weight item + load weight (items.set i item') = weight item' + load weight items := by
  obtain ⟨hi, -⟩ := List.getElem?_eq_some_iff.mp hget
  have hperm := (List.set_perm_cons_eraseIdx hi item').map weight
  rw [load, hperm.sum_eq, List.map_cons, List.sum_cons, ← load_eraseIdx weight hget, load]
  omega

/-- Items of one weight, among others that weigh nothing. -/
theorem load_ite (p : Item → Bool) (n : Nat) (items : List Item) :
    load (fun item => if p item then n else 0) items = n * items.countP p := by
  induction items with
  | nil => rfl
  | cons item items ih =>
      rw [load_cons, ih, List.countP_cons, Nat.mul_add, Nat.add_comm]
      split
      · rw [Nat.mul_one]
      · rw [Nat.mul_zero]

theorem load_mono (weight' : Item → Nat) {items : List Item}
    (h : ∀ item ∈ items, weight item ≤ weight' item) : load weight items ≤ load weight' items := by
  induction items with
  | nil => exact Nat.le_refl _
  | cons item items ih =>
      obtain ⟨hitem, hitems⟩ := List.forall_mem_cons.mp h
      rw [load_cons, load_cons]
      exact Nat.add_le_add hitem (ih hitems)

end Load

end Transition
