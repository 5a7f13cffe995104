import Mathlib.Algebra.BigOperators.Group.List.Basic
import Mathlib.Algebra.GroupWithZero.Nat

/-! The longest prefix of a list whose total weight stays below a limit. -/

namespace GreedyPrefix

variable {α : Type} (weight : α → Nat) (limit : Nat)

def total (xs : List α) : Nat := (xs.map weight).sum

/-- The length of the prefix, when some weight is spent already. -/
def prefixLength : Nat → List α → Nat
  | _, [] => 0
  | spent, x :: xs =>
      if spent + weight x < limit then prefixLength (spent + weight x) xs + 1 else 0

variable {weight limit} {spent : Nat} {xs : List α}

@[simp] theorem total_nil : total weight ([] : List α) = 0 := rfl

@[simp] theorem total_cons (x : α) (xs : List α) :
    total weight (x :: xs) = weight x + total weight xs := by
  rw [total, List.map_cons, List.sum_cons, total]

/-- Nothing fits when the limit is reached. -/
theorem prefixLength_of_le (h : limit ≤ spent) : prefixLength weight limit spent xs = 0 := by
  cases xs with
  | nil => rfl
  | cons x xs => exact if_neg (by omega)

theorem prefixLength_le_length : prefixLength weight limit spent xs ≤ xs.length := by
  induction xs generalizing spent with
  | nil => exact Nat.le_refl 0
  | cons x xs ih =>
      rw [prefixLength, List.length_cons]
      split
      · have hrest := @ih (spent + weight x)
        omega
      · omega

/-- Everything fits exactly when the total does. -/
theorem prefixLength_eq_length_iff (hspent : spent < limit) :
    prefixLength weight limit spent xs = xs.length ↔ spent + total weight xs < limit := by
  induction xs generalizing spent with
  | nil => exact iff_of_true rfl hspent
  | cons x xs ih =>
      rw [prefixLength, List.length_cons, total_cons]
      by_cases hfits : spent + weight x < limit
      · rw [if_pos hfits, Nat.add_right_cancel_iff, ih hfits]
        omega
      · rw [if_neg hfits]
        omega

/-- The prefixes that fit are those up to the longest one. -/
theorem le_prefixLength_iff {k : Nat} (hk : k ≤ xs.length) :
    k ≤ prefixLength weight limit spent xs ↔ k = 0 ∨ spent + total weight (xs.take k) < limit := by
  induction xs generalizing spent k with
  | nil =>
      have hzero : k = 0 := Nat.le_zero.mp hk
      exact iff_of_true (Nat.le_of_eq hzero) (.inl hzero)
  | cons x xs ih =>
      cases k with
      | zero => exact iff_of_true (Nat.zero_le _) (.inl rfl)
      | succ k =>
          rw [prefixLength, List.take_succ_cons, total_cons]
          by_cases hfits : spent + weight x < limit
          · rw [if_pos hfits, Nat.add_le_add_iff_right, ih (Nat.le_of_succ_le_succ hk)]
            constructor
            · rintro (rfl | hlt)
              · rw [List.take_zero, total_nil]
                exact .inr hfits
              · exact .inr (by omega)
            · rintro (hzero | hlt)
              · cases hzero
              · exact .inr (by omega)
          · rw [if_neg hfits]
            omega

/-- Behind a total that reaches the limit, nothing matters any more. -/
theorem prefixLength_append_of_le {ys : List α} (h : limit ≤ spent + total weight xs) :
    prefixLength weight limit spent (xs ++ ys) = prefixLength weight limit spent xs := by
  induction xs generalizing spent with
  | nil => exact prefixLength_of_le h
  | cons x xs ih =>
      rw [total_cons, ← Nat.add_assoc] at h
      rw [List.cons_append, prefixLength, prefixLength, ih h]

/-- What fits weighs less than the limit. -/
theorem weight_lt_of_mem_take {x : α} (h : x ∈ xs.take (prefixLength weight limit spent xs)) :
    weight x < limit := by
  induction xs generalizing spent with
  | nil => simp at h
  | cons y xs ih =>
      rw [prefixLength] at h
      by_cases hfits : spent + weight y < limit
      · rw [if_pos hfits, List.take_succ_cons] at h
        rcases List.mem_cons.mp h with rfl | h
        · omega
        · exact ih h
      · rw [if_neg hfits] at h
        simp at h

/-- The prefix stays below the limit. -/
theorem total_take_lt (hspent : spent < limit) :
    spent + total weight (xs.take (prefixLength weight limit spent xs)) < limit := by
  induction xs generalizing spent with
  | nil => simpa using hspent
  | cons x xs ih =>
      rw [prefixLength]
      by_cases hfits : spent + weight x < limit
      · have hrest := ih hfits
        rw [if_pos hfits, List.take_succ_cons, total_cons]
        omega
      · rw [if_neg hfits, List.take_zero, total_nil]
        exact hspent

/-- Nothing fits of a list that starts with a heavy element. -/
theorem limit_le_of_prefixLength_eq_zero (h : prefixLength weight limit 0 xs = 0) {x : α}
    (hx : x ∈ xs.head?) : limit ≤ weight x := by
  cases xs with
  | nil => cases hx
  | cons y xs =>
      cases hx
      rw [prefixLength] at h
      by_contra hlt
      rw [if_pos (by omega)] at h
      omega

end GreedyPrefix
