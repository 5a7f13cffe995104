import Mathlib.Data.List.Basic

/-! Consecutive pieces of a list, all of one length but for the last, which may be shorter. They are cut
off one by one in front of what is left. -/

namespace Chunking

variable {α : Type} {n : Nat} {pieces : List (List α)} {rest xs : List α}

/-- The list in pieces of at most `n`. -/
structure IsChunking (n : Nat) (pieces : List (List α)) (xs : List α) : Prop where
  flatten_eq : pieces.flatten = xs
  bounds : ∀ piece ∈ pieces, 1 ≤ piece.length ∧ piece.length ≤ n
  full : ∀ piece ∈ pieces.dropLast, piece.length = n

variable {piece : List α}

/-- Only the last piece may be short. -/
theorem IsChunking.length_head (h : IsChunking n (piece :: pieces) xs) (hne : pieces ≠ []) :
    piece.length = n := by
  apply h.full piece
  rw [List.dropLast_cons_of_ne_nil hne]
  exact List.mem_cons_self

/-- What is behind the first piece is in pieces, too. -/
theorem IsChunking.tail (h : IsChunking n (piece :: pieces) xs) :
    IsChunking n pieces pieces.flatten := by
  refine ⟨rfl, fun piece' hmem => h.bounds piece' (List.mem_cons_of_mem _ hmem), ?_⟩
  intro piece' hmem
  have hne : pieces ≠ [] := fun hnil => by
    rw [hnil] at hmem
    cases hmem
  apply h.full piece'
  rw [List.dropLast_cons_of_ne_nil hne]
  exact List.mem_cons_of_mem _ hmem

/-- An element is in the piece, and at the place there, that its position says. -/
theorem IsChunking.getElem? (hn : 0 < n) (h : IsChunking n pieces xs) (i : Nat) :
    (pieces[i / n]?.bind fun piece => piece[i % n]?) = xs[i]? := by
  induction pieces generalizing i xs with
  | nil => rw [← h.flatten_eq, List.flatten_nil, List.getElem?_nil, List.getElem?_nil, Option.bind_none]
  | cons piece pieces ih =>
      have hbounds := h.bounds piece List.mem_cons_self
      rw [← h.flatten_eq, List.flatten_cons]
      by_cases hi : i < n
      · rw [Nat.div_eq_of_lt hi, Nat.mod_eq_of_lt hi, List.getElem?_cons_zero, Option.bind_some]
        by_cases hpiece : i < piece.length
        · rw [List.getElem?_append_left hpiece]
        · have hlast : pieces = [] := by
            by_contra hne
            have hfull := h.length_head hne
            omega
          rw [hlast, List.flatten_nil, List.append_nil]
      · obtain ⟨j, rfl⟩ : ∃ j, i = j + n := ⟨i - n, by omega⟩
        rw [Nat.add_div_right j hn, Nat.add_mod_right, List.getElem?_cons_succ, ih h.tail j]
        by_cases hne : pieces = []
        · rw [hne, List.flatten_nil, List.append_nil, List.getElem?_nil, eq_comm,
            List.getElem?_eq_none_iff]
          omega
        · have hfull := h.length_head hne
          rw [List.getElem?_append_right (by omega)]
          exact congrArg (pieces.flatten[·]?) (by omega)

/-- As many pieces as the length asks for. -/
theorem IsChunking.length_eq (hn : 0 < n) (h : IsChunking n pieces xs) :
    pieces.length = (xs.length + n - 1) / n := by
  induction pieces generalizing xs with
  | nil =>
      rw [← h.flatten_eq]
      show 0 = (0 + n - 1) / n
      rw [Nat.zero_add, Nat.div_eq_of_lt (Nat.sub_lt hn Nat.one_pos)]
  | cons piece pieces ih =>
      have hbounds := h.bounds piece List.mem_cons_self
      rw [← h.flatten_eq, List.flatten_cons, List.length_append, List.length_cons, ih h.tail]
      by_cases hne : pieces = []
      · rw [hne, List.flatten_nil, List.length_nil, Nat.add_zero, Nat.zero_add]
        rw [Nat.div_eq_of_lt (Nat.sub_lt hn Nat.one_pos)]
        exact (Nat.div_eq_of_lt_le (by omega) (by omega)).symm
      · rw [h.length_head hne, ← Nat.add_div_right _ hn]
        exact congrArg (· / n) (by omega)

/-! ### Cutting -/

/-- Some pieces are cut off. While something is left, none of them is short. -/
structure Cutting (n : Nat) (pieces : List (List α)) (rest xs : List α) : Prop where
  append_eq : pieces.flatten ++ rest = xs
  bounds : ∀ piece ∈ pieces, 1 ≤ piece.length ∧ piece.length ≤ n
  full : ∀ piece ∈ pieces.dropLast, piece.length = n
  full_of_rest : rest ≠ [] → ∀ piece ∈ pieces, piece.length = n

theorem Cutting.start : Cutting n [] xs xs where
  append_eq := rfl
  bounds _ hmem := nomatch hmem
  full _ hmem := nomatch hmem
  full_of_rest _ _ hmem := nomatch hmem

theorem Cutting.cut (hn : 0 < n) (hrest : rest ≠ []) (h : Cutting n pieces rest xs) :
    Cutting n (pieces ++ [rest.take n]) (rest.drop n) xs where
  append_eq := by
    rw [List.flatten_append, List.flatten_singleton, List.append_assoc, List.take_append_drop,
      h.append_eq]
  bounds piece hmem := by
    rcases List.mem_append.mp hmem with hmem | hmem
    · exact h.bounds piece hmem
    · have hpos := List.length_pos_iff.mpr hrest
      rw [List.mem_singleton.mp hmem, List.length_take]
      omega
  full := by
    rw [List.dropLast_concat]
    exact h.full_of_rest hrest
  full_of_rest hleft piece hmem := by
    rcases List.mem_append.mp hmem with hmem | hmem
    · exact h.full_of_rest hrest piece hmem
    · have hlong : n < rest.length := by
        by_contra hshort
        exact hleft (List.drop_eq_nil_of_le (by omega))
      rw [List.mem_singleton.mp hmem, List.length_take]
      omega

/-- What is left is the end of the list. -/
theorem Cutting.suffix (h : Cutting n pieces rest xs) : rest <:+ xs := ⟨pieces.flatten, h.append_eq⟩

/-- Where something is left, it is behind as many full pieces. -/
theorem Cutting.flatten_eq_take (h : Cutting n pieces rest xs) (hrest : rest ≠ []) :
    pieces.flatten = xs.take (n * pieces.length) ∧ rest = xs.drop (n * pieces.length) := by
  have hlength : pieces.flatten.length = n * pieces.length := by
    rw [List.length_flatten, List.map_congr_left (h.full_of_rest hrest), List.map_const',
      List.sum_replicate_nat, Nat.mul_comm]
  rw [← h.append_eq, ← hlength]
  exact ⟨List.take_left.symm, List.drop_left.symm⟩

theorem Cutting.length_lt (h : Cutting n pieces rest xs) (hne : pieces ≠ []) :
    rest.length < xs.length := by
  obtain ⟨piece, others, rfl⟩ := List.exists_cons_of_ne_nil hne
  have hbounds := h.bounds piece List.mem_cons_self
  rw [← h.append_eq, List.flatten_cons, List.length_append, List.length_append]
  omega

theorem Cutting.isChunking (h : Cutting n pieces [] xs) : IsChunking n pieces xs :=
  ⟨(List.append_nil _).symm.trans h.append_eq, h.bounds, h.full⟩

end Chunking
