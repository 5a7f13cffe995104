import InglMonitor.LookupTables
import Mathlib.Algebra.Order.Group.Nat

/-! The creation of lookup tables, called again with the same array after each rejection until it resolves.
A rejected call has spliced whole pieces out of the array and has created their tables, but it does not tell
which; so the call that resolves has the tables of the end of the list only. -/

open Chunking

namespace InglMonitor

section Model

variable (api : TransactionApi) (payerKeypair : Keypair)

end Model

/-- What has been sent to extend tables with. -/
def contents (calls : List LookupTableState) : List PublicKey :=
  calls.flatMap fun s => s.extensions.flatMap (·.2)

variable {api : TransactionApi} {payerKeypair : Keypair} {answers : Nat → IterationAnswers}
  {addresses rest : List PublicKey} {message : String} {s t : LookupTableState}
  {failed : List LookupTableState}

/-- What is missing of a list that something else is made of. -/
structure Missing (sent whole : List PublicKey) (count : Nat) : Prop where
  sublist : sent.Sublist whole
  length_le : whole.length ≤ sent.length + count

theorem Missing.append {sent whole sent' whole' : List PublicKey} {count count' : Nat}
    (h : Missing sent whole count) (h' : Missing sent' whole' count') :
    Missing (sent ++ sent') (whole ++ whole') (count + count') := by
  refine ⟨h.sublist.append h'.sublist, ?_⟩
  rw [List.length_append, List.length_append]
  have hle := h.length_le
  have hle' := h'.length_le
  omega

/-- The call has cut off a piece for each of its tables, and has sent all of them but at most one. -/
structure Rejected (addresses : List PublicKey) (s : LookupTableState) : Prop where
  rest : s.addresses = addresses.drop (20 * s.lookupTableAddresses.length)
  tables : s.lookupTableAddresses.length ≤ (addresses.length + 19) / 20
  sent : Missing (s.extensions.flatMap (·.2)) (addresses.take (20 * s.lookupTableAddresses.length)) 20

/-- An iteration that has spliced the array has sent the piece, or has failed before that. -/
theorem extendNext_eq_error_of_table {recentSlot : Nat} {lookupTableAddress : PublicKey}
    (htable : nextTable api payerKeypair (answers s.iteration) = .ok (recentSlot, lookupTableAddress))
    (h : extendNext api payerKeypair answers s = .error (message, t)) :
    ∃ submitted, t = s.splice lookupTableAddress submitted ∧ (submitted = [] ∨
      submitted.flatMap (·.extensions) = [(lookupTableAddress, s.addresses.take 20)]) := by
  rw [extendNext, htable] at h
  simp only [forwardLegacyTransaction] at h
  cases hcompiled : legacyTransaction api (answers s.iteration).rpc
      (extendParams payerKeypair recentSlot lookupTableAddress (s.addresses.take 20)) with
  | error message' =>
      rw [hcompiled] at h
      cases h
      exact ⟨[], rfl, .inl rfl⟩
  | ok transaction =>
      obtain ⟨-, blockhash, -, rfl⟩ := legacyTransaction_extendParams.mp hcompiled
      rw [hcompiled] at h
      simp only [submit] at h
      split at h
      · cases h
        exact ⟨_, rfl, .inr rfl⟩
      · cases h

/-- Sent extensions are what their tables take. -/
theorem ExtendedWith.contents_eq {pieces : List (List PublicKey)} (h : ExtendedWith s pieces) :
    s.extensions.flatMap (·.2) = pieces.flatten := by
  rw [h.extensions_eq, List.flatMap_def, List.map_snd_zip h.length_eq.ge]

theorem extensions_splice {lookupTableAddress : PublicKey} {submitted : List Transaction} :
    (s.splice lookupTableAddress submitted).extensions =
      s.extensions ++ submitted.flatMap (·.extensions) := by
  rw [LookupTableState.extensions, LookupTableState.splice, List.flatMap_append]
  rfl

theorem Settles.rejected (h : Settles api payerKeypair answers addresses (.error (message, s))) :
    Rejected addresses s := by
  rcases h.progress with ⟨_, _, hresult, -⟩ | ⟨t, e, pieces, hresult, hprogress, hne, hbody⟩
  · cases hresult
  · cases hresult
    obtain ⟨htaken, hrest⟩ := hprogress.cutting.flatten_eq_take hne
    have hcontents := hprogress.toExtendedWith.contents_eq
    have hlt : 20 * pieces.length < addresses.length := by
      by_contra hle
      exact hne (hrest.trans (List.drop_eq_nil_of_le (by omega)))
    cases htable : nextTable api payerKeypair (answers t.iteration) with
    | error message' =>
        have hsame : s = t := by
          rcases extendNext_eq_error hbody with ⟨-, hsame⟩ | ⟨_, _, _, hok, -⟩
          · exact hsame
          · rw [htable] at hok
            cases hok
        subst hsame
        rw [← hprogress.length_eq] at htaken hrest hlt
        refine ⟨hrest, by omega, ?_, ?_⟩
        · rw [hcontents, htaken]
        · rw [hcontents, htaken]
          omega
    | ok table =>
        obtain ⟨recentSlot, lookupTableAddress⟩ := table
        obtain ⟨submitted, rfl, hsubmitted⟩ := extendNext_eq_error_of_table htable hbody
        have hlength : (t.splice lookupTableAddress submitted).lookupTableAddresses.length =
            pieces.length + 1 := by
          rw [LookupTableState.splice, List.length_append, hprogress.length_eq]
          rfl
        have htake : addresses.take (20 * (pieces.length + 1)) = pieces.flatten ++ t.addresses.take 20 := by
          rw [Nat.mul_succ, List.take_add, htaken, hrest]
        refine ⟨?_, ?_, ?_, ?_⟩
        · rw [hlength, Nat.mul_succ, ← List.drop_drop, ← hrest]
          rfl
        · rw [hlength]
          omega
        · rw [hlength, htake, extensions_splice, List.flatMap_append, hcontents]
          rcases hsubmitted with rfl | hsubmitted
          · exact (List.Sublist.refl _).append (List.nil_sublist _)
          · rw [hsubmitted, List.flatMap_singleton]
        · rw [hlength, htake, extensions_splice, List.flatMap_append, hcontents, List.length_append,
            List.length_append, List.length_take]
          omega

/-! ### Any number of rejected calls -/

end InglMonitor
