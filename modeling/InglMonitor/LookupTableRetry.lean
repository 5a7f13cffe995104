import InglMonitor.LookupTables

/-! What a rejected creation of lookup tables leaves to the caller: the end of the array that no iteration
has spliced yet. The iteration that fails has spliced its addresses, too, unless it has not even got an
address for its table. -/

open Chunking

namespace InglMonitor

/-- A table of the result has been extended with the address. -/
def InTables (s : LookupTableState) (address : PublicKey) : Prop :=
  ∃ lookupTable ∈ s.lookupTableAddresses, ∃ piece, (lookupTable, piece) ∈ s.extensions ∧ address ∈ piece

/-- After a rejection the array is as before, and a second call with it that resolves puts every address
into a table. -/
structure Retriable (api : TransactionApi) (payerKeypair : Keypair) (addresses : List PublicKey)
    (s : LookupTableState) : Prop where
  unchanged : s.addresses = addresses
  complete : ∀ answers t, Settles api payerKeypair answers s.addresses (.ok t) →
    ∀ address ∈ addresses, InTables t address

/-- An iteration fails before it splices: the slot cannot be read, or the table has no address. -/
def FailsBeforeSplice (api : TransactionApi) (payerKeypair : Keypair) (answer : IterationAnswers) : Prop :=
  ∃ message, nextTable api payerKeypair answer = .error message

variable {api : TransactionApi} {payerKeypair : Keypair} {answers : Nat → IterationAnswers}
  {addresses : List PublicKey} {message : String} {s : LookupTableState}

/-- A first iteration that fails before it splices leaves everything as it is. -/
theorem unchanged_of_failsBeforeSplice (hfails : FailsBeforeSplice api payerKeypair (answers 0))
    (h : Settles api payerKeypair answers addresses (.error (message, s))) : s.addresses = addresses := by
  obtain ⟨message', htable⟩ := hfails
  let start : LookupTableState := ⟨addresses, 0, [], []⟩
  cases hagain : hasAddresses start with
  | false => cases (WhileLoop.ends_iff_of_stop hagain).mp h
  | true =>
      have hbody : extendNext api payerKeypair answers start = .error (message', start) := by
        rw [extendNext, show nextTable api payerKeypair (answers start.iteration) = _ from htable]
      have heq := Except.error.inj ((WhileLoop.ends_iff_of_error hagain hbody).mp h)
      exact congrArg (·.2.addresses) heq

/-- Any other rejection leaves less. -/
theorem length_lt_of_not_failsBeforeSplice (hfails : ¬FailsBeforeSplice api payerKeypair (answers 0))
    (h : Settles api payerKeypair answers addresses (.error (message, s))) :
    s.addresses.length < addresses.length := by
  rcases h.progress with ⟨t, pieces, hresult, -⟩ | ⟨t, e, pieces, hresult, hprogress, hne, hbody⟩
  · cases hresult
  · cases hresult
    rcases extendNext_eq_error hbody with ⟨htable, rfl⟩ | ⟨recentSlot, lookupTable, submitted, -, rfl⟩
    · -- not the first iteration, as that one has got a table
      apply hprogress.cutting.length_lt
      rintro rfl
      rw [hprogress.iteration_eq] at htable
      exact hfails ⟨message, htable⟩
    · have hpos := List.length_pos_iff.mpr hne
      have hle := hprogress.cutting.suffix.length_le
      rw [LookupTableState.splice, List.length_drop]
      omega

/-! ### The second call -/

theorem TablesPartition.inTables {pieces : List (List PublicKey)}
    (h : TablesPartition addresses s pieces) {address : PublicKey} (hmem : address ∈ addresses) :
    InTables s address := by
  rw [← h.contents] at hmem
  obtain ⟨extension, hextension, haddress⟩ := List.mem_flatMap.mp hmem
  have hzip := hextension
  rw [h.extensions_eq] at hzip
  exact ⟨extension.1, (List.of_mem_zip hzip).1, extension.2, hextension, haddress⟩

/-- **Retrying.** A rejected call can be repeated with its array exactly when its first iteration has
failed before it spliced. -/
theorem retriable_iff (h : Settles api payerKeypair answers addresses (.error (message, s))) :
    Retriable api payerKeypair addresses s ↔ FailsBeforeSplice api payerKeypair (answers 0) := by
  constructor
  · intro hretriable
    by_contra hfails
    have hlt := length_lt_of_not_failsBeforeSplice hfails h
    rw [hretriable.unchanged] at hlt
    exact Nat.lt_irrefl _ hlt
  · intro hfails
    have hunchanged := unchanged_of_failsBeforeSplice hfails h
    refine ⟨hunchanged, fun answers' t hsettles address hmem => ?_⟩
    rw [hunchanged] at hsettles
    obtain ⟨pieces, hpartition⟩ := hsettles.partition
    exact hpartition.inTables hmem

/-- The node has not told the slot. -/
theorem retriable_iff_noSlot : Retriable packetApi backendKeypair [⟨"address"⟩] ⟨[⟨"address"⟩], 0, [], []⟩ :=
  (@retriable_iff packetApi backendKeypair (fun _ => ⟨.error "fetch failed", liveNode.rpc⟩) _ _ _
    ⟨1, rfl⟩).mpr ⟨"fetch failed", rfl⟩

/-- The node has not told the blockhash of the first transaction. -/
theorem not_retriable_noBlockhash : ∃ message s,
    Settles packetApi backendKeypair
      (fun _ => ⟨.ok 100, { liveNode.rpc with getLatestBlockhash := .error "fetch failed" }⟩)
      ((List.range 21).map fun i => ⟨toString i⟩) (.error (message, s)) ∧
    ¬Retriable packetApi backendKeypair ((List.range 21).map fun i => ⟨toString i⟩) s := by
  refine ⟨_, _, ⟨1, rfl⟩, fun hretriable => ?_⟩
  have hlength := congrArg List.length hretriable.unchanged
  exact absurd hlength (by decide)

end InglMonitor
