import InglMonitor.Chunking
import InglMonitor.ForwardTransaction
import InglMonitor.WhileLoop

/-! The creation of lookup tables. Each iteration creates one table, and extends it with up to twenty
addresses that it splices out of the caller's array; it does so before the transaction is sent. -/

open Chunking

namespace InglMonitor

/-- The answers to the calls of one iteration. -/
structure IterationAnswers where
  getSlot : Except String Nat
  rpc : Rpc

/-- The same for a node that answers every request. -/
structure LiveIteration where
  recentSlot : Nat
  node : LiveRpc

def LiveIteration.answers (live : LiveIteration) : IterationAnswers := ⟨.ok live.recentSlot, live.node.rpc⟩

/-- The caller's array and the variables of the loop, with the transactions sent. -/
structure LookupTableState where
  addresses : List PublicKey
  iteration : Nat
  lookupTableAddresses : List PublicKey
  submitted : List Transaction

/-- `addresses.splice(0, 20)`, and what comes with it. -/
def LookupTableState.splice (s : LookupTableState) (lookupTableAddress : PublicKey)
    (submitted : List Transaction) : LookupTableState where
  addresses := s.addresses.drop 20
  iteration := s.iteration + 1
  lookupTableAddresses := s.lookupTableAddresses ++ [lookupTableAddress]
  submitted := s.submitted ++ submitted

section Model

variable (api : TransactionApi)

-- The backend's, from the environment.
variable (payerKeypair : Keypair)

/-- The slot that is read for a table, and the address of the table. -/
def nextTable (answer : IterationAnswers) : Except String (Nat × PublicKey) := do
  let recentSlot ← answer.getSlot
  let lookupTableAddress ← api.lookupTableAddress payerKeypair.publicKey recentSlot
  return (recentSlot, lookupTableAddress)

/-- The argument of `forwardLegacyTransaction`. -/
def extendParams (recentSlot : Nat) (lookupTable : PublicKey) (addresses : List PublicKey) :
    ForwardTransactionParams where
  instructions :=
    [.createLookupTable payerKeypair.publicKey payerKeypair.publicKey recentSlot lookupTable,
      .extendLookupTable lookupTable payerKeypair.publicKey payerKeypair.publicKey addresses]
  signerKeypairs := [payerKeypair]
  options := some ⟨some "finalized", none⟩

/-- The transaction that is made of it. -/
def extendTransaction (blockhash : String) (recentSlot : Nat) (lookupTable : PublicKey)
    (addresses : List PublicKey) : Transaction :=
  ⟨.legacy, payerKeypair.publicKey, blockhash,
    (extendParams payerKeypair recentSlot lookupTable addresses).instructions, [], [payerKeypair]⟩

variable (answers : Nat → IterationAnswers)

/-- The body of the loop. An exception comes with the state it leaves. -/
def extendNext (s : LookupTableState) : Except (String × LookupTableState) LookupTableState :=
  match nextTable api payerKeypair (answers s.iteration) with
  | .error message => .error (message, s)
  | .ok (recentSlot, lookupTableAddress) =>
      let forwarded := forwardLegacyTransaction api (answers s.iteration).rpc
        (extendParams payerKeypair recentSlot lookupTableAddress (s.addresses.take 20))
      let s' := s.splice lookupTableAddress forwarded.submitted
      match forwarded.result with
      | .error message => .error (message, s')
      | .ok _ => .ok s'

/-- `addresses.length > 0`. -/
def hasAddresses (s : LookupTableState) : Bool := 0 < s.addresses.length

/-- With so much fuel for the loop. -/
def createLookupTable (fuel : Nat) (addresses : List PublicKey) :
    Option (Except (String × LookupTableState) LookupTableState) :=
  WhileLoop.run hasAddresses (extendNext api payerKeypair answers) fuel ⟨addresses, 0, [], []⟩

/-- The promise settles: it resolves to the table addresses of a state, or an exception rejects it. -/
def Settles (addresses : List PublicKey)
    (result : Except (String × LookupTableState) LookupTableState) : Prop :=
  ∃ fuel, createLookupTable api payerKeypair answers fuel addresses = some result

end Model

/-- The tables that a transaction extends, with the addresses. -/
def Transaction.extensions (transaction : Transaction) : List (PublicKey × List PublicKey) :=
  transaction.instructions.filterMap fun
    | .extendLookupTable lookupTable _ _ addresses => some (lookupTable, addresses)
    | _ => none

def LookupTableState.extensions (s : LookupTableState) : List (PublicKey × List PublicKey) :=
  s.submitted.flatMap (·.extensions)

/-- The tables have been extended with one piece each, in order. -/
structure ExtendedWith (s : LookupTableState) (pieces : List (List PublicKey)) : Prop where
  length_eq : s.lookupTableAddresses.length = pieces.length
  extensions_eq : s.extensions = s.lookupTableAddresses.zip pieces

/-- The tables take a list of addresses in pieces of twenty. -/
structure TablesPartition (addresses : List PublicKey) (s : LookupTableState)
    (pieces : List (List PublicKey)) : Prop extends ExtendedWith s pieces where
  chunking : IsChunking 20 pieces addresses
  /-- An address is in a table at the place that its position in the list says. -/
  position : ∀ i, (pieces[i / 20]?.bind fun piece => piece[i % 20]?) = addresses[i]?
  contents : s.extensions.flatMap (·.2) = addresses

variable {api : TransactionApi} {payerKeypair : Keypair} {answers : Nat → IterationAnswers}
  {s s' : LookupTableState} {addresses : List PublicKey}

/-- What is sent, where something is sent. -/
theorem legacyTransaction_extendParams {rpc : Rpc} {recentSlot : Nat} {lookupTable : PublicKey}
    {transaction : Transaction} :
    legacyTransaction api rpc (extendParams payerKeypair recentSlot lookupTable addresses) =
        .ok transaction ↔
      api.compile transaction = .ok () ∧ ∃ blockhash, rpc.getLatestBlockhash = .ok blockhash ∧
        transaction = extendTransaction payerKeypair blockhash recentSlot lookupTable addresses := by
  let params : ForwardVersionnedTransactionParams :=
    ⟨extendParams payerKeypair recentSlot lookupTable addresses, none⟩
  have hpayer : payerKeypair ∈ params.signerKeypairs.head? := rfl
  have hgiven : params.options ≠ none ∧ params.instructions ≠ [] :=
    ⟨Option.some_ne_none _, List.cons_ne_nil _ _⟩
  have hunits : ∀ units ∈ requestedUnits params, api.encodeUnits units = .ok () :=
    fun _ hnone => nomatch hnone
  calc legacyTransaction api rpc params.toForwardTransactionParams = .ok transaction
      ↔ _ := legacyTransaction_eq_ok_iff hpayer
    _ ↔ _ := and_iff_right hgiven
    _ ↔ _ := and_iff_right hunits

/-- An iteration goes on only if its transaction has been sent. -/
theorem extendNext_eq_ok (h : extendNext api payerKeypair answers s = .ok s') :
    ∃ lookupTableAddress transaction, s' = s.splice lookupTableAddress [transaction] ∧
      transaction.extensions = [(lookupTableAddress, s.addresses.take 20)] := by
  rw [extendNext] at h
  cases htable : nextTable api payerKeypair (answers s.iteration) with
  | error message =>
      rw [htable] at h
      cases h
  | ok table =>
      obtain ⟨recentSlot, lookupTableAddress⟩ := table
      simp only [htable, forwardLegacyTransaction] at h
      cases hcompiled : legacyTransaction api (answers s.iteration).rpc
          (extendParams payerKeypair recentSlot lookupTableAddress (s.addresses.take 20)) with
      | error message =>
          rw [hcompiled] at h
          cases h
      | ok transaction =>
          obtain ⟨-, blockhash, -, htransaction⟩ := legacyTransaction_extendParams.mp hcompiled
          refine ⟨lookupTableAddress, transaction, ?_, htransaction ▸ rfl⟩
          rw [hcompiled] at h
          simp only [submit] at h
          split at h
          · cases h
          · exact (Except.ok.inj h).symm

/-- An iteration that fails has spliced the caller's array, unless it has failed before that. -/
theorem extendNext_eq_error {message : String}
    (h : extendNext api payerKeypair answers s = .error (message, s')) :
    (nextTable api payerKeypair (answers s.iteration) = .error message ∧ s' = s) ∨
      ∃ recentSlot lookupTableAddress submitted,
        nextTable api payerKeypair (answers s.iteration) = .ok (recentSlot, lookupTableAddress) ∧
          s' = s.splice lookupTableAddress submitted := by
  rw [extendNext] at h
  cases htable : nextTable api payerKeypair (answers s.iteration) with
  | error message' =>
      rw [htable] at h
      cases h
      exact .inl ⟨rfl, rfl⟩
  | ok table =>
      obtain ⟨recentSlot, lookupTableAddress⟩ := table
      simp only [htable] at h
      split at h
      · cases h
        exact .inr ⟨recentSlot, lookupTableAddress, _, rfl, rfl⟩
      · cases h

/-- So many iterations have cut off so many pieces. -/
structure Progress (addresses : List PublicKey) (s : LookupTableState)
    (pieces : List (List PublicKey)) : Prop extends ExtendedWith s pieces where
  cutting : Cutting 20 pieces s.addresses addresses
  iteration_eq : s.iteration = pieces.length

theorem Progress.start (addresses : List PublicKey) : Progress addresses ⟨addresses, 0, [], []⟩ [] :=
  { length_eq := rfl, extensions_eq := rfl, cutting := .start, iteration_eq := rfl }

theorem addresses_ne_nil (hagain : hasAddresses s = true) : s.addresses ≠ [] :=
  List.length_pos_iff.mp (of_decide_eq_true hagain)

theorem addresses_eq_nil (hstop : hasAddresses s = false) : s.addresses = [] := by
  by_contra hne
  exact of_decide_eq_false hstop (List.length_pos_iff.mpr hne)

theorem Progress.next {pieces : List (List PublicKey)} (hs : Progress addresses s pieces)
    (hagain : hasAddresses s = true) (hbody : extendNext api payerKeypair answers s = .ok s') :
    Progress addresses s' (pieces ++ [s.addresses.take 20]) := by
  obtain ⟨lookupTableAddress, transaction, rfl, htransaction⟩ := extendNext_eq_ok hbody
  refine ⟨⟨?_, ?_⟩, hs.cutting.cut (by decide) (addresses_ne_nil hagain), ?_⟩
  · rw [LookupTableState.splice, List.length_append, List.length_append, hs.length_eq]
    rfl
  · calc (s.splice lookupTableAddress [transaction]).extensions
        = s.extensions ++ transaction.extensions := by
          rw [LookupTableState.extensions, LookupTableState.splice, List.flatMap_append,
            List.flatMap_singleton]
          rfl
      _ = s.lookupTableAddresses.zip pieces ++ [(lookupTableAddress, s.addresses.take 20)] := by
          rw [hs.extensions_eq, htransaction]
      _ = (s.lookupTableAddresses ++ [lookupTableAddress]).zip (pieces ++ [s.addresses.take 20]) := by
          rw [List.zip_append hs.length_eq]
          rfl
  · rw [LookupTableState.splice, List.length_append, hs.iteration_eq]
    rfl

/-- A promise settles after the loop has stopped, or with the exception of one iteration. -/
theorem Settles.progress {result : Except (String × LookupTableState) LookupTableState}
    (h : Settles api payerKeypair answers addresses result) :
    (∃ t pieces, result = .ok t ∧ Progress addresses t pieces ∧ t.addresses = []) ∨
      ∃ t e pieces, result = .error e ∧ Progress addresses t pieces ∧ t.addresses ≠ [] ∧
        extendNext api payerKeypair answers t = .error e := by
  have hkeep (s s' : LookupTableState) (hs : ∃ pieces, Progress addresses s pieces)
      (hagain : hasAddresses s = true) (hbody : extendNext api payerKeypair answers s = .ok s') :
      ∃ pieces, Progress addresses s' pieces := by
    obtain ⟨pieces, hprogress⟩ := hs
    exact ⟨_, hprogress.next hagain hbody⟩
  rcases WhileLoop.Ends.invariant hkeep ⟨[], Progress.start addresses⟩ h with
    ⟨t, hresult, ⟨pieces, hprogress⟩, hstop⟩ | ⟨t, e, hresult, ⟨pieces, hprogress⟩, hagain, hbody⟩
  · exact .inl ⟨t, pieces, hresult, hprogress, addresses_eq_nil hstop⟩
  · exact .inr ⟨t, e, pieces, hresult, hprogress, addresses_ne_nil hagain, hbody⟩

/-- A promise that resolves has put the addresses into tables. -/
theorem Settles.partition (h : Settles api payerKeypair answers addresses (.ok s)) :
    ∃ pieces, TablesPartition addresses s pieces := by
  rcases h.progress with ⟨t, pieces, hresult, hprogress, hnil⟩ | ⟨t, e, pieces, hresult, -⟩
  · cases hresult
    have hchunking : IsChunking 20 pieces addresses := (hnil ▸ hprogress.cutting).isChunking
    refine ⟨pieces, hprogress.toExtendedWith, hchunking, hchunking.getElem? (by decide), ?_⟩
    rw [hprogress.extensions_eq, List.flatMap_def, List.map_snd_zip hprogress.length_eq.ge,
      hchunking.flatten_eq]
  · cases hresult

/-! ### While every call succeeds -/

def backendKeypair : Keypair := ⟨⟨"backend"⟩, []⟩

end InglMonitor
