import InglMonitor.ForwardRepeatable

/-! What any number of calls with one object leave in its array, whatever the node answers to each of them.
Version 0 puts its compute budget instruction into the array before it asks for a blockhash, so a call that
is refused later leaves one, too, and the next transaction of either version carries all of them. -/

open Transition

namespace InglMonitor

/-- A call of one of the two functions, with the answers of the node, which may be errors. -/
structure Attempt where
  version : TransactionVersion
  rpc : Rpc

section Model

variable (api : TransactionApi)

def Attempt.forward (attempt : Attempt) (params : ForwardVersionnedTransactionParams) : Forwarded :=
  match attempt.version with
  | .legacy => forwardLegacyTransaction api attempt.rpc params.toForwardTransactionParams
  | .v0 => forwardV0Transaction api attempt.rpc params

/-- The caller's object before and after a call. -/
def attemptStep (params : ForwardVersionnedTransactionParams) (attempt : Attempt) :
    Option ForwardVersionnedTransactionParams :=
  some { params with instructions := (attempt.forward api params).instructions }

end Model

section Params

variable (api : TransactionApi) (params : ForwardVersionnedTransactionParams)

/-- The instruction for the requested units, where units are requested. -/
def unitLimit : List TransactionInstruction :=
  (requestedUnits params).toList.map .setComputeUnitLimit

/-- The object with so many of them in front of the others. -/
def unshifted (count : Nat) : ForwardVersionnedTransactionParams :=
  { params with instructions := (List.replicate count (unitLimit params)).flatten ++ params.instructions }

/-- The node knows the table. -/
def tableFound (rpc : Rpc) (address : PublicKey) : Bool :=
  match rpc.getAddressLookupTable address with
  | .ok (some _) => true
  | _ => false

/-- An attempt in version 0 that has a signer, whose tables are found and whose units are encoded. -/
def reachesUnshift (attempt : Attempt) : Bool :=
  decide (attempt.version = .v0) && params.signerKeypairs.head?.isSome &&
    (params.lookupTableAddresses.getD []).all (tableFound attempt.rpc) &&
    (requestedUnits params).all fun units => (api.encodeUnits units).isOk

/-- What an attempt sends after so many others have reached the array. -/
structure Sends (count : Nat) (attempt : Attempt) (transaction : Transaction) : Prop where
  version : transaction.version = attempt.version
  payer : ∃ payer ∈ params.signerKeypairs.head?, transaction.feePayer = payer.publicKey
  signers : transaction.signers = params.signerKeypairs
  instructions : transaction.instructions = (unshifted params (count + 1)).instructions
  encoded : ∀ units ∈ requestedUnits params, api.encodeUnits units = .ok ()
  blockhash : attempt.rpc.getLatestBlockhash = .ok transaction.recentBlockhash
  compiled : api.compile transaction = .ok ()
  /-- Version 0 has found its tables, the other one has options and something to add. -/
  accepted : match attempt.version with
    | .legacy => transaction.lookupTableAccounts = [] ∧ params.options ≠ none ∧
        (unshifted params count).instructions ≠ []
    | .v0 => List.Forall₂
        (fun address account => attempt.rpc.getAddressLookupTable address = .ok (some account))
        (params.lookupTableAddresses.getD []) transaction.lookupTableAccounts

end Params

variable {api : TransactionApi} {params : ForwardVersionnedTransactionParams}

theorem requestedInstructions_unshifted (count : Nat) :
    requestedInstructions (unshifted params count) = (unshifted params (count + 1)).instructions := by
  show unitLimit params ++ ((List.replicate count (unitLimit params)).flatten ++ params.instructions) =
    (List.replicate (count + 1) (unitLimit params)).flatten ++ params.instructions
  rw [List.replicate_succ, List.flatten_cons, List.append_assoc]

theorem tableFound_eq_true {rpc : Rpc} {address : PublicKey} :
    tableFound rpc address = true ↔ ∃ account, rpc.getAddressLookupTable address = .ok (some account) := by
  rw [tableFound]
  split
  · next account hfound => exact ⟨fun _ => ⟨account, hfound⟩, fun _ => rfl⟩
  · next hnot =>
      refine ⟨Bool.noConfusion, fun hfound => ?_⟩
      obtain ⟨account, hfound⟩ := hfound
      exact (hnot account hfound).elim

theorem getLookupTables_eq_ok_iff {rpc : Rpc} {lookupTableAddresses : List PublicKey}
    {accounts : List AddressLookupTableAccount} : getLookupTables rpc lookupTableAddresses = .ok accounts ↔
      List.Forall₂ (fun address account => rpc.getAddressLookupTable address = .ok (some account))
        lookupTableAddresses accounts := by
  rw [getLookupTables, mapM_eq_ok_iff]
  refine ⟨fun h => h.imp fun address account hone => ?_, fun h => h.imp fun address account hone => ?_⟩
  · obtain ⟨found, hfound, h⟩ := bind_eq_ok.mp hone
    cases found with
    | none => cases h
    | some lookupTableAccount =>
        cases h
        exact hfound
  · exact bind_eq_ok.mpr ⟨some account, hone, rfl⟩

/-- What version 0 needs to reach the array. -/
structure Prepared (api : TransactionApi) (rpc : Rpc) (params : ForwardVersionnedTransactionParams)
    (payer : Keypair) (tables : List AddressLookupTableAccount) : Prop where
  payer : payer ∈ params.signerKeypairs.head?
  tables : List.Forall₂ (fun address account => rpc.getAddressLookupTable address = .ok (some account))
    (params.lookupTableAddresses.getD []) tables
  encoded : ∀ units ∈ requestedUnits params, api.encodeUnits units = .ok ()

theorem firstSigner_eq_ok_iff {signerKeypairs : List Keypair} {payer : Keypair} :
    firstSigner signerKeypairs = .ok payer ↔ payer ∈ signerKeypairs.head? := by
  refine ⟨fun h => ?_, firstSigner_eq⟩
  cases signerKeypairs with
  | nil => cases h
  | cons first rest =>
      cases h
      rfl

theorem beforeUnshift_eq_ok {rpc : Rpc} {payer : Keypair} {tables : List AddressLookupTableAccount}
    {additional : List TransactionInstruction} :
    beforeUnshift api rpc params = .ok (payer, tables, additional) ↔
      Prepared api rpc params payer tables ∧ additional = unitLimit params := by
  have hbefore : beforeUnshift api rpc params = do
      let payer ← firstSigner params.signerKeypairs
      let lookupTableAccounts ← getLookupTables rpc (params.lookupTableAddresses.getD [])
      let additional ← additionalInstructions api (params.options.bind (·.additionalUnits))
      return (payer, lookupTableAccounts, additional) := by
    rw [beforeUnshift]
    cases params.lookupTableAddresses with
    | none => rfl
    | some lookupTableAddresses => rfl
  rw [hbefore]
  simp only [bind_eq_ok, firstSigner_eq_ok_iff, getLookupTables_eq_ok_iff,
    additionalInstructions_eq_ok_iff]
  constructor
  · rintro ⟨payer, hpayer, tables, htables, additional, ⟨hencoded, rfl⟩, h⟩
    cases h
    exact ⟨⟨hpayer, htables, hencoded⟩, rfl⟩
  · rintro ⟨hprepared, rfl⟩
    exact ⟨payer, hprepared.payer, tables, hprepared.tables, _, ⟨hprepared.encoded, rfl⟩, rfl⟩

theorem reachesUnshift_iff {attempt : Attempt} : reachesUnshift api params attempt = true ↔
    attempt.version = .v0 ∧ ∃ payer tables, Prepared api attempt.rpc params payer tables := by
  have hencoded : ((requestedUnits params).all fun units => (api.encodeUnits units).isOk) = true ↔
      ∀ units ∈ requestedUnits params, api.encodeUnits units = .ok () := by
    rw [Option.all_eq_true]
    refine forall₂_congr fun units _ => ?_
    cases api.encodeUnits units with
    | error message => exact iff_of_false Bool.noConfusion (by rintro ⟨⟩)
    | ok encoded => exact ⟨fun _ => rfl, fun _ => rfl⟩
  have htables := @exists_forall₂_iff _ _
    (fun address account => attempt.rpc.getAddressLookupTable address = .ok (some account))
    (params.lookupTableAddresses.getD [])
  simp only [reachesUnshift, Bool.and_eq_true, decide_eq_true_eq, Option.isSome_iff_exists,
    List.all_eq_true, tableFound_eq_true, hencoded, ← htables]
  constructor
  · rintro ⟨⟨⟨hversion, payer, hpayer⟩, tables, hfound⟩, hencoded⟩
    exact ⟨hversion, payer, tables, hpayer, hfound, hencoded⟩
  · rintro ⟨hversion, payer, tables, hprepared⟩
    exact ⟨⟨⟨hversion, payer, hprepared.payer⟩, tables, hprepared.tables⟩, hprepared.encoded⟩

theorem mem_submitted_submit {rpc : Rpc} {compiled : Except String Transaction}
    {instructions : List TransactionInstruction} {transaction : Transaction} :
    transaction ∈ (submit rpc compiled instructions).submitted ↔ compiled = .ok transaction := by
  cases compiled with
  | error message => exact iff_of_false List.not_mem_nil (by rintro ⟨⟩)
  | ok compiled =>
      rw [submit, List.mem_singleton, Except.ok.injEq, eq_comm]

/-- An attempt changes the array exactly when it reaches it. -/
theorem instructions_forward (params : ForwardVersionnedTransactionParams) (attempt : Attempt) :
    (attempt.forward api params).instructions =
      (unshifted params (if reachesUnshift api params attempt then 1 else 0)).instructions := by
  obtain ⟨version, rpc⟩ := attempt
  cases version with
  | legacy => exact instructions_submit
  | v0 =>
      show (forwardV0Transaction api rpc params).instructions = _
      rw [forwardV0Transaction]
      cases hbefore : beforeUnshift api rpc params with
      | error message =>
          have hnot : ¬reachesUnshift api params ⟨.v0, rpc⟩ = true := by
            rw [reachesUnshift_iff]
            rintro ⟨-, payer, tables, hprepared⟩
            rw [beforeUnshift_eq_ok.mpr ⟨hprepared, rfl⟩] at hbefore
            cases hbefore
          rw [if_neg hnot]
          rfl
      | ok before =>
          obtain ⟨payer, tables, additional⟩ := before
          obtain ⟨hprepared, rfl⟩ := beforeUnshift_eq_ok.mp hbefore
          rw [if_pos (reachesUnshift_iff.mpr ⟨rfl, payer, tables, hprepared⟩)]
          show (submit _ _ _).instructions = ([unitLimit params].flatten ++ params.instructions)
          rw [instructions_submit, List.flatten_singleton]

/-- The legacy function needs a signer. -/
theorem payer_of_legacyTransaction {rpc : Rpc} {params : ForwardTransactionParams}
    {transaction : Transaction} (h : legacyTransaction api rpc params = .ok transaction) :
    ∃ payer, payer ∈ params.signerKeypairs.head? := by
  obtain ⟨payer, hpayer, -⟩ := bind_eq_ok.mp h
  exact ⟨payer, firstSigner_eq_ok_iff.mp hpayer⟩

theorem mem_submitted_legacy {count : Nat} {rpc : Rpc} {transaction : Transaction} :
    transaction ∈ (Attempt.forward api ⟨.legacy, rpc⟩ (unshifted params count)).submitted ↔
      Sends api params count ⟨.legacy, rpc⟩ transaction := by
  have hsubmitted : transaction ∈
      (Attempt.forward api ⟨.legacy, rpc⟩ (unshifted params count)).submitted ↔
        legacyTransaction api rpc (unshifted params count).toForwardTransactionParams = .ok transaction :=
    mem_submitted_submit
  rw [hsubmitted]
  constructor
  · intro h
    obtain ⟨payer, hpayer⟩ := payer_of_legacyTransaction h
    obtain ⟨⟨hoptions, hne⟩, hencoded, hcompiled, blockhash, hblockhash, rfl⟩ :=
      (legacyTransaction_eq_ok_iff hpayer).mp h
    exact
      { version := rfl
        payer := ⟨payer, hpayer, rfl⟩
        signers := rfl
        instructions := requestedInstructions_unshifted count
        encoded := hencoded
        blockhash := hblockhash
        compiled := hcompiled
        accepted := ⟨rfl, hoptions, hne⟩ }
  · intro h
    obtain ⟨version, feePayer, blockhash, instructions, tables, signers⟩ := transaction
    obtain ⟨rfl, ⟨payer, hpayer, rfl⟩, rfl, rfl, hencoded, hblockhash, hcompiled, rfl, hoptions, hne⟩ := h
    refine (@legacyTransaction_eq_ok_iff api (unshifted params count) rpc payer hpayer _).mpr
      ⟨⟨hoptions, hne⟩, hencoded, hcompiled, blockhash, hblockhash, ?_⟩
    rw [requestedInstructions_unshifted]
    rfl

theorem mem_submitted_v0 {count : Nat} {rpc : Rpc} {transaction : Transaction} :
    transaction ∈ (Attempt.forward api ⟨.v0, rpc⟩ (unshifted params count)).submitted ↔
      Sends api params count ⟨.v0, rpc⟩ transaction := by
  show transaction ∈ (forwardV0Transaction api rpc (unshifted params count)).submitted ↔ _
  rw [forwardV0Transaction]
  cases hbefore : beforeUnshift api rpc (unshifted params count) with
  | error message =>
      refine iff_of_false List.not_mem_nil fun h => ?_
      obtain ⟨payer, hpayer, -⟩ := h.payer
      have hprepared : Prepared api rpc (unshifted params count) payer transaction.lookupTableAccounts :=
        ⟨hpayer, h.accepted, h.encoded⟩
      rw [beforeUnshift_eq_ok.mpr ⟨hprepared, rfl⟩] at hbefore
      cases hbefore
  | ok before =>
      obtain ⟨payer, tables, additional⟩ := before
      obtain ⟨hprepared, rfl⟩ := beforeUnshift_eq_ok.mp hbefore
      simp only [mem_submitted_submit, bind_eq_ok]
      constructor
      · rintro ⟨blockhash, hblockhash, _, hcompiled, h⟩
        cases h
        exact
          { version := rfl
            payer := ⟨payer, hprepared.payer, rfl⟩
            signers := rfl
            instructions := requestedInstructions_unshifted count
            encoded := hprepared.encoded
            blockhash := hblockhash
            compiled := hcompiled
            accepted := hprepared.tables }
      · intro h
        obtain ⟨version, feePayer, blockhash, instructions, accounts, signers⟩ := transaction
        obtain ⟨rfl, ⟨payer', hpayer, rfl⟩, rfl, rfl, -, hblockhash, hcompiled, hfound⟩ := h
        cases Option.mem_unique hprepared.payer hpayer
        have hsame : accounts = tables := Except.ok.inj
          ((getLookupTables_eq_ok_iff.mpr hfound).symm.trans (getLookupTables_eq_ok_iff.mpr hprepared.tables))
        subst hsame
        have hinstructions : unitLimit (unshifted params count) ++ (unshifted params count).instructions =
            (unshifted params (count + 1)).instructions := requestedInstructions_unshifted count
        refine ⟨blockhash, hblockhash, (), ?_, ?_⟩
        · rw [hinstructions]
          exact hcompiled
        · rw [hinstructions]
          rfl

/-- What an attempt sends. -/
theorem mem_submitted_forward {count : Nat} {attempt : Attempt} {transaction : Transaction} :
    transaction ∈ (attempt.forward api (unshifted params count)).submitted ↔
      Sends api params count attempt transaction := by
  obtain ⟨version, rpc⟩ := attempt
  cases version with
  | legacy => exact mem_submitted_legacy
  | v0 => exact mem_submitted_v0

theorem unshifted_unshifted (count extra : Nat) :
    unshifted (unshifted params count) extra = unshifted params (count + extra) := by
  have hinstructions : (List.replicate extra (unitLimit params)).flatten ++
      ((List.replicate count (unitLimit params)).flatten ++ params.instructions) =
        (List.replicate (count + extra) (unitLimit params)).flatten ++ params.instructions := by
    rw [Nat.add_comm, List.replicate_add, List.flatten_append, List.append_assoc]
  exact congrArg (fun instructions => { params with instructions }) hinstructions

theorem attemptStep_unshifted (count : Nat) (attempt : Attempt) :
    attemptStep api (unshifted params count) attempt =
      some (unshifted params (count + if reachesUnshift api params attempt then 1 else 0)) := by
  rw [← unshifted_unshifted]
  exact congrArg (fun instructions => some { params with instructions }) (instructions_forward _ attempt)

theorem run_unshifted (attempts : List Attempt) (count : Nat) :
    run (attemptStep api) (unshifted params count) attempts =
      some (unshifted params (count + attempts.countP (reachesUnshift api params))) := by
  induction attempts generalizing count with
  | nil => rfl
  | cons attempt attempts ih =>
      rw [run, attemptStep_unshifted, Option.bind_some, ih, List.countP_cons]
      congr 2
      omega

theorem run_attempts (attempts : List Attempt) : run (attemptStep api) params attempts =
    some (unshifted params (attempts.countP (reachesUnshift api params))) := by
  have hrun := @run_unshifted api params attempts 0
  rw [Nat.zero_add] at hrun
  exact hrun

/-- **The array.** After any attempts with one object, whatever the node has answered, the array holds
the instructions it held at first, behind one compute budget instruction for each attempt that reached it
where the object requests units; and the next attempt sends one more of them than that. -/
theorem attempts_unshift (api : TransactionApi) (params : ForwardVersionnedTransactionParams)
    (attempts : List Attempt) : ∃ params',
      run (attemptStep api) params attempts = some params' ∧
      params' = unshifted params (attempts.countP (reachesUnshift api params)) ∧
      ∀ attempt transaction, transaction ∈ (attempt.forward api params').submitted ↔
        Sends api params (attempts.countP (reachesUnshift api params)) attempt transaction := by
  exact ⟨_, run_attempts attempts, rfl, fun _ _ => mem_submitted_forward⟩

/-! ### A packet of instructions -/

/-- What the instructions take of a packet, whether the accounts they name are in tables or not. -/
def Transaction.instructionsLength (transaction : Transaction) : Nat :=
  (transaction.instructions.map fun instruction =>
    1 + compactLength instruction.keys.length + instruction.keys.length +
      compactLength instruction.dataLength + instruction.dataLength).sum

/-- web3.js serializes no transaction whose instructions are longer than a packet. -/
def TransactionApi.BoundsInstructions (api : TransactionApi) : Prop :=
  ∀ transaction, api.compile transaction = .ok () → transaction.instructionsLength ≤ packetDataSize

/-- Each instruction for the units takes eight bytes. -/
theorem le_instructionsLength {count : Nat} {attempt : Attempt} {transaction : Transaction}
    (hunits : requestedUnits params ≠ none) (h : Sends api params count attempt transaction) :
    8 * (count + 1) ≤ transaction.instructionsLength := by
  obtain ⟨units, hsome⟩ := Option.ne_none_iff_exists'.mp hunits
  have hlimits : (List.replicate (count + 1) (unitLimit params)).flatten =
      List.replicate (count + 1) (.setComputeUnitLimit units) := by
    rw [unitLimit, hsome]
    exact List.flatten_replicate_singleton
  rw [Transaction.instructionsLength, h.instructions]
  show _ ≤ (((List.replicate (count + 1) (unitLimit params)).flatten ++ params.instructions).map _).sum
  rw [hlimits, List.map_append, List.sum_append_nat, List.map_replicate, List.sum_replicate_nat,
    Nat.mul_comm 8]
  exact Nat.le_add_right _ _

/-- **Wear.** Once 154 attempts with an object that requests units have reached its array, nothing is
sent for it any more, in either version. -/
theorem attempts_worn_out (api : TransactionApi) (hbounds : api.BoundsInstructions)
    (params : ForwardVersionnedTransactionParams) (hunits : requestedUnits params ≠ none)
    (attempts : List Attempt) (hworn : 154 ≤ attempts.countP (reachesUnshift api params))
    (params' : ForwardVersionnedTransactionParams)
    (hrun : run (attemptStep api) params attempts = some params') (attempt : Attempt) :
    (attempt.forward api params').submitted = [] := by
  apply List.eq_nil_iff_forall_not_mem.mpr
  intro transaction hmem
  cases (run_attempts attempts).symm.trans hrun
  have hsends := mem_submitted_forward.mp hmem
  have hlong := le_instructionsLength hunits hsends
  have hshort := hbounds transaction hsends.compiled
  rw [packetDataSize] at hshort
  omega

theorem boundsInstructions_packetApi : packetApi.BoundsInstructions := by
  intro transaction hcompiled
  have hwire : transaction.wireLength ≤ packetDataSize := by
    by_contra hlong
    rw [packetApi] at hcompiled
    simp only [if_pos (Nat.lt_of_not_le hlong)] at hcompiled
    split at hcompiled
    · cases hcompiled
    · split at hcompiled <;> cases hcompiled
  calc transaction.instructionsLength
      ≤ transaction.messageLength := Nat.le_add_left _ _
    _ ≤ transaction.wireLength := by
        rw [Transaction.wireLength]
        omega
    _ ≤ packetDataSize := hwire

/-- The node has not told a blockhash 154 times, and nothing has been sent before. -/
theorem memo_worn_out : ((Attempt.mk .v0 liveNode.rpc).forward packetApi
    (unshifted (memo (some ⟨none, some 200000⟩)) 154)).submitted = [] := by
  let refused : Attempt := ⟨.v0, { liveNode.rpc with getLatestBlockhash := .error "fetch failed" }⟩
  have hreaches : reachesUnshift packetApi (memo (some ⟨none, some 200000⟩)) refused = true := by
    decide +kernel
  have hcount : (List.replicate 154 refused).countP
      (reachesUnshift packetApi (memo (some ⟨none, some 200000⟩))) = 154 := by
    rw [List.countP_replicate, if_pos hreaches]
  exact attempts_worn_out packetApi boundsInstructions_packetApi _ (by decide +kernel)
    (List.replicate 154 refused) hcount.ge _ ((run_attempts _).trans (by rw [hcount])) _

end InglMonitor
