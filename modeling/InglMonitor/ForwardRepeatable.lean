import InglMonitor.ForwardTransaction
import InglMonitor.TransitionRuns

/-! Forwarding with one object again and again. The two functions agree on what they send; but version 0
puts its compute budget instruction into the caller's array, where the next call finds it, and only
version 0 takes an object without options. -/

open Transition

namespace InglMonitor

/-- A call of one of the two functions, with the node it meets. -/
structure Call where
  version : TransactionVersion
  node : LiveRpc

variable (api : TransactionApi)

def Call.forward (call : Call) (params : ForwardVersionnedTransactionParams) : Forwarded :=
  match call.version with
  | .legacy => forwardLegacyTransaction api call.node.rpc params.toForwardTransactionParams
  | .v0 => forwardV0Transaction api call.node.rpc params

/-- The caller's object before and after a call. -/
def callStep (params : ForwardVersionnedTransactionParams) (call : Call) :
    Option ForwardVersionnedTransactionParams :=
  some { params with instructions := (call.forward api params).instructions }

section Params

variable (params : ForwardVersionnedTransactionParams)

/-- A call sends what the object asked for at first, and the object is as it was at first. -/
structure ForwardsRequested (params' : ForwardVersionnedTransactionParams) (call : Call)
    (params'' : ForwardVersionnedTransactionParams) : Prop where
  submitted : (call.forward api params').submitted.map (·.instructions) = [requestedInstructions params]
  unchanged : params'' = params

/-- Every call of a sequence on the same object does. -/
def Repeatable (calls : List Call) : Prop :=
  EveryStep (callStep api) (ForwardsRequested api params) params calls

/-- web3.js encodes, compiles, signs and serializes what is asked for. -/
def Accepts (call : Call) : Prop :=
  (∀ units ∈ requestedUnits params, api.encodeUnits units = .ok ()) ∧
    ∀ payer ∈ params.signerKeypairs.head?, api.compile ⟨call.version, payer.publicKey,
      call.node.blockhash, requestedInstructions params, [], params.signerKeypairs⟩ = .ok ()

/-- A legacy call needs options and an instruction, one in version 0 must not need a compute budget. -/
def Harmless (call : Call) : Prop :=
  (match call.version with
    | .legacy => params.options ≠ none ∧ params.instructions ≠ []
    | .v0 => requestedUnits params = none) ∧ Accepts api params call

end Params

variable {api} {params : ForwardVersionnedTransactionParams}

/-- What version 0 has got before it changes the array of the caller. -/
theorem beforeUnshift_eq_ok_iff {node : LiveRpc} {payer : Keypair}
    (hpayer : payer ∈ params.signerKeypairs.head?)
    (htables : params.lookupTableAddresses = none ∨ params.lookupTableAddresses = some [])
    {before : Keypair × List AddressLookupTableAccount × List TransactionInstruction} :
    beforeUnshift api node.rpc params = .ok before ↔
      (∀ units ∈ requestedUnits params, api.encodeUnits units = .ok ()) ∧
        before = (payer, [], (requestedUnits params).toList.map .setComputeUnitLimit) := by
  have hlookup : beforeUnshift api node.rpc params = do
      let additional ← additionalInstructions api (params.options.bind (·.additionalUnits))
      return (payer, [], additional) := by
    rcases htables with h | h
    · rw [beforeUnshift, firstSigner_eq hpayer, h]
      rfl
    · rw [beforeUnshift, firstSigner_eq hpayer, h]
      rfl
  rw [hlookup]
  simp only [bind_eq_ok, additionalInstructions_eq_ok_iff]
  constructor
  · rintro ⟨_, ⟨hencode, rfl⟩, h⟩
    cases h
    exact ⟨hencode, rfl⟩
  · rintro ⟨hencode, rfl⟩
    exact ⟨_, ⟨hencode, rfl⟩, rfl⟩

theorem exists_payer (hsigners : params.signerKeypairs ≠ []) :
    ∃ payer, payer ∈ params.signerKeypairs.head? :=
  Option.ne_none_iff_exists'.mp (List.head?_eq_none_iff.not.mpr hsigners)

theorem accepts_iff {call : Call} {payer : Keypair} (hpayer : payer ∈ params.signerKeypairs.head?) :
    Accepts api params call ↔
      (∀ units ∈ requestedUnits params, api.encodeUnits units = .ok ()) ∧
        api.compile ⟨call.version, payer.publicKey, call.node.blockhash, requestedInstructions params, [],
          params.signerKeypairs⟩ = .ok () := by
  refine and_congr_right fun _ => ⟨fun h => h payer hpayer, fun h payer' hpayer' => ?_⟩
  cases Option.mem_unique hpayer hpayer'
  exact h

/-- A legacy call does what it is asked for exactly when it is harmless; it never changes the object. -/
theorem forwardsRequested_legacy_iff (hsigners : params.signerKeypairs ≠ []) {node : LiveRpc}
    {params' : ForwardVersionnedTransactionParams}
    (hstep : callStep api params ⟨.legacy, node⟩ = some params') :
    ForwardsRequested api params params ⟨.legacy, node⟩ params' ↔
      Harmless api params ⟨.legacy, node⟩ := by
  obtain ⟨payer, hpayer⟩ := exists_payer hsigners
  have hunchanged : params' = params := by
    cases hstep
    exact congrArg (fun instructions => { params with instructions }) instructions_submit
  rw [Harmless, accepts_iff hpayer]
  constructor
  · intro h
    obtain ⟨transaction, hsubmitted, -⟩ := List.map_eq_singleton_iff.mp h.submitted
    obtain ⟨hgiven, hencode, hcompile, blockhash, hblockhash, rfl⟩ :=
      (legacyTransaction_eq_ok_iff hpayer).mp (submitted_submit.mp hsubmitted)
    cases hblockhash
    exact ⟨hgiven, hencode, hcompile⟩
  · rintro ⟨hgiven, hencode, hcompile⟩
    have hcompiled : legacyTransaction api node.rpc params.toForwardTransactionParams = .ok _ :=
      (legacyTransaction_eq_ok_iff hpayer).mpr ⟨hgiven, hencode, hcompile, node.blockhash, rfl, rfl⟩
    refine ⟨?_, hunchanged⟩
    show ((submit _ _ _).submitted.map _) = _
    rw [submitted_submit.mpr hcompiled]
    rfl

/-- What a call in version 0 leaves in the caller's array, where it sends something. -/
theorem forwardV0Transaction_eq {node : LiveRpc} {payer : Keypair}
    {tables : List AddressLookupTableAccount} {additional : List TransactionInstruction}
    (hbefore : beforeUnshift api node.rpc params = .ok (payer, tables, additional)) :
    (forwardV0Transaction api node.rpc params).instructions = additional ++ params.instructions ∧
      ∀ transaction, (forwardV0Transaction api node.rpc params).submitted = [transaction] ↔
        api.compile transaction = .ok () ∧ transaction = ⟨.v0, payer.publicKey, node.blockhash,
          additional ++ params.instructions, tables, params.signerKeypairs⟩ := by
  rw [forwardV0Transaction, hbefore]
  refine ⟨instructions_submit, fun transaction => ?_⟩
  simp only [submitted_submit, bind_eq_ok]
  constructor
  · rintro ⟨_, hblockhash, _, hcompile, h⟩
    cases hblockhash
    cases h
    exact ⟨hcompile, rfl⟩
  · rintro ⟨hcompile, rfl⟩
    exact ⟨_, rfl, (), hcompile, rfl⟩

/-- An instruction put in front of the others is one more instruction. -/
theorem requestedInstructions_eq_iff :
    requestedInstructions params = params.instructions ↔ requestedUnits params = none := by
  rw [requestedInstructions]
  cases requestedUnits params with
  | none => simp
  | some units => simp

theorem additional_append_instructions :
    (requestedUnits params).toList.map TransactionInstruction.setComputeUnitLimit ++
      params.instructions = requestedInstructions params :=
  rfl

/-- A call in version 0 sends what it is asked for and leaves the object alone exactly when it is
harmless. -/
theorem forwardsRequested_v0_iff (hsigners : params.signerKeypairs ≠ [])
    (htables : params.lookupTableAddresses = none ∨ params.lookupTableAddresses = some [])
    {node : LiveRpc} {params' : ForwardVersionnedTransactionParams}
    (hstep : callStep api params ⟨.v0, node⟩ = some params') :
    ForwardsRequested api params params ⟨.v0, node⟩ params' ↔ Harmless api params ⟨.v0, node⟩ := by
  obtain ⟨payer, hpayer⟩ := exists_payer hsigners
  have hparams' : params' =
      { params with instructions := (forwardV0Transaction api node.rpc params).instructions } :=
    (Option.some.inj hstep).symm
  rw [Harmless, accepts_iff hpayer]
  constructor
  · intro h
    obtain ⟨transaction, hsubmitted, -⟩ := List.map_eq_singleton_iff.mp h.submitted
    change (forwardV0Transaction api node.rpc params).submitted = [transaction] at hsubmitted
    cases hbefore : beforeUnshift api node.rpc params with
    | error message =>
        rw [forwardV0Transaction, hbefore] at hsubmitted
        cases hsubmitted
    | ok before =>
        obtain ⟨hencode, rfl⟩ := (beforeUnshift_eq_ok_iff hpayer htables).mp hbefore
        obtain ⟨hinstructions, hsubmitted_iff⟩ := forwardV0Transaction_eq hbefore
        obtain ⟨hcompile, rfl⟩ := (hsubmitted_iff transaction).mp hsubmitted
        have hsame : requestedInstructions params = params.instructions := by
          rw [additional_append_instructions] at hinstructions
          rw [← hinstructions]
          exact congrArg (·.instructions) (hparams'.symm.trans h.unchanged)
        exact ⟨requestedInstructions_eq_iff.mp hsame, hencode, hcompile⟩
  · rintro ⟨hnone, hencode, hcompile⟩
    obtain ⟨hinstructions, hsubmitted_iff⟩ :=
      forwardV0Transaction_eq ((beforeUnshift_eq_ok_iff hpayer htables).mpr ⟨hencode, rfl⟩)
    refine ⟨?_, ?_⟩
    · show (forwardV0Transaction api node.rpc params).submitted.map _ = _
      rw [(hsubmitted_iff _).mpr ⟨hcompile, rfl⟩]
      rfl
    · rw [hparams', hinstructions, additional_append_instructions,
        requestedInstructions_eq_iff.mpr hnone]

/-- A call does what is asked of it exactly when it is harmless. -/
theorem forwardsRequested_iff (hsigners : params.signerKeypairs ≠ [])
    (htables : params.lookupTableAddresses = none ∨ params.lookupTableAddresses = some [])
    {call : Call} {params' : ForwardVersionnedTransactionParams}
    (hstep : callStep api params call = some params') :
    ForwardsRequested api params params call params' ↔ Harmless api params call := by
  obtain ⟨version, node⟩ := call
  cases version with
  | legacy => exact forwardsRequested_legacy_iff hsigners hstep
  | v0 => exact forwardsRequested_v0_iff hsigners htables hstep

/-! ### Any number of calls -/

/-- **Repeatability.** However often the two functions are called with one object, and in whatever
order, each call sends what the object asks for and leaves it as it was, exactly when each of the calls
is harmless. -/
theorem repeatable_iff (hsigners : params.signerKeypairs ≠ [])
    (htables : params.lookupTableAddresses = none ∨ params.lookupTableAddresses = some [])
    (calls : List Call) : Repeatable api params calls ↔ ∀ call ∈ calls, Harmless api params call := by
  calc Repeatable api params calls
      ↔ EveryStep (callStep api) (fun _ call _ => Harmless api params call) params calls := by
        have hkeep (params' : ForwardVersionnedTransactionParams) (call : Call)
            (params'' : ForwardVersionnedTransactionParams) (_ : params = params')
            (_ : callStep api params' call = some params'')
            (hforwards : ForwardsRequested api params params' call params'') : params = params'' :=
          hforwards.unchanged.symm
        refine everyStep_iff_of_invariant rfl (fun params' call params'' hsame hstep => ?_) hkeep calls
        subst hsame
        exact forwardsRequested_iff hsigners htables hstep
    _ ↔ ∀ call ∈ calls, Harmless api params call :=
        everyStep_event_iff (fun _ _ => Option.some_ne_none _) params calls

/-- A signed memo with options. -/
def memo (options : Option ForwardOptions) : ForwardVersionnedTransactionParams where
  instructions :=
    [.other ⟨"MemoSq4gqABAXKb96qnH8TysNcWxMyWCqXgDLGmfcHr"⟩ [⟨⟨"backend"⟩, true, false⟩] [103, 109]]
  signerKeypairs := [⟨⟨"backend"⟩, []⟩]
  options
  lookupTableAddresses := none

theorem repeatable_iff_memo : Repeatable packetApi (memo (some ⟨some "finalized", none⟩))
    [⟨.legacy, liveNode⟩, ⟨.v0, liveNode⟩, ⟨.v0, liveNode⟩, ⟨.legacy, liveNode⟩] := by
  refine (repeatable_iff (by decide) (.inl rfl) _).mpr fun call _ => ?_
  have haccepts (version : TransactionVersion) (node : LiveRpc) :
      Accepts packetApi (memo (some ⟨some "finalized", none⟩)) ⟨version, node⟩ := by
    refine (accepts_iff rfl).mpr ⟨fun units hunits => ?_, ?_⟩
    · cases hunits
    · cases version <;> rfl
  obtain ⟨version, node⟩ := call
  cases version with
  | legacy => exact ⟨⟨Option.some_ne_none _, List.cons_ne_nil _ _⟩, haccepts .legacy node⟩
  | v0 => exact ⟨rfl, haccepts .v0 node⟩

/-- The second of two calls in version 0 finds the compute budget instruction of the first. -/
theorem not_repeatable_memo : ¬Repeatable packetApi (memo (some ⟨none, some 200000⟩))
    [⟨.v0, liveNode⟩, ⟨.v0, liveNode⟩] := by
  intro h
  have hsecond := ((h _ rfl).2 _ rfl).1.submitted
  exact absurd hsecond (by decide +kernel)

end InglMonitor
