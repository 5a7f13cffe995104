import InglMonitor.UploadTransaction

/-! What an upload request ends with, without loops: the pieces of all rarities are built in order, up
to the first error or the first rarity that is stuck. From this, when the splitter ends, and what it
loses. -/

open Borsh Borsh.FieldType GreedyPrefix

namespace InglMonitor

variable {api : UploadApi}

/-- `none` if the request never ends. -/
def outcome (api : UploadApi) :
    Nat → List Rarity → List Upload → Option (Except String (List Upload))
  | _, [], transactions => some (.ok transactions)
  | index, rarity :: rarities, transactions =>
      match buildAll api index (pieces rarity.uris) with
      | .error message => some (.error message)
      | .ok uploads =>
          if Stuck rarity.uris then none
          else outcome api (index + 1) rarities (transactions ++ uploads)

theorem uploadRarities_mono {fuel fuel' : Nat} (hle : fuel ≤ fuel') {index : Nat}
    {rarities : List Rarity} {transactions : List Upload} {result : Except String (List Upload)}
    (h : uploadRarities api fuel index rarities transactions = some result) :
    uploadRarities api fuel' index rarities transactions = some result := by
  induction rarities generalizing index transactions with
  | nil => exact h
  | cons rarity rarities ih =>
      rw [uploadRarities] at h ⊢
      cases hrun : DoWhile.run (splitBody api index) splitAgain fuel
          (.next rarity.uris transactions) with
      | none =>
          rw [hrun] at h
          cases h
      | some loop =>
          rw [DoWhile.run_mono hle hrun]
          rw [hrun] at h
          cases loop with
          | error message => exact h
          | ok s => exact ih h

/-- The reduction ends, after some fuel. -/
def ReductionEnds (api : UploadApi) (index : Nat) (rarities : List Rarity)
    (transactions : List Upload) (result : Except String (List Upload)) : Prop :=
  ∃ fuel, uploadRarities api fuel index rarities transactions = some result

section Reduction

variable {index : Nat} {rarity : Rarity} {rarities : List Rarity} {transactions : List Upload}
  {result : Except String (List Upload)}

/-- The first loop ends with an error, or the others follow it. -/
theorem reductionEnds_cons_iff : ReductionEnds api index (rarity :: rarities) transactions result ↔
    (∃ message, LoopEnds api index rarity.uris transactions (.error message) ∧
      result = .error message) ∨
    ∃ s, LoopEnds api index rarity.uris transactions (.ok s) ∧
      ReductionEnds api (index + 1) rarities s.transactions result := by
  constructor
  · rintro ⟨fuel, h⟩
    rw [uploadRarities] at h
    cases hrun : DoWhile.run (splitBody api index) splitAgain fuel
        (.next rarity.uris transactions) with
    | none =>
        rw [hrun] at h
        cases h
    | some loop =>
        rw [hrun] at h
        cases loop with
        | error message => exact .inl ⟨message, ⟨fuel, hrun⟩, (Option.some.inj h).symm⟩
        | ok s => exact .inr ⟨s, ⟨fuel, hrun⟩, fuel, h⟩
  · rintro (⟨message, ⟨fuel, hrun⟩, rfl⟩ | ⟨s, ⟨fuel, hrun⟩, fuel', h⟩)
    · exact ⟨fuel, by rw [uploadRarities, hrun]⟩
    · refine ⟨max fuel fuel', ?_⟩
      rw [uploadRarities, DoWhile.run_mono (Nat.le_max_left fuel fuel') hrun]
      exact uploadRarities_mono (Nat.le_max_right fuel fuel') h

/-- **The splitter refines the outcome.** With enough fuel the loops end with it, and with nothing
else. -/
theorem reductionEnds_iff : ReductionEnds api index rarities transactions result ↔
    outcome api index rarities transactions = some result := by
  induction rarities generalizing index transactions with
  | nil => exact ⟨fun ⟨_, h⟩ => h, fun h => ⟨0, h⟩⟩
  | cons rarity rarities ih =>
      have hloop := @split_ends api index rarity.uris transactions
      rw [reductionEnds_cons_iff, outcome]
      cases hbuild : buildAll api index (pieces rarity.uris) with
      | error message =>
          simp only [hbuild] at hloop
          constructor
          · rintro (⟨message', hends, rfl⟩ | ⟨s, hends, -⟩)
            · cases DoWhile.Ends.unique hends hloop
              rfl
            · cases DoWhile.Ends.unique hends hloop
          · intro h
            exact .inl ⟨message, hloop, (Option.some.inj h).symm⟩
      | ok uploads =>
          simp only [hbuild] at hloop
          by_cases hstuck : Stuck rarity.uris
          · rw [if_pos hstuck] at hloop
            simp only [hstuck, if_true]
            refine iff_of_false ?_ nofun
            rintro (⟨message, hends, -⟩ | ⟨s, hends, -⟩)
            · exact hloop _ hends
            · exact hloop _ hends
          · rw [if_neg hstuck] at hloop
            obtain ⟨s, hs, htransactions⟩ := hloop
            simp only [hstuck, if_false, ← ih, ← htransactions]
            constructor
            · rintro (⟨message, hends, -⟩ | ⟨s', hends, h⟩)
              · cases DoWhile.Ends.unique hends hs
              · cases DoWhile.Ends.unique hends hs
                exact h
            · exact fun h => .inr ⟨s, hs, h⟩

end Reduction

/-- The request returns what the outcome says. -/
theorem returns_iff {rarities : List Rarity} {uploads : List Upload} :
    Returns api rarities uploads ↔ outcome api 0 rarities [] = some (.ok uploads) := by
  rw [← reductionEnds_iff]
  refine exists_congr fun fuel => ?_
  simp only [createUploadRaritiesUrisTrans, Option.map_eq_some_iff, mapError_eq_ok, exists_eq_right]

theorem terminates_iff_outcome {rarities : List Rarity} :
    Terminates api rarities ↔ outcome api 0 rarities [] ≠ none := by
  rw [Option.ne_none_iff_exists']
  simp only [← reductionEnds_iff]
  constructor
  · rintro ⟨fuel, result, h⟩
    obtain ⟨result, h, -⟩ := Option.map_eq_some_iff.mp h
    exact ⟨result, fuel, h⟩
  · rintro ⟨result, fuel, h⟩
    exact ⟨fuel, _, Option.map_eq_some_iff.mpr ⟨result, h, rfl⟩⟩

/-- The payloads of all pieces. -/
def payloads : Nat → List Rarity → List UploadPayload
  | _, [] => []
  | index, rarity :: rarities =>
      (pieces rarity.uris).map (⟨·, index⟩) ++ payloads (index + 1) rarities

theorem buildAll_eq_ok {index : Nat} {pieces : List (List String)} {uploads : List Upload}
    (h : buildAll api index pieces = .ok uploads) :
    uploads.map (·.payload) = pieces.map (⟨·, index⟩) ∧
      ∀ upload ∈ uploads, buildUpload api upload.payload = .ok upload := by
  induction pieces generalizing uploads with
  | nil =>
      cases h
      exact ⟨rfl, List.forall_mem_nil _⟩
  | cons piece pieces ih =>
      rw [buildAll_cons] at h
      obtain ⟨upload, hupload, h⟩ := bind_eq_ok.mp h
      obtain ⟨rest, hrest, h⟩ := bind_eq_ok.mp h
      cases h
      obtain ⟨hpayloads, hbuilt⟩ := ih hrest
      have hpayload := (buildUpload_eq_ok_iff.mp hupload).1
      refine ⟨?_, List.forall_mem_cons.mpr ⟨?_, hbuilt⟩⟩
      · rw [List.map_cons, List.map_cons, hpayloads, hpayload]
      · rw [hpayload]
        exact hupload

/-- The first rarity is built whole, and the others follow it. -/
theorem outcome_cons_eq_ok_iff {index : Nat} {rarity : Rarity} {rarities : List Rarity}
    {transactions uploads : List Upload} :
    outcome api index (rarity :: rarities) transactions = some (.ok uploads) ↔
      ¬Stuck rarity.uris ∧ ∃ built, buildAll api index (pieces rarity.uris) = .ok built ∧
        outcome api (index + 1) rarities (transactions ++ built) = some (.ok uploads) := by
  rw [outcome]
  cases buildAll api index (pieces rarity.uris) with
  | error message => simp
  | ok built => by_cases hstuck : Stuck rarity.uris <;> simp [hstuck]

theorem outcome_eq_ok {index : Nat} {rarities : List Rarity} {transactions uploads : List Upload}
    (h : outcome api index rarities transactions = some (.ok uploads)) :
    ∃ built, uploads = transactions ++ built ∧ built.map (·.payload) = payloads index rarities ∧
      ∀ upload ∈ built, buildUpload api upload.payload = .ok upload := by
  induction rarities generalizing index transactions with
  | nil =>
      cases h
      exact ⟨[], (List.append_nil _).symm, rfl, List.forall_mem_nil _⟩
  | cons rarity rarities ih =>
      obtain ⟨-, first, hbuild, h⟩ := outcome_cons_eq_ok_iff.mp h
      obtain ⟨hpayloads, hbuilt⟩ := buildAll_eq_ok hbuild
      obtain ⟨rest, rfl, hrest, hbuiltRest⟩ := ih h
      refine ⟨first ++ rest, List.append_assoc _ _ _, ?_, ?_⟩
      · rw [List.map_append, hpayloads, hrest, payloads]
      · exact List.forall_mem_append.mpr ⟨hbuilt, hbuiltRest⟩

/-- What is returned are the payloads of all pieces, each of them built. -/
theorem uploads_of_returns {rarities : List Rarity} {uploads : List Upload}
    (h : Returns api rarities uploads) : uploads.map (·.payload) = payloads 0 rarities ∧
      ∀ upload ∈ uploads, buildUpload api upload.payload = .ok upload := by
  obtain ⟨built, rfl, hpayloads, hbuilt⟩ := outcome_eq_ok (returns_iff.mp h)
  exact ⟨hpayloads, hbuilt⟩

theorem exists_buildAll_iff {index : Nat} {pieces : List (List String)} :
    (∃ uploads, buildAll api index pieces = .ok uploads) ↔
      ∀ piece ∈ pieces, ∃ upload, buildUpload api ⟨piece, index⟩ = .ok upload := by
  constructor
  · rintro ⟨uploads, h⟩ piece hmem
    obtain ⟨upload, -, hupload⟩ := exists_of_mapM_eq_ok h hmem
    exact ⟨upload, hupload⟩
  · intro h
    induction pieces with
    | nil => exact ⟨[], rfl⟩
    | cons piece pieces ih =>
        obtain ⟨⟨upload, hupload⟩, hpieces⟩ := List.forall_mem_cons.mp h
        obtain ⟨uploads, huploads⟩ := ih hpieces
        exact ⟨upload :: uploads, by rw [buildAll_cons, hupload, huploads]; rfl⟩

theorem exists_outcome_iff {index : Nat} {rarities : List Rarity} {transactions : List Upload} :
    (∃ uploads, outcome api index rarities transactions = some (.ok uploads)) ↔
      ∀ i rarity, rarities[i]? = some rarity → ¬Stuck rarity.uris ∧
        ∀ piece ∈ pieces rarity.uris, ∃ upload, buildUpload api ⟨piece, index + i⟩ = .ok upload := by
  induction rarities generalizing index transactions with
  | nil => exact iff_of_true ⟨transactions, rfl⟩ nofun
  | cons rarity rarities ih =>
      have hindex (i : Nat) : index + 1 + i = index + (i + 1) := by omega
      constructor
      · rintro ⟨uploads, h⟩ i rarity' hget
        obtain ⟨hstuck, built, hbuild, h⟩ := outcome_cons_eq_ok_iff.mp h
        cases i with
        | zero =>
            cases hget
            exact ⟨hstuck, exists_buildAll_iff.mp ⟨built, hbuild⟩⟩
        | succ i =>
            rw [← hindex]
            exact ih.mp ⟨uploads, h⟩ i rarity' hget
      · intro h
        obtain ⟨hstuck, hpieces⟩ := h 0 rarity rfl
        obtain ⟨built, hbuild⟩ := exists_buildAll_iff.mpr hpieces
        have hrest : ∃ uploads, outcome api (index + 1) rarities (transactions ++ built) =
            some (.ok uploads) := by
          refine ih.mpr fun i rarity' hget => ?_
          rw [hindex]
          exact h (i + 1) rarity' hget
        obtain ⟨uploads, hrest⟩ := hrest
        exact ⟨uploads, outcome_cons_eq_ok_iff.mpr ⟨hstuck, built, hbuild, hrest⟩⟩

/-- The request returns exactly when no rarity is stuck and every piece can be built. -/
theorem exists_returns_iff {rarities : List Rarity} :
    (∃ uploads, Returns api rarities uploads) ↔
      ∀ i rarity, rarities[i]? = some rarity → ¬Stuck rarity.uris ∧
        ∀ piece ∈ pieces rarity.uris, ∃ upload, buildUpload api ⟨piece, i⟩ = .ok upload := by
  simp only [returns_iff, exists_outcome_iff, Nat.zero_add]

/-- Within an envelope, whether it returns is a matter of counting. -/
theorem exists_returns_envelope_iff (envelope : UploadEnvelope) {outOfRange : String}
    {rarities : List Rarity} :
    (∃ uploads, Returns (envelope.api outOfRange) rarities uploads) ↔
      (∀ rarity ∈ rarities, ¬Stuck rarity.uris) ∧ rarities.length ≤ 256 ∧
        ∀ rarity ∈ rarities, ∀ piece ∈ pieces rarity.uris, wireSize piece ≤ 818 := by
  simp only [exists_returns_iff, exists_upload_iff]
  constructor
  · intro h
    refine ⟨fun rarity hmem => ?_, ?_, fun rarity hmem piece hpiece => ?_⟩
    · obtain ⟨i, hget⟩ := List.mem_iff_getElem?.mp hmem
      exact (h i rarity hget).1
    · by_contra hlength
      have hget : rarities[256]? = some rarities[256] := List.getElem?_eq_getElem _
      obtain ⟨piece, hpiece⟩ := List.exists_mem_of_ne_nil _ (pieces_ne_nil rarities[256].uris)
      exact absurd ((h 256 _ hget).2 piece hpiece).1 (Nat.lt_irrefl 256)
    · obtain ⟨i, hget⟩ := List.mem_iff_getElem?.mp hmem
      exact ((h i rarity hget).2 piece hpiece).2
  · rintro ⟨hstuck, hlength, hfits⟩ i rarity hget
    have hmem := List.mem_of_getElem? hget
    have hi := (List.getElem?_eq_some_iff.mp hget).1
    exact ⟨hstuck rarity hmem, fun piece hpiece => ⟨by omega, hfits rarity hmem piece hpiece⟩⟩

/-! ### When the splitter ends -/

/-- Building a transaction fails at a rarity that no stuck rarity precedes. -/
def FailsFirst (api : UploadApi) (index : Nat) (rarities : List Rarity) : Prop :=
  ∃ before rarity after, rarities = before ++ rarity :: after ∧
    (∀ earlier ∈ before, ¬Stuck earlier.uris) ∧
    ∃ piece ∈ pieces rarity.uris, ∃ message,
      buildUpload api ⟨piece, index + before.length⟩ = .error message

theorem buildAll_eq_error_iff {index : Nat} {pieces : List (List String)} :
    (∃ message, buildAll api index pieces = .error message) ↔
      ∃ piece ∈ pieces, ∃ message, buildUpload api ⟨piece, index⟩ = .error message := by
  induction pieces with
  | nil => simp [buildAll, pure, Except.pure]
  | cons piece pieces ih =>
      rw [buildAll_cons, List.exists_mem_cons_iff, ← ih]
      cases buildUpload api ⟨piece, index⟩ with
      | error message => simp [bind, Except.bind]
      | ok upload =>
          cases buildAll api index pieces with
          | error message => simp [bind, Except.bind]
          | ok uploads => simp [bind, Except.bind, pure, Except.pure]

theorem failsFirst_cons_iff {index : Nat} {rarity : Rarity} {rarities : List Rarity} :
    FailsFirst api index (rarity :: rarities) ↔
      (∃ message, buildAll api index (pieces rarity.uris) = .error message) ∨
        ¬Stuck rarity.uris ∧ FailsFirst api (index + 1) rarities := by
  rw [buildAll_eq_error_iff]
  constructor
  · rintro ⟨before, rarity', after, heq, hbefore, hfails⟩
    cases before with
    | nil =>
        cases heq
        exact .inl hfails
    | cons first before =>
        cases heq
        rw [List.forall_mem_cons] at hbefore
        refine .inr ⟨hbefore.1, before, rarity', after, rfl, hbefore.2, ?_⟩
        rwa [List.length_cons, Nat.add_comm before.length, ← Nat.add_assoc] at hfails
  · rintro (hfails | ⟨hstuck, before, rarity', after, rfl, hbefore, hfails⟩)
    · exact ⟨[], rarity, rarities, rfl, List.forall_mem_nil _, hfails⟩
    · refine ⟨rarity :: before, rarity', after, rfl, List.forall_mem_cons.mpr ⟨hstuck, hbefore⟩, ?_⟩
      rwa [List.length_cons, Nat.add_comm before.length, ← Nat.add_assoc]

theorem outcome_ne_none_iff {index : Nat} {rarities : List Rarity} {transactions : List Upload} :
    outcome api index rarities transactions ≠ none ↔
      (∀ rarity ∈ rarities, ¬Stuck rarity.uris) ∨ FailsFirst api index rarities := by
  induction rarities generalizing index transactions with
  | nil => exact iff_of_true nofun (.inl (List.forall_mem_nil _))
  | cons rarity rarities ih =>
      rw [outcome, List.forall_mem_cons, failsFirst_cons_iff]
      cases hbuild : buildAll api index (pieces rarity.uris) with
      | error message => exact iff_of_true nofun (.inr (.inl ⟨message, rfl⟩))
      | ok uploads =>
          by_cases hstuck : Stuck rarity.uris
          · simp [hstuck]
          · simp only [hstuck, if_false, ih, not_false_eq_true, true_and, reduceCtorEq, exists_false,
              false_or]

theorem not_stuck_iff {uris : List String} :
    ¬Stuck uris ↔ ∀ uri ∈ uris.dropLast, byteLength uri < 800 := by
  simp [Stuck]

/-- If another iteration follows, it has less left. -/
def Shortens (api : UploadApi) (index : Nat) (uris : List String) (transactions : List Upload) : Prop :=
  ∀ s, splitBody api index (.next uris transactions) = .ok s → splitAgain s = true →
    s.uris.length < uris.length

theorem shortens_of_loopEnds {index : Nat} {uris : List String} {transactions : List Upload}
    {result : Except String SplitState} (h : LoopEnds api index uris transactions result) :
    Shortens api index uris transactions := by
  intro s hbody hagain
  cases hupload : buildUpload api ⟨uris.take (offset uris), index⟩ with
  | error message =>
      rw [splitBody_next, hupload] at hbody
      cases hbody
  | ok upload =>
      rw [splitBody_of_upload hupload] at hbody
      cases hbody
      rw [splitAgain_next, decide_eq_true_eq] at hagain
      by_cases hzero : offset uris = 0
      · rw [hzero, List.drop_zero] at hagain
        exact absurd h (not_ends_of_offset_eq_zero hupload hzero hagain transactions result)
      · show (uris.drop (offset uris)).length < uris.length
        rw [List.length_drop] at hagain ⊢
        omega

/-- **Termination.** The splitter ends exactly when no URI of 800 bytes or more stands in front of
another one of its rarity, or when an error comes first; and in a loop that ends every iteration that another
one follows has shortened what is left. -/
theorem terminates_iff (api : UploadApi) (rarities : List Rarity) :
    (Terminates api rarities ↔
      (∀ rarity ∈ rarities, ∀ uri ∈ rarity.uris.dropLast, byteLength uri < 800) ∨
        FailsFirst api 0 rarities) ∧
      ∀ index uris transactions result, LoopEnds api index uris transactions result →
        Shortens api index uris transactions := by
  constructor
  · simp only [terminates_iff_outcome, outcome_ne_none_iff, not_stuck_iff]
  · intro index uris transactions result hends
    exact shortens_of_loopEnds hends

/-- Two URIs, the first of which is 800 bytes long. -/
def longUris : UploadUrisDto where
  payerId := "9DvpyaJmpAag7spwD4VnjFyZmeoy8HZeXhwvNMKi64hh"
  rarities := [⟨10000, ["https://arweave.net/" ++ String.ofList (List.replicate 780 'a'),
    "https://arweave.net/1"]⟩]

theorem not_terminates_longUris :
    longUris.Valid ∧ ¬Terminates devnetApi longUris.rarities := by
  refine ⟨by decide +kernel, ?_⟩
  rw [terminates_iff_outcome, not_not, longUris, outcome]
  generalize huris : ["https://arweave.net/" ++ String.ofList (List.replicate 780 'a'),
    "https://arweave.net/1"] = uris
  have hzero : offset uris = 0 := by
    subst huris
    decide +kernel
  have hstuck : Stuck uris := by
    subst huris
    decide +kernel
  obtain ⟨upload, hupload⟩ : ∃ upload, buildUpload devnetApi ⟨[], 0⟩ = .ok upload :=
    (exists_upload_iff devnetEnvelope ⟨[], 0⟩).mpr (by decide)
  have hbuild : buildAll devnetApi 0 (pieces uris) = .ok [upload] := by
    rw [pieces_of_stops fun h => h.1 hzero, hzero, List.take_zero, buildAll_singleton hupload]
  rw [hbuild]
  exact if_pos hstuck

end InglMonitor
