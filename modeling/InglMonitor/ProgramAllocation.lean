import InglMonitor.ProgramSelection
import InglMonitor.ProgramTracking
import InglMonitor.TransitionRuns

/-! Calls of `findProgram` that overlap, while programs are initialized and marked. A call asks the database
once, fetches the programs' own accounts, and then makes one lookup for each candidate, so that between two
of its lookups the chain may have moved on. Accounts appear and are not closed again, and each request may be
refused. -/

open Borsh DocumentStore Transition

namespace InglMonitor

namespace ProgramService

/-- A call that the database has answered: its lookups of the programs are under way, or those of the loop,
which has some candidates left. -/
inductive Search where
  | fetching (usage : ProgramUsage) (programs : List Program)
  | checking (usage : ProgramUsage) (programs remaining : List Program)

/-- What a call has answered, with what the database had answered it. -/
structure Allocation where
  usage : ProgramUsage
  database : Except String (List Program)
  result : Except HttpException Program

structure AllocationWorld where
  chain : PublicKey → Option AccountInfo
  programs : List Program
  searches : List Search
  answers : List Allocation

/-- An answer to a lookup, or a refusal with its message. The call goes on at once, up to its next lookup or
to its own answer. -/
inductive AllocationEvent where
  /-- By the database. -/
  | find (usage : ProgramUsage) (refusal : Option String)
  /-- To the parallel lookups, of which the first refusal counts. -/
  | fetched (search : Nat) (refusal : Option String)
  | checked (search : Nat) (refusal : Option String)
  | use (programId : String)
  /-- An account appears. -/
  | create (key : PublicKey) (info : AccountInfo)

def AllocationEvent.refusal : AllocationEvent → Option String
  | .find _ refusal | .fetched _ refusal | .checked _ refusal => refusal
  | .use _ | .create _ _ => none

/-- The connection at one moment: it shows the chain, or it refuses. -/
def momentaryConnection (chain : PublicKey → Option AccountInfo) : Option String → Connection
  | none => liveConnection chain
  | some message => ⟨fun _ => .error message⟩

/-- What is not refused is shown as it is on the chain. -/
def Shows (chain : PublicKey → Option AccountInfo) (refusal : Option String) (connection : Connection) :
    Prop :=
  ∀ key, connection.getAccountInfo key = .ok (chain key) ∨
    ∃ message ∈ refusal, connection.getAccountInfo key = .error message

/-- The `catch` block. -/
def caught (thrown : Thrown) : HttpException := ⟨thrown.message, .internalServerError⟩

section Model

variable (web3 : Web3)

/-- What is done with the documents before the loop. -/
def fetchExecutable (connection : Connection) (programs : List Program) : Except Thrown (List Program) := do
  let keys ← (programs.mapM fun program => web3.publicKey program.programId).mapError .error
  let programAccounts ← (keys.mapM connection.getAccountInfo).mapError .error
  return ((programAccounts.zip programs).filter fun (account, _) => account.any (·.executable)).map (·.2)

def AllocationWorld.answer (world : AllocationWorld) (search : Nat) (usage : ProgramUsage)
    (programs : List Program) (result : Except Thrown Program) : AllocationWorld :=
  { world with
    searches := world.searches.eraseIdx search
    answers := world.answers ++ [⟨usage, .ok programs, result.mapError caught⟩] }

/-- The loop goes on with its next lookup, or ends behind the last one. -/
def AllocationWorld.goOn (world : AllocationWorld) (search : Nat) (usage : ProgramUsage)
    (programs remaining : List Program) : AllocationWorld :=
  match remaining with
  | [] => world.answer search usage programs
      (firstUninitialized web3 (liveConnection world.chain) usage [])
  | _ :: _ =>
      { world with searches := world.searches.set search (.checking usage programs remaining) }

variable (strictQuery : Bool)

def allocate (world : AllocationWorld) : AllocationEvent → Option AllocationWorld
  | .find usage refusal =>
      let database := match refusal with
        | none => .ok world.programs
        | some message => .error message
      match findPrograms strictQuery database
        [("is_used", .bool false), ("usage", .str usage.text)] with
      | .ok programs => some { world with searches := world.searches ++ [.fetching usage programs] }
      | .error message =>
          some { world with
            answers := world.answers ++ [⟨usage, .error message, .error (caught (.error message))⟩] }
  | .fetched search refusal =>
      match world.searches[search]? with
      | some (.fetching usage programs) =>
          match fetchExecutable web3 (momentaryConnection world.chain refusal) programs with
          | .ok executablePrograms => some (world.goOn web3 search usage programs executablePrograms)
          | .error thrown => some (world.answer search usage programs (.error thrown))
      | _ => none
  | .checked search refusal =>
      match world.searches[search]? with
      | some (.checking usage programs (program :: remaining)) =>
          match configAccount web3 (momentaryConnection world.chain refusal) usage program with
          | .error message => some (world.answer search usage programs (.error (.error message)))
          | .ok none => some (world.answer search usage programs (.ok program))
          | .ok (some _) => some (world.goOn web3 search usage programs remaining)
      | _ => none
  | .use programId => some { world with programs := useProgramId strictQuery world.programs programId }
  | .create key info =>
      if world.chain key = none then
        some { world with chain := fun key' => if key' = key then some info else world.chain key' }
      else none

/-- No program is deployed meanwhile: an account that appears is not a listed program's own. -/
def KeepsPrograms (programs : List Program) (event : AllocationEvent) : Prop :=
  ∀ key info, event = .create key info →
    ∀ program ∈ programs, web3.publicKey program.programId ≠ .ok key

/-- A call whose last lookup is answered in this step answers what a call would answer that does everything at
this moment, over a connection that refuses only what has been refused in this step. -/
def AnswersAtOnce (world : AllocationWorld) (event : AllocationEvent) (world' : AllocationWorld) : Prop :=
  ∀ allocation ∈ world'.answers.drop world.answers.length, ∃ connection : Connection,
    Shows world.chain event.refusal connection ∧
    allocation.result = findProgram web3 connection strictQuery allocation.database allocation.usage

end Model

variable {web3 : Web3} {strictQuery : Bool}

theorem findProgram_eq (connection : Connection) (programs : List Program) (usage : ProgramUsage) :
    findProgram web3 connection strictQuery (.ok programs) usage =
      (fetchExecutable web3 connection (unusedPrograms programs usage) >>=
        firstUninitialized web3 connection usage).mapError caught := by
  rw [findProgram, lookup, findPrograms_unused, fetchExecutable]
  simp only [bind, Except.bind, Except.mapError, pure, Except.pure]
  cases List.mapM (fun program => web3.publicKey program.programId) (unusedPrograms programs usage) with
  | error message => rfl
  | ok keys =>
      simp only
      cases List.mapM connection.getAccountInfo keys with
      | error message => rfl
      | ok accounts => rfl

theorem unusedPrograms_unusedPrograms (programs : List Program) (usage : ProgramUsage) :
    unusedPrograms (unusedPrograms programs usage) usage = unusedPrograms programs usage :=
  List.filter_eq_self.mpr fun _ hmem => (List.mem_filter.mp hmem).2

section Chain

variable {chain chain' : PublicKey → Option AccountInfo} {usage : ProgramUsage}

theorem mapM_getAccountInfo (keys : List PublicKey) :
    keys.mapM (liveConnection chain).getAccountInfo = .ok (keys.map chain) :=
  List.mapM_pure

theorem shows_liveConnection (refusal : Option String) : Shows chain refusal (liveConnection chain) :=
  fun _ => .inl rfl

theorem shows_momentaryConnection (refusal : Option String) :
    Shows chain refusal (momentaryConnection chain refusal) := by
  cases refusal with
  | none => exact shows_liveConnection none
  | some message => exact fun _ => .inr ⟨message, rfl, rfl⟩

theorem getAccountInfo_of_ok {refusal : Option String} {key : PublicKey} {account : Option AccountInfo}
    (h : (momentaryConnection chain refusal).getAccountInfo key = .ok account) : account = chain key := by
  cases refusal with
  | none => exact (Except.ok.inj h).symm
  | some message => cases h

theorem configAccount_of_ok {refusal : Option String} {program : Program} {account : Option AccountInfo}
    (h : configAccount web3 (momentaryConnection chain refusal) usage program = .ok account) :
    configAccount web3 (liveConnection chain) usage program = .ok account := by
  obtain ⟨key, hkey, hinfo⟩ := bind_eq_ok.mp h
  exact bind_eq_ok.mpr ⟨key, hkey, congrArg Except.ok (getAccountInfo_of_ok hinfo).symm⟩

theorem fetchExecutable_of_ok {refusal : Option String} {programs executablePrograms : List Program}
    (h : fetchExecutable web3 (momentaryConnection chain refusal) programs = .ok executablePrograms) :
    fetchExecutable web3 (liveConnection chain) programs = .ok executablePrograms := by
  simp only [fetchExecutable, bind_eq_ok, mapError_eq_ok, mapM_eq_ok_iff] at h ⊢
  obtain ⟨keys, hkeys, accounts, haccounts, h⟩ := h
  refine ⟨keys, hkeys, accounts, haccounts.imp fun key account hinfo => ?_, h⟩
  exact congrArg Except.ok (getAccountInfo_of_ok hinfo).symm

/-- Where there is something to look up, a refusal is what is thrown. -/
theorem fetchExecutable_refused {programs executablePrograms : List Program}
    (h : fetchExecutable web3 (liveConnection chain) programs = .ok executablePrograms)
    (hne : executablePrograms ≠ []) (message : String) :
    fetchExecutable web3 (momentaryConnection chain (some message)) programs = .error (.error message) := by
  obtain ⟨keys, hkeys, h⟩ := bind_eq_ok.mp h
  obtain ⟨accounts, haccounts, h⟩ := bind_eq_ok.mp h
  cases keys with
  | nil =>
      cases mapM_eq_ok_iff.mp (mapError_eq_ok.mp haccounts)
      cases h
      exact absurd rfl hne
  | cons key keys =>
      rw [fetchExecutable, hkeys]
      rfl

/-- Only the programs' own accounts matter in front of the loop. -/
theorem fetchExecutable_congr {programs : List Program}
    (h : ∀ program ∈ programs, ∀ key, web3.publicKey program.programId = .ok key →
      chain' key = chain key) :
    fetchExecutable web3 (liveConnection chain') programs =
      fetchExecutable web3 (liveConnection chain) programs := by
  rw [fetchExecutable, fetchExecutable]
  cases hkeys : List.mapM (fun program => web3.publicKey program.programId) programs with
  | error message => rfl
  | ok keys =>
      have hsame : keys.map chain' = keys.map chain := by
        apply List.map_congr_left
        intro key hmem
        obtain ⟨program, hprogram, hkey⟩ := exists_of_mem_mapM hkeys hmem
        exact h program hprogram key hkey
      simp only [mapM_getAccountInfo, Except.mapError, bind, Except.bind, hsame]

/-- A rejected candidate stays rejected while accounts only appear. -/
theorem Rejected.mono {program : Program}
    (hgrows : ∀ key info, chain key = some info → chain' key = some info)
    (h : Rejected web3 (liveConnection chain) usage program) :
    Rejected web3 (liveConnection chain') usage program := by
  obtain ⟨info, hinfo⟩ := h
  obtain ⟨key, hkey, hchain⟩ := bind_eq_ok.mp hinfo
  exact ⟨info, bind_eq_ok.mpr ⟨key, hkey, congrArg Except.ok (hgrows key info (Except.ok.inj hchain))⟩⟩

theorem firstUninitialized_append {connection : Connection} {done remaining : List Program}
    (hdone : ∀ program ∈ done, Rejected web3 connection usage program) :
    firstUninitialized web3 connection usage (done ++ remaining) =
      firstUninitialized web3 connection usage remaining := by
  induction done with
  | nil => rfl
  | cons program done ih =>
      obtain ⟨hrejected, hdone⟩ := List.forall_mem_cons.mp hdone
      obtain ⟨info, hinfo⟩ := hrejected
      rw [List.cons_append, firstUninitialized_cons, hinfo]
      exact ih hdone

end Chain

section Moves

variable (web3 : Web3) (strictQuery : Bool) (world : AllocationWorld)

/-- The steps, by what happens in them. -/
inductive Moves : AllocationEvent → AllocationWorld → Prop
  | denied {usage : ProgramUsage} {message : String} : Moves (.find usage (some message))
      { world with
        answers := world.answers ++ [⟨usage, .error message, .error (caught (.error message))⟩] }
  | asks {usage : ProgramUsage} : Moves (.find usage none)
      { world with searches := world.searches ++ [.fetching usage (unusedPrograms world.programs usage)] }
  | throws {i : Nat} {refusal : Option String} {usage : ProgramUsage} {programs : List Program}
      {thrown : Thrown}
      (hget : world.searches[i]? = some (.fetching usage programs))
      (hfetch : fetchExecutable web3 (momentaryConnection world.chain refusal) programs =
        .error thrown) :
      Moves (.fetched i refusal) (world.answer i usage programs (.error thrown))
  | fetches {i : Nat} {refusal : Option String} {usage : ProgramUsage}
      {programs executablePrograms : List Program}
      (hget : world.searches[i]? = some (.fetching usage programs))
      (hfetch : fetchExecutable web3 (momentaryConnection world.chain refusal) programs =
        .ok executablePrograms) :
      Moves (.fetched i refusal) (world.goOn web3 i usage programs executablePrograms)
  | fails {i : Nat} {refusal : Option String} {usage : ProgramUsage} {programs remaining : List Program}
      {program : Program}
      {message : String}
      (hget : world.searches[i]? = some (.checking usage programs (program :: remaining)))
      (hconfig : configAccount web3 (momentaryConnection world.chain refusal) usage program =
        .error message) :
      Moves (.checked i refusal) (world.answer i usage programs (.error (.error message)))
  | returns {i : Nat} {refusal : Option String} {usage : ProgramUsage} {programs remaining : List Program}
      {program : Program}
      (hget : world.searches[i]? = some (.checking usage programs (program :: remaining)))
      (hconfig : configAccount web3 (momentaryConnection world.chain refusal) usage program =
        .ok none) :
      Moves (.checked i refusal) (world.answer i usage programs (.ok program))
  | rejects {i : Nat} {refusal : Option String} {usage : ProgramUsage} {programs remaining : List Program}
      {program : Program}
      {info : AccountInfo}
      (hget : world.searches[i]? = some (.checking usage programs (program :: remaining)))
      (hconfig : configAccount web3 (momentaryConnection world.chain refusal) usage program =
        .ok (some info)) :
      Moves (.checked i refusal) (world.goOn web3 i usage programs remaining)
  | marks {programId : String} : Moves (.use programId)
      { world with programs := useProgramId strictQuery world.programs programId }
  | appears {key : PublicKey} {info : AccountInfo} (hnone : world.chain key = none) :
      Moves (.create key info)
        { world with chain := fun key' => if key' = key then some info else world.chain key' }

end Moves

theorem moves_of_allocate {world world' : AllocationWorld} {event : AllocationEvent}
    (hstep : allocate web3 strictQuery world event = some world') :
    Moves web3 strictQuery world event world' := by
  cases event with
  | find usage refusal =>
      cases refusal with
      | none =>
          simp only [allocate, findPrograms_unused, Option.some.injEq] at hstep
          exact hstep ▸ .asks
      | some message =>
          cases hstep
          exact .denied
  | fetched i refusal =>
      rw [allocate] at hstep
      split at hstep
      · next hget =>
          split at hstep
          · next hfetch =>
              cases hstep
              exact .fetches hget hfetch
          · next hfetch =>
              cases hstep
              exact .throws hget hfetch
      · cases hstep
  | checked i refusal =>
      rw [allocate] at hstep
      split at hstep
      · next hget =>
          split at hstep
          · next hconfig =>
              cases hstep
              exact .fails hget hconfig
          · next hconfig =>
              cases hstep
              exact .returns hget hconfig
          · next hconfig =>
              cases hstep
              exact .rejects hget hconfig
      · cases hstep
  | use programId =>
      cases hstep
      exact .marks
  | create key info =>
      obtain ⟨hnone, hstep⟩ := Option.ite_none_right_eq_some.mp hstep
      cases hstep
      exact .appears hnone

/-- An account that appears leaves those that are there. -/
theorem chain_of_appears {chain : PublicKey → Option AccountInfo} {key key' : PublicKey}
    {info info' : AccountInfo} (hnone : chain key = none) (hsome : chain key' = some info') :
    (if key' = key then some info else chain key') = some info' := by
  have hne : key' ≠ key := by
    rintro rfl
    rw [hnone] at hsome
    cases hsome
  exact (if_neg hne).trans hsome

/-- Every document a call works with is unused, of its usage and listed, and the candidates behind it have
been rejected. -/
def SearchInv (web3 : Web3) (listed : List String) (chain : PublicKey → Option AccountInfo) : Search → Prop
  | .fetching usage programs =>
      unusedPrograms programs usage = programs ∧ ∀ program ∈ programs, program.programId ∈ listed
  | .checking usage programs remaining =>
      (unusedPrograms programs usage = programs ∧ ∀ program ∈ programs, program.programId ∈ listed) ∧
        ∃ done, fetchExecutable web3 (liveConnection chain) programs = .ok (done ++ remaining) ∧
          ∀ program ∈ done, Rejected web3 (liveConnection chain) usage program

structure AllocationInv (web3 : Web3) (listed : List String) (world : AllocationWorld) : Prop where
  programs : world.programs.map (·.programId) = listed
  searches : ∀ search ∈ world.searches, SearchInv web3 listed world.chain search

theorem AllocationInv.answer {listed : List String} {world : AllocationWorld}
    (h : AllocationInv web3 listed world) (i : Nat) (usage : ProgramUsage) (programs : List Program)
    (result : Except Thrown Program) : AllocationInv web3 listed (world.answer i usage programs result) :=
  ⟨h.programs, fun search hmem => h.searches search (List.mem_of_mem_eraseIdx hmem)⟩

theorem AllocationInv.goOn {listed : List String} {world : AllocationWorld}
    (h : AllocationInv web3 listed world) {i : Nat} {usage : ProgramUsage}
    {programs remaining : List Program}
    (hsearch : SearchInv web3 listed world.chain (.checking usage programs remaining)) :
    AllocationInv web3 listed (world.goOn web3 i usage programs remaining) := by
  cases remaining with
  | nil => exact h.answer i usage programs _
  | cons program remaining =>
      refine ⟨h.programs, fun search hmem => ?_⟩
      rcases List.mem_or_eq_of_mem_set hmem with hmem | rfl
      · exact h.searches search hmem
      · exact hsearch

/-- Where accounts only appear, and no program's own. -/
theorem SearchInv.mono {listed : List String} {chain chain' : PublicKey → Option AccountInfo}
    (hgrows : ∀ key info, chain key = some info → chain' key = some info)
    (hown : ∀ id ∈ listed, ∀ key, web3.publicKey id = .ok key → chain' key = chain key)
    {search : Search} (h : SearchInv web3 listed chain search) : SearchInv web3 listed chain' search := by
  cases search with
  | fetching usage programs => exact h
  | checking usage programs remaining =>
      obtain ⟨⟨hunused, hlisted⟩, done, hfetch, hdone⟩ := h
      refine ⟨⟨hunused, hlisted⟩, done, ?_, fun program hmem => (hdone program hmem).mono hgrows⟩
      rw [← hfetch]
      exact fetchExecutable_congr fun program hmem => hown _ (hlisted program hmem)

theorem map_programId_useProgramId (programs : List Program) (programId : String) :
    (useProgramId strictQuery programs programId).map (·.programId) = programs.map (·.programId) :=
  map_programId_serve (.useProgramId programId)

theorem allocationInv_step {listed : List Program} {world world' : AllocationWorld} {event : AllocationEvent}
    (hevent : KeepsPrograms web3 listed event)
    (h : AllocationInv web3 (listed.map (·.programId)) world)
    (hstep : allocate web3 strictQuery world event = some world') :
    AllocationInv web3 (listed.map (·.programId)) world' := by
  cases moves_of_allocate hstep with
  | denied => exact ⟨h.programs, h.searches⟩
  | asks =>
      refine ⟨h.programs, fun search hmem => ?_⟩
      rcases List.mem_append.mp hmem with hmem | hmem
      · exact h.searches search hmem
      · rw [List.mem_singleton.mp hmem]
        refine ⟨unusedPrograms_unusedPrograms _ _, fun program hprogram => ?_⟩
        rw [← h.programs]
        exact List.mem_map_of_mem (List.mem_of_mem_filter hprogram)
  | throws => exact h.answer _ _ _ _
  | fetches hget hfetch =>
      have hfetch := fetchExecutable_of_ok hfetch
      exact h.goOn ⟨h.searches _ (List.mem_of_getElem? hget), [], hfetch, List.forall_mem_nil _⟩
  | fails => exact h.answer _ _ _ _
  | returns => exact h.answer _ _ _ _
  | @rejects i _ usage programs remaining program info hget hconfig =>
      obtain ⟨hprograms, done, hfetch, hdone⟩ := h.searches _ (List.mem_of_getElem? hget)
      refine h.goOn ⟨hprograms, done ++ [program], ?_, ?_⟩
      · rw [hfetch, List.append_assoc]
        rfl
      · exact List.forall_mem_append.mpr ⟨hdone, List.forall_mem_singleton.mpr
          ⟨info, configAccount_of_ok hconfig⟩⟩
  | marks => exact ⟨(map_programId_useProgramId _ _).trans h.programs, h.searches⟩
  | @appears key info hnone =>
      refine ⟨h.programs, fun search hmem => (h.searches search hmem).mono ?_ ?_⟩
      · exact fun _ _ hsome => chain_of_appears hnone hsome
      · intro id hid key' hkey
        obtain ⟨program, hprogram, rfl⟩ := List.mem_map.mp hid
        have hne : key' ≠ key := by
          rintro rfl
          exact hevent key' info rfl program hprogram hkey
        exact if_neg hne

theorem eq_of_mem_drop_concat {answers : List Allocation} {last allocation : Allocation}
    (hmem : allocation ∈ (answers ++ [last]).drop answers.length) : allocation = last := by
  rw [List.drop_left] at hmem
  exact List.mem_singleton.mp hmem

theorem not_mem_drop_length {answers : List Allocation} {allocation : Allocation} :
    allocation ∉ answers.drop answers.length := by
  rw [List.drop_length]
  exact List.not_mem_nil

/-- Where the loop goes on nothing is answered, unless it ends. -/
theorem mem_answers_goOn {world : AllocationWorld} {i : Nat} {usage : ProgramUsage}
    {programs remaining : List Program} {allocation : Allocation}
    (hmem : allocation ∈
      (world.goOn web3 i usage programs remaining).answers.drop world.answers.length) :
    remaining = [] ∧ allocation = ⟨usage, .ok programs,
      (firstUninitialized web3 (liveConnection world.chain) usage []).mapError caught⟩ := by
  cases remaining with
  | nil => exact ⟨rfl, eq_of_mem_drop_concat hmem⟩
  | cons program remaining => exact absurd hmem not_mem_drop_length

/-- Of a call whose rejected candidates are known, the rest of the loop decides. -/
theorem findProgram_of_rejected {chain : PublicKey → Option AccountInfo} {usage : ProgramUsage}
    {programs done remaining : List Program} (hunused : unusedPrograms programs usage = programs)
    (hfetch : fetchExecutable web3 (liveConnection chain) programs = .ok (done ++ remaining))
    (hdone : ∀ program ∈ done, Rejected web3 (liveConnection chain) usage program) :
    findProgram web3 (liveConnection chain) strictQuery (.ok programs) usage =
      (firstUninitialized web3 (liveConnection chain) usage remaining).mapError caught := by
  rw [findProgram_eq, hunused, hfetch]
  show (firstUninitialized web3 (liveConnection chain) usage (done ++ remaining)).mapError caught = _
  rw [firstUninitialized_append hdone]

/-- A call that fails at a candidate fails at once over a connection that refuses as much, or over the chain
itself where no address is derived. -/
theorem findProgram_of_failed {chain : PublicKey → Option AccountInfo} {usage : ProgramUsage}
    {programs done remaining : List Program} (hunused : unusedPrograms programs usage = programs)
    {program : Program}
    (hfetch : fetchExecutable web3 (liveConnection chain) programs = .ok (done ++ program :: remaining))
    (hdone : ∀ program ∈ done, Rejected web3 (liveConnection chain) usage program)
    {refusal : Option String} {message : String}
    (hconfig : configAccount web3 (momentaryConnection chain refusal) usage program = .error message) :
    ∃ connection, Shows chain refusal connection ∧
      findProgram web3 connection strictQuery (.ok programs) usage =
        .error (caught (.error message)) := by
  have hlive (h : configAccount web3 (liveConnection chain) usage program = .error message) :
      findProgram web3 (liveConnection chain) strictQuery (.ok programs) usage =
        .error (caught (.error message)) := by
    rw [findProgram_of_rejected hunused hfetch hdone, firstUninitialized_cons, h]
    rfl
  cases refusal with
  | none => exact ⟨_, shows_liveConnection none, hlive hconfig⟩
  | some refused =>
      cases hkey : programConfigKey web3 usage program with
      | error underived =>
          rw [configAccount, hkey] at hconfig
          cases hconfig
          refine ⟨_, shows_liveConnection _, hlive ?_⟩
          rw [configAccount, hkey]
          rfl
      | ok key =>
          rw [configAccount, hkey] at hconfig
          cases hconfig
          have hne : done ++ program :: remaining ≠ [] := by simp
          refine ⟨_, shows_momentaryConnection (some message), ?_⟩
          rw [findProgram_eq, hunused, fetchExecutable_refused hfetch hne]
          rfl

theorem answersAtOnce_step {listed : List String} {world world' : AllocationWorld}
    {event : AllocationEvent} (h : AllocationInv web3 listed world)
    (hstep : allocate web3 strictQuery world event = some world') :
    AnswersAtOnce web3 strictQuery world event world' := by
  intro allocation hmem
  cases moves_of_allocate hstep with
  | asks | marks | appears => exact absurd hmem not_mem_drop_length
  | denied =>
      cases eq_of_mem_drop_concat hmem
      exact ⟨_, shows_liveConnection _, rfl⟩
  | @throws i refusal usage programs thrown hget hfetch =>
      obtain ⟨hunused, -⟩ := h.searches _ (List.mem_of_getElem? hget)
      cases eq_of_mem_drop_concat hmem
      refine ⟨_, shows_momentaryConnection refusal, ?_⟩
      rw [findProgram_eq, hunused, hfetch]
      rfl
  | fetches hget hfetch =>
      obtain ⟨hunused, -⟩ := h.searches _ (List.mem_of_getElem? hget)
      obtain ⟨rfl, rfl⟩ := mem_answers_goOn hmem
      refine ⟨_, shows_liveConnection _, ?_⟩
      exact (findProgram_of_rejected hunused (fetchExecutable_of_ok hfetch) (List.forall_mem_nil _)).symm
  | fails hget hconfig =>
      obtain ⟨⟨hunused, -⟩, done, hfetch, hdone⟩ := h.searches _ (List.mem_of_getElem? hget)
      cases eq_of_mem_drop_concat hmem
      obtain ⟨connection, hshows, hfails⟩ := findProgram_of_failed hunused hfetch hdone hconfig
      exact ⟨connection, hshows, hfails.symm⟩
  | returns hget hconfig =>
      obtain ⟨⟨hunused, -⟩, done, hfetch, hdone⟩ := h.searches _ (List.mem_of_getElem? hget)
      cases eq_of_mem_drop_concat hmem
      refine ⟨_, shows_liveConnection _, ?_⟩
      rw [findProgram_of_rejected hunused hfetch hdone, firstUninitialized_cons,
        configAccount_of_ok hconfig]
  | rejects hget hconfig =>
      obtain ⟨⟨hunused, -⟩, done, hfetch, hdone⟩ := h.searches _ (List.mem_of_getElem? hget)
      obtain ⟨rfl, rfl⟩ := mem_answers_goOn hmem
      refine ⟨_, shows_liveConnection _, ?_⟩
      rw [findProgram_of_rejected hunused hfetch hdone, firstUninitialized_cons,
        configAccount_of_ok hconfig]

/-- **At once.** However calls overlap, and whatever is initialized, marked or refused while they run, each of
them answers what a call would answer that did all its lookups at the moment its last lookup is answered. -/
theorem allocations_at_once (web3 : Web3) (strictQuery : Bool) (start : AllocationWorld)
    (hstart : start.searches = []) (events : List AllocationEvent)
    (hkeeps : ∀ event ∈ events, KeepsPrograms web3 start.programs event) :
    EveryStep (allocate web3 strictQuery) (AnswersAtOnce web3 strictQuery) start events := by
  have hinv : AllocationInv web3 (start.programs.map (·.programId)) start := by
    refine ⟨rfl, fun search hmem => ?_⟩
    rw [hstart] at hmem
    cases hmem
  exact everyStep_of_invariant_of_forall hinv (fun _ _ _ _ => answersAtOnce_step)
    (fun _ _ _ => allocationInv_step) hkeeps

-- Two calls overlap, and the first program of the list is initialized while both are under way.

/-- The configuration accounts of the two programs. -/
def configWeb3 : Web3 where
  publicKey address := .ok ⟨address⟩
  toBuffer _ := []
  findProgramAddressSync seeds programId :=
    if seeds = [utf8 inglConfigSeed] ∧ programId = ⟨firstProgram.programId⟩ then
      .ok ⟨"FRM7FwMzbvAef4iHZzjfKqheRhicDb3ekhwdE9wGQ4Ev"⟩
    else if seeds = [utf8 inglConfigSeed] ∧ programId = ⟨secondProgram.programId⟩ then
      .ok ⟨"6dcW7oqQ1FtCH2iCnks72Umf7xxUnP4oyaEFpevHfyWL"⟩
    else .error "Unable to find a viable program address nonce"

def deployed : AccountInfo := ⟨⟨"BPFLoaderUpgradeab1e11111111111111111111111"⟩, true, []⟩

def deployedWorld : AllocationWorld where
  chain key :=
    if key = ⟨firstProgram.programId⟩ ∨ key = ⟨secondProgram.programId⟩ then some deployed else none
  programs := [firstProgram, secondProgram]
  searches := []
  answers := []

def firstConfig : AccountInfo := ⟨⟨firstProgram.programId⟩, false, []⟩

def overlappingCalls : List AllocationEvent :=
  [.find .permissionlessValidator none, .find .permissionlessValidator none, .fetched 0 none,
    .fetched 1 none, .create ⟨"FRM7FwMzbvAef4iHZzjfKqheRhicDb3ekhwdE9wGQ4Ev"⟩ firstConfig,
    .checked 0 none, .checked 1 none, .checked 0 none, .checked 0 (some "fetch failed")]

theorem overlapping_keepsPrograms :
    ∀ event ∈ overlappingCalls, KeepsPrograms configWeb3 deployedWorld.programs event := by
  intro event hmem key info hevent program hprogram hkey
  subst hevent
  simp only [overlappingCalls, List.mem_cons, reduceCtorEq, AllocationEvent.create.injEq, false_or,
    or_false, List.not_mem_nil] at hmem
  obtain ⟨rfl, -⟩ := hmem
  simp only [deployedWorld, List.mem_cons, List.not_mem_nil, or_false] at hprogram
  rcases hprogram with rfl | rfl
  · revert hkey
    decide
  · revert hkey
    decide

theorem overlapping_at_once :
    EveryStep (allocate configWeb3 true) (AnswersAtOnce configWeb3 true) deployedWorld overlappingCalls :=
  allocations_at_once configWeb3 true deployedWorld rfl overlappingCalls overlapping_keepsPrograms

/-! ### A program that is initialized -/

/-- A program that is handed out was not initialized when the last lookup was answered. -/
theorem configAccount_of_answered {world world' : AllocationWorld} {event : AllocationEvent}
    (hstep : allocate web3 strictQuery world event = some world') {allocation : Allocation}
    (hmem : allocation ∈ world'.answers.drop world.answers.length) {program : Program}
    (hresult : allocation.result = .ok program) :
    configAccount web3 (liveConnection world.chain) allocation.usage program = .ok none := by
  cases moves_of_allocate hstep with
  | asks | marks | appears => exact absurd hmem not_mem_drop_length
  | denied | throws | fails =>
      cases eq_of_mem_drop_concat hmem
      cases hresult
  | fetches | rejects =>
      obtain ⟨-, rfl⟩ := mem_answers_goOn hmem
      cases hresult
  | returns _ hconfig =>
      cases eq_of_mem_drop_concat hmem
      cases hresult
      exact configAccount_of_ok hconfig

theorem prefix_answers_goOn (world : AllocationWorld) (i : Nat) (usage : ProgramUsage)
    (programs remaining : List Program) :
    world.answers <+: (world.goOn web3 i usage programs remaining).answers := by
  cases remaining with
  | nil => exact List.prefix_append _ _
  | cons program remaining => exact List.prefix_rfl

/-- Answers are only added. -/
theorem prefix_answers {world world' : AllocationWorld} {event : AllocationEvent}
    (hstep : allocate web3 strictQuery world event = some world') : world.answers <+: world'.answers := by
  cases moves_of_allocate hstep with
  | asks | marks | appears => exact List.prefix_rfl
  | denied | throws | fails | returns => exact List.prefix_append _ _
  | fetches | rejects => exact prefix_answers_goOn _ _ _ _ _

theorem chain_goOn (world : AllocationWorld) (i : Nat) (usage : ProgramUsage)
    (programs remaining : List Program) :
    (world.goOn web3 i usage programs remaining).chain = world.chain := by
  cases remaining <;> rfl

/-- Accounts only appear. -/
theorem chain_step {world world' : AllocationWorld} {event : AllocationEvent}
    (hstep : allocate web3 strictQuery world event = some world') {key : PublicKey} {info : AccountInfo}
    (hsome : world.chain key = some info) : world'.chain key = some info := by
  cases moves_of_allocate hstep with
  | denied | asks | marks | throws | fails | returns => exact hsome
  | fetches | rejects => exact (congrFun (chain_goOn _ _ _ _ _) key).trans hsome
  | appears hnone => exact chain_of_appears hnone hsome

theorem prefix_answers_run {world world' : AllocationWorld} {events : List AllocationEvent}
    (hrun : run (allocate web3 strictQuery) world events = some world') :
    world.answers <+: world'.answers := by
  induction events generalizing world with
  | nil =>
      cases hrun
      exact List.prefix_rfl
  | cons event events ih =>
      obtain ⟨next, hstep, hrun⟩ := (run_cons_eq_some _).mp hrun
      exact (prefix_answers hstep).trans (ih hrun)

/-- **Never again.** Once a program is initialized no call hands it out whose last lookup is answered later,
not even one that was under way. -/
theorem never_allocated_again {world world' : AllocationWorld} {events : List AllocationEvent}
    (hrun : run (allocate web3 strictQuery) world events = some world') {usage : ProgramUsage}
    {program : Program} {key : PublicKey} {info : AccountInfo}
    (hkey : programConfigKey web3 usage program = .ok key) (hchain : world.chain key = some info)
    {allocation : Allocation} (hmem : allocation ∈ world'.answers.drop world.answers.length)
    (husage : allocation.usage = usage) : allocation.result ≠ .ok program := by
  induction events generalizing world with
  | nil =>
      cases hrun
      rw [List.drop_length] at hmem
      cases hmem
  | cons event events ih =>
      obtain ⟨next, hstep, hrun⟩ := (run_cons_eq_some _).mp hrun
      obtain ⟨added, hadded⟩ := prefix_answers hstep
      obtain ⟨later, hlater⟩ := prefix_answers_run hrun
      have hsplit : world'.answers.drop world.answers.length = added ++ later := by
        rw [← hlater, ← hadded, List.append_assoc, List.drop_left]
      rw [hsplit] at hmem
      rcases List.mem_append.mp hmem with hmem | hmem
      · -- the step itself answers: it has seen the account
        intro hresult
        have hdrop : next.answers.drop world.answers.length = added := by
          rw [← hadded, List.drop_left]
        have hfree := configAccount_of_answered hstep (hdrop ▸ hmem) hresult
        rw [configAccount, husage, hkey] at hfree
        have hnone : world.chain key = none := Except.ok.inj hfree
        rw [hnone] at hchain
        cases hchain
      · have hdrop : world'.answers.drop next.answers.length = later := by
          rw [← hlater, List.drop_left]
        exact ih hrun (chain_step hstep hchain) (hdrop ▸ hmem)

/-- The first program is initialized, a call that has fetched it is under way. -/
def initializedWorld : AllocationWorld where
  chain key :=
    if key = ⟨"FRM7FwMzbvAef4iHZzjfKqheRhicDb3ekhwdE9wGQ4Ev"⟩ then some firstConfig
    else deployedWorld.chain key
  programs := [firstProgram, secondProgram]
  searches := [.checking .permissionlessValidator [firstProgram, secondProgram]
    [firstProgram, secondProgram]]
  answers := []

def secondAllocation : Allocation :=
  ⟨.permissionlessValidator, .ok [firstProgram, secondProgram], .ok secondProgram⟩

def allocatedWorld : AllocationWorld :=
  { initializedWorld with searches := [], answers := [secondAllocation] }

theorem initialized_run :
    run (allocate configWeb3 true) initializedWorld [.checked 0 none, .checked 0 none] =
      some allocatedWorld := by
  rfl

theorem first_never_allocated_again : secondAllocation.result ≠ .ok firstProgram := by
  have hconfig : programConfigKey configWeb3 .permissionlessValidator firstProgram =
      .ok ⟨"FRM7FwMzbvAef4iHZzjfKqheRhicDb3ekhwdE9wGQ4Ev"⟩ := by decide
  have hchain : initializedWorld.chain ⟨"FRM7FwMzbvAef4iHZzjfKqheRhicDb3ekhwdE9wGQ4Ev"⟩ =
      some firstConfig := rfl
  exact never_allocated_again initialized_run hconfig hchain
    (List.mem_singleton_self secondAllocation) rfl

end ProgramService

end InglMonitor
